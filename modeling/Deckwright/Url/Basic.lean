import Deckwright.Text.Blank
import Deckwright.Url.Host

/-!
# Addresses

The address of a resource: scheme, authority, path, query and fragment. `Url.read` brings an
address into its normal form: the scheme and the host in lower case, the port left out where
it is the usual one, `.` and `..` taken out of the path, and characters encoded that may not
stand where they are. Further segments can be put behind a path, each as one segment whatever
characters it has.

White space and control characters around an address do not count, and neither do tabs and
ends of lines inside it.
-/

namespace Deckwright

/-- The path of an address. -/
inductive UrlPath where
  /-- A text that is no path of segments, so that nothing can be put behind it. -/
  | text (text : List Char)
  | segments (list : List (List Char))
  deriving DecidableEq, Inhabited

/-- An address in its normal form. -/
structure Url where
  scheme : List Char
  user : List Char := []
  password : List Char := []
  /-- The host, empty or not; none if there is no authority. -/
  host : Option (List Char) := none
  port : Option Nat := none
  path : UrlPath := .segments []
  query : Option (List Char) := none
  fragment : Option (List Char) := none
  deriving DecidableEq, Inhabited

namespace Url

/-! ## Schemes -/

/-- What follows from the scheme of an address. -/
inductive SchemeKind where
  /-- A scheme whose addresses have a host, with the usual port. -/
  | special (port : Nat)
  | file
  | plain
  deriving DecidableEq, Inhabited

/-- The kind of a scheme. -/
def kindOf (scheme : List Char) : SchemeKind :=
  if scheme = "http".toList || scheme = "ws".toList then .special 80
  else if scheme = "https".toList || scheme = "wss".toList then .special 443
  else if scheme = "ftp".toList then .special 21
  else if scheme = "file".toList then .file
  else .plain

/-- Whether backslashes count as slashes and paths are never empty. -/
def SchemeKind.isSpecial (kind : SchemeKind) : Bool :=
  kind != .plain

/-- Whether a character separates the segments of a path. -/
def SchemeKind.isSlash (kind : SchemeKind) (c : Char) : Bool :=
  c == '/' || (kind.isSpecial && c == '\\')

/-- The scheme of an address in lower case, and what follows its colon. -/
def scheme? (cs : List Char) : Option (List Char × List Char) :=
  let isFirst (c : Char) := ('a' ≤ c && c ≤ 'z') || ('A' ≤ c && c ≤ 'Z')
  let isOther (c : Char) := isFirst c || Text.isDigit c || c == '+' || c == '-' || c == '.'
  match Text.cut? ':' cs with
  | some (c :: scheme, rest) =>
    if isFirst c && scheme.all isOther then some ((c :: scheme).map Char.toLower, rest) else none
  | _ => none

/-! ## Paths -/

/-- Whether a segment stands for the path itself. -/
def isDot (segment : List Char) : Bool :=
  segment.map Char.toLower ∈ [".".toList, "%2e".toList]

/-- Whether a segment stands for the path without its last segment. -/
def isDoubleDot (segment : List Char) : Bool :=
  segment.map Char.toLower ∈
    ["..".toList, ".%2e".toList, "%2e.".toList, "%2e%2e".toList]

/-- The letter of a segment that names a drive. -/
def drive? : List Char → Option Char
  | [c, mark] => if c.isAlpha && (mark == ':' || mark == '|') then some c else none
  | _ => none

/-- A path without its last segment; the drive at the front of a file's path stays. -/
def shorten (kind : SchemeKind) (path : List (List Char)) : List (List Char) :=
  match kind, path with
  | .file, [segment] => if (drive? segment).isSome then path else []
  | _, path => path.dropLast

/-- A segment as it stands behind a path; at the front of a file's path a drive has its colon. -/
def settled (kind : SchemeKind) (path : List (List Char)) (segment : List Char) : List Char :=
  match kind, path, drive? segment with
  | .file, [], some c => [c, ':']
  | _, _, _ => segment

/-- A path with encoded segments put behind it, of which the dotted ones are carried out. -/
def follow (kind : SchemeKind) (path : List (List Char)) : List (List Char) → List (List Char)
  | [] => path
  | [last] =>
    if isDoubleDot last then shorten kind path ++ [[]]
    else if isDot last then path ++ [[]]
    else path ++ [settled kind path last]
  | segment :: rest =>
    if isDoubleDot segment then follow kind (shorten kind path) rest
    else if isDot segment then follow kind path rest
    else follow kind (path ++ [settled kind path segment]) rest

/-- The parts of a text between the characters that satisfy `stop`. -/
def splitBy (stop : Char → Bool) : List Char → List (List Char)
  | [] => [[]]
  | c :: rest =>
    if stop c then [] :: splitBy stop rest
    else
      match splitBy stop rest with
      | [] => [[c]]
      | part :: others => (c :: part) :: others

/-- The segments of a path whose text is given without its first slash. -/
def segmentsOf (kind : SchemeKind) (text : List Char) : List (List Char) :=
  follow kind [] ((splitBy kind.isSlash text).map (percentEncode pathReserved))

/-- The path behind an authority. -/
def pathOf (kind : SchemeKind) (text : List Char) : List (List Char) :=
  match text with
  | [] => if kind.isSpecial then [[]] else []
  | c :: rest => segmentsOf kind (if kind.isSlash c then rest else text)

/-- The path of a file, which starts with no empty segment unless that is all. -/
def filePath (text : List Char) : List (List Char) :=
  match (pathOf .file text).dropWhile List.isEmpty with
  | [] => [[]]
  | path => path

/-! ## Authorities -/

/-- A text cut at its last `@`. -/
def cutUser? (authority : List Char) : Option (List Char × List Char) :=
  (Text.cut? '@' authority.reverse).map fun (rest, user) => (user.reverse, rest.reverse)

/-- The text of a host, up to a colon outside brackets, and the text of the port behind it. -/
def cutPort (inside : Bool) : List Char → List Char × Option (List Char)
  | [] => ([], none)
  | c :: rest =>
    if c = ':' && !inside then ([], some rest)
    else
      let (host, port) := cutPort (if c = '[' then true else if c = ']' then false else inside) rest
      (c :: host, port)

/-- The number of a port, none if it is absent or the usual one. -/
def port? (usual : Option Nat) (text : List Char) : Except UrlError (Option Nat) :=
  if !text.all Text.isDigit || 65535 < Text.decimal text then .error .invalidPort
  else if text.isEmpty || usual = some (Text.decimal text) then .ok none
  else .ok (some (Text.decimal text))

/-- An address with an authority; `more` tells whether anything follows the given text. -/
def readAuthority (scheme : List Char) (kind : SchemeKind) (more : Bool) (text : List Char) :
    Except UrlError Url := do
  let authority := text.takeWhile fun c => !kind.isSlash c
  let path := pathOf kind (text.dropWhile fun c => !kind.isSlash c)
  let (account, rest) := (cutUser? authority).getD ([], authority)
  let (user, password) := (Text.cut? ':' account).getD (account, [])
  let (hostText, portText) := cutPort false rest
  let isBare := account.isEmpty && authority.length != rest.length
  if isBare && rest.isEmpty && (more || authority.length != text.length) then throw .emptyHost
  let host ←
    if kind.isSpecial then if hostText.isEmpty then throw .emptyHost else domainHost hostText
    else plainHost hostText
  if host.isEmpty && (portText.isSome || !user.isEmpty || !password.isEmpty) then throw .emptyHost
  let usual := match kind with
    | .special port => some port
    | _ => none
  let port ← port? usual (portText.getD [])
  return {
    scheme, port, host, path := .segments path
    user := percentEncode userReserved user
    password := percentEncode userReserved password }

/-- The address of a file. -/
def readFileUrl (scheme text : List Char) : Except UrlError Url := do
  let isSlash := SchemeKind.file.isSlash
  match text with
  | a :: b :: rest =>
    if isSlash a && isSlash b then
      let name := rest.takeWhile fun c => !isSlash c
      if (drive? name).isSome then return { scheme, host := some [], path := .segments (filePath rest) }
      let host ← if name.isEmpty then pure [] else domainHost name
      let path := filePath (rest.dropWhile fun c => !isSlash c)
      let isLocal := host = "localhost".toList || path.head?.any fun first => (drive? first).isSome
      return { scheme, host := some (if isLocal then [] else host), path := .segments path }
    else return { scheme, host := some [], path := .segments (filePath text) }
  | _ => return { scheme, host := some [], path := .segments (filePath text) }

/-! ## Reading -/

/-- The address that a text without its query and fragment tells. -/
def readBody (scheme : List Char) (more : Bool) (text : List Char) : Except UrlError Url :=
  let kind := kindOf scheme
  match kind with
  | .special _ => readAuthority scheme kind more (text.dropWhile kind.isSlash)
  | .file => readFileUrl scheme text
  | .plain =>
    match text with
    | '/' :: '/' :: rest => readAuthority scheme kind more rest
    | '/' :: rest => .ok { scheme, path := .segments (segmentsOf kind rest) }
    | _ => .ok { scheme, path := .text (percentEncode [] text) }

/-- A text and the part behind the first of the given characters. -/
def cutOff (stop : Char) (text : List Char) : List Char × Option (List Char) :=
  match Text.cut? stop text with
  | some (before, after) => (before, some after)
  | none => (text, none)

/-- The address that a text tells. -/
def read (text : String) : Except UrlError Url :=
  let isOuter (c : Char) := c.toNat ≤ 0x20
  let cs := (Text.dropEndWhile isOuter (text.toList.dropWhile isOuter)).filter fun c =>
    !(c == '\t' || c == '\n' || c == '\r')
  match scheme? cs with
  | none => .error .noScheme
  | some (scheme, rest) =>
    let (rest, fragment) := cutOff '#' rest
    let (body, query) := cutOff '?' rest
    (readBody scheme (query.isSome || fragment.isSome) body).map fun url =>
      { url with
        query := query.map (percentEncode (queryReserved (kindOf scheme).isSpecial))
        fragment := fragment.map (percentEncode fragmentReserved) }

/-! ## Writing -/

/-- The path as text. -/
def pathText (url : Url) : List Char :=
  match url.path with
  | .text text => text
  | .segments list =>
    -- Without an authority a path must not start with two slashes.
    (if url.host.isNone && 2 ≤ list.length && list.head? = some [] then ['/', '.'] else []) ++
      list.flatMap ('/' :: ·)

/-- The authority as text, with its slashes. -/
def authorityText (url : Url) : List Char :=
  match url.host with
  | none => []
  | some host =>
    let account := url.user ++ if url.password.isEmpty then [] else ':' :: url.password
    ['/', '/'] ++ account ++ (if account.isEmpty then [] else ['@']) ++ host ++
      match url.port with
      | some port => ':' :: Nat.toDigits 10 port
      | none => []

/-- What a server is asked for: the path and the query. -/
def target (url : Url) : List Char :=
  url.pathText ++ (url.query.map ('?' :: ·)).getD []

/-- The address as text. -/
def toString (url : Url) : String :=
  String.ofList (url.scheme ++ ':' :: url.authorityText ++ url.target ++
    (url.fragment.map ('#' :: ·)).getD [])

/-! ## Segments -/

/-- The address without an empty segment at the end of its path, unless that is all of the path. -/
def withoutFinalSlash (url : Url) : Url :=
  match url.path with
  | .segments list =>
    if 2 ≤ list.length && list.getLast? = some [] then { url with path := .segments list.dropLast }
    else url
  | .text _ => url

/--
The address with one more segment behind its path, in place of the empty path; `.` and `..`
add nothing.
-/
def push (segment : String) (url : Url) : Url :=
  match url.path with
  | .text _ => url
  | .segments list =>
    if segment = "." || segment = ".." then url
    else
      let kind := kindOf url.scheme
      let cs := segment.toList.filter fun c => !(c == '\t' || c == '\n' || c == '\r')
      let encoded := percentEncode (segmentReserved kind.isSpecial) cs
      { url with path := .segments (follow kind (if list = [[]] then [] else list) [encoded]) }

end Url

end Deckwright
