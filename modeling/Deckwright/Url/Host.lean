import Deckwright.Text.Blank
import Deckwright.Text.Lines
import Deckwright.Text.Lowercase
import Deckwright.Url.Encoding
import Deckwright.Url.Punycode

/-!
# Hosts

The host of an address: a domain in lower case and in ASCII, an address of four bytes, which
may be written in several ways, or an address of eight groups between brackets.
-/

namespace Deckwright.Url

/-- Why a text is no address. -/
inductive UrlError where
  | noScheme
  | emptyHost
  | invalidDomain
  | invalidCharacter
  | invalidIpv4
  | invalidIpv6
  | invalidPort
  deriving DecidableEq, Inhabited

/-- The text of an error. -/
def UrlError.message : UrlError → String
  | noScheme => "relative URL without a base"
  | emptyHost => "empty host"
  | invalidDomain => "invalid international domain name"
  | invalidCharacter => "invalid domain character"
  | invalidIpv4 => "invalid IPv4 address"
  | invalidIpv6 => "invalid IPv6 address"
  | invalidPort => "invalid port number"

/-! ## Addresses of four bytes -/

/-- A number of such an address: hexadecimal behind `0x`, octal behind `0`, else decimal. -/
def ipv4Number? (part : List Char) : Option Nat :=
  match part with
  | [] => none
  | '0' :: 'x' :: digits => Text.number? 16 digits
  | '0' :: 'X' :: digits => Text.number? 16 digits
  | '0' :: d :: digits => Text.number? 8 (d :: digits)
  | digits => Text.number? 10 digits

/-- The parts of a domain, without an empty one at its end. -/
def domainParts (domain : List Char) : List (List Char) :=
  let parts := Text.split '.' domain
  if parts.getLast? = some [] then parts.dropLast else parts

/-- Whether the last part of a domain is a number, so that it must be an address. -/
def endsInNumber (domain : List Char) : Bool :=
  match (domainParts domain).getLast? with
  | some last => !last.isEmpty && (last.all Text.isDigit || (ipv4Number? last).isSome)
  | none => false

/-- The value of an address whose last number stands for all bytes that the others leave. -/
def ipv4Value? (numbers : List Nat) : Option Nat :=
  match numbers.reverse with
  | [] => none
  | last :: others =>
    if numbers.length ≤ 4 && others.all (· < 256) && last < Nat.pow 256 (5 - numbers.length) then
      some
        (others.reverse.foldl (fun n byte => n * 256 + byte) 0 * Nat.pow 256 (5 - numbers.length) +
          last)
    else none

/-- An address of four bytes in its usual form. -/
def ipv4Text (value : Nat) : List Char :=
  List.intercalate ['.']
    ([24, 16, 8, 0].map fun shift => Nat.toDigits 10 (value / Nat.pow 2 shift % 256))

/-! ## Addresses of eight groups -/

/-- A group of one to four hexadecimal digits. -/
def ipv6Group? (part : List Char) : Option Nat :=
  if part.isEmpty || 4 < part.length then none else Text.number? 16 part

/-- A decimal byte without leading zeros. -/
def decimalByte? (part : List Char) : Option Nat :=
  match part with
  | '0' :: _ :: _ => none
  | [] => none
  | digits => (Text.number? 10 digits).filter (· < 256)

/-- The last part of an address: a group, or four bytes that make two groups. -/
def ipv6Last? (part : List Char) : Option (List Nat) :=
  if part.contains '.' then
    match (Text.split '.' part).mapM decimalByte? with
    | some [a, b, c, d] => some [a * 256 + b, c * 256 + d]
    | _ => none
  else (ipv6Group? part).map fun group => [group]

/-- The groups of a text with colons between them; only the last part may be bytes, if `final`. -/
def ipv6Groups? (final : Bool) (text : List Char) : Option (List Nat) :=
  if text.isEmpty then some []
  else
    let parts := Text.split ':' text
    match parts.dropLast.mapM ipv6Group?, parts.getLast? with
    | some groups, some last =>
      (if final then ipv6Last? last else (ipv6Group? last).map fun group => [group]).map
        (groups ++ ·)
    | _, _ => none

/-- The text before the first double colon, and the text behind it. -/
def cutDoubleColon? : List Char → Option (List Char × List Char)
  | [] => none
  | ':' :: ':' :: rest => some ([], rest)
  | c :: rest => (cutDoubleColon? rest).map fun (before, after) => (c :: before, after)

/-- The eight groups of an address; a double colon stands for as many zeros as are missing. -/
def ipv6? (text : List Char) : Option (List Nat) :=
  match cutDoubleColon? text with
  | none => (ipv6Groups? true text).filter fun groups => !text.isEmpty && groups.length = 8
  | some (before, after) =>
    match ipv6Groups? false before, ipv6Groups? true after with
    | some front, some back =>
      if front.length + back.length < 8 then
        some (front ++ List.replicate (8 - front.length - back.length) 0 ++ back)
      else none
    | _, _ => none

/-- The lengths of the runs of zeros that start at each group. -/
def zeroRuns : List Nat → List Nat
  | [] => []
  | group :: rest =>
    let runs := zeroRuns rest
    (if group = 0 then runs.headD 0 + 1 else 0) :: runs

/-- Groups with colons between them. -/
def groupsText (groups : List Nat) : List Char :=
  List.intercalate [':'] (groups.map (Nat.toDigits 16))

/-- An address of eight groups; the first of its longest runs of zeros, of two at least, is left out. -/
def ipv6Text (groups : List Nat) : List Char :=
  let runs := zeroRuns groups
  let longest := runs.foldl max 0
  if longest < 2 then groupsText groups
  else
    let start := runs.idxOf longest
    groupsText (groups.take start) ++ [':', ':'] ++ groupsText (groups.drop (start + longest))

/-! ## Domains -/

/--
The characters that a character of a domain stands for. This is an approximation of the mapping of
international domain names (UTS 46): lower case, the wide forms of ASCII, the other full stops, and
four characters that are dropped. The mappings of all other characters are left out, and so are
normal form C and the checks of combining marks.
-/
def domainChar (c : Char) : List Char :=
  let n := c.toNat
  if n = 0xAD || n = 0x200B || n = 0x2060 || n = 0xFEFF then []
  else if n = 0x3002 || n = 0xFF0E || n = 0xFF61 then ['.']
  else if 0xFF01 ≤ n && n ≤ 0xFF5E then Text.lowercase (Char.ofNat (n - 0xFEE0))
  else Text.lowercase c

/-- Whether a character is for private use. -/
def isPrivate (c : Char) : Bool :=
  (0xE000 ≤ c.toNat && c.toNat ≤ 0xF8FF) || 0xF0000 ≤ c.toNat

/-- Whether a character cannot stand in a domain. -/
def forbiddenInDomain (c : Char) : Bool :=
  c.toNat ≤ 0x20 || (0x7F ≤ c.toNat && c.toNat ≤ 0x9F) || c.toNat = 0xFFFD || Text.isSpace c ||
    isPrivate c ||
    ['%', '#', '/', ':', '<', '>', '?', '@', '[', '\\', ']', '^', '|'].contains c

/-- What marks a label as punycode. -/
def punycodeMark : List Char := ['x', 'n', '-', '-']

/-- Whether characters can be those of a label whose punycode is written: they are not all ASCII,
and each stands for itself. -/
def isUnicodeLabel (cs : List Char) : Bool :=
  (cs.any fun c => 0x80 ≤ c.toNat) &&
    cs.all fun c => domainChar c == [c] && !forbiddenInDomain c

/-- A label in ASCII. -/
def label? (label : List Char) : Option (List Char) :=
  match Text.after? punycodeMark label with
  | some code => if (Punycode.decode? code).any isUnicodeLabel then some label else none
  | none =>
    some (if label.all fun c => c.toNat < 0x80 then label
      else punycodeMark ++ Punycode.encode label)

/-- A domain in lower case and in ASCII, as far as `domainChar` goes. -/
def domain? (bytes : List Nat) : Option (List Char) := do
  let text ← String.fromUTF8? ⟨(bytes.map UInt8.ofNat).toArray⟩
  let cs := text.toList.flatMap domainChar
  if cs.any forbiddenInDomain then none
  else
    let labels ← (Text.split '.' cs).mapM label?
    return List.intercalate ['.'] labels

/-! ## Hosts -/

/-- An address of eight groups between brackets, given the text behind the opening one. -/
def bracketed (text : List Char) : Except UrlError (List Char) :=
  match text.getLast?, ipv6? text.dropLast with
  | some ']', some groups => .ok ('[' :: ipv6Text groups ++ [']'])
  | _, _ => .error .invalidIpv6

/-- The host of an address with a special scheme. -/
def domainHost (text : List Char) : Except UrlError (List Char) :=
  match text with
  | '[' :: rest => bracketed rest
  | _ =>
    match domain? (percentDecode text) with
    | none => .error .invalidDomain
    | some [] => .error .emptyHost
    | some domain =>
      if endsInNumber domain then
        match ((domainParts domain).mapM ipv4Number?).bind ipv4Value? with
        | some value => .ok (ipv4Text value)
        | none => .error .invalidIpv4
      else .ok domain

/-- The host of an address with any other scheme. -/
def plainHost (text : List Char) : Except UrlError (List Char) :=
  match text with
  | '[' :: rest => bracketed rest
  | _ =>
    let forbidden :=
      [Char.ofNat 0, ' ', '#', '/', ':', '<', '>', '?', '@', '[', '\\', ']', '^', '|']
    if text.any forbidden.contains then .error .invalidCharacter else .ok (percentEncode [] text)

end Deckwright.Url
