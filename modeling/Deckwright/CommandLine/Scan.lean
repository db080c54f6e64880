import Deckwright.CommandLine.Help

/-!
# Scanning

How the words behind a page are taken by it, one after the other. A word that begins with two
hyphens is an option with a long name, a value to which is joined by an equals sign. A word that
begins with one hyphen is a cluster of letters, the last of which may have a value behind it. A
value that is not joined to its option is the next word, which must not look like an option.
Other words are operands, and so is everything behind a word of two hyphens; but a word that is
the name of a command leads to the page of that command.

The first word that is not taken, or that asks for a text instead, ends the scan.
-/

namespace Deckwright.CommandLine

/-- Why a command line gives no command. -/
inductive Stop where
  /-- It is not written as the pages demand. -/
  | usage
  /-- It asks for help, which has a text. -/
  | help (text : String)
  /-- It asks for the version. -/
  | version
  deriving DecidableEq, Inhabited

/-- The arguments of a page so far, and the long names of the options that are not to come again. -/
structure Given (α : Type) where
  value : α
  used : List String := []
  hasOperand : Bool := false

/-- What a word leads to. -/
inductive Taken (α : Type) where
  | done (given : Given α)
  /-- The value of an option is still to come. -/
  | awaits (choice : Choice α) (given : Given α)

/-- Whether a word does not look like an option; a lone hyphen does not. -/
def isPlain (word : String) : Bool :=
  word == "-" || word.toList.head? != some '-'

namespace Choice

variable {α : Type} (choice : Choice α)

/-- The arguments with an option noted, unless it was given before and must not come again. -/
def noted (given : Given α) : Except Stop (Given α) :=
  if choice.repeatable then .ok given
  else if given.used.contains choice.long then .error .usage
  else .ok { given with used := choice.long :: given.used }

/-- The arguments with an option and its value taken. -/
def take (text : String) (given : Given α) : Except Stop (Given α) :=
  match choice.action with
  | .value _ set =>
    match set text given.value with
    | some value => choice.noted { given with value }
    | none => .error .usage
  | _ => .error .usage

end Choice

namespace Page

variable {α : Type} (page : Page α)

/-- Takes an option without a value. -/
def takeAlone (choice : Choice α) (given : Given α) : Except Stop (Taken α) :=
  match choice.action with
  | .value _ _ => .ok (.awaits choice given)
  | .flag set => (choice.noted { given with value := set given.value }).map .done
  | .help => .error (.help page.help)
  | .version => .error .version

/-- Takes an option with a long name, in front of which the hyphens are gone. -/
def takeLong (given : Given α) (word : List Char) : Except Stop (Taken α) :=
  match Text.cut? '=' word with
  | some (name, value) =>
    match page.long? (String.ofList name) with
    | some choice => (choice.take (String.ofList value) given).map .done
    | none => .error .usage
  | none =>
    match page.long? (String.ofList word) with
    | some choice => page.takeAlone choice given
    | none => .error .usage

/-- The value behind a letter of a cluster, without the equals sign that may join it. -/
def joinedValue : List Char → String
  | '=' :: value => String.ofList value
  | value => String.ofList value

/-- Takes a cluster of letters. -/
def takeCluster (given : Given α) : List Char → Except Stop (Taken α)
  | [] => .ok (.done given)
  | letter :: rest =>
    match page.short? letter with
    | none => .error .usage
    | some choice =>
      match choice.action, rest with
      | .value _ _, [] => .ok (.awaits choice given)
      | .value _ _, _ => (choice.take (joinedValue rest) given).map .done
      | _, _ =>
        match page.takeAlone choice given with
        | .ok (.done given) => takeCluster given rest
        | other => other

/-- Takes an operand; a page has at most one, and it is not empty. -/
def takeOperand (given : Given α) (word : String) : Except Stop (Given α) :=
  match page.operand with
  | some operand =>
    if given.hasOperand || word.isEmpty then .error .usage
    else
      match operand.set word given.value with
      | some value => .ok { given with value, hasOperand := true }
      | none => .error .usage
  | none => .error .usage

/-- Takes a word. -/
def take (given : Given α) (word : String) : Except Stop (Taken α) :=
  if isPlain word then (page.takeOperand given word).map .done
  else
    match Text.after? ['-', '-'] word.toList with
    | some name => page.takeLong given name
    | none => page.takeCluster given (word.toList.drop 1)

/-- Takes words of which none can be an option. -/
def takeOperands (given : Given α) (words : List String) : Except Stop (Given α) :=
  words.foldlM page.takeOperand given

/--
Scans the words behind a page. The result holds the arguments of the page and, if a word leads
to another page, that word and the words behind it.
-/
def scan (given : Given α) : List String → Except Stop (Given α × Option (String × List String))
  | [] => .ok (given, none)
  | word :: rest =>
    if page.leadsOn word then .ok (given, some (word, rest))
    else if word = "--" then (page.takeOperands given rest).map fun given => (given, none)
    else
      match page.take given word, rest with
      | .error stop, _ => .error stop
      | .ok (.done given), rest => scan given rest
      | .ok (.awaits _ _), [] => .error .usage
      | .ok (.awaits choice given), value :: rest =>
        if isPlain value then
          match choice.take value given with
          | .ok given => scan given rest
          | .error stop => .error stop
        else .error .usage

/-- The arguments of a page that leads to no other. -/
def arguments (start : α) (words : List String) : Except Stop α :=
  (page.scan { value := start } words).map fun (given, _) => given.value

end Page

end Deckwright.CommandLine
