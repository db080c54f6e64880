import Deckwright.Toml.Basic

/-!
# Tables under construction

A TOML document defines its tables piece by piece: by headers, by dotted keys and by
inline tables. While it is read, a table remembers how it came to be, because that
decides how it may still be extended: a table opened by dotted keys only by further
dotted keys, a table that exists only on the way to another one by its own header, once,
and any other table not at all.
-/

namespace Deckwright.Toml

/-- How a table came to be. -/
inductive Origin where
  /-- By a header of its own, as the document itself, or as an inline table. -/
  | explicit
  /-- On the way to a table whose header was read. -/
  | passed
  /-- On the way to a value with a dotted key. -/
  | dotted
  deriving DecidableEq, Inhabited

/-- What a key stands for in a table under construction. -/
inductive Item where
  | value (value : Toml)
  | table (origin : Origin) (entries : List (String × Item))
  /-- The elements of an array whose tables are opened by headers, in order. -/
  | tables (elements : List (List (String × Item)))
  deriving Inhabited

/-- The entries of a table under construction, in document order. -/
abbrev Slots := List (String × Item)

namespace Slots

/-- The entry of the given name. -/
def get? (name : String) (slots : Slots) : Option Item :=
  slots.lookup name

/-- The entries with one put in: in place of the one of its name, or at the end. -/
def put (name : String) (item : Item) : Slots → Slots
  | [] => [(name, item)]
  | (n, i) :: rest => if n = name then (name, item) :: rest else (n, i) :: put name item rest

/-- The entries without the one of the given name. -/
def remove (name : String) (slots : Slots) : Slots :=
  slots.filter fun slot => slot.1 != name

end Slots

/--
Changes the table that a path of keys leads to, from the table given by its origin and its
entries. Tables missing on the way are made with the origin `made`; an array of tables stands
for its last element. With dotted keys the way may not lead through an explicit table.
-/
def descend (made : Origin) (act : Origin → Slots → Option Slots) :
    List String → Origin → Slots → Option Slots
  | [], origin, slots => act origin slots
  | key :: path, _, slots =>
    match slots.get? key with
    | none => do return slots.put key (.table made (← descend made act path made []))
    | some (.value _) => none
    | some (.table origin entries) =>
      if made = .dotted && origin = .explicit then none
      else do return slots.put key (.table origin (← descend made act path origin entries))
    | some (.tables elements) =>
      match elements.getLast? with
      | none => none
      | some last => do
        let changed ← descend made act path .explicit last
        return slots.put key (.tables (elements.dropLast ++ [changed]))

/-- Adds a value under a key that is still free. -/
def define (key : String) (value : Toml) (slots : Slots) : Option Slots :=
  match slots.get? key with
  | none => some (slots.put key (.value value))
  | some _ => none

/-- Adds a value under a dotted key: the keys of the path, then the last one. -/
def assign (path : List String) (key : String) (value : Toml) (slots : Slots) : Option Slots :=
  descend .dotted
    (fun origin found => if path.isEmpty || origin = .dotted then define key value found else none)
    path .explicit slots

mutual

/-- The value that a finished entry stands for. -/
def Item.toToml : Item → Toml
  | .value v => v
  | .table _ entries => .table (Item.entriesOf entries)
  | .tables elements => .array (Item.tablesOf elements)

/-- The entries of a finished table. -/
def Item.entriesOf : List (String × Item) → Entries
  | [] => []
  | (name, item) :: rest => (name, item.toToml) :: Item.entriesOf rest

/-- The elements of a finished array of tables. -/
def Item.tablesOf : List (List (String × Item)) → List Toml
  | [] => []
  | entries :: rest => .table (Item.entriesOf entries) :: Item.tablesOf rest

end

/-! ## Statements -/

/-- A line of a document that defines something. -/
inductive Statement where
  | assign (path : List String) (key : String) (value : Toml)
  /-- Opens the table at a path. -/
  | table (path : List String) (key : String)
  /-- Opens a new element of the array of tables at a path. -/
  | element (path : List String) (key : String)

/-- The table whose lines are being read: where it goes when it is complete, and its entries. -/
inductive Target where
  | document
  | table (path : List String) (key : String)
  | element (path : List String) (key : String)

/-- A document under construction: all tables but the current one, and the current one. -/
structure Draft where
  root : Slots := []
  target : Target := .document
  current : Slots := []

namespace Draft

/-- The tables of the document with the current one put where it goes. -/
def finish (draft : Draft) : Option Slots :=
  match draft.target with
  | .document => some draft.current
  | .table path key =>
    descend .passed (fun _ slots => some (slots.put key (.table .explicit draft.current)))
      path .explicit draft.root
  | .element path key =>
    descend .passed (fun _ slots =>
        match slots.get? key with
        | some (.tables elements) => some (slots.put key (.tables (elements ++ [draft.current])))
        | none => some (slots.put key (.tables [draft.current]))
        | some _ => none)
      path .explicit draft.root

/-- The entry at a path of keys. -/
def find? : List String → String → Slots → Option Item
  | [], key, slots => slots.get? key
  | k :: path, key, slots =>
    match slots.get? k with
    | some (.table _ entries) => find? path key entries
    | some (.tables elements) => (elements.getLast?).bind (find? path key)
    | _ => none

/--
Opens the table at a path. One that was only passed so far keeps its entries and loses its
old place.
-/
def openTable (path : List String) (key : String) (root : Slots) : Option Draft := do
  let entries ←
    match find? path key root with
    | none => some []
    | some (.table .passed entries) => some entries
    | some _ => none
  let root ← descend .passed (fun _ slots => some (slots.remove key)) path .explicit root
  return { root, target := .table path key, current := entries }

/-- Opens a new element of the array of tables at a path. -/
def openElement (path : List String) (key : String) (root : Slots) : Option Draft := do
  let root ← descend .passed (fun _ slots =>
      match slots.get? key with
      | none => some (slots.put key (.tables []))
      | some (.tables _) => some slots
      | some _ => none)
    path .explicit root
  return { root, target := .element path key, current := [] }

/-- The document after one more statement. -/
def add (draft : Draft) : Statement → Option Draft
  | .assign path key value => do return { draft with current := ← assign path key value draft.current }
  | .table path key => do openTable path key (← draft.finish)
  | .element path key => do openElement path key (← draft.finish)

end Draft

/-- The table that a list of statements defines. -/
def ofStatements? (statements : List Statement) : Option Entries := do
  let draft ← statements.foldlM Draft.add {}
  return Item.entriesOf (← draft.finish)

/-- The inline table made of dotted keys and their values. -/
def inlineTable? (pairs : List (List String × String × Toml)) : Option Toml := do
  let slots ← pairs.foldlM (fun slots (path, key, value) => assign path key value slots) []
  return .table (Item.entriesOf slots)

end Deckwright.Toml
