import Deckwright.Json.Basic

/-!
# Reading records from JSON

Decoders for the parts of a record. A record is given as an object, whose unknown
fields are ignored, or as an array that lists its fields in their declared order; a
field may be required, optional (absent or `null`) or have a default for when it is
absent. An alternative without content is given by its name, or as an object of one
field of that name with an empty value.
-/

namespace Deckwright.Json

/--
The fields of a record with the given field names: those of an object, or the items of an
array under the names in order. An array lists at least the first `least` fields.
-/
def record? (names : List String) (least : Nat) : Json → Option Fields
  | .object fields => some fields
  | .array items =>
    if least ≤ items.length && items.length ≤ names.length then some (names.zip items) else none
  | _ => none

/-- A string. -/
def string? : Json → Option String
  | .string s => some s
  | _ => none

/-- A truth value. -/
def bool? : Json → Option Bool
  | .bool b => some b
  | _ => none

/-- An integer of at least `low` and at most `high`. -/
def intBetween? (low high : Int) : Json → Option Int
  | .int i => if low ≤ i && i ≤ high then some i else none
  | _ => none

/-- A signed integer of 8 bits. -/
def int8? (value : Json) : Option Int8 :=
  (intBetween? (-128) 127 value).map Int8.ofInt

/-- An unsigned integer of 8 bits. -/
def uint8? (value : Json) : Option UInt8 :=
  (intBetween? 0 0xFF value).map fun i => UInt8.ofNat i.toNat

/-- An unsigned integer of 32 bits. -/
def uint32? (value : Json) : Option UInt32 :=
  (intBetween? 0 0xFFFFFFFF value).map fun i => UInt32.ofNat i.toNat

/-- An unsigned integer of 64 bits. -/
def uint64? (value : Json) : Option UInt64 :=
  (intBetween? 0 0xFFFFFFFFFFFFFFFF value).map fun i => UInt64.ofNat i.toNat

/-- A number of any kind, rounded to the 32-bit format. -/
def single? : Json → Option Floating
  | .int i => some (Floating.ofInt .single i)
  | .float x => some (x.convert .single)
  | _ => none

/-- An array of values of one kind. -/
def list? {α : Type} (decode : Json → Option α) : Json → Option (List α)
  | .array items => items.mapM decode
  | _ => none

/-- Any value at all. -/
def any? (value : Json) : Option Json :=
  some value

/-- The name of an alternative without content; `empty` tells which values stand for no content. -/
def choice? (empty : Json → Bool) : Json → Option String
  | .string name => some name
  | .object [(name, value)] => if empty value then some name else none
  | _ => none

/-- No content, written as `null` or as an object without fields. -/
def isEmptyContent : Json → Bool
  | .null => true
  | .object [] => true
  | _ => false

namespace Fields

/-- A field that must be there. -/
def required? {α : Type} (fields : Fields) (name : String) (decode : Json → Option α) : Option α :=
  (fields.get? name).bind decode

/-- A field that may be absent or `null`. -/
def optional? {α : Type} (fields : Fields) (name : String) (decode : Json → Option α) :
    Option (Option α) :=
  match fields.get? name with
  | none => some none
  | some .null => some none
  | some value => (decode value).map some

/-- A field with a value to use when it is absent. -/
def defaulted? {α : Type} (fields : Fields) (name : String) (absent : α)
    (decode : Json → Option α) : Option α :=
  match fields.get? name with
  | none => some absent
  | some value => decode value

end Fields

theorem sizeOf_get? {name : String} {value : Json} {fields : Fields}
    (h : fields.get? name = some value) : sizeOf value < sizeOf fields := by
  induction fields with
  | nil => simp [Ordered.get?] at h
  | cons field rest ih =>
    obtain ⟨n, v⟩ := field
    simp only [Ordered.get?, List.lookup_cons] at h
    split at h
    · simp_all
      omega
    · have := ih h
      simp
      omega

theorem sizeOf_get?_zip {name : String} {value : Json} {names : List String} {items : List Json}
    (h : Ordered.get? name (names.zip items) = some value) : sizeOf value < sizeOf items := by
  induction names generalizing items with
  | nil => simp [Ordered.get?] at h
  | cons n names ih =>
    cases items with
    | nil => simp [Ordered.get?] at h
    | cons item items =>
      simp only [Ordered.get?, List.zip_cons_cons, List.lookup_cons] at h
      split at h
      · simp_all
        omega
      · have := ih h
        simp
        omega

/-- A field of a record is a smaller value than the record. -/
theorem sizeOf_field {names : List String} {least : Nat} {name : String} {record value : Json}
    {fields : Fields} (hRecord : record.record? names least = some fields)
    (h : fields.get? name = some value) : sizeOf value < sizeOf record := by
  cases record with
  | object own =>
    obtain rfl : own = fields := by simpa [record?] using hRecord
    have := sizeOf_get? h
    simp
    omega
  | array items =>
    simp only [record?] at hRecord
    split at hRecord
    · obtain rfl : names.zip items = fields := by simpa using hRecord
      have := sizeOf_get?_zip h
      simp
      omega
    · simp at hRecord
  | _ => simp [record?] at hRecord

end Deckwright.Json
