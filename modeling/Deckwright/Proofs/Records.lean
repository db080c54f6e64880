import Deckwright.Deck.Codec
import Deckwright.Proofs.OrderedMaps

/-!
# Fields that are written and read

A record is written without the fields that have nothing to say (`Json.field?`, `nonemptyField`), and
is read field by field. What is under a name in the one (`get?_field?`, `get?_nonemptyField`) is
what a reader of that name is given in the other (`Fields.required?_of_get?` and the like), so that a
record is compared with its reading name by name.
-/

namespace Deckwright

/-! ## What is written -/

theorem Json.get?_field? {α : Type} (key name : String) (encode : α → Json)
    (value : Option α) :
    Ordered.get? key (Json.field? name encode value) =
      if key = name then value.map encode else none := by
  cases value with
  | none => simp [Json.field?, Ordered.get?]
  | some value => rw [Json.field?, Ordered.get?_cons]; simp [Ordered.get?]

theorem Json.names_field? {α : Type} (name : String) (encode : α → Json) (value : Option α) :
    ((Json.field? name encode value).map Prod.fst).Sublist [name] := by
  cases value <;> simp [Json.field?]

theorem get?_nonemptyField {α : Type} (key name : String) (encode : α → Json) (items : List α) :
    Ordered.get? key (nonemptyField name encode items) =
      if key = name ∧ items ≠ [] then some (.array (items.map encode)) else none := by
  cases items with
  | nil => simp [nonemptyField, Ordered.get?_nil]
  | cons item rest => simp [nonemptyField, Ordered.get?_cons, Ordered.get?_nil]

theorem names_nonemptyField {α : Type} (name : String) (encode : α → Json) (items : List α) :
    ((nonemptyField name encode items).map Prod.fst).Sublist [name] := by
  cases items <;> simp [nonemptyField]

/-! ## What is read of it -/

namespace Json

/-- Reading a list that was written, item by item. -/
theorem list?_map_eq_iff {α : Type} {encode : α → Json} {decode : Json → Option α}
    {items : List α} :
    list? decode (.array (items.map encode)) = some items ↔
      ∀ x ∈ items, decode (encode x) = some x := by
  rw [list?]
  induction items with
  | nil => simp
  | cons item rest ih =>
      simp only [List.map_cons, List.mapM_cons, Option.bind_eq_bind, Option.bind_eq_some_iff,
        List.forall_mem_cons, ← ih]
      constructor
      · rintro ⟨x, hx, others, hOthers, hEq⟩
        simp only [Option.pure_def, Option.some.injEq, List.cons.injEq] at hEq
        obtain ⟨rfl, rfl⟩ := hEq
        exact ⟨hx, hOthers⟩
      · rintro ⟨hx, hOthers⟩
        exact ⟨item, hx, rest, hOthers, rfl⟩

theorem int8?_int (i : Int8) : int8? (.int i.toInt) = some i := by
  have hLow := i.le_toInt
  have hHigh := i.toInt_lt
  have hBetween : intBetween? (-128) 127 (.int i.toInt) = some i.toInt :=
    if_pos (by simp; omega)
  rw [int8?, hBetween, Option.map_some, Int8.ofInt_toInt]

theorem uint8?_int (n : UInt8) : uint8? (.int n.toNat) = some n := by
  have hHigh := n.toNat_lt
  have hBetween : intBetween? 0 0xFF (.int n.toNat) = some (n.toNat : Int) :=
    if_pos (by simp; omega)
  rw [uint8?, hBetween, Option.map_some, Int.toNat_natCast, UInt8.ofNat_toNat]

theorem uint64?_int (n : Nat) :
    (uint64? (.int n)).map UInt64.toNat = if n < 2 ^ 64 then some n else none := by
  rw [uint64?, intBetween?]
  by_cases hFits : n < 2 ^ 64
  · rw [if_pos (by simp; omega), if_pos hFits, Option.map_some, Option.map_some,
      Int.toNat_natCast, UInt64.toNat_ofNat_of_lt' hFits]
  · rw [if_neg (by simp; omega), if_neg hFits, Option.map_none, Option.map_none]

theorem filter_not_isNull_eq_self_iff {own : Option Json} :
    (own.filter fun value => !value.isNull) = own ↔ own ≠ some .null := by
  cases own with
  | none => simp
  | some value => cases value <;> simp [isNull]

namespace Fields

variable {α : Type} {fields : Json.Fields} {name : String} {value : Json} {decode : Json → Option α}
  {x : α}

theorem required?_of_get? (h : fields.get? name = some value) (hRead : decode value = some x) :
    fields.required? name decode = some x := by
  rw [required?, h]
  exact hRead

theorem defaulted?_of_get? (h : fields.get? name = some value) (absent : α) :
    fields.defaulted? name absent decode = decode value := by
  rw [defaulted?, h]

/-- An optional text is read as it was written. -/
theorem optional?_string {text : Option String} (h : fields.get? name = text.map .string) :
    fields.optional? name Json.string? = some text := by
  rw [optional?, h]
  cases text <;> rfl

/-- A value of any kind is read as it was written, but for `null`. -/
theorem optional?_any {own : Option Json} (h : fields.get? name = own) :
    fields.optional? name Json.any? = some (own.filter fun value => !value.isNull) := by
  rw [optional?, h]
  cases own with
  | none => rfl
  | some value => cases value <;> rfl

/-- A list that is left out when it is empty. -/
theorem defaulted?_list_eq_iff {encode : α → Json} {items : List α}
    (h : fields.get? name = if items = [] then none else some (.array (items.map encode))) :
    fields.defaulted? name [] (Json.list? decode) = some items ↔
      ∀ x ∈ items, decode (encode x) = some x := by
  rw [← Json.list?_map_eq_iff, defaulted?, h]
  cases items <;> rfl

end Fields

end Json

end Deckwright
