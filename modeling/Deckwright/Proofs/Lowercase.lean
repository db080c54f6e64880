import Mathlib.Data.List.Basic
import Deckwright.Text.Name

/-!
# Lower case is settled

The mapping to lower case is a table of rules for runs of code points, and whether a character is a
letter or a digit is a table of ranges. How the two tables fit together is checked on sets of code
points, each packed into one number, so that the kernel compares whole sets at once.

* `packed_images_within`: what the rules map to is a letter or a digit.
* `packed_images_apart`: no rule maps what a rule maps to.

So a letter or digit becomes one letter or digit that is in lower case already (`lowercase_cases`),
but for the capital I with a dot above. It becomes two characters, and the second of them, a
combining dot, is neither a letter nor a digit. A name is therefore settled by one look-up form if
and only if it has no such letter (`lookupName_lookupName_iff`).
-/

namespace Deckwright

namespace Text

/-! ## Sets of code points -/

/-- The number in which bit `n` is set when `n` is in the list. -/
def packed : List Nat → Nat
  | [] => 0
  | n :: rest => 1 <<< n ||| packed rest

@[simp] theorem testBit_packed (ns : List Nat) (n : Nat) :
    (packed ns).testBit n = decide (n ∈ ns) := by
  induction ns with
  | nil => simp [packed]
  | cons m rest ih => simp [packed, ih, Nat.one_shiftLeft, Nat.testBit_two_pow, eq_comm]

/-- The number in which bit `n` is set when `n` is in one of the ranges. -/
def packedRanges : List (Nat × Nat) → Nat
  | [] => 0
  | (first, last) :: rest =>
    (1 <<< (last + 1 - first) - 1) <<< first ||| packedRanges rest

@[simp] theorem testBit_packedRanges (ranges : List (Nat × Nat)) (n : Nat) :
    (packedRanges ranges).testBit n = inRanges n ranges := by
  induction ranges with
  | nil => simp [packedRanges, inRanges]
  | cons range rest ih =>
      obtain ⟨first, last⟩ := range
      have hRange : (decide (first ≤ n) && decide (n - first < last + 1 - first)) =
          (decide (first ≤ n) && decide (n ≤ last)) := by
        rw [Bool.eq_iff_iff]
        simp
        omega
      simp only [packedRanges, Nat.testBit_or, ih, Nat.one_shiftLeft, Nat.testBit_shiftLeft,
        Nat.testBit_two_pow_sub_one, ge_iff_le, hRange]
      rfl

/-! ## The rules -/

/-- A rule of the mapping: the first and the last code point, the step between them, the offset. -/
abbrev Rule := Nat × Nat × Nat × Int

/-- The code points that a rule maps. -/
def Rule.points : Rule → List Nat
  | (first, last, step, _) => List.range' first ((last - first) / step + 1) step

/-- The code point that a rule maps to. -/
def Rule.image : Rule → Nat → Nat
  | (_, _, _, offset), n => (n + offset).toNat

/-- All the code points that a rule maps. -/
def mappedPoints : List Nat :=
  lowercaseRules.flatMap Rule.points

/-- All the code points that a rule maps to. -/
def mappedImages : List Nat :=
  lowercaseRules.flatMap fun rule => (Rule.points rule).map (Rule.image rule)

theorem packed_images_within :
    packed mappedImages ||| packedRanges alphanumericRanges = packedRanges alphanumericRanges := by
  decide +kernel

/-- The code point of the capital I with a dot above counts as mapped here. -/
theorem packed_images_apart : packed mappedImages &&& packed (0x130 :: mappedPoints) = 0 := by
  decide +kernel

/-- Letters and digits are no surrogates. -/
theorem valid_of_alphanumericRanges :
    ∀ range ∈ alphanumericRanges,
      range.2 < 0xD800 ∨ 0xDFFF < range.1 ∧ range.2 < 0x110000 := by
  decide +kernel

theorem inRanges_of_mem_mappedImages {n : Nat} (h : n ∈ mappedImages) :
    inRanges n alphanumericRanges := by
  have hBit := congrArg (Nat.testBit · n) packed_images_within
  simpa [h] using hBit.symm

theorem not_mem_of_mem_mappedImages {n : Nat} (h : n ∈ mappedImages) :
    n ≠ 0x130 ∧ n ∉ mappedPoints := by
  have hBit := congrArg (Nat.testBit · n) packed_images_apart
  simpa [h] using hBit

/-- A letter or digit is a character by its code point. -/
theorem toNat_ofNat_of_inRanges {n : Nat} (h : inRanges n alphanumericRanges) :
    (Char.ofNat n).toNat = n := by
  obtain ⟨range, hMem, hIn⟩ := List.any_eq_true.1 h
  have hValid : n.isValidChar := by
    have hRange := valid_of_alphanumericRanges range hMem
    simp only [Bool.and_eq_true, decide_eq_true_eq] at hIn
    unfold Nat.isValidChar
    omega
  rw [Char.ofNat, dif_pos hValid]
  rfl

/-! ## Characters -/

/-- The capital I with a dot above, the only character that becomes two in lower case. -/
def dottedI : Char := '\u0130'

/-- The combining dot above, the second of them. -/
def dotAbove : Char := '\u0307'

theorem lowercase_dottedI : lowercase dottedI = ['i', dotAbove] :=
  rfl

theorem isAlphanumeric_dottedI : isAlphanumeric dottedI := by
  decide +kernel

theorem isAlphanumeric_dotAbove : isAlphanumeric dotAbove = false := by
  decide +kernel

theorem mem_points {first last step n : Nat} (offset : Int) (hFirst : first ≤ n) (hLast : n ≤ last)
    (hStep : (n - first) % step = 0) : n ∈ Rule.points (first, last, step, offset) := by
  refine List.mem_range'.2 ⟨(n - first) / step, ?_, ?_⟩
  · exact Nat.lt_succ_of_le (Nat.div_le_div_right (Nat.sub_le_sub_right hLast first))
  · rw [Nat.mul_div_cancel' (Nat.dvd_of_mod_eq_zero hStep), Nat.add_sub_cancel' hFirst]

/-- A character that no rule maps is kept, any other but one goes where a rule maps it. -/
theorem lowercase_cases_mapped {c : Char} (h : c ≠ dottedI) :
    lowercase c = [c] ∨
      c.toNat ∈ mappedPoints ∧ ∃ n ∈ mappedImages, lowercase c = [Char.ofNat n] := by
  have hPoint : c.toNat ≠ 0x130 := fun hSame => h (Char.toNat_inj.1 hSame)
  rw [lowercase, if_neg hPoint]
  split
  · rename_i first last step offset hFound
    have hIn := List.find?_some hFound
    simp only [Bool.and_eq_true, decide_eq_true_eq, beq_iff_eq] at hIn
    obtain ⟨⟨hFirst, hLast⟩, hStep⟩ := hIn
    have hRule := List.mem_of_find?_eq_some hFound
    have hPoint := mem_points offset hFirst hLast hStep
    exact .inr ⟨List.mem_flatMap.2 ⟨_, hRule, hPoint⟩,
      _, List.mem_flatMap.2 ⟨_, hRule, List.mem_map_of_mem hPoint⟩, rfl⟩
  · exact .inl rfl

/-- A letter or digit that is in lower case already. -/
structure IsLower (c : Char) : Prop where
  alphanumeric : isAlphanumeric c
  lowercase : lowercase c = [c]

theorem isLower_ofNat {n : Nat} (h : n ∈ mappedImages) : IsLower (Char.ofNat n) := by
  have hRange := inRanges_of_mem_mappedImages h
  have hNat := toNat_ofNat_of_inRanges hRange
  obtain ⟨hDotted, hPoint⟩ := not_mem_of_mem_mappedImages h
  refine ⟨by rwa [isAlphanumeric, hNat], ?_⟩
  have hOther : Char.ofNat n ≠ dottedI := by
    intro hSame
    rw [hSame] at hNat
    exact hDotted hNat.symm
  rcases lowercase_cases_mapped hOther with hKept | ⟨hMapped, -⟩
  · exact hKept
  · rw [hNat] at hMapped
    exact absurd hMapped hPoint

/-- A letter or digit becomes one that is in lower case already, but for the capital I with a dot
above. -/
theorem lowercase_cases {c : Char} (h : isAlphanumeric c) :
    c = dottedI ∨ ∃ d, IsLower d ∧ lowercase c = [d] := by
  by_cases hDotted : c = dottedI
  · exact .inl hDotted
  · rcases lowercase_cases_mapped hDotted with hKept | ⟨-, n, hImage, hLower⟩
    · exact .inr ⟨c, ⟨h, hKept⟩, hKept⟩
    · exact .inr ⟨_, isLower_ofNat hImage, hLower⟩

theorem isLower_i : IsLower 'i' :=
  ⟨by decide +kernel, by decide +kernel⟩

theorem IsLower.ne_dottedI {c : Char} (h : IsLower c) : c ≠ dottedI := by
  rintro rfl
  exact absurd h.lowercase (by simp [lowercase_dottedI])

theorem IsLower.ne_dotAbove {c : Char} (h : IsLower c) : c ≠ dotAbove := by
  rintro rfl
  exact absurd h.alphanumeric (by simp [isAlphanumeric_dotAbove])

end Text

/-! ## Names -/

section Names

variable {name : String}

open Text

theorem mem_lookupName {d : Char} :
    d ∈ (lookupName name).toList ↔ ∃ c ∈ name.toList, isAlphanumeric c ∧ d ∈ lowercase c := by
  simp only [lookupName, String.toList_ofList, List.mem_flatMap, List.mem_filter, and_assoc]

/-- A look-up name is made of letters and digits in lower case, and of the combining dots that are
left of capital I with a dot above. -/
theorem isLower_of_mem_lookupName {d : Char} (h : d ∈ (lookupName name).toList) :
    IsLower d ∨ d = dotAbove ∧ dottedI ∈ name.toList := by
  obtain ⟨c, hMem, hAlphanumeric, hLower⟩ := mem_lookupName.1 h
  rcases lowercase_cases hAlphanumeric with rfl | ⟨e, hSettled, hSame⟩
  · rw [lowercase_dottedI, List.mem_cons, List.mem_singleton] at hLower
    rcases hLower with rfl | rfl
    · exact .inl isLower_i
    · exact .inr ⟨rfl, hMem⟩
  · rw [hSame, List.mem_singleton] at hLower
    exact .inl (hLower ▸ hSettled)

theorem dottedI_not_mem_lookupName (name : String) : dottedI ∉ (lookupName name).toList := by
  intro hMem
  rcases isLower_of_mem_lookupName hMem with hLower | ⟨hDot, -⟩
  · exact hLower.ne_dottedI rfl
  · exact absurd hDot (by decide)

theorem dotAbove_mem_lookupName_iff :
    dotAbove ∈ (lookupName name).toList ↔ dottedI ∈ name.toList := by
  constructor
  · intro hMem
    rcases isLower_of_mem_lookupName hMem with hLower | ⟨-, hDotted⟩
    · exact absurd rfl hLower.ne_dotAbove
    · exact hDotted
  · intro hMem
    exact mem_lookupName.2 ⟨dottedI, hMem, isAlphanumeric_dottedI, by simp [lowercase_dottedI]⟩

/-- Letters and digits in lower case are their own look-up name. -/
theorem lookupName_of_isLower (h : ∀ c ∈ name.toList, IsLower c) : lookupName name = name := by
  have hKept : name.toList.filter isAlphanumeric = name.toList :=
    List.filter_eq_self.2 fun c hMem => (h c hMem).alphanumeric
  have hSame : name.toList.flatMap lowercase = name.toList.flatMap ([·]) :=
    List.flatMap_congr fun c hMem => (h c hMem).lowercase
  rw [lookupName, hKept, hSame, List.flatMap_singleton', String.ofList_toList]

/-- A look-up name is its own if and only if the name has no capital I with a dot above. -/
theorem lookupName_lookupName_iff :
    lookupName (lookupName name) = lookupName name ↔ dottedI ∉ name.toList := by
  constructor
  · intro hSame hMem
    have hDot := dotAbove_mem_lookupName_iff.2 hMem
    rw [← hSame, dotAbove_mem_lookupName_iff] at hDot
    exact dottedI_not_mem_lookupName name hDot
  · intro hNone
    refine lookupName_of_isLower fun d hMem => ?_
    rcases isLower_of_mem_lookupName hMem with hLower | ⟨-, hDotted⟩
    · exact hLower
    · exact absurd hDotted hNone

end Names

end Deckwright
