import Deckwright.Proofs.PercentEncoding
import Deckwright.Url.Basic

/-!
# Segments behind a path

What comes of a text that is put behind a path as a segment. It is encoded first, and no encoded
text is one of the forms of `.` and `..` but these two themselves (`isDot_percentEncode`,
`isDoubleDot_percentEncode`). So a path gets no segment for the text only if the text is one of the
two, or is one of them but for tabs and ends of lines, which an address does not keep.

* `Landing` lists what can come of it, `push_eq` says that nothing else does.
* `toString_eq_iff`, `pathText_append`: the text of an address tells what stands at the end of its
  path.
-/

namespace Deckwright.Url

variable {special : Bool} {cs segment : List Char}

/-! ## Dots -/

theorem toLower_cases (c : Char) :
    c.toLower = c ∨ 65 ≤ c.toNat ∧ c.toNat ≤ 90 ∧ c.toLower.toNat = c.toNat + 32 := by
  by_cases hUpper : c.val ≥ 'A'.val ∧ c.val ≤ 'Z'.val
  · have hLow : 65 ≤ c.toNat := UInt32.le_iff_toNat_le.1 hUpper.1
    have hHigh : c.toNat ≤ 90 := UInt32.le_iff_toNat_le.1 hUpper.2
    have hShift : c.toLower.val = c.val + 32 := congrArg Char.val (dif_pos hUpper)
    refine .inr ⟨hLow, hHigh, ?_⟩
    calc c.toLower.toNat = (c.val + 32).toNat := congrArg UInt32.toNat hShift
      _ = (c.toNat + 32) % 2 ^ 32 := UInt32.toNat_add _ _
      _ = c.toNat + 32 := Nat.mod_eq_of_lt (by omega)
  · exact .inl (dif_neg hUpper)

/-- A character that is no letter is the lower case of itself only. -/
theorem eq_of_toLower {c d : Char} (h : c.toLower = d) (hBelow : d.toNat < 97) : c = d := by
  rcases toLower_cases c with hSame | ⟨hLow, -, hNat⟩
  · exact hSame.symm.trans h
  · rw [h] at hNat
    omega

theorem eq_of_toLower_e {c : Char} (h : c.toLower = 'e') : c = 'e' ∨ c = 'E' := by
  rcases toLower_cases c with hSame | ⟨-, -, hNat⟩
  · exact .inl (hSame.symm.trans h)
  · right
    apply Char.toNat_inj.1
    rw [h] at hNat
    have hValue : 'e'.toNat = 101 := rfl
    have hUpper : 'E'.toNat = 69 := rfl
    omega

theorem isDot_iff : isDot segment = true ↔
    segment.map Char.toLower = ['.'] ∨ segment.map Char.toLower = ['%', '2', 'e'] := by
  rw [isDot, decide_eq_true_eq, List.mem_pair]
  rfl

/-- Whatever stands behind it, a form of the dot stands for its byte. -/
theorem percentDecode_append_of_isDot (h : isDot segment = true) (rest : List Char) :
    percentDecode (segment ++ rest) = 0x2E :: percentDecode rest := by
  rcases isDot_iff.1 h with hForm | hForm
  · obtain ⟨dot, _, rfl, hDot, hNil⟩ := List.map_eq_cons_iff.1 hForm
    obtain rfl := List.map_eq_nil_iff.1 hNil
    rw [eq_of_toLower hDot (by decide)]
    exact percentDecode_cons_of_ne (by decide) rest
  · obtain ⟨mark, _, rfl, hMark, hDigits⟩ := List.map_eq_cons_iff.1 hForm
    obtain ⟨high, _, rfl, hHigh, hDigit⟩ := List.map_eq_cons_iff.1 hDigits
    obtain ⟨low, _, rfl, hLow, hNil⟩ := List.map_eq_cons_iff.1 hDigit
    obtain rfl := List.map_eq_nil_iff.1 hNil
    rw [eq_of_toLower hMark (by decide), eq_of_toLower hHigh (by decide)]
    rcases eq_of_toLower_e hLow with rfl | rfl <;> rfl

theorem exists_of_isDoubleDot (h : isDoubleDot segment = true) :
    ∃ front back, isDot front = true ∧ isDot back = true ∧ segment = front ++ back := by
  rw [isDoubleDot, decide_eq_true_eq] at h
  have hForms : ∃ front back : List Char, segment.map Char.toLower = front ++ back ∧
      (front = ['.'] ∨ front = ['%', '2', 'e']) ∧ (back = ['.'] ∨ back = ['%', '2', 'e']) := by
    simp only [List.mem_cons, List.not_mem_nil, or_false] at h
    rcases h with h | h | h | h
    · exact ⟨['.'], ['.'], h, .inl rfl, .inl rfl⟩
    · exact ⟨['.'], ['%', '2', 'e'], h, .inl rfl, .inr rfl⟩
    · exact ⟨['%', '2', 'e'], ['.'], h, .inr rfl, .inl rfl⟩
    · exact ⟨['%', '2', 'e'], ['%', '2', 'e'], h, .inr rfl, .inr rfl⟩
  obtain ⟨low, high, hSplit, hFront, hBack⟩ := hForms
  obtain ⟨front, back, rfl, rfl, rfl⟩ := List.map_eq_append_iff.1 hSplit
  exact ⟨front, back, isDot_iff.2 hFront, isDot_iff.2 hBack, rfl⟩

/-! ## Encoded segments -/

theorem percent_mem_segmentReserved (special : Bool) : '%' ∈ segmentReserved special := by
  cases special <;> decide

theorem segment_injective (special : Bool) :
    Function.Injective (percentEncode (segmentReserved special)) :=
  percentEncode_injective (percent_mem_segmentReserved special)

theorem isDot_percentEncode (special : Bool) (cs : List Char) :
    isDot (percentEncode (segmentReserved special) cs) = true ↔ cs = ['.'] := by
  constructor
  · intro h
    have hBytes := percentDecode_append_of_isDot h []
    rw [List.append_nil] at hBytes
    exact eq_of_percentDecode (percent_mem_segmentReserved special) hBytes
  · rintro rfl
    cases special <;> decide

theorem isDoubleDot_percentEncode (special : Bool) (cs : List Char) :
    isDoubleDot (percentEncode (segmentReserved special) cs) = true ↔ cs = ['.', '.'] := by
  constructor
  · intro h
    obtain ⟨front, back, hFront, hBack, hSplit⟩ := exists_of_isDoubleDot h
    refine eq_of_percentDecode (percent_mem_segmentReserved special) ?_
    have hBytes := percentDecode_append_of_isDot hBack []
    rw [List.append_nil] at hBytes
    rw [hSplit, percentDecode_append_of_isDot hFront, hBytes]
    rfl
  · rintro rfl
    cases special <;> decide

@[simp] theorem settled_nil (kind : SchemeKind) (path : List (List Char)) :
    settled kind path [] = [] := by
  cases kind <;> cases path <;> rfl

/-- Behind other segments every segment stands as it is. -/
theorem settled_of_ne_nil {path : List (List Char)} (kind : SchemeKind) (h : path ≠ [])
    (segment : List Char) : settled kind path segment = segment := by
  unfold settled
  split
  · exact absurd rfl h
  · rfl

/-! ## One more segment -/

/-- The characters of a text that an address keeps. -/
def kept (text : String) : List Char :=
  text.toList.filter fun c => !(c == '\t' || c == '\n' || c == '\r')

/-- What comes of a text that is put behind a path. -/
inductive Landing where
  /-- The path stays. -/
  | stays
  /-- The last segment of the path makes room for an empty one. -/
  | back
  /-- There is one more segment, for these characters. -/
  | segment (cs : List Char)
  deriving DecidableEq

/-- What comes of a text. -/
def landing (text : String) : Landing :=
  if text = "." ∨ text = ".." then .stays
  else if kept text = ['.', '.'] then .back
  else if kept text = ['.'] then .segment []
  else .segment (kept text)

/-- The path with what comes of a text. -/
def Landing.path (kind : SchemeKind) (list : List (List Char)) : Landing → List (List Char)
  | .stays => list
  | .back => shorten kind list ++ [[]]
  | .segment cs =>
    list ++ [settled kind list (percentEncode (segmentReserved kind.isSpecial) cs)]

/-- The segments that others are put behind: those of a path that is not just the empty one. -/
def root (list : List (List Char)) : List (List Char) :=
  if list = [[]] then [] else list

variable {url : Url} {list : List (List Char)}

theorem push_eq (h : url.path = .segments list) (text : String) :
    url.push text = { url with path := .segments ((landing text).path (kindOf url.scheme)
      (if text = "." ∨ text = ".." then list else root list)) } := by
  rw [push, h, landing]
  dsimp only
  by_cases hDots : text = "." ∨ text = ".."
  · rw [if_pos (by simpa using hDots), if_pos hDots, if_pos hDots, Landing.path, ← h]
  · rw [if_neg (by simpa using hDots), if_neg hDots, if_neg hDots, ← kept, ← root, follow]
    simp only [isDoubleDot_percentEncode, isDot_percentEncode]
    split
    · rfl
    · split
      · rw [Landing.path, percentEncode, List.flatMap_nil, settled_nil]
      · rfl

/-! ## The text of a path -/

/-- The text of an address tells its path. -/
theorem toString_eq_iff (url : Url) (path other : UrlPath) :
    { url with path }.toString = { url with path := other }.toString ↔
      { url with path }.pathText = { url with path := other }.pathText := by
  have hAuthority :
      { url with path }.authorityText = { url with path := other }.authorityText := rfl
  rw [toString, toString, String.ofList_inj, target, target, hAuthority]
  simp only [List.append_assoc, List.append_cancel_left_eq, List.append_cancel_right_eq]

/-- The text of the segments in front, where others stand behind them. -/
def frontText (url : Url) (front : List (List Char)) : List Char :=
  (if url.host.isNone && front.head? = some [] then ['/', '.'] else []) ++ front.flatMap ('/' :: ·)

theorem pathText_append (url : Url) {front behind : List (List Char)} (hSome : behind ≠ [])
    (h : behind.length < 2 ∨ behind.head? ≠ some []) :
    { url with path := .segments (front ++ behind) }.pathText =
      url.frontText front ++ behind.flatMap ('/' :: ·) := by
  rw [pathText, frontText, List.append_assoc, ← List.flatMap_append]
  dsimp only
  congr 2
  cases front with
  | nil =>
      have hNot : (url.host.isNone && decide (2 ≤ behind.length) &&
          decide (behind.head? = some [])) = false := by
        rcases h with hShort | hHead
        · have : ¬ 2 ≤ behind.length := by omega
          simp [this]
        · simp [hHead]
      rw [List.nil_append, hNot]
      simp
  | cons first rest =>
      have hLong : 2 ≤ (first :: rest ++ behind).length := by
        have := List.length_pos_iff.2 hSome
        simp only [List.cons_append, List.length_cons, List.length_append]
        omega
      rw [decide_eq_true hLong]
      simp

end Deckwright.Url
