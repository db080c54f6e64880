import Mathlib.Data.List.Perm.Lattice
import Deckwright.Proofs.Scopes

/-!
# Marked declarations

A document declares its variables in the order of its expansion. Each of them goes to the deck
itself or to a group of it, and that is the mark it has. Two walks over an expansion give all
marked declarations.

* `Part.marksAll id` is the expansion itself: every declaration where it is met.
* `Part.marksAll hoist` moves, in every embedded document, the declarations of its deck before
  those in its groups. This is the order in which embedding takes them over.

`marks_hoist_iff` says when the two agree on the variables: exactly if in every embedded document
the declarations of the deck come first already (`InOrder`).
-/

namespace Deckwright.Document

/-- A declared variable without its position, and whether it is declared in a group. -/
structure Mark where
  grouped : Bool
  declared : ContextVariable

/-- The mark of a declaration as a document has it that embeds the marked one. -/
def Mark.within (inside : Bool) (mark : Mark) : Mark :=
  { mark with grouped := inside || mark.grouped }

/-- No declaration of the deck comes behind one in a group. -/
def Hoisted (marks : List Mark) : Prop :=
  marks.Pairwise fun first second => first.grouped → second.grouped

/-- The declarations of the deck. -/
abbrev deckLevel (marks : List Mark) : List Mark :=
  marks.filter fun mark => !mark.grouped

/-- The declarations in groups. -/
abbrev groupLevel (marks : List Mark) : List Mark :=
  marks.filter Mark.grouped

theorem deckLevel_append (marks more : List Mark) :
    deckLevel (marks ++ more) = deckLevel marks ++ deckLevel more :=
  List.filter_append ..

theorem groupLevel_append (marks more : List Mark) :
    groupLevel (marks ++ more) = groupLevel marks ++ groupLevel more :=
  List.filter_append ..

/-- The declarations of the deck before those in its groups. -/
def hoist (marks : List Mark) : List Mark :=
  deckLevel marks ++ groupLevel marks

theorem hoist_perm (marks : List Mark) : (hoist marks).Perm marks := by
  have hSplit := List.filter_append_perm (fun mark : Mark => !mark.grouped) marks
  simpa [hoist] using hSplit

theorem hoisted_hoist (marks : List Mark) : Hoisted (hoist marks) := by
  refine List.pairwise_append.2 ⟨?_, ?_, ?_⟩
  · apply List.pairwise_of_forall_mem_list
    intro first hFirst second _ hGrouped
    have hDeck := (List.mem_filter.1 hFirst).2
    rw [hGrouped] at hDeck
    cases hDeck
  · apply List.pairwise_of_forall_mem_list
    intro first _ second hSecond _
    exact (List.mem_filter.1 hSecond).2
  · intro first _ second hSecond _
    exact (List.mem_filter.1 hSecond).2

theorem hoist_eq_self {marks : List Mark} (h : Hoisted marks) : hoist marks = marks := by
  induction marks with
  | nil => rfl
  | cons mark rest ih =>
      obtain ⟨hMark, hRest⟩ := List.pairwise_cons.1 h
      cases hGrouped : mark.grouped with
      | false =>
          have hTail := ih hRest
          simp only [hoist] at hTail
          simp [hoist, hGrouped, hTail]
      | true =>
          -- Behind a declaration in a group there are only declarations in groups.
          have hAll : ∀ other ∈ rest, other.grouped = true := fun other hMem =>
            hMark other hMem hGrouped
          have hNone : deckLevel rest = [] := by
            rw [List.filter_eq_nil_iff]
            intro other hMem
            simp [hAll other hMem]
          have hSame : groupLevel rest = rest := List.filter_eq_self.2 hAll
          simp only [hoist, deckLevel, groupLevel] at hNone hSame ⊢
          simp [hGrouped, hNone, hSame]

/-- Two orders of the same elements agree if they agree in a property that tells them apart. -/
theorem eq_of_perm_of_map_eq {α β : Type} {f : α → β} {xs ys : List α} (hPerm : xs.Perm ys)
    (hMap : xs.map f = ys.map f) (hNodup : (ys.map f).Nodup) : xs = ys := by
  apply List.ext_getElem hPerm.length_eq
  intro i hx hy
  apply List.inj_on_of_nodup_map hNodup (hPerm.mem_iff.1 (List.getElem_mem hx))
    (List.getElem_mem hy)
  have hAt := List.getElem_of_eq hMap (by rw [List.length_map]; exact hx)
  rwa [List.getElem_map, List.getElem_map] at hAt

/-- Where two parts are exchanged for orders of their own, hoisting tells both of them. -/
theorem hoist_append_inj {xs xs' ys ys' : List Mark} (hx : xs.Perm xs') (hy : ys.Perm ys')
    (h : hoist (xs ++ ys) = hoist (xs' ++ ys')) : hoist xs = hoist xs' ∧ hoist ys = hoist ys' := by
  have hLength : (deckLevel (xs ++ ys)).length = (deckLevel (xs' ++ ys')).length :=
    ((hx.append hy).filter _).length_eq
  obtain ⟨hDeck, hGroup⟩ := List.append_inj h hLength
  rw [deckLevel_append, deckLevel_append] at hDeck
  rw [groupLevel_append, groupLevel_append] at hGroup
  obtain ⟨hDeckX, hDeckY⟩ := List.append_inj hDeck (hx.filter _).length_eq
  obtain ⟨hGroupX, hGroupY⟩ := List.append_inj hGroup (hx.filter _).length_eq
  constructor
  · rw [hoist, hoist, hDeckX, hGroupX]
  · rw [hoist, hoist, hDeckY, hGroupY]

/-! ## Declarations of expansions -/

mutual

/-- The variables that a part declares, in the order of the expansion. -/
def Part.declared : Part → List ContextVariable
  | .definitions declared => declared.context
  | .document _ _ parts => Part.declaredAll parts
  | _ => []

/-- The variables that the parts declare, in the order of the expansion. -/
def Part.declaredAll : List Part → List ContextVariable
  | [] => []
  | part :: rest => part.declared ++ Part.declaredAll rest

end

/-- Whether the declarations behind a part belong to a group, given whether those before it do. -/
def Part.insideAfter (named inside : Bool) : Part → Bool
  | .heading level _ => named || level ≠ 1
  | _ => inside

mutual

/-- The marks of what a part declares; `order` puts those of an embedded document in order. -/
def Part.marks (order : List Mark → List Mark) (inside : Bool) : Part → List Mark
  | .definitions declared => declared.context.map fun v => ⟨inside, v.bare⟩
  | .document _ _ parts =>
    (order (Part.marksAll order false false parts)).map (Mark.within inside)
  | _ => []

/-- `Part.marks` for parts in order; `named` tells whether the deck has its name. -/
def Part.marksAll (order : List Mark → List Mark) (named inside : Bool) : List Part → List Mark
  | [] => []
  | part :: rest =>
    part.marks order inside ++
      Part.marksAll order (named || part.isTitle) (part.insideAfter named inside) rest

end

/-- A part of an expansion, or of a document that is embedded in it at any depth. -/
inductive Part.In (part : Part) : List Part → Prop where
  | here {parts : List Part} (h : part ∈ parts) : Part.In part parts
  | deeper {parts own : List Part} {path : Path} {fragment : Option String}
      (h : .document path fragment own ∈ parts) (hIn : Part.In part own) : Part.In part parts

/-- In every embedded document the declarations of the deck come before those in its groups. -/
def InOrder (parts : List Part) : Prop :=
  ∀ path fragment own, Part.In (.document path fragment own) parts →
    Hoisted (Part.marksAll id false false own)

namespace Part

theorem in_cons {part first : Part} {rest : List Part} :
    part.In (first :: rest) ↔ part.In [first] ∨ part.In rest := by
  constructor
  · intro h
    cases h with
    | here h =>
        rcases List.mem_cons.1 h with rfl | hRest
        · exact .inl (.here List.mem_cons_self)
        · exact .inr (.here hRest)
    | deeper h hIn =>
        rcases List.mem_cons.1 h with rfl | hRest
        · exact .inl (.deeper List.mem_cons_self hIn)
        · exact .inr (.deeper hRest hIn)
  · intro h
    rcases h with h | h
    · cases h with
      | here h => exact .here (List.mem_cons.2 (.inl (List.mem_singleton.1 h)))
      | deeper h hIn => exact .deeper (List.mem_cons.2 (.inl (List.mem_singleton.1 h))) hIn
    · cases h with
      | here h => exact .here (List.mem_cons_of_mem first h)
      | deeper h hIn => exact .deeper (List.mem_cons_of_mem first h) hIn

theorem in_document {part : Part} {path : Path} {fragment : Option String} {own : List Part} :
    part.In [.document path fragment own] ↔
      part = .document path fragment own ∨ part.In own := by
  constructor
  · intro h
    cases h with
    | here h => exact .inl (List.mem_singleton.1 h)
    | deeper h hIn =>
        have hOwn := List.mem_singleton.1 h
        injection hOwn with _ _ hParts
        exact .inr (hParts ▸ hIn)
  · rintro (rfl | h)
    · exact .here List.mem_cons_self
    · exact .deeper List.mem_cons_self h

end Part

theorem inOrder_cons {part : Part} {rest : List Part} :
    InOrder (part :: rest) ↔ InOrder [part] ∧ InOrder rest := by
  simp only [InOrder, @Part.in_cons _ part rest, or_imp, forall_and]

theorem inOrder_document {path : Path} {fragment : Option String} {own : List Part} :
    InOrder [.document path fragment own] ↔
      Hoisted (Part.marksAll id false false own) ∧ InOrder own := by
  constructor
  · intro h
    exact ⟨h path fragment own (.here List.mem_cons_self), fun path fragment own hIn =>
      h path fragment own (.deeper List.mem_cons_self hIn)⟩
  · rintro ⟨hHoisted, hOwn⟩ path fragment own hIn
    rcases Part.in_document.1 hIn with hEq | hIn
    · injection hEq with _ _ hParts
      exact hParts ▸ hHoisted
    · exact hOwn path fragment own hIn

/-- Only documents can be out of order. -/
theorem inOrder_singleton {part : Part}
    (h : ∀ path fragment own, part ≠ .document path fragment own) : InOrder [part] := by
  intro path fragment own hIn
  cases hIn with
  | here hMem => exact absurd (List.mem_singleton.1 hMem).symm (h path fragment own)
  | deeper hMem hIn => exact absurd (List.mem_singleton.1 hMem).symm (h _ _ _)

theorem inOrder_nil : InOrder [] := by
  intro path fragment own hIn
  cases hIn with
  | here hMem => cases hMem
  | deeper hMem hIn => cases hMem

mutual

/-- The marks in the order of the expansion are those of its variables. -/
theorem Part.declared_marks (inside : Bool) (part : Part) :
    (part.marks id inside).map Mark.declared = part.declared.map ContextVariable.bare := by
  cases part with
  | definitions declared => simp [Part.marks, Part.declared]
  | document path fragment parts =>
      have hParts := Part.declared_marksAll false false parts
      simp only [Part.marks, Part.declared, id_eq, List.map_map]
      exact hParts
  | _ => rfl

theorem Part.declared_marksAll (named inside : Bool) (parts : List Part) :
    (Part.marksAll id named inside parts).map Mark.declared =
      (Part.declaredAll parts).map ContextVariable.bare := by
  cases parts with
  | nil => rfl
  | cons part rest =>
      simp only [Part.marksAll, Part.declaredAll, List.map_append]
      rw [Part.declared_marks, Part.declared_marksAll]

end

mutual

/-- Hoisting loses nothing. -/
theorem Part.marks_hoist_perm (inside : Bool) (part : Part) :
    (part.marks hoist inside).Perm (part.marks id inside) := by
  cases part with
  | document path fragment parts =>
      have hParts := Part.marksAll_hoist_perm false false parts
      exact ((hoist_perm _).trans hParts).map _
  | _ => exact List.Perm.refl _

theorem Part.marksAll_hoist_perm (named inside : Bool) (parts : List Part) :
    (Part.marksAll hoist named inside parts).Perm (Part.marksAll id named inside parts) := by
  cases parts with
  | nil => exact List.Perm.refl _
  | cons part rest =>
      exact (Part.marks_hoist_perm inside part).append (Part.marksAll_hoist_perm _ _ rest)

end

mutual

/-- Where everything is in order, hoisting changes nothing. -/
theorem Part.marks_of_inOrder (inside : Bool) {part : Part} (h : InOrder [part]) :
    part.marks hoist inside = part.marks id inside := by
  cases part with
  | document path fragment parts =>
      obtain ⟨hHoisted, hParts⟩ := inOrder_document.1 h
      simp only [Part.marks, Part.marksAll_of_inOrder false false hParts, id_eq]
      rw [hoist_eq_self hHoisted]
  | _ => rfl

theorem Part.marksAll_of_inOrder (named inside : Bool) {parts : List Part} (h : InOrder parts) :
    Part.marksAll hoist named inside parts = Part.marksAll id named inside parts := by
  cases parts with
  | nil => rfl
  | cons part rest =>
      obtain ⟨hPart, hRest⟩ := inOrder_cons.1 h
      simp only [Part.marksAll]
      rw [Part.marks_of_inOrder inside hPart, Part.marksAll_of_inOrder _ _ hRest]

end

/-- What one part declares is hoisted. -/
theorem Part.hoisted_marks (inside : Bool) (part : Part) : Hoisted (part.marks hoist inside) := by
  cases part with
  | definitions declared =>
      refine List.pairwise_map.2 (List.pairwise_of_forall fun _ _ h => h)
  | document path fragment parts =>
      refine List.pairwise_map.2 ((hoisted_hoist _).imp ?_)
      intro first second hImp hFirst
      simp only [Mark.within, Bool.or_eq_true] at hFirst ⊢
      exact hFirst.imp id hImp
  | _ => exact List.Pairwise.nil

/-- An expansion that hoisting puts in its own order has that order part by part. -/
theorem Part.marksAll_eq_of_hoist_eq {named inside : Bool} {parts : List Part}
    (h : hoist (Part.marksAll hoist named inside parts) = Part.marksAll id named inside parts) :
    Part.marksAll hoist named inside parts = Part.marksAll id named inside parts := by
  have hHoisted : Hoisted (Part.marksAll id named inside parts) := h ▸ hoisted_hoist _
  have hLevels : hoist (Part.marksAll hoist named inside parts) =
      hoist (Part.marksAll id named inside parts) := h.trans (hoist_eq_self hHoisted).symm
  clear h
  induction parts generalizing named inside with
  | nil => rfl
  | cons part rest ih =>
      simp only [Part.marksAll] at hHoisted hLevels ⊢
      obtain ⟨hFirst, hRest, -⟩ := List.pairwise_append.1 hHoisted
      obtain ⟨hPart, hParts⟩ := hoist_append_inj (Part.marks_hoist_perm inside part)
        (Part.marksAll_hoist_perm _ _ rest) hLevels
      rw [hoist_eq_self (Part.hoisted_marks inside part), hoist_eq_self hFirst] at hPart
      rw [hPart, ih hRest hParts]

/-- The names of marked declarations. -/
abbrev namesOf (marks : List Mark) : List String :=
  marks.map fun mark => mark.declared.name

/-- Declarations with different names are told apart by their variables. -/
theorem nodup_declared {marks : List Mark} (h : (namesOf marks).Nodup) :
    (marks.map Mark.declared).Nodup := by
  apply List.Nodup.of_map ContextVariable.name
  rw [List.map_map]
  exact h

theorem namesOf_append (marks more : List Mark) :
    namesOf (marks ++ more) = namesOf marks ++ namesOf more :=
  List.map_append

theorem namesOf_within (inside : Bool) (marks : List Mark) :
    namesOf (marks.map (Mark.within inside)) = namesOf marks := by
  rw [namesOf, List.map_map]
  rfl

mutual

/-- Where hoisting keeps the order of the variables, everything is in order. -/
theorem Part.inOrder_of_marks (inside : Bool) {part : Part}
    (hNames : (namesOf (part.marks id inside)).Nodup)
    (h : (part.marks hoist inside).map Mark.declared =
      (part.marks id inside).map Mark.declared) : InOrder [part] := by
  cases part with
  | document path fragment parts =>
      simp only [Part.marks, id_eq, List.map_map] at h
      simp only [Part.marks, id_eq, namesOf_within] at hNames
      have hPerm := Part.marksAll_hoist_perm false false parts
      have hHoist := eq_of_perm_of_map_eq ((hoist_perm _).trans hPerm) h (nodup_declared hNames)
      have hHoisted : Hoisted (Part.marksAll id false false parts) := hHoist ▸ hoisted_hoist _
      have hParts := congrArg (List.map Mark.declared) (Part.marksAll_eq_of_hoist_eq hHoist)
      exact inOrder_document.2 ⟨hHoisted, Part.inOrder_of_marksAll false false hNames hParts⟩
  | _ => exact inOrder_singleton fun _ _ _ => by rintro ⟨⟩

theorem Part.inOrder_of_marksAll (named inside : Bool) {parts : List Part}
    (hNames : (namesOf (Part.marksAll id named inside parts)).Nodup)
    (h : (Part.marksAll hoist named inside parts).map Mark.declared =
      (Part.marksAll id named inside parts).map Mark.declared) : InOrder parts := by
  cases parts with
  | nil => exact inOrder_nil
  | cons part rest =>
      simp only [Part.marksAll, List.map_append] at h hNames
      have hLength := (Part.marks_hoist_perm inside part).length_eq
      obtain ⟨hPart, hRest⟩ := List.append_inj h (by simpa only [List.length_map] using hLength)
      exact inOrder_cons.2
        ⟨Part.inOrder_of_marks inside (List.Nodup.of_append_left hNames) hPart,
          Part.inOrder_of_marksAll _ _ (List.Nodup.of_append_right hNames) hRest⟩

end

theorem names_eq_of_bare_eq {context : List ContextVariable} {marks : List Mark}
    (h : context.map ContextVariable.bare = marks.map Mark.declared) :
    context.map ContextVariable.name = namesOf marks := by
  have hNames := congrArg (List.map ContextVariable.name) h
  rw [List.map_map, List.map_map] at hNames
  exact hNames

/-- Hoisting keeps the order of the variables exactly if everything is in order. -/
theorem marks_hoist_iff {parts : List Part}
    (hNames : ((Part.declaredAll parts).map ContextVariable.name).Nodup) :
    (Part.marksAll hoist false false parts).map Mark.declared =
        (Part.declaredAll parts).map ContextVariable.bare ↔ InOrder parts := by
  have hSame := names_eq_of_bare_eq (Part.declared_marksAll false false parts).symm
  rw [← Part.declared_marksAll false false]
  constructor
  · intro h
    exact Part.inOrder_of_marksAll false false (hSame ▸ hNames) h
  · intro h
    rw [Part.marksAll_of_inOrder false false h]

end Deckwright.Document
