import Deckwright.Proofs.ContextOrder
import Deckwright.Proofs.Everywhere
import Deckwright.Proofs.Markers
import Deckwright.Proofs.OrderedMaps

/-!
# Which samples a leaf gets

The samples of a deck are declared in TOML files, in any of the documents that take part in its
reading. Every document hands what it collects to the one that embeds it, and whichever of its
groups is wanted there, so in the end they are a list in the order of the expansion
(`samples_ofParts`). Only then, in one pass over the whole tree, do the leaves get theirs.

`binds_of_reads` says what comes of it. Where a sample is declared makes no difference to who gets
it, and of several declarations of one identifier the last one counts.
-/

namespace Deckwright

/-! ## Declarations of a TOML file -/

/-- What every sample of a TOML file has: a name, and a score from -3 to 3. -/
structure Sample.Declared (s : Sample) : Prop where
  named : ∃ id, s.id = some id
  least : -3 ≤ s.score.toInt
  greatest : s.score.toInt ≤ 3

theorem bind_eq_ok {ε α β : Type} {first : Except ε α} {more : α → Except ε β} {b : β} :
    (first >>= more) = .ok b ↔ ∃ a, first = .ok a ∧ more a = .ok b := by
  constructor
  · intro h
    cases first with
    | error error => cases h
    | ok a => exact ⟨a, rfl, h⟩
  · rintro ⟨a, rfl, h⟩
    exact h

/-- What all results of a function have is had by all results for a list. -/
theorem forall_of_mapM_ok {ε α β : Type} {f : α → Except ε β} {P : β → Prop}
    (hResult : ∀ a b, f a = .ok b → P b) {list : List α} {results : List β}
    (h : list.mapM f = .ok results) : ∀ b ∈ results, P b := by
  induction list generalizing results with
  | nil =>
      rw [List.mapM_nil] at h
      cases h
      exact fun _ hMem => absurd hMem List.not_mem_nil
  | cons a rest ih =>
      rw [List.mapM_cons, bind_eq_ok] at h
      obtain ⟨b, hFirst, hMore⟩ := h
      obtain ⟨others, hRest, hResults⟩ := bind_eq_ok.1 hMore
      cases hResults
      exact List.forall_mem_cons.2 ⟨hResult a b hFirst, ih hRest⟩

namespace Definitions

theorem declared_of_sample? {id : String} {value : Toml} {s : Sample}
    (h : sample? id value = .ok s) : s.Declared := by
  unfold sample? at h
  split at h
  · cases h
  · split at h
    · rename_i hRange
      cases h
      rw [Sample.scoreInRange, Sample.validScore, Bool.and_eq_true, decide_eq_true_eq,
        decide_eq_true_eq] at hRange
      exact ⟨⟨id, rfl⟩, hRange.1, hRange.2⟩
    · cases h

theorem declared_of_read? {text : String} {all : Definitions} (h : read? text = .ok all) :
    ∀ s ∈ all.samples, s.Declared := by
  simp only [read?, bind_eq_ok] at h
  obtain ⟨top, -, slots, -, context, -, named, -, samples, hSamples, items, -, tools, -, hAll⟩ := h
  cases hAll
  exact forall_of_mapM_ok (fun _ _ h => declared_of_sample? h) hSamples

/-- What a fragment picks was declared. -/
theorem mem_samples_of_select? {name : String} {all one : Definitions}
    (h : all.select? name = some one) {s : Sample} (hMem : s ∈ one.samples) : s ∈ all.samples := by
  unfold select? at h
  split at h
  · cases h
    cases hMem
  · split at h
    · rename_i found hFound
      cases h
      rw [List.mem_singleton.1 hMem]
      exact List.mem_of_find?_eq_some hFound
    · obtain ⟨tool, -, rfl⟩ := Option.map_eq_some_iff.1 h
      cases hMem

end Definitions

namespace Document

theorem declared_of_definitionsIn {path : Path} {fragment : Option String} {text : String}
    {wanted : Definitions} (h : definitionsIn path fragment text = .ok wanted) :
    ∀ s ∈ wanted.samples, s.Declared := by
  unfold definitionsIn at h
  split at h
  · cases h
  · rename_i all hRead
    cases h
    exact Definitions.declared_of_read? hRead
  · rename_i all name hRead
    split at h
    · rename_i one hSelect
      cases h
      exact fun s hMem =>
        Definitions.declared_of_read? hRead s (Definitions.mem_samples_of_select? hSelect hMem)
    · cases h

/-! ## Declarations of an expansion -/

mutual

/-- The samples that a part declares, in the order of the expansion. -/
def Part.samples : Part → List Sample
  | .definitions declared => declared.samples
  | .document _ _ parts => Part.samplesAll parts
  | _ => []

/-- The samples that the parts declare, in the order of the expansion. -/
def Part.samplesAll : List Part → List Sample
  | [] => []
  | part :: rest => part.samples ++ Part.samplesAll rest

end

mutual

theorem Part.exists_of_mem_samples {part : Part} {s : Sample} (h : s ∈ part.samples) :
    ∃ declared, Part.In (.definitions declared) [part] ∧ s ∈ declared.samples := by
  cases part with
  | definitions declared => exact ⟨declared, .here List.mem_cons_self, h⟩
  | document path fragment parts =>
      obtain ⟨declared, hIn, hMem⟩ := Part.exists_of_mem_samplesAll h
      exact ⟨declared, Part.in_document.2 (.inr hIn), hMem⟩
  | heading level text => cases h
  | leaf text => cases h
  | lead text => cases h
  | failed error => cases h

/-- A declared sample is one of some TOML file. -/
theorem Part.exists_of_mem_samplesAll {parts : List Part} {s : Sample}
    (h : s ∈ Part.samplesAll parts) :
    ∃ declared, Part.In (.definitions declared) parts ∧ s ∈ declared.samples := by
  cases parts with
  | nil => cases h
  | cons part rest =>
      rcases List.mem_append.1 h with hPart | hRest
      · obtain ⟨declared, hIn, hMem⟩ := Part.exists_of_mem_samples hPart
        exact ⟨declared, Part.in_cons.2 (.inl hIn), hMem⟩
      · obtain ⟨declared, hIn, hMem⟩ := Part.exists_of_mem_samplesAll hRest
        exact ⟨declared, Part.in_cons.2 (.inr hIn), hMem⟩

end

theorem Part.declared_of_ofEmbed {files : Files} {chain : List Path} {base : Path} {embed : Embed}
    {wanted : Definitions} (h : Part.ofEmbed files chain base embed = .definitions wanted) :
    ∀ s ∈ wanted.samples, s.Declared := by
  simp only [Part.ofEmbed] at h
  split at h
  · simp only [Part.ofDefinitions] at h
    split at h
    · cases h
    · split at h
      · rename_i hWanted
        cases h
        exact declared_of_definitionsIn hWanted
      · cases h
  · split at h
    · cases h
    · split at h <;> cases h

/-- Every sample that a document and the ones it embeds declare has a name and a score in range. -/
theorem Source.declared_of_mem {files : Files} {source : Source} {s : Sample}
    (h : s ∈ Part.samplesAll (source.parts files)) : s.Declared := by
  obtain ⟨wanted, hIn, hMem⟩ := Part.exists_of_mem_samplesAll h
  obtain ⟨inner, -, hPart⟩ := Reaches.top.of_in hIn
  rw [parts, expand_eq_map] at hPart
  obtain ⟨piece, -, hPiece⟩ := List.mem_map.1 hPart
  cases piece with
  | embed embed => exact Part.declared_of_ofEmbed hPiece s hMem
  | heading level text => cases hPiece
  | leaf text => cases hPiece
  | lead text => cases hPiece

/-! ## Samples of a draft -/

namespace Draft

@[simp] theorem samples_push (node : Node) (draft : Draft) :
    (draft.push node).samples = draft.samples := by
  unfold push
  split <;> rfl

@[simp] theorem samples_pushAll (nodes : List Node) (draft : Draft) :
    (draft.pushAll nodes).samples = draft.samples := by
  induction nodes generalizing draft with
  | nil => rfl
  | cons node rest ih => exact (ih (draft.push node)).trans (samples_push node draft)

@[simp] theorem samples_addHeading (level : UInt8) (text : String) (draft : Draft) :
    (draft.addHeading level text).samples = draft.samples := by
  unfold addHeading
  split
  · dsimp only
    split
    · rfl
    · exact samples_push _ _
  · rfl

@[simp] theorem samples_addContext (draft : Draft) (v : ContextVariable) :
    (draft.addContext v).samples = draft.samples := by
  unfold addContext
  split <;> rfl

theorem samples_declare (context : List ContextVariable) (tools : List Tool)
    (samples : List Sample) (draft : Draft) :
    (draft.declare context tools samples).samples = draft.samples ++ samples := by
  have hFold : (context.foldl addContext draft).samples = draft.samples := by
    induction context generalizing draft with
    | nil => rfl
    | cons v rest ih => exact (ih (draft.addContext v)).trans (samples_addContext draft v)
  rw [declare, hFold]

end Draft

mutual

/-- A part adds the samples that it declares, whatever is wanted of an embedded document. -/
theorem samples_add {draft next : Draft} {part : Part} (h : draft.add part = .ok next) :
    next.samples = draft.samples ++ part.samples := by
  cases added_of_ok h with
  | heading level text => simp [Part.samples]
  | leaf text => simp [Part.samples]
  | lead text => simp [Part.samples]
  | definitions declared => rw [Draft.samples_declare, Part.samples]
  | @document path fragment parts own nodes hOwn hContent =>
      have hSamples : own.finish.samples = Part.samplesAll parts := samples_addAll hOwn
      rw [Draft.samples_pushAll, Draft.samples_declare, Part.samples, hSamples]

theorem samples_addAll {draft last : Draft} {parts : List Part}
    (h : draft.addAll parts = .ok last) :
    last.samples = draft.samples ++ Part.samplesAll parts := by
  cases parts with
  | nil =>
      simp only [Draft.addAll, Except.ok.injEq] at h
      rw [← h, Part.samplesAll, List.append_nil]
  | cons part rest =>
      obtain ⟨next, hPart, hRest⟩ := addAll_cons_ok h
      rw [samples_addAll hRest, samples_add hPart, Part.samplesAll, List.append_assoc]

end

/-- A document collects its samples in the order of its expansion. -/
theorem samples_ofParts {parts : List Part} {doc : Document} (h : ofParts parts = .ok doc) :
    doc.samples = Part.samplesAll parts := by
  obtain ⟨draft, hAdd, rfl⟩ := ofParts_eq_ok h
  exact samples_addAll hAdd

/-! ## Samples by identifier -/

/-- The sample is the last one of the list that has the identifier. -/
def LastOf (list : List Sample) (id : String) (s : Sample) : Prop :=
  s.id = some id ∧ ∃ before after, list = before ++ s :: after ∧
    ∀ later ∈ after, later.id ≠ some id

theorem get?_filterMap_id (key : String) (list : List Sample) :
    Ordered.get? key (list.filterMap fun s => s.id.map fun id => (id, s)) =
      list.find? fun s => s.id = some key := by
  induction list with
  | nil => rfl
  | cons s rest ih =>
      rw [List.filterMap_cons, List.find?_cons]
      cases hId : s.id with
      | none => exact ih
      | some id =>
          show Ordered.get? key ((id, s) :: _) = _
          rw [Ordered.get?_cons, ih]
          by_cases hKey : key = id
          · subst hKey
            simp
          · have hOther : ¬ id = key := fun h => hKey h.symm
            simp [hKey, hOther]

/-- The last declaration of an identifier counts. -/
theorem get?_namedSamples (doc : Document) {id : String} {s : Sample} :
    doc.namedSamples.get? id = some s ↔ LastOf doc.samples id s := by
  rw [namedSamples, Ordered.get?_ofList, ← List.filterMap_reverse, get?_filterMap_id,
    List.find?_eq_some_iff_append, decide_eq_true_eq, LastOf]
  refine and_congr_right fun _ => ?_
  constructor
  · rintro ⟨later, before, hList, hNone⟩
    refine ⟨before.reverse, later.reverse, ?_, fun other hMem => ?_⟩
    · rw [← List.reverse_reverse doc.samples, hList]
      simp
    · simpa using hNone other (List.mem_reverse.1 hMem)
  · rintro ⟨before, after, hList, hNone⟩
    refine ⟨after.reverse, before.reverse, by simp [hList], fun other hMem => ?_⟩
    simpa using hNone other (List.mem_reverse.1 hMem)

/-! ## Leaves -/

/-- The samples of a leaf are those of the map that the markers of its value refer to, each once
and in the order in which their first markers come. -/
structure Bound (named : Ordered Sample) (value : String) (samples : List Sample) : Prop where
  mem_iff : ∀ s, s ∈ samples ↔ ∃ id, Refers value id ∧ named.get? id = some s
  inOrder : ∃ marks, Markers value.toList marks ∧ samples.Pairwise fun s later =>
    ∀ id next, s.id = some id → later.id = some next →
      marks.idxOf id.toList < marks.idxOf next.toList

theorem bound_filterMap {named : Ordered Sample}
    (hNamed : ∀ id s, named.get? id = some s → s.id = some id) (value : String) :
    Bound named value ((footnoteRefs value).filterMap fun id => named.get? id) where
  mem_iff s := by
    rw [List.mem_filterMap]
    simp only [mem_footnoteRefs]
  inOrder := by
    have hMarks := markers_markerIds value.toList
    refine ⟨_, hMarks, List.pairwise_filterMap.2 ((pairwise_footnoteRefs hMarks).imp ?_)⟩
    intro id next hLess s hFirst later hSecond own other hOwn hOther
    rw [hNamed id s hFirst, Option.some.injEq] at hOwn
    rw [hNamed next later hSecond, Option.some.injEq] at hOther
    rwa [← hOwn, ← hOther]

/-- A leaf without samples. -/
def Bare : Node → Prop
  | .leaf _ samples => samples = []
  | _ => True

/-- Before samples are attached no leaf has any. -/
theorem bare_ofParts {parts : List Part} {doc : Document} (h : ofParts parts = .ok doc) :
    Node.Everywhere Bare doc.deck.children := by
  refine everywhere_ofParts ⟨fun _ => trivial, fun _ _ => trivial, fun _ _ => trivial⟩ ?_ h
  intro part _
  cases part with
  | leaf text => rfl
  | _ => trivial

/-- What a reading makes of the samples that are declared in it. -/
structure Binds (declared : List Sample) (result : ReadDeck) : Prop where
  /-- The map holds the last declaration of every identifier that is declared. -/
  last : ∀ id s, result.samples.get? id = some s ↔ LastOf declared id s
  /-- Its keys ascend, so they are different from each other. -/
  sorted : result.samples.Sorted
  /-- Every sample in it has its key as identifier and a score in range. -/
  entry : ∀ id s, (id, s) ∈ result.samples →
    s.id = some id ∧ -3 ≤ s.score.toInt ∧ s.score.toInt ≤ 3
  /-- Every leaf, at any depth, has the samples that it refers to. -/
  leaf : ∀ value samples, Node.Stand [.leaf value samples] result.deck.children →
    Bound result.samples value samples

/-- Every leaf of a deck that is read gets the samples that its markers refer to, of each identifier
the last one that is declared in the whole expansion. -/
theorem binds_of_reads {files : Files} {top : Source} {result : ReadDeck}
    (h : Reads files top result) : Binds (Part.samplesAll (top.parts files)) result := by
  obtain ⟨doc, hDoc, rfl⟩ := h.exists_doc
  have hSamples := samples_ofParts hDoc
  have hLast (id : String) (s : Sample) : doc.namedSamples.get? id = some s ↔
      LastOf (Part.samplesAll (top.parts files)) id s := hSamples ▸ doc.get?_namedSamples
  have hSorted : doc.namedSamples.Sorted := Ordered.sorted_ofList _
  refine ⟨hLast, hSorted, fun id s hMem => ?_, fun value samples hStand => ?_⟩
  · obtain ⟨hId, before, after, hList, -⟩ := (hLast id s).1 (hSorted.mem_iff.1 hMem)
    have hMem : s ∈ Part.samplesAll (top.parts files) := by
      rw [hList]
      exact List.mem_append_right before List.mem_cons_self
    have hDeclared := top.declared_of_mem hMem
    exact ⟨hId, hDeclared.least, hDeclared.greatest⟩
  · obtain ⟨node, hNode, hLeaf⟩ := exists_of_stand_attachAll hStand
    have hBare := bare_ofParts hDoc node hNode
    cases node with
    | leaf text attached =>
        rw [Bare] at hBare
        rw [Node.attach, hBare, List.nil_append, Node.leaf.injEq] at hLeaf
        obtain ⟨rfl, rfl⟩ := hLeaf
        exact bound_filterMap (fun id s hFound => ((hLast id s).1 hFound).1) value
    | lead text => cases hLeaf
    | group header children => cases hLeaf

/-- A file that uses two samples before it declares them, and one that declares one of them again. -/
def bindingFiles : Files :=
  [(.ofString "uses.md", "# Uses\n\n### Rules\n- Be brief [^b], clear [^a] and brief [^b] [^c].\n\n" ++
      "![](first.toml)"),
    (.ofString "first.toml",
      "[samples.a]\ntext = \"one\"\nscore = 1\n\n[samples.b]\ntext = \"two\"\nscore = -2"),
    (.ofString "again.toml",
      "[samples.a]\ntext = \"three\"\nscore = 3\n\n[samples.d]\ntext = \"four\"\nscore = 0")]

/-- A text that embeds the group of the first file, and then one sample of the second one. -/
def binding : Source :=
  ⟨[], {}, "## Outer\n\n![](uses.md#rules)\n\n![](again.toml#a)"⟩

/-- The leaf of the embedded group has the sample of its first marker first, each sample once, and
of the two declarations of the other one the last, which is not even in the same document. -/
theorem binds_of_reads_binding : ∃ result, Reads bindingFiles binding result ∧
    Binds (Part.samplesAll (binding.parts bindingFiles)) result ∧
    result.deck.identified =
      [{ id := some "b", text := "two", score := -2 },
        { id := some "a", text := "three", score := 3 }] ∧
    result.samples.map Prod.fst = ["a", "b"] := by
  have hRead : (read bindingFiles {} binding.text).toOption.map (fun result =>
      (result.deck.identified, result.samples.map Prod.fst)) =
      some ([{ id := some "b", text := "two", score := -2 },
        { id := some "a", text := "three", score := 3 }], ["a", "b"]) := by
    decide +kernel
  obtain ⟨result, hResult, hFound⟩ := exists_of_toOption_map hRead
  obtain ⟨hIdentified, hKeys⟩ := Prod.mk.inj hFound
  have hReads : Reads bindingFiles binding result := .text hResult
  exact ⟨result, hReads, binds_of_reads hReads, hIdentified, hKeys⟩

end Document

end Deckwright
