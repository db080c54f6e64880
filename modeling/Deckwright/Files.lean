import Deckwright.Path

/-!
# Files

The text files that documents are read from, held under their normalized paths. Files
are looked up by normalized path too, so every spelling of a path finds the same file.

A chain of embeds keeps the paths that it came through. `Files.unvisited` counts the files
that are not among them; it gets smaller with each file that is embedded, which is why
reading a document comes to an end.
-/

namespace Deckwright

/-- Texts under normalized paths. -/
abbrev Files := List (Path × String)

namespace Files

/-- The files with one put in, in place of one with the same path. -/
def put (path : Path) (text : String) : Files → Files
  | [] => [(path, text)]
  | (p, t) :: rest => if p = path then (p, text) :: rest else (p, t) :: put path text rest

/-- The files given by path and text; of two with one path the later one counts. -/
def ofList (entries : List (String × String)) : Files :=
  entries.foldl (fun files (path, text) => files.put (Path.ofString path).normalize text) []

/-- The text of the file at a normalized path. -/
def find? (files : Files) (path : Path) : Option String :=
  files.lookup path

/-- The number of files whose paths are not in a list. -/
def unvisited (files : Files) (paths : List Path) : Nat :=
  files.countP fun file => !paths.contains file.1

theorem mem_of_find? {files : Files} {path : Path} {text : String}
    (h : files.find? path = some text) : (path, text) ∈ files := by
  induction files with
  | nil => simp [find?] at h
  | cons file rest ih =>
    obtain ⟨p, t⟩ := file
    simp only [find?, List.lookup_cons] at h
    split at h
    · rename_i hEq
      obtain rfl : path = p := by simpa using hEq
      obtain rfl : t = text := by simpa using h
      exact List.mem_cons_self
    · exact List.mem_cons_of_mem _ (ih h)

/-- A stricter condition that fails on a member which meets the other one is met less often. -/
theorem countP_lt {α : Type} {strict loose : α → Bool} {x : α} {list : List α}
    (hImp : ∀ y, strict y → loose y) (hMem : x ∈ list) (hLoose : loose x) (hStrict : ¬ strict x) :
    list.countP strict < list.countP loose := by
  induction list with
  | nil => simp at hMem
  | cons y rest ih =>
    have hRest : rest.countP strict ≤ rest.countP loose :=
      List.countP_mono_left fun y _ => hImp y
    simp only [List.countP_cons]
    rcases List.mem_cons.1 hMem with rfl | hMem
    · simp only [hLoose, hStrict]
      simp
      omega
    · have := ih hMem
      by_cases hy : strict y
      · simp [hy, hImp y hy]
        omega
      · simp [hy]
        omega

/-- Embedding a file that the chain did not come through leaves fewer of them. -/
theorem unvisited_lt {files : Files} {paths : List Path} {path : Path} {text : String}
    (hNew : path ∉ paths) (hFile : files.find? path = some text) :
    files.unvisited (path :: paths) < files.unvisited paths := by
  refine countP_lt (fun file h => ?_) (mem_of_find? hFile) ?_ ?_
  · simp at h
    simp [h]
  · simp [hNew]
  · simp

end Files

end Deckwright
