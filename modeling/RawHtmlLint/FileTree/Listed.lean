import RawHtmlLint.FileTree

/-!
# File trees from lists

A list of paths, with what stands under each, is made into the file tree whose working directory
holds just that. Directories on the way to something need not be listed, and a path that no file can
have is left out.

Results:
* `properEntries_putIn`: a directory into which something is put keeps its names apart.
-/

namespace RawHtmlLint

/-- What is listed under a path. -/
inductive Entry where
  | directory
  | file (content : ByteArray)

/-- The entries of a directory with one more at the place to which the names lead. Directories on
the way are made where there is none; a file that is there already is replaced. -/
def putIn (entries : List FileNode) : List String → Entry → List FileNode
  | [], _ => entries
  | name :: names, entry =>
    let inner := ((entries.find? (·.name == name)).map (·.entries)).getD []
    let node := match entry, names.isEmpty with
      | .file content, true => .file name content
      | _, _ => .directory name (putIn inner names entry)
    entries.filter (·.name != name) ++ [node]

/-- The entries are those of a proper directory. -/
def ProperEntries (entries : List FileNode) : Prop := (FileNode.directory "" entries).Proper

theorem properEntries_nil : ProperEntries [] :=
  FileNode.Proper.directory _ (List.forall_mem_nil _) List.nodup_nil (List.forall_mem_nil _)

theorem ProperEntries.directory {entries : List FileNode} (h : ProperEntries entries)
    (name : String) : (FileNode.directory name entries).Proper := by
  cases h with
  | directory _ names distinct proper => exact FileNode.Proper.directory name names distinct proper

theorem FileNode.Proper.properEntries {n : FileNode} (h : n.Proper) : ProperEntries n.entries := by
  cases h with
  | file => exact properEntries_nil
  | directory _ names distinct proper => exact FileNode.Proper.directory _ names distinct proper

/-- An entry takes the place of the one that has its name. -/
theorem ProperEntries.replace {entries : List FileNode} (h : ProperEntries entries) {n : FileNode}
    (hname : isFileName n.name = true) (hproper : n.Proper) :
    ProperEntries (entries.filter (·.name != n.name) ++ [n]) := by
  cases h with
  | directory _ names distinct proper =>
    refine FileNode.Proper.directory _ (fun e he => ?_) ?_ (fun e he => ?_)
    · rcases List.mem_append.mp he with he | he
      · exact names e (List.mem_filter.mp he).1
      · rwa [List.mem_singleton.mp he]
    · rw [List.map_append, List.map_singleton, List.nodup_append]
      refine ⟨distinct.sublist (List.filter_sublist.map _), List.pairwise_singleton _ _, ?_⟩
      intro name hmem other hother heq
      obtain ⟨e, he, rfl⟩ := List.mem_map.mp hmem
      rw [List.mem_singleton.mp hother] at heq
      exact bne_iff_ne.mp (List.mem_filter.mp he).2 heq
    · rcases List.mem_append.mp he with he | he
      · exact proper e (List.mem_filter.mp he).1
      · rwa [List.mem_singleton.mp he]

/-- The entries of an entry are proper, and so are those that are not there yet. -/
theorem ProperEntries.inner {entries : List FileNode} (h : ProperEntries entries) (name : String) :
    ProperEntries (((entries.find? (·.name == name)).map (·.entries)).getD []) := by
  cases hfind : entries.find? (·.name == name) with
  | none => exact properEntries_nil
  | some n =>
    cases h with
    | directory _ _ _ proper => exact (proper n (List.mem_of_find?_eq_some hfind)).properEntries

/-- **A directory into which something is put** keeps its names apart. -/
theorem properEntries_putIn {entry : Entry} : ∀ {names : List String} {entries : List FileNode},
    (∀ name ∈ names, isFileName name = true) → ProperEntries entries →
      ProperEntries (putIn entries names entry)
  | [], _, _, h => h
  | name :: names, entries, hnames, h => by
    have hname := hnames name List.mem_cons_self
    have hinner : ProperEntries (putIn _ names entry) :=
      properEntries_putIn (fun n hn => hnames n (List.mem_cons_of_mem _ hn)) (h.inner name)
    unfold putIn
    split
    · exact h.replace (n := .file name _) hname (.file name _)
    · exact h.replace (n := .directory name _) hname (hinner.directory name)

/-- The entries of the directory that a list describes, by the texts of their paths. -/
def listed (entries : List (String × Entry)) : List FileNode :=
  entries.foldl (fun there e =>
    let names := (Path.ofText e.1).names
    if names.all isFileName then putIn there names e.2 else there) []

theorem properEntries_listed (entries : List (String × Entry)) :
    ProperEntries (listed entries) := by
  refine List.foldlRecOn entries _ properEntries_nil fun there h e _ => ?_
  dsimp only
  split
  · rename_i hnames
    exact properEntries_putIn (List.all_eq_true.mp hnames) h
  · exact h

namespace FileTree

/-- The working directory holds what a list describes, and there is nothing beside it. -/
def ofList (entries : List (String × Entry)) : FileTree where
  root := .directory "" [.directory "work" (listed entries)]
  working := ["work"]
  proper := by
    refine .directory _ (fun e he => ?_) (List.pairwise_singleton _ _) (fun e he => ?_)
    · obtain rfl := List.mem_singleton.mp he
      show isFileName "work" = true
      decide
    · obtain rfl := List.mem_singleton.mp he
      exact (properEntries_listed entries).directory _
  present := rfl

/-- The working directory is empty. -/
def empty : FileTree := ofList []

end FileTree

end RawHtmlLint
