import Mathlib.Data.List.Forall2
import Mathlib.Data.List.Nodup
import RawHtmlLint.FileTree.Listed
import RawHtmlLint.Proofs.Path

/-!
# The files that arguments stand for

An argument is a file, which is checked whatever it is called, or a directory, which stands for the
files below it with one of the right suffixes. The files of a directory come in the order of the
parts of their paths; arguments keep their own order.

What is below a directory is listed each once, because no two entries of a directory have the same
name. A path to the directory leads on to all of it, wherever the path starts and whether or not it
goes back on its way.

Results:
* `mem_descendants_iff`, `nodup_descendants`: what is below a node, each once;
* `find_working`, `find_append`: where the path without names leads, and one into a directory;
* `collect_expands`: the files that arguments stand for.
-/

namespace RawHtmlLint

/-! ## What is below a node -/

namespace FileNode

variable {n d : FileNode} {name : String} {names : List String}

theorem descendantsAmong_eq : ∀ entries : List FileNode,
    descendantsAmong entries = entries.flatMap fun e => e.descendants.map (e.name :: ·)
  | [] => rfl
  | e :: entries => by
    rw [descendantsAmong, descendantsAmong_eq entries, List.flatMap_cons]

/-- Below a directory are its entries, and what is below each of them. -/
theorem mem_descendants : ∀ {d : FileNode}, names ∈ d.descendants ↔
    ∃ e ∈ d.entries, ∃ rest, names = e.name :: rest ∧ (rest = [] ∨ rest ∈ e.descendants)
  | .file .. => ⟨fun h => (nomatch h), fun ⟨_, h, _⟩ => (nomatch h)⟩
  | .directory _ entries => by
    rw [descendants, descendantsAmong_eq, List.mem_append, List.mem_map, List.mem_flatMap]
    constructor
    · rintro (⟨e, he, rfl⟩ | ⟨e, he, hnames⟩)
      · exact ⟨e, he, [], rfl, .inl rfl⟩
      · obtain ⟨rest, hrest, rfl⟩ := List.mem_map.mp hnames
        exact ⟨e, he, rest, rfl, .inr hrest⟩
    · rintro ⟨e, he, _, rfl, rfl | hrest⟩
      · exact .inl ⟨e, he, rfl⟩
      · exact .inr ⟨e, he, List.mem_map_of_mem hrest⟩

theorem child?_eq_some (h : d.child? name = some n) : n ∈ d.entries ∧ n.name = name := by
  have hname : (n.name == name) = true := by
    simpa using List.find?_some h
  exact ⟨List.mem_of_find?_eq_some h, beq_iff_eq.mp hname⟩

/-- An entry has its name to itself. -/
theorem Proper.child?_name (h : d.Proper) (hn : n ∈ d.entries) : d.child? n.name = some n := by
  cases h with
  | file => exact (nomatch hn)
  | @directory _ entries _ distinct _ =>
    cases hfind : (FileNode.directory _ entries).child? n.name with
    | none => exact absurd (List.find?_eq_none.mp hfind n hn) (by simp)
    | some m =>
      obtain ⟨hm, hname⟩ := child?_eq_some hfind
      rw [List.inj_on_of_nodup_map distinct hm hn hname]

theorem Proper.of_mem (h : d.Proper) (hn : n ∈ d.entries) :
    isFileName n.name = true ∧ n.Proper := by
  cases h with
  | file => exact (nomatch hn)
  | directory _ names _ proper => exact ⟨names n hn, proper n hn⟩

/-- **What is below a node** is what names lead to. -/
theorem Proper.mem_descendants_iff (h : d.Proper) :
    names ∈ d.descendants ↔ names ≠ [] ∧ ∃ n, d.at? names = some n := by
  rw [mem_descendants]
  induction names generalizing d with
  | nil => exact ⟨fun ⟨_, _, _, h, _⟩ => (nomatch h), fun h => absurd rfl h.1⟩
  | cons name rest ih =>
    have hbelow : ∀ e ∈ d.entries,
        (rest = [] ∨ rest ∈ e.descendants ↔ ∃ n, e.at? rest = some n) := fun e he => by
      rw [mem_descendants, ih (h.of_mem he).2]
      cases rest with
      | nil => exact ⟨fun _ => ⟨e, rfl⟩, fun _ => .inl rfl⟩
      | cons => simp
    constructor
    · rintro ⟨e, he, _, heq, hrest⟩
      obtain ⟨rfl, rfl⟩ := List.cons.inj heq
      obtain ⟨n, hn⟩ := (hbelow e he).mp hrest
      refine ⟨List.cons_ne_nil _ _, n, ?_⟩
      rw [at?, h.child?_name he]
      exact hn
    · rintro ⟨-, n, hn⟩
      obtain ⟨e, hentry, hrest⟩ := Option.bind_eq_some_iff.mp hn
      obtain ⟨he, rfl⟩ := child?_eq_some hentry
      exact ⟨e, he, rest, rfl, (hbelow e he).mpr ⟨n, hrest⟩⟩

/-- **Each once.** -/
theorem Proper.nodup_descendants (h : d.Proper) : d.descendants.Nodup := by
  induction h with
  | file => exact List.nodup_nil
  | @directory _ entries _ distinct _ ih =>
    rw [descendants, descendantsAmong_eq, List.nodup_append, List.nodup_flatMap]
    refine ⟨?_, ⟨fun e he => (ih e he).map fun _ _ h => (List.cons.inj h).2, ?_⟩, ?_⟩
    · have hsingle : entries.map (fun e => [e.name]) = (entries.map (·.name)).map ([·]) := by
        rw [List.map_map]
        rfl
      rw [hsingle]
      exact distinct.map fun _ _ h => (List.cons.inj h).1
    · refine (List.pairwise_map.mp distinct).imp fun {e e'} hne names hnames hnames' => ?_
      obtain ⟨rest, -, rfl⟩ := List.mem_map.mp hnames
      obtain ⟨rest', -, heq⟩ := List.mem_map.mp hnames'
      exact hne (List.cons.inj heq).1.symm
    -- nothing is below a node under no name, so what is below an entry has a longer way
    · intro names hnames names' hnames' heq
      obtain ⟨e, -, rfl⟩ := List.mem_map.mp hnames
      obtain ⟨e', -, hbelow⟩ := List.mem_flatMap.mp hnames'
      obtain ⟨rest, hrest, rfl⟩ := List.mem_map.mp hbelow
      obtain rfl : [] = rest := (List.cons.inj heq).2
      obtain ⟨_, _, _, h, _⟩ := mem_descendants.mp hrest
      cases h

end FileNode

/-! ## Where a path into a directory leads -/

namespace Spot

/-- All that is at a place and above it is proper. -/
structure Proper (p : Spot) : Prop where
  here : p.here.Proper
  above : ∀ d ∈ p.above, d.Proper

theorem Proper.parent {p : Spot} (h : p.Proper) : p.parent.Proper := by
  unfold Spot.parent
  split
  · exact h
  · rename_i d above habove
    exact ⟨h.above d (habove ▸ List.mem_cons_self),
      fun e he => h.above e (habove ▸ List.mem_cons_of_mem _ he)⟩

theorem Proper.step {p q : Spot} (h : p.Proper) {name : String} (hstep : p.step name = .ok q) :
    q.Proper := by
  unfold Spot.step at hstep
  split at hstep
  · cases hstep
  · split at hstep
    · cases hstep
      exact h.parent
    · split at hstep
      · rename_i n hentry
        cases hstep
        exact ⟨(h.here.of_mem (FileNode.child?_eq_some hentry).1).2,
          List.forall_mem_cons.mpr ⟨h.here, h.above⟩⟩
      · cases hstep

theorem Proper.walk : ∀ {names : List String} {p q : Spot}, p.Proper →
    names.foldlM Spot.step p = .ok q → q.Proper
  | [], _, _, h, hwalk => Except.ok.inj hwalk ▸ h
  | name :: names, p, q, h, hwalk => by
    rw [List.foldlM_cons] at hwalk
    cases hstep : p.step name with
    | error fault =>
      rw [hstep] at hwalk
      cases hwalk
    | ok r =>
      rw [hstep] at hwalk
      exact (h.step hstep).walk hwalk

/-- An entry is one step away. -/
theorem step_child {p : Spot} (h : p.here.Proper) {name : String} {n : FileNode}
    (hentry : p.here.child? name = some n) : p.step name = .ok ⟨n, p.here :: p.above⟩ := by
  obtain ⟨hn, rfl⟩ := FileNode.child?_eq_some hentry
  have hname : n.name ≠ ".." := fun heq => by
    have hisName := (h.of_mem hn).1
    rw [heq] at hisName
    revert hisName
    decide
  unfold step
  split
  · rename_i heq
    rw [heq] at hn
    cases hn
  · rw [if_neg hname, hentry]

/-- Names lead from a spot to what is below it. -/
theorem walk_at? : ∀ {names : List String} {p : Spot} {n : FileNode}, p.here.Proper →
    p.here.at? names = some n → ∃ above, names.foldlM Spot.step p = .ok ⟨n, above⟩
  | [], p, _, _, hat => ⟨p.above, by rw [← Option.some.inj hat]; rfl⟩
  | name :: names, p, n, h, hat => by
    obtain ⟨e, hentry, hrest⟩ := Option.bind_eq_some_iff.mp hat
    obtain ⟨he, -⟩ := FileNode.child?_eq_some hentry
    rw [List.foldlM_cons, step_child h hentry]
    exact walk_at? (h.of_mem he).2 hrest

end Spot

namespace FileTree

variable {t : FileTree} {path : Path} {names : List String} {n d : FileNode}

theorem find_eq_ok_iff : t.find path = .ok n ↔
    ∃ above, (t.start path ++ path.names).foldlM Spot.step ⟨t.root, []⟩ = .ok ⟨n, above⟩ := by
  unfold find
  cases (t.start path ++ path.names).foldlM Spot.step ⟨t.root, []⟩ with
  | error fault => exact ⟨fun h => (nomatch h), fun ⟨_, h⟩ => (nomatch h)⟩
  | ok p =>
    constructor
    · intro h
      cases h
      exact ⟨p.above, rfl⟩
    · rintro ⟨above, h⟩
      cases h
      rfl

/-- The path without names leads to the working directory. -/
theorem find_working (t : FileTree) : ∃ d, t.find ⟨"", []⟩ = .ok d ∧ d.isDirectory = true := by
  obtain ⟨d, hat, hd⟩ := (Option.any_eq_true _ _).mp t.present
  refine ⟨d, find_eq_ok_iff.mpr ?_, hd⟩
  show ∃ above, (t.working ++ []).foldlM Spot.step ⟨t.root, []⟩ = .ok ⟨d, above⟩
  rw [List.append_nil]
  exact Spot.walk_at? t.proper hat

theorem proper_of_find (h : t.find path = .ok n) : n.Proper := by
  obtain ⟨_, hwalk⟩ := find_eq_ok_iff.mp h
  exact (Spot.Proper.walk ⟨t.proper, List.forall_mem_nil _⟩ hwalk).here

/-- **A path into a directory** leads to what the names lead to from there. -/
theorem find_append (hd : t.find path = .ok d) (hat : d.at? names = some n) :
    t.find (path.append names) = .ok n := by
  obtain ⟨above, hwalk⟩ := find_eq_ok_iff.mp hd
  refine find_eq_ok_iff.mpr ?_
  show ∃ above, (t.start path ++ (path.names ++ names)).foldlM Spot.step _ = _
  rw [← List.append_assoc, List.foldlM_append, hwalk]
  exact Spot.walk_at? (proper_of_find hd) hat

theorem isSome_node?_iff : (t.node? path).isSome = true ↔ ∃ n, t.find path = .ok n := by
  unfold node?
  cases t.find path with
  | error fault => exact ⟨fun h => (nomatch h), fun ⟨_, h⟩ => (nomatch h)⟩
  | ok n => exact ⟨fun _ => ⟨n, rfl⟩, fun _ => rfl⟩

/-! ## What one argument stands for -/

theorem isDirectory_iff : t.isDirectory path = true ↔
    ∃ d, t.find path = .ok d ∧ d.isDirectory = true := by
  unfold isDirectory node?
  cases t.find path with
  | error fault => exact ⟨fun h => (nomatch h), fun ⟨_, h, _⟩ => (nomatch h)⟩
  | ok d => exact ⟨fun h => ⟨d, rfl, h⟩, fun ⟨_, h, hd⟩ => by cases h; exact hd⟩

theorem isFile_of_find (h : t.find path = .ok n) : t.isFile path = n.isFile := by
  unfold isFile node?
  rw [h]
  rfl

/-- The files are what one argument stands for: a path that leads to no directory stands for itself,
whatever it is called. A directory stands for the files at any depth below it whose suffix is among
the extensions, in the order of the parts of their paths. -/
inductive Expansion (t : FileTree) (extensions : List String) (path : Path) : List Path → Prop
  | itself (h : ∀ d, t.find path = .ok d → d.isDirectory = false) :
      Expansion t extensions path [path]
  | below {d : FileNode} {files : List Path} (h : t.find path = .ok d)
      (directory : d.isDirectory = true)
      (mem_iff : ∀ file, file ∈ files ↔ ∃ names name content, file = path.append names ∧
        d.at? names = some (.file name content) ∧
        ∃ e ∈ extensions, Path.IsSuffix (file.names.getLastD "").toList e.toList)
      (sorted : files.Pairwise (·.parts < ·.parts)) : Expansion t extensions path files

/-- The paths to all that is below a directory, each once. -/
theorem nodup_pathsBelow (h : t.find path = .ok d) : ((t.pathsBelow path).map (·.parts)).Nodup := by
  unfold pathsBelow node?
  rw [h]
  show ((d.descendants.map path.append).map (·.parts)).Nodup
  rw [List.map_map]
  refine (proper_of_find h).nodup_descendants.map fun names names' heq => ?_
  exact List.append_cancel_left (((path.parts_append names).symm.trans heq).trans
    (path.parts_append names'))

/-- The files below a directory, by the names that lead to them. -/
theorem mem_filesBelow_iff (h : t.find path = .ok d) (hd : d.isDirectory = true) {file : Path} :
    file ∈ t.pathsBelow path ∧ t.isFile file = true ↔
      ∃ names name content, file = path.append names ∧ d.at? names = some (.file name content) := by
  have hproper := proper_of_find h
  unfold pathsBelow node?
  rw [h]
  show file ∈ d.descendants.map path.append ∧ _ ↔ _
  rw [List.mem_map]
  constructor
  · rintro ⟨⟨names, hnames, rfl⟩, hfile⟩
    obtain ⟨-, n, hn⟩ := hproper.mem_descendants_iff.mp hnames
    rw [isFile_of_find (find_append h hn)] at hfile
    cases n with
    | file name content => exact ⟨names, name, content, rfl, hn⟩
    | directory => cases hfile
  · rintro ⟨names, name, content, rfl, hat⟩
    have hne : names ≠ [] := by
      rintro rfl
      rw [Option.some.inj hat] at hd
      cases hd
    refine ⟨⟨names, hproper.mem_descendants_iff.mpr ⟨hne, _, hat⟩, rfl⟩, ?_⟩
    rw [isFile_of_find (find_append h hat)]
    rfl

/-- **What one argument stands for.** -/
theorem expand_expansion (t : FileTree) (extensions : List String) (path : Path) :
    t.Expansion extensions path (t.expand extensions path) := by
  unfold expand
  split
  · rename_i hdirectory
    obtain ⟨d, hd, hisDirectory⟩ := isDirectory_iff.mp hdirectory
    refine .below hd hisDirectory (fun file => ?_) (Path.pairwise_sort ?_)
    · rw [Path.mem_sort, List.mem_filter, Bool.and_eq_true, Path.contains_suffix_iff, ← and_assoc,
        mem_filesBelow_iff hd hisDirectory]
      constructor
      · rintro ⟨⟨names, name, content, hfile, hat⟩, hsuffix⟩
        exact ⟨names, name, content, hfile, hat, hsuffix⟩
      · rintro ⟨names, name, content, hfile, hat, hsuffix⟩
        exact ⟨⟨names, name, content, hfile, hat⟩, hsuffix⟩
    · exact (nodup_pathsBelow hd).sublist (List.filter_sublist.map _)
  · rename_i hnot
    refine .itself fun d hd => ?_
    rw [← Bool.not_eq_true]
    exact fun hdirectory => hnot (isDirectory_iff.mpr ⟨d, hd, hdirectory⟩)

/-- An argument stands for one list of files. -/
theorem Expansion.unique {extensions : List String} {files files' : List Path}
    (h : t.Expansion extensions path files) (h' : t.Expansion extensions path files') :
    files = files' := by
  cases h with
  | itself hnot =>
    cases h' with
    | itself => rfl
    | below hd hdirectory => exact absurd (hnot _ hd) (by rw [hdirectory]; exact Bool.noConfusion)
  | below hd hdirectory hmem hsorted =>
    cases h' with
    | itself hnot => exact absurd (hnot _ hd) (by rw [hdirectory]; exact Bool.noConfusion)
    | below hd' _ hmem' hsorted' =>
      cases hd.symm.trans hd'
      exact Path.eq_of_pairwise_lt hsorted hsorted' fun file => (hmem file).trans (hmem' file).symm

/-- The files found below a directory, in any order, decide what it stands for. -/
theorem expand_of_perm {extensions : List String} {files : List Path}
    (h : t.isDirectory path = true)
    (hfound : ((t.pathsBelow path).filter fun p =>
      t.isFile p && extensions.contains p.suffix).Perm files)
    (hsorted : files.Pairwise (·.parts < ·.parts)) : t.expand extensions path = files :=
  (if_pos h).trans (Path.sort_eq_of_perm hfound hsorted)

/-! ## What all arguments stand for -/

theorem collect_eq_iff {extensions : List String} {paths files : List Path} :
    t.collect extensions paths = files ↔
      ∃ parts, List.Forall₂ (t.Expansion extensions) paths parts ∧ files = parts.flatten := by
  have hparts : List.Forall₂ (t.Expansion extensions) paths (paths.map (t.expand extensions)) :=
    List.forall₂_map_right_iff.mpr
      (List.forall₂_same.mpr fun path _ => t.expand_expansion extensions path)
  have hcollect : t.collect extensions paths = (paths.map (t.expand extensions)).flatten :=
    List.flatMap_def
  constructor
  · rintro rfl
    exact ⟨_, hparts, hcollect⟩
  · rintro ⟨parts, hparts', rfl⟩
    have hunique : Relator.RightUnique (t.Expansion extensions) := fun _ _ _ => Expansion.unique
    rw [hcollect, hunique.forall₂ hparts hparts']

/-- What an argument stands for are files, if it leads to something. -/
theorem find_mem_expand {extensions : List String} {file : Path}
    (hpath : ∃ n, t.find path = .ok n) (hfile : file ∈ t.expand extensions path) :
    ∃ name content, t.find file = .ok (.file name content) := by
  have hexpand := t.expand_expansion extensions path
  generalize t.expand extensions path = files at hexpand hfile
  cases hexpand with
  | itself hnot =>
    obtain rfl := List.mem_singleton.mp hfile
    obtain ⟨n, hfind⟩ := hpath
    cases n with
    | file name content => exact ⟨name, content, hfind⟩
    | directory => cases hnot _ hfind
  | below hd _ hmem_iff _ =>
    obtain ⟨names, name, content, rfl, hat, _⟩ := (hmem_iff file).mp hfile
    exact ⟨name, content, find_append hd hat⟩

/-- **The files that arguments stand for** are those of each argument, in the order of the
arguments. If all arguments lead to something, every one of the files is a file, and no directory is
among them, whatever it is called. -/
theorem collect_expands (t : FileTree) (extensions : List String) (paths : List Path) :
    (∀ files, t.collect extensions paths = files ↔
        ∃ parts, List.Forall₂ (t.Expansion extensions) paths parts ∧ files = parts.flatten) ∧
      ((∀ path ∈ paths, ∃ n, t.find path = .ok n) →
        ∀ file ∈ t.collect extensions paths,
          ∃ name content, t.find file = .ok (.file name content)) := by
  refine ⟨fun files => collect_eq_iff, fun hexist file hmem => ?_⟩
  obtain ⟨path, hpath, hfile⟩ := List.mem_flatMap.mp hmem
  exact find_mem_expand (hexist path hpath) hfile

/-- Files at several depths, a directory called like a component, and a file whose name is all
suffix. -/
def mixedTree : FileTree := .ofList [("b.txt", .file .empty), ("a.svelte/.svelte", .file .empty),
  ("a-b/x.svelte", .file .empty), ("a/x.svelte", .file .empty)]

/-- A file, the working directory, and a directory below it by its way from the root and back. -/
def mixedPaths : List Path := [.ofText "b.txt", .ofText ".", .ofText "/work/../work/a-b"]

theorem collect_mixedTree :
    (∀ path ∈ mixedPaths, ∃ n, mixedTree.find path = .ok n) ∧
      mixedTree.collect [".svelte"] mixedPaths = [.ofText "b.txt", .ofText "a/x.svelte",
        .ofText "a-b/x.svelte", .ofText "/work/../work/a-b/x.svelte"] ∧
      ∀ file ∈ mixedTree.collect [".svelte"] mixedPaths,
        ∃ name content, mixedTree.find file = .ok (.file name content) := by
  have hexist : ∀ path ∈ mixedPaths, ∃ n, mixedTree.find path = .ok n := by
    have hfound : ∀ path ∈ mixedPaths, (mixedTree.node? path).isSome = true := by decide +kernel
    exact fun path hpath => isSome_node?_iff.mp (hfound path hpath)
  have hfile : mixedTree.expand [".svelte"] (.ofText "b.txt") = [.ofText "b.txt"] :=
    if_neg (by decide +kernel)
  have hworking : mixedTree.expand [".svelte"] (.ofText ".") =
      [.ofText "a/x.svelte", .ofText "a-b/x.svelte"] :=
    expand_of_perm (by decide +kernel) (by decide +kernel) (by decide +kernel)
  have hbelow : mixedTree.expand [".svelte"] (.ofText "/work/../work/a-b") =
      [.ofText "/work/../work/a-b/x.svelte"] :=
    expand_of_perm (by decide +kernel) (by decide +kernel) (by decide +kernel)
  have hcollect : mixedTree.collect [".svelte"] mixedPaths = [.ofText "b.txt", .ofText "a/x.svelte",
      .ofText "a-b/x.svelte", .ofText "/work/../work/a-b/x.svelte"] := by
    simp only [collect, mixedPaths, List.flatMap_cons, List.flatMap_nil, hfile, hworking, hbelow]
    rfl
  exact ⟨hexist, hcollect, (collect_expands mixedTree [".svelte"] mixedPaths).2 hexist⟩

end FileTree

end RawHtmlLint
