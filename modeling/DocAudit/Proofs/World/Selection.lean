import DocAudit.Proofs.Text.Position
import DocAudit.Proofs.World.Walk
import Mathlib.Data.List.Sort
import Mathlib.Data.List.TakeWhile

namespace DocAudit

/-!
# Which files a walk selects

The files of a walk depend on nothing but the names in the tree: the suffix of the file and the
directories below the root decide, and the order is that of the names.

* `SplitsAtPoint`, `HasSuffix` — the suffix of a file name;
* `hasSuffix_iff` — `fileSuffix` finds it;
* `FileTree.Alike`, `World.Walks.eq` — trees that hold the same files have the same walks;
* `World.walk_selects` — the files that a walk selects.
-/

variable {name suffix : String} {stem ending : List Char}

/-! ### Suffixes -/

/-- The last point of the name stands between `stem` and `ending`, and is neither its first nor its last
    character. -/
structure SplitsAtPoint (name : String) (stem ending : List Char) : Prop where
  /-- The name consists of the two parts and the point. -/
  name_eq : name.toList = stem ++ '.' :: ending
  /-- The point is not the first character. -/
  stem_ne_nil : stem ≠ []
  /-- The point is not the last character. -/
  ending_ne_nil : ending ≠ []
  /-- There is no later point. -/
  point_not_mem : '.' ∉ ending

/-- The suffix of a file name: from its last point on, if this is neither the first nor the last
    character, and otherwise empty. -/
inductive HasSuffix (name : String) : String → Prop where
  /-- A name with such a point. -/
  | dotted {stem ending : List Char} (h : SplitsAtPoint name stem ending) :
      HasSuffix name ("." ++ String.ofList ending)
  /-- Any other name. -/
  | plain (h : ∀ stem ending, ¬SplitsAtPoint name stem ending) : HasSuffix name ""

theorem SplitsAtPoint.fileSuffix_eq (h : SplitsAtPoint name stem ending) :
    fileSuffix name = "." ++ String.ofList ending := by
  have hending : ∀ c ∈ ending.reverse, (c != '.') = true := Text.bne_of_mem_reverse h.point_not_mem
  have htake : (name.toList.reverse.takeWhile (· != '.')).reverse = ending := by
    rw [h.name_eq, List.reverse_append, List.reverse_cons, List.append_assoc,
      List.takeWhile_append_of_pos hending]
    simp
  have hlength : ¬name.length ≤ ending.length + 1 := by
    have hstem := List.length_pos_iff.2 h.stem_ne_nil
    rw [← String.length_toList, h.name_eq, List.length_append, List.length_cons]
    omega
  simp [fileSuffix, htake, h.ending_ne_nil, hlength]

/-- Where a suffix is found, it stands behind such a point. -/
theorem exists_splitsAtPoint (h : fileSuffix name ≠ "") :
    ∃ stem ending, SplitsAtPoint name stem ending := by
  unfold fileSuffix at h
  generalize hending : (name.toList.reverse.takeWhile (· != '.')).reverse = ending at h
  rw [ne_eq, ite_eq_left_iff, Classical.not_imp, Bool.or_eq_true, not_or, List.isEmpty_iff,
    decide_eq_true_eq] at h
  obtain ⟨⟨hne, hlength⟩, _⟩ := h
  have hmem : '.' ∉ ending := by
    intro hmem
    rw [← hending, List.mem_reverse] at hmem
    exact absurd (List.mem_takeWhile_imp hmem) (by simp)
  -- What stands in front of the ending, read backwards, starts with the point.
  have hpoint := List.head?_dropWhile_not (· != '.') name.toList.reverse
  have hname : name.toList = (name.toList.reverse.dropWhile (· != '.')).reverse ++ ending := by
    rw [← hending, ← List.reverse_append, List.takeWhile_append_dropWhile, List.reverse_reverse]
  generalize name.toList.reverse.dropWhile (· != '.') = front at hpoint hname
  rw [← String.length_toList, hname] at hlength
  cases front with
  | nil =>
    simp at hlength
  | cons c front =>
    obtain rfl : c = '.' := by simpa using hpoint
    refine ⟨front.reverse, ending, by simpa using hname, ?_, hne, hmem⟩
    rintro hnil
    rw [List.reverse_eq_nil_iff.1 hnil] at hlength
    simp at hlength

/-- **The suffix that is computed is the suffix of the name.** -/
theorem hasSuffix_iff : HasSuffix name suffix ↔ fileSuffix name = suffix := by
  constructor
  · rintro (h | h)
    · exact h.fileSuffix_eq
    · by_contra hne
      obtain ⟨stem, ending, hsplit⟩ := exists_splitsAtPoint hne
      exact h stem ending hsplit
  · rintro rfl
    by_cases hempty : fileSuffix name = ""
    · rw [hempty]
      refine .plain fun stem ending h => ?_
      rw [h.fileSuffix_eq, String.append_eq_empty_iff] at hempty
      exact absurd hempty.1 (by decide)
    · obtain ⟨stem, ending, h⟩ := exists_splitsAtPoint hempty
      rw [h.fileSuffix_eq]
      exact .dotted h

/-! ### Trees that hold the same files -/

namespace FileTree

/-- The trees hold files and directories at the same locations, whatever the order in which these were
    created and whatever the files contain. -/
structure Alike (t t' : FileTree) : Prop where
  /-- Files are at the same locations. -/
  isFile_eq : ∀ l, t.isFile l = t'.isFile l
  /-- Directories are at the same locations. -/
  isDirectory_eq : ∀ l, t.isDirectory l = t'.isDirectory l

/-- Trees that were created in different orders are alike. -/
theorem alike_of_perm {t t' : FileTree} (h : t.entries.Perm t'.entries) : t.Alike t' where
  isFile_eq l := by
    rw [Bool.eq_iff_iff, isFile_iff, isFile_iff]
    exact exists_congr fun bytes => h.mem_iff
  isDirectory_eq l := by
    rw [isDirectory, isDirectory, decide_eq_decide, IsDirectory, IsDirectory, h.mem_iff]

end FileTree

namespace World

variable {w w' : World} {root : Path} {base : Location} {s : Selection}

theorem directoryAt?_congr (ht : w.tree.Alike w'.tree) (hd : w.directory = w'.directory)
    (p : Path) : w.directoryAt? p = w'.directoryAt? p := by
  have hstep : step w.tree = step w'.tree := by
    funext l part
    rw [step, step, ht.isDirectory_eq, ht.isFile_eq]
  have hstart : w.start p = w'.start p := by
    rw [start, start, hd]
  simp only [directoryAt?, locate, hstep, hstart, ht.isDirectory_eq]

/-- In trees that are alike, walks find the same files. -/
theorem Walks.eq {files files' : List Path} (h : w.Walks root s files) (h' : w'.Walks root s files')
    (ht : w.tree.Alike w'.tree) (hd : w.directory = w'.directory) : files = files' := by
  obtain ⟨base, found, hbase, rfl, hsorted, hmem⟩ := h
  obtain ⟨base', found', hbase', rfl, hsorted', hmem'⟩ := h'
  rw [directoryAt?_congr ht hd, hbase', Option.some.injEq] at hbase
  obtain rfl := hbase
  have hsame : ∀ l, l ∈ found ↔ l ∈ found' := fun l => by rw [hmem, hmem', ht.isFile_eq]
  -- Both lists are in strict order, so their members make them up.
  rw [hsorted.eq_of_mem_iff hsorted' hsame]

/-- The file at the path is selected: it lies below the root, its suffix is one of those wanted, and no
    directory between the root and its name is left out. -/
def Selects (w : World) (root : Path) (base : Location) (s : Selection) (p : Path) : Prop :=
  ∃ directories name suffix, p = root.below (directories ++ [name]) ∧
    w.tree.isFile (base ++ (directories ++ [name])) = true ∧
    HasSuffix name suffix ∧ suffix ∈ s.suffixes ∧ ∀ part ∈ directories, part ∉ s.excluded

theorem selects_iff {p : Path} : w.Selects root base s p ↔
    ∃ l, (w.tree.isFile (base ++ l) = true ∧ s.Takes l) ∧ root.below l = p := by
  constructor
  · rintro ⟨directories, name, suffix, rfl, hfile, hsuffix, hmem, hparts⟩
    rw [hasSuffix_iff] at hsuffix
    exact ⟨_, ⟨hfile, directories, name, rfl, hsuffix ▸ hmem, hparts⟩, rfl⟩
  · rintro ⟨_, ⟨hfile, directories, name, rfl, hmem, hparts⟩, rfl⟩
    exact ⟨directories, name, _, rfl, hfile, hasSuffix_iff.2 rfl, hmem, hparts⟩

/-- **A walk selects just the files that it is to select.**  Each of them appears once, in the order of
    the parts of their paths, and a tree with the same entries has the same walk, in whichever order these
    were created. -/
theorem walk_selects (h : w.directoryAt? root = some base) (s : Selection) :
    (∀ p, p ∈ w.walk root s ↔ w.Selects root base s p) ∧
    (w.walk root s).Nodup ∧
    (w.walk root s).Pairwise (fun p q => p.parts < q.parts) ∧
    ∀ w' : World, w'.directory = w.directory → w'.tree.entries.Perm w.tree.entries →
      w'.walk root s = w.walk root s := by
  have hdirectory : w.isDirectory root = true := by rw [isDirectory, h, Option.isSome_some]
  have hwalks : w.Walks root s (w.walk root s) := walk_walks hdirectory
  obtain ⟨base', found, hbase, hfiles, hsorted, hmem⟩ := id hwalks
  obtain rfl : base = base' := Option.some.inj (h.symm.trans hbase)
  have hparts : (w.walk root s).Pairwise fun p q => p.parts < q.parts := by
    rw [hfiles, List.pairwise_map]
    exact hsorted.imp fun hlt => List.append_left_lt hlt
  refine ⟨fun p => ?_, hparts.imp ?_, hparts, fun w' hd hperm => ?_⟩
  · rw [hfiles, List.mem_map, selects_iff]
    exact exists_congr fun l => and_congr_left' (hmem l)
  · rintro p _ hlt rfl
    exact List.lt_irrefl _ hlt
  · have halike : w'.tree.Alike w.tree := FileTree.alike_of_perm hperm
    refine Walks.eq (walk_walks ?_) hwalks halike hd
    rw [isDirectory, directoryAt?_congr halike hd, h, Option.isSome_some]

/-- A directory with the name of one that is left out.  Below it are a file and, in another directory of
    that name, a second one. -/
def targetEntries : List (Location × TreeEntry) :=
  [(["target"], .directory), (["target", "src"], .directory), (["target", "src", "a.rs"], .file []),
    (["target", "target"], .directory), (["target", "target", "b.rs"], .file [])]

/-- A world with that directory. -/
def targetWorld : World where
  tree := { entries := targetEntries, nodup := by decide, grounded := by decide }
  directory := []

/-- The same world, created from the last entry to the first one. -/
def reversedWorld : World where
  tree := { entries := targetEntries.reverse, nodup := by decide, grounded := by decide }
  directory := []

/-- A walk from the directory finds the first file, though directories and files of its names are left
    out, and not the second one.  In which order the files were created does not matter. -/
theorem targetWorld_walk :
    targetWorld.directoryAt? ⟨"", ["target"]⟩ = some ["target"] ∧
    ⟨"", ["target", "src", "a.rs"]⟩ ∈
      reversedWorld.walk ⟨"", ["target"]⟩ ⟨[".rs"], ["target", "a.rs"]⟩ ∧
    ⟨"", ["target", "target", "b.rs"]⟩ ∉
      reversedWorld.walk ⟨"", ["target"]⟩ ⟨[".rs"], ["target", "a.rs"]⟩ := by
  have hroot : targetWorld.directoryAt? ⟨"", ["target"]⟩ = some ["target"] := by decide
  obtain ⟨hmem, _, _, horder⟩ := walk_selects hroot ⟨[".rs"], ["target", "a.rs"]⟩
  rw [horder reversedWorld rfl (List.reverse_perm _), hmem, hmem]
  refine ⟨hroot, ?_, ?_⟩
  · have hpoint : SplitsAtPoint "a.rs" ['a'] ['r', 's'] := ⟨rfl, by decide, by decide, by decide⟩
    exact ⟨["src"], "a.rs", ".rs", rfl, by decide, .dotted hpoint, by decide, by decide⟩
  · rintro ⟨directories, name, suffix, hpath, _, _, _, hparts⟩
    have hpaths : ["target"] ++ ["target", "b.rs"] = ["target"] ++ (directories ++ [name]) := by
      simpa using (Path.mk.inj hpath).2
    have hsplit : ["target"] ++ ["b.rs"] = directories ++ [name] := List.append_cancel_left hpaths
    obtain ⟨rfl, _⟩ := List.append_inj' hsplit rfl
    exact hparts "target" (by decide) (by decide)

end World

end DocAudit
