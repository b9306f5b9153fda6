import DocAudit.World.Walk
import Mathlib.Data.List.Basic
import Mathlib.Tactic.ByContra

namespace DocAudit

/-!
# What a walk finds

A walk takes just the files that it is to take, each once, in the order of their parts.

* `FileTree.mem_filesBelow_iff`, `FileTree.nodup_filesBelow` — the files below a directory, each once;
* `Selection.Takes` — which of them are taken;
* `sortLocations_pairwise` — the order;
* `World.Walks`, `World.walk_walks` — the files of a walk.
-/

variable {l base : Location}

/-! ### The files below a directory -/

namespace FileTree

theorem isFile_iff {t : FileTree} :
    t.isFile l = true ↔ ∃ bytes, (l, TreeEntry.file bytes) ∈ t.entries := by
  rw [isFile, bytes?, List.isSome_findSome?, List.any_eq_true]
  constructor
  · rintro ⟨⟨l', entry⟩, hmem, hsome⟩
    cases entry with
    | directory => cases hsome
    | file bytes =>
      by_cases h : l' = l
      · exact ⟨bytes, h ▸ hmem⟩
      · simp [h] at hsome
  · rintro ⟨bytes, hmem⟩
    exact ⟨_, hmem, by simp⟩

/-- **The files below a directory** are those at the locations that go on from it. -/
theorem mem_filesBelow_iff {t : FileTree} : l ∈ t.filesBelow base ↔ t.isFile (base ++ l) = true := by
  rw [isFile_iff, filesBelow, List.mem_filterMap]
  constructor
  · rintro ⟨⟨l', entry⟩, hmem, hsome⟩
    cases entry with
    | directory => cases hsome
    | file bytes =>
      rw [Option.ite_none_right_eq_some, List.isPrefixOf_iff_prefix, Option.some.injEq] at hsome
      obtain ⟨⟨behind, rfl⟩, rfl⟩ := hsome
      exact ⟨bytes, by rwa [List.drop_left]⟩
  · rintro ⟨bytes, hmem⟩
    refine ⟨_, hmem, ?_⟩
    show (if base.isPrefixOf (base ++ l) then some ((base ++ l).drop base.length) else none) = some l
    rw [if_pos (List.isPrefixOf_iff_prefix.2 (List.prefix_append base l)), List.drop_left]

theorem nodup_filesBelow (t : FileTree) (base : Location) : (t.filesBelow base).Nodup := by
  have hlocations : t.entries.Pairwise fun d e => d.1 ≠ e.1 := List.pairwise_map.1 t.nodup
  refine List.pairwise_filterMap.2 (hlocations.imp ?_)
  rintro ⟨l, entry⟩ ⟨l', entry'⟩ hne a ha b hb rfl
  -- Two files with one remainder below the directory are at one location.
  cases entry with
  | directory => cases ha
  | file bytes =>
    cases entry' with
    | directory => cases hb
    | file bytes' =>
      rw [Option.ite_none_right_eq_some, List.isPrefixOf_iff_prefix, Option.some.injEq] at ha hb
      obtain ⟨⟨behind, rfl⟩, rfl⟩ := ha
      obtain ⟨⟨behind', rfl⟩, hb⟩ := hb
      rw [List.drop_left, List.drop_left] at hb
      exact hne (congrArg (base ++ ·) hb.symm)

end FileTree

/-! ### Which files are taken -/

/-- The file has one of the suffixes, and lies in none of the directories that are left out. -/
def Selection.Takes (s : Selection) (file : Location) : Prop :=
  ∃ directories name, file = directories ++ [name] ∧ fileSuffix name ∈ s.suffixes ∧
    ∀ part ∈ directories, part ∉ s.excluded

theorem Selection.takes_iff {s : Selection} : s.takes l = true ↔ s.Takes l := by
  rcases List.eq_nil_or_concat' l with rfl | ⟨directories, name, rfl⟩
  · simp [takes, Takes]
  · rw [takes, List.getLast?_concat, List.dropLast_concat, Bool.and_eq_true, List.all_eq_true,
      List.contains_iff_mem]
    constructor
    · rintro ⟨hsuffix, hparts⟩
      exact ⟨directories, name, rfl, hsuffix, fun part hpart => by simpa using hparts part hpart⟩
    · rintro ⟨directories', name', heq, hsuffix, hparts⟩
      obtain ⟨rfl, hname⟩ := List.append_inj' heq rfl
      obtain rfl := List.singleton_inj.1 hname
      exact ⟨hsuffix, fun part hpart => by simpa using hparts part hpart⟩

/-! ### The order -/

theorem sortLocations_pairwise {files : List Location} (h : files.Nodup) :
    (sortLocations files).Pairwise (· < ·) := by
  have htrans : ∀ a b c : Location, ¬b < a → ¬c < b → ¬c < a := fun a b c => List.le_trans
  have htotal : ∀ a b : Location, ¬b < a ∨ ¬a < b := List.le_total
  have hantisymm : ∀ a b : Location, ¬b < a → ¬a < b → a = b := fun a b => List.le_antisymm
  have hsorted : (sortLocations files).Pairwise fun a b => ¬b < a := by
    refine (List.pairwise_mergeSort ?_ ?_ files).imp ?_
    · intro a b c
      simpa only [Bool.not_eq_true', decide_eq_false_iff_not] using htrans a b c
    · intro a b
      simpa only [Bool.or_eq_true, Bool.not_eq_true', decide_eq_false_iff_not] using htotal a b
    · intro a b hab
      simpa only [Bool.not_eq_true', decide_eq_false_iff_not] using hab
  have hnodup : (sortLocations files).Nodup := (List.mergeSort_perm files _).nodup_iff.2 h
  -- Without repetitions the order is strict.
  refine hsorted.imp₂ (fun a b hab hne => ?_) hnodup
  by_contra hlt
  exact hne (hantisymm a b hab hlt)

/-- The files that a walk finds below the directory at a path: all that are taken, each once, in the
    order of the names that lead to them. -/
def World.Walks (w : World) (root : Path) (s : Selection) (files : List Path) : Prop :=
  ∃ (base : Location) (found : List Location), w.directoryAt? root = some base ∧
    files = found.map root.below ∧ found.Pairwise (· < ·) ∧
      ∀ l, l ∈ found ↔ w.tree.isFile (base ++ l) = true ∧ s.Takes l

/-- **A walk finds just the files that are to be taken.** -/
theorem World.walk_walks {w : World} {root : Path} {s : Selection} (h : w.isDirectory root = true) :
    w.Walks root s (w.walk root s) := by
  obtain ⟨base, hbase⟩ := Option.isSome_iff_exists.1 h
  refine ⟨base, sortLocations ((w.tree.filesBelow base).filter s.takes), hbase, ?_, ?_, ?_⟩
  · rw [walk, hbase]
  · exact sortLocations_pairwise ((w.tree.nodup_filesBelow base).filter _)
  · intro l
    rw [sortLocations, List.mem_mergeSort, List.mem_filter, FileTree.mem_filesBelow_iff,
      Selection.takes_iff]

end DocAudit
