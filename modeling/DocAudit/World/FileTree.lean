namespace DocAudit

/-!
# File trees

A `FileTree` holds the files and directories below one root.  Everything in it lies in a directory
that is also in it, and no location occurs twice.

* `FileTree.isDirectory`, `FileTree.bytes?` — what is at a location;
* `FileTree.addDirectory?`, `FileTree.putFile?`, `FileTree.removeFile` — changes;
* `FileTree.filesBelow` — the files below a directory.
-/

/-- The names that lead from the root to a file or directory. -/
abbrev Location := List String

/-- What may be at a location. -/
inductive TreeEntry where
  /-- A directory. -/
  | directory
  /-- A file with its content. -/
  | file (bytes : List UInt8)
deriving DecidableEq, Repr

/-- Whether the entries put a directory at the location; the root always is one. -/
def IsDirectory (entries : List (Location × TreeEntry)) (l : Location) : Prop :=
  l = [] ∨ (l, TreeEntry.directory) ∈ entries

instance (entries : List (Location × TreeEntry)) (l : Location) :
    Decidable (IsDirectory entries l) :=
  inferInstanceAs (Decidable (_ ∨ _))

/-- The files and directories below a root. -/
structure FileTree where
  /-- Every location with what is there, in the order of creation. -/
  entries : List (Location × TreeEntry)
  /-- No location occurs twice. -/
  nodup : (entries.map Prod.fst).Nodup
  /-- Every location but the root lies in a directory. -/
  grounded : ∀ e ∈ entries, e.1 ≠ [] ∧ IsDirectory entries e.1.dropLast

namespace FileTree

/-- The root directory alone. -/
def empty : FileTree where
  entries := []
  nodup := List.nodup_nil
  grounded := by simp

/-! ### What is at a location -/

/-- Whether a directory is at the location. -/
def isDirectory (t : FileTree) (l : Location) : Bool :=
  decide (IsDirectory t.entries l)

/-- The content of the file at the location. -/
def bytes? (t : FileTree) (l : Location) : Option (List UInt8) :=
  t.entries.findSome? fun
    | (l', .file bytes) => if l' = l then some bytes else none
    | (_, .directory) => none

/-- Whether a file is at the location. -/
def isFile (t : FileTree) (l : Location) : Bool :=
  (t.bytes? l).isSome

/-- The files below the directory at the location, each by the names that lead to it from there. -/
def filesBelow (t : FileTree) (base : Location) : List Location :=
  t.entries.filterMap fun
    | (l, .file _) => if base.isPrefixOf l then some (l.drop base.length) else none
    | (_, .directory) => none

/-! ### Changes -/

theorem isDirectory_append {entries : List (Location × TreeEntry)} {l : Location}
    (more : List (Location × TreeEntry)) (h : IsDirectory entries l) :
    IsDirectory (entries ++ more) l :=
  h.imp_right fun mem => List.mem_append_left more mem

/-- Appending an entry in a directory, at a location that does not occur, keeps entries grounded. -/
theorem grounded_append {entries : List (Location × TreeEntry)} {l : Location} (entry : TreeEntry)
    (hg : ∀ e ∈ entries, e.1 ≠ [] ∧ IsDirectory entries e.1.dropLast)
    (hl : l ≠ []) (hd : IsDirectory entries l.dropLast) :
    ∀ e ∈ entries ++ [(l, entry)],
      e.1 ≠ [] ∧ IsDirectory (entries ++ [(l, entry)]) e.1.dropLast := by
  intro e he
  rcases List.mem_append.1 he with he | he
  · exact ⟨(hg e he).1, isDirectory_append _ (hg e he).2⟩
  · obtain rfl := List.mem_singleton.1 he
    exact ⟨hl, isDirectory_append _ hd⟩

theorem nodup_append_location {entries : List (Location × TreeEntry)} {l : Location}
    (entry : TreeEntry) (hn : (entries.map Prod.fst).Nodup) (hl : l ∉ entries.map Prod.fst) :
    ((entries ++ [(l, entry)]).map Prod.fst).Nodup := by
  rw [List.map_append, List.nodup_append]
  refine ⟨hn, by simp, ?_⟩
  intro a ha b hb
  obtain rfl : b = l := by simpa using hb
  exact fun h => hl (h ▸ ha)

/-- The tree with a directory at a location where nothing is yet. -/
def addDirectory? (t : FileTree) (l : Location) : Option FileTree :=
  if h : l ≠ [] ∧ IsDirectory t.entries l.dropLast ∧ l ∉ t.entries.map Prod.fst then
    some
      { entries := t.entries ++ [(l, .directory)]
        nodup := nodup_append_location _ t.nodup h.2.2
        grounded := grounded_append _ t.grounded h.1 h.2.1 }
  else none

/-- The entries without what is at the location. -/
def without (entries : List (Location × TreeEntry)) (l : Location) : List (Location × TreeEntry) :=
  entries.filter fun e => e.1 ≠ l

theorem not_mem_without (entries : List (Location × TreeEntry)) (l : Location) :
    l ∉ (without entries l).map Prod.fst := by
  simp [without]

theorem nodup_without {entries : List (Location × TreeEntry)} (l : Location)
    (hn : (entries.map Prod.fst).Nodup) : ((without entries l).map Prod.fst).Nodup :=
  hn.sublist (List.filter_sublist.map _)

theorem isDirectory_without {entries : List (Location × TreeEntry)} {l d : Location}
    (hl : ¬ IsDirectory entries l) (hd : IsDirectory entries d) :
    IsDirectory (without entries l) d := by
  rcases hd with hd | hd
  · exact .inl hd
  · refine .inr (List.mem_filter.2 ⟨hd, ?_⟩)
    have hne : d ≠ l := fun h => hl (h ▸ .inr hd)
    simpa using hne

/-- Without what is at a location, all else stays grounded, unless a directory is there. -/
theorem grounded_without {entries : List (Location × TreeEntry)} {l : Location}
    (hg : ∀ e ∈ entries, e.1 ≠ [] ∧ IsDirectory entries e.1.dropLast)
    (hl : ¬ IsDirectory entries l) :
    ∀ e ∈ without entries l, e.1 ≠ [] ∧ IsDirectory (without entries l) e.1.dropLast := by
  intro e he
  have mem := (List.mem_filter.1 he).1
  exact ⟨(hg e mem).1, isDirectory_without hl (hg e mem).2⟩

/-- The tree with a file of this content at the location, where no directory may be. -/
def putFile? (t : FileTree) (l : Location) (bytes : List UInt8) : Option FileTree :=
  if h : IsDirectory t.entries l.dropLast ∧ ¬ IsDirectory t.entries l then
    some
      { entries := without t.entries l ++ [(l, .file bytes)]
        nodup := nodup_append_location _ (nodup_without l t.nodup) (not_mem_without t.entries l)
        grounded :=
          grounded_append _ (grounded_without t.grounded h.2) (fun e => h.2 (.inl e))
            (isDirectory_without h.2 h.1) }
  else none

/-- The tree without the file at the location. -/
def removeFile (t : FileTree) (l : Location) : FileTree :=
  if h : IsDirectory t.entries l then t
  else
    { entries := without t.entries l
      nodup := nodup_without l t.nodup
      grounded := grounded_without t.grounded h }

end FileTree

end DocAudit
