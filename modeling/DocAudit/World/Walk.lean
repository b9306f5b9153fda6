import DocAudit.World.Basic

namespace DocAudit

/-!
# Walks through a directory

`World.walk` finds the files below a directory that have one of some suffixes and lie in none of
some directories, in the order of their parts.
-/

/-- Which files a walk takes. -/
structure Selection where
  /-- The suffixes, of which the file has to have one. -/
  suffixes : List String
  /-- The names of directories that are left out with everything below them. -/
  excluded : List String
deriving DecidableEq, Repr

namespace Selection

/-- Whether a walk takes the file, given by the names that lead to it. -/
def takes (s : Selection) (file : Location) : Bool :=
  match file.getLast? with
  | none => false
  | some name =>
    s.suffixes.contains (fileSuffix name) && file.dropLast.all fun part => !s.excluded.contains part

end Selection

/-- The files in the order of their parts. -/
def sortLocations (files : List Location) : List Location :=
  files.mergeSort fun a b => !decide (b < a)

/-- The files below the directory at the path that are taken, or none if no directory is there. -/
def World.walk (w : World) (root : Path) (s : Selection) : List Path :=
  match w.directoryAt? root with
  | none => []
  | some base => (sortLocations ((w.tree.filesBelow base).filter s.takes)).map root.below

end DocAudit
