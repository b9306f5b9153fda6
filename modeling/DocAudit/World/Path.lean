namespace DocAudit

/-!
# Paths

* `Path` — where a path starts, and its parts;
* `Path.ofText`, `Path.text` — a path from and to its written form;
* `Path.below` — a path that goes on;
* `fileSuffix` — the ending of a file name.
-/

/-- The name of the parent directory, as a part of a path. -/
def parentName : String := ".."

/-- A path.  Its parts are neither empty nor a single point; a part may lead back to the parent. -/
structure Path where
  /-- The slashes in front: none for a relative path, one or exactly two for an absolute one. -/
  anchor : String := ""
  /-- The parts between the slashes. -/
  parts : List String
deriving DecidableEq, Repr

namespace Path

/-- The path that a text writes.  Doubled and trailing slashes and parts of a single point do not
    count, but exactly two slashes in front differ from one. -/
def ofText (text : String) : Path :=
  let slashes := (text.toList.takeWhile (· == '/')).length
  { anchor := if slashes = 0 then "" else if slashes = 2 then "//" else "/"
    parts := ((text.toList.splitOn '/').map String.ofList).filter fun part =>
      part != "" && part != "." }

/-- Whether the path starts at the root. -/
def isAbsolute (p : Path) : Bool :=
  p.anchor != ""

/-- The written form.  The relative path without parts is a single point. -/
def text (p : Path) : String :=
  if p.anchor = "" ∧ p.parts = [] then "." else p.anchor ++ "/".intercalate p.parts

/-- The path of something below the path. -/
def below (p : Path) (parts : List String) : Path :=
  { p with parts := p.parts ++ parts }

end Path

/-- The ending of a file name from its last point on.  A point that is the first or the last
    character does not count. -/
def fileSuffix (name : String) : String :=
  let ending := (name.toList.reverse.takeWhile (· != '.')).reverse
  if ending.isEmpty || name.length ≤ ending.length + 1 then ""
  else "." ++ String.ofList ending

end DocAudit
