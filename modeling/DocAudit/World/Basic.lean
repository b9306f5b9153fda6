import DocAudit.Text.Quoted
import DocAudit.World.FileTree
import DocAudit.World.Path

namespace DocAudit

/-!
# The world of a run

What a run of the command finds around it: files, the directory it works in, and the variables of
its environment.

* `World.locate` — where in the tree a path leads;
* `World.isFile`, `World.isDirectory`, `World.exists?` — what is there;
* `World.read` — the content of a file;
* `World.makeDirectories?`, `World.write?`, `World.remove`, `World.setVariable` — changes.
-/

/-- Why a file cannot be opened. -/
inductive AccessFault where
  /-- Nothing can be opened under the name. -/
  | denied
  /-- Nothing is there. -/
  | missing
  /-- The path goes on below a file. -/
  | belowFile
  /-- A directory is there. -/
  | directory
deriving DecidableEq, Repr

/-- The number and the wording of the fault. -/
def AccessFault.describe : AccessFault → Nat × String
  | .denied => (13, "Permission denied")
  | .missing => (2, "No such file or directory")
  | .belowFile => (20, "Not a directory")
  | .directory => (21, "Is a directory")

/-- The report of the fault of opening a file under a name. -/
def AccessFault.message (fault : AccessFault) (name : String) : String :=
  let (number, wording) := fault.describe
  s!"[Errno {number}] {wording}: {Text.quoted name}"

/-- The surroundings of a run. -/
structure World where
  /-- All files and directories. -/
  tree : FileTree
  /-- The working directory. -/
  directory : Location
  /-- The variables of the environment. -/
  environment : List (String × String) := []
  /-- The home directory of the account, which counts where no variable names one. -/
  accountHome : Path := { anchor := "/", parts := ["root"] }
  /-- The names under which nothing can be opened. -/
  unreadable : List String := []

namespace World

/-! ### Variables -/

/-- The value of a variable. -/
def valueOf? (w : World) (name : String) : Option String :=
  w.environment.lookup name

/-- The world without the variable. -/
def unsetVariable (w : World) (name : String) : World :=
  { w with environment := w.environment.filter fun v => v.1 != name }

/-- The world with the variable set to the value. -/
def setVariable (w : World) (name value : String) : World :=
  { w with environment := (name, value) :: (w.unsetVariable name).environment }

/-- The working directory as a path. -/
def workingDirectory (w : World) : Path :=
  { anchor := "/", parts := w.directory }

/-- The home directory. -/
def home (w : World) : Path :=
  match w.valueOf? "HOME" with
  | some text => Path.ofText (if text.toList.all (· == '/') then "/" else text)
  | none => w.accountHome

/-! ### What is at a path -/

/-- One step from a location, which has to be a directory. -/
def step (t : FileTree) (l : Location) (part : String) : Except AccessFault Location :=
  if t.isDirectory l then .ok (if part = parentName then l.dropLast else l ++ [part])
  else .error (if t.isFile l then .belowFile else .missing)

/-- Where a relative path starts, or an absolute one. -/
def start (w : World) (p : Path) : Location :=
  if p.isAbsolute then [] else w.directory

/-- The location to which the path leads.  Nothing need be there, but everything on the way has to
    be a directory. -/
def locate (w : World) (p : Path) : Except AccessFault Location :=
  p.parts.foldlM (step w.tree) (w.start p)

/-- Whether the path leads to a file. -/
def isFile (w : World) (p : Path) : Bool :=
  match w.locate p with
  | .ok l => w.tree.isFile l
  | .error _ => false

/-- The location of the directory to which the path leads. -/
def directoryAt? (w : World) (p : Path) : Option Location :=
  match w.locate p with
  | .ok l => if w.tree.isDirectory l then some l else none
  | .error _ => none

/-- Whether the path leads to a directory. -/
def isDirectory (w : World) (p : Path) : Bool :=
  (w.directoryAt? p).isSome

/-- Whether the path leads to anything. -/
def isPresent (w : World) (p : Path) : Bool :=
  w.isFile p || w.isDirectory p

/-- The content of the file that is opened under a name, which is the written form of a path. -/
def read (w : World) (name : String) : Except AccessFault (List UInt8) := do
  if w.unreadable.contains name then throw .denied
  let l ← w.locate (Path.ofText name)
  match w.tree.bytes? l with
  | some bytes => return bytes
  | none => throw (if w.tree.isDirectory l then .directory else .missing)

/-! ### Changes -/

/-- The tree with the part of a path that stands at the location, made a directory if nothing is
    there. -/
def enter? (here : FileTree × Location) (part : String) : Option (FileTree × Location) :=
  let (t, l) := here
  if part = parentName then some (t, l.dropLast)
  else
    let next := l ++ [part]
    if t.isDirectory next then some (t, next) else (t.addDirectory? next).map (·, next)

/-- The tree and the location of the path, with every part made a directory. -/
def enterAll? (w : World) (p : Path) : Option (FileTree × Location) :=
  p.parts.foldlM enter? (w.tree, w.start p)

/-- The world with a directory at the path and at every part of it. -/
def makeDirectories? (w : World) (p : Path) : Option World :=
  (w.enterAll? p).map fun (tree, _) => { w with tree }

/-- The world with a file of this content at the path, and the directories that lead there. -/
def write? (w : World) (p : Path) (bytes : List UInt8) : Option World := do
  let name ← p.parts.getLast?
  let (t, l) ← w.enterAll? { p with parts := p.parts.dropLast }
  let tree ← t.putFile? (l ++ [name]) bytes
  return { w with tree }

/-- The world without the file at the path. -/
def remove (w : World) (p : Path) : World :=
  match w.locate p with
  | .ok l => { w with tree := w.tree.removeFile l }
  | .error _ => w

/-- The world in which nothing can be opened under the name. -/
def makeUnreadable (w : World) (name : String) : World :=
  { w with unreadable := name :: w.unreadable }

end World

end DocAudit
