import DocAudit.Session

/-!
# The command

`main` takes a picture of the surroundings, runs the command in it and passes on what it prints.
-/

namespace DocAudit.Command

/-- The variables of the environment that the command looks at. -/
def variableNames : List String :=
  ["HOME", "DOCCHECK_CONFIG", "DOCCHECK_PRINT_TOKENS", "DOCCHECK_LOG_LEVEL"]

/-- The world with the file under this name at the location; what cannot be read is unreadable. -/
def addFile (w : World) (l : Location) (name : String) : IO World := do
  let here ← IO.currentDir
  try
    let bytes ← IO.FS.readBinFile (here / name)
    return { w with tree := (w.tree.putFile? l bytes.toList).getD w.tree }
  catch _ =>
    let marked := w.makeUnreadable name
    return { marked with tree := (w.tree.putFile? l []).getD w.tree }

/-- The world with the file or directory at the location, reached under this name; the flag tells
    which one it is. -/
def addEntry (w : World) (l : Location) (name : String) : IO (World × Bool) := do
  let file := (← IO.currentDir) / name
  if ← file.isDir then
    return ({ w with tree := (w.tree.addDirectory? l).getD w.tree }, true)
  else if ← file.pathExists then
    return (← addFile w l name, false)
  else
    return (w, false)

/-- The world with everything below the directory at the path and the location. -/
partial def addBelow (w : World) (l : Location) (path : Path) : IO World := do
  let mut world := w
  for entry in ← ((← IO.currentDir) / path.text).readDir do
    let inside := path.below [entry.fileName]
    let location := l ++ [entry.fileName]
    let (next, isDirectory) ← addEntry world location inside.text
    world ← if isDirectory then addBelow next location inside else pure next
  return world

/-- The world with what the path leads to, and with everything below it if that is asked for. -/
def addPath (recursive : Bool) (w : World) (path : Path) : IO World := do
  let mut world := w
  let mut location := w.start path
  let mut passed : Path := { path with parts := [] }
  let mut isDirectory := true
  for part in path.parts do
    passed := passed.below [part]
    if part = parentName then
      location := location.dropLast
      isDirectory := true
    else
      location := location ++ [part]
      (world, isDirectory) ← addEntry world location passed.text
  if recursive && isDirectory then addBelow world location path else return world

/-- The surroundings as far as a command line concerns them. -/
def surroundings (args : List String) : IO World := do
  let here := Path.ofText (← IO.currentDir).toString
  let mut environment := []
  for name in variableNames do
    if let some value ← IO.getEnv name then environment := (name, value) :: environment
  let bare : World := { tree := .empty, directory := here.parts, environment }
  let empty := (bare.makeDirectories? here).getD bare
  match parse args with
  | .ok (.run options) =>
    let world ← (Settings.candidates empty options.config?).foldlM (addPath false) empty
    options.paths.foldlM (addPath options.recursive) world
  | _ => return empty

/-- Passes a report on, and gives its exit code. -/
def deliver (report : Report) (failed : List Path) : IO UInt32 := do
  for path in failed do
    IO.eprintln (Settings.loadWarning path)
  IO.print report.printed
  for entry in report.log do
    IO.eprintln entry.line
  match report.ending with
  | .exit code => return UInt32.ofNat code
  | .notNames e =>
    IO.eprintln e.message
    return 1

end DocAudit.Command

open DocAudit in
/-- Runs the command. -/
def main (args : List String) : IO UInt32 := do
  let world ← Command.surroundings args
  match Settings.certain (Session.command Yaml.document { world } args).2 with
  | .refused fault =>
    IO.eprintln fault.line
    return 2
  | .report report failed => Command.deliver report failed
