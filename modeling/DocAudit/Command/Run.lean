import DocAudit.Audit
import DocAudit.Command.Arguments
import DocAudit.Settings
import DocAudit.World.Walk

namespace DocAudit.Command

/-!
# A run over files

* `checkFile` — the check of one file;
* `collect` — the files that the paths of a command line stand for;
* `run` — the check of all of them, with what is printed and logged.
-/

/-! ### One file -/

/-- How the check of a file ends. -/
inductive Verdict where
  /-- The file passes. -/
  | passed
  /-- The file cannot be opened. -/
  | unreadable (name : String) (fault : AccessFault)
  /-- The file has a problem. -/
  | problem (p : Problem)
deriving DecidableEq, Repr

namespace Verdict

/-- Whether the file passes. -/
def passes : Verdict → Bool
  | .passed => true
  | .unreadable _ _ | .problem _ => false

/-- The lines that report the verdict.  Where there are several files, a problem is reported with
    the file. -/
def report (single : Bool) (path : Path) : Verdict → List String
  | .passed => []
  | .unreadable name fault => [s!"failed to read the file, error: {fault.message name}"]
  | .problem p => [if single then p.message else s!"{path.text}: {p.message}"]

end Verdict

/-- The check of a file. -/
structure FileCheck where
  /-- The listings. -/
  printed : String := ""
  /-- What was logged. -/
  log : List LogEntry := []
  /-- How it ends. -/
  verdict : Verdict
deriving DecidableEq, Repr

/-- The log of reading a file. -/
def readingLog (name : String) (bytewise : Bool) : List LogEntry :=
  if bytewise then [.byteText name] else []

/-- Checks the file that is opened under a name. -/
def checkFile (w : World) (showTokens : Bool) (name : String) : FileCheck :=
  match w.read name with
  | .error fault => { verdict := .unreadable name fault }
  | .ok bytes =>
    let source := Text.ofSourceBytes bytes
    let audit := audit name showTokens source.text
    { printed := audit.printed
      log := readingLog name source.bytewise ++ .checking name :: audit.log
      verdict := match audit.problem? with
        | none => .passed
        | some p => .problem p }

/-! ### The files of a run -/

/-- Why the files of a run cannot be told. -/
inductive CollectFault where
  /-- The path leads to no file, nor to a directory that may be walked. -/
  | noFile (path : Path)
  /-- The settings name no suffixes or directories. -/
  | notNames (e : NotNames)
deriving DecidableEq, Repr

/-- What the settings let a walk take.  The directories are looked at first. -/
def selection? (s : Settings) : Except NotNames Selection := do
  let excluded ← s.excluded?
  let suffixes ← s.suffixes?
  return { suffixes, excluded }

/-- The files below a directory that the settings let a walk take. -/
def walk (w : World) (s : Settings) (root : Path) : Except NotNames (List Path) := do
  return w.walk root (← selection? s)

/-- The files that a path stands for. -/
def filesOf (w : World) (s : Settings) (recursive : Bool) (path : Path) :
    Except CollectFault (List Path) :=
  if w.isFile path then .ok [path]
  else if recursive && w.isDirectory path then
    match walk w s path with
    | .ok files => .ok files
    | .error e => .error (.notNames e)
  else .error (.noFile path)

/-- The files that the paths stand for, in their order. -/
def collect (w : World) (s : Settings) (recursive : Bool) (paths : List Path) :
    Except CollectFault (List Path) := do
  return (← paths.mapM (filesOf w s recursive)).flatten

/-! ### A run -/

/-- How a run ends. -/
inductive Ending where
  /-- With an exit code. -/
  | exit (code : Nat)
  /-- The settings name no suffixes or directories. -/
  | notNames (e : NotNames)
deriving DecidableEq, Repr

/-- What a run leaves behind. -/
structure Report where
  /-- What it prints. -/
  printed : String := ""
  /-- What it logs. -/
  log : List LogEntry := []
  /-- How it ends. -/
  ending : Ending
deriving DecidableEq, Repr

/-- What is printed where no path is given. -/
def noPathText : String :=
  joinLines [s!"{programName} (v{programVersion})", "", "expected a path to be specified", ""]

/-- What is printed where a path leads to no file. -/
def noFileText (path : Path) : String :=
  joinLines [s!"expected \"{path.text}\" to point to a file"]

/-- What is printed about a file. -/
def block (single : Bool) (path : Path) (check : FileCheck) : String :=
  check.printed ++ joinLines (check.verdict.report single path)

/-- Whether a problem is reported without its file: one file was collected, and the first path is a
    file. -/
def isSingle (w : World) (paths files : List Path) : Bool :=
  files.length == 1 && (paths.head?.map w.isFile).getD false

/-- The report on the files. -/
def reportOn (single : Bool) (checks : List (Path × FileCheck)) : Report :=
  let failed := checks.countP fun c => !c.2.verdict.passes
  { printed := String.join (checks.map fun c => block single c.1 c.2)
    log := checks.flatMap (fun c => c.2.log) ++ [.finished checks.length failed]
    ending := .exit (if failed = 0 then 0 else 1) }

/-- The report of a run, with all that might be logged. -/
def fullReport (w : World) (s : Settings) (o : Options) : Report :=
  if o.paths.isEmpty then { printed := noPathText, ending := .exit 1 }
  else
    match collect w s o.recursive o.paths with
    | .error (.noFile path) => { printed := noFileText path, ending := .exit 1 }
    | .error (.notNames e) => { ending := .notNames e }
    | .ok files =>
      let check (path : Path) := (path, checkFile w (o.printTokens || s.showTokens) path.text)
      reportOn (isSingle w o.paths files) (files.map check)

/-- Runs the command with its settings.  The log is kept only where debug messages are wanted. -/
def run (w : World) (s : Settings) (o : Options) : Report :=
  let report := fullReport w s o
  if o.verbose || s.logsDebug then report else { report with log := [] }

/-- What `--version` prints. -/
def versionText : String :=
  joinLines [s!"{programName} {programVersion}"]

/-- What `--help` prints. -/
def helpText : String :=
  joinLines
    [s!"usage: {programName} [options] [paths ...]", "",
      "Check that every declaration carries complete documentation", "",
      "  -h, --help            show this help message and exit",
      "  --version             show the version and exit",
      "  --print-tokens        print parsed tokens and declarations before checking",
      "  -r, --recursive       check matching files under directories",
      "  -c, --config CONFIG   path to a settings file",
      "  -v, --verbose         enable debug logging"]

end DocAudit.Command
