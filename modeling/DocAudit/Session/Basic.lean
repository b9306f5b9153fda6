import DocAudit.Command.Run

namespace DocAudit

open Command

/-!
# Sessions

A session uses the command and its parts again and again, while the world around it changes.  The
settings are loaded once and kept until they are loaded anew or forgotten.  How settings files are read
is left open: where the reader fails in a way of its own, so does the step that loads settings, and the
session goes on as it was.

* `Session` — the world, and the settings that are kept;
* `Session.obtain` — the settings to work with, which may have to be loaded first;
* `Session.command` — one use of the command;
* `Step`, `Session.step` — what can be done in a session, and what comes of it;
* `Session.results` — what comes of steps one after the other.
-/

open Settings (DocumentReader Breakdown)

variable {Failure : Type}

/-- A world together with what is kept between two uses of the command. -/
structure Session where
  /-- The world. -/
  world : World
  /-- The settings that are kept. -/
  settings? : Option Settings := none
  /-- How often settings were loaded to be kept. -/
  loads : Nat := 0
  /-- The load of the settings that were shown last. -/
  shown? : Option Nat := none

namespace Session

/-! ### Settings -/

/-- The session in which these settings are kept. -/
def keep (s : Session) (settings : Settings) : Session :=
  { s with settings? := some settings, loads := s.loads + 1 }

/-- The settings to work with: those that are kept, unless there are none or a file is given. -/
def obtain (document : DocumentReader Failure) (s : Session) (explicit? : Option Path) :
    Except (Breakdown Failure) (Session × Settings.Load) :=
  match explicit?, s.settings? with
  | none, some settings => .ok (s, { settings, failed := [] })
  | _, _ =>
    (Settings.loadWith document s.world explicit?).map fun loaded => (s.keep loaded.settings, loaded)

/-- Forgets the settings that are kept. -/
def forget (s : Session) : Session :=
  { s with settings? := none }

/-! ### The command -/

/-- How a use of the command ends. -/
inductive CommandEnding where
  /-- The command line is refused. -/
  | refused (fault : UsageFault)
  /-- The run leaves a report; some settings files could not be read. -/
  | report (r : Report) (failed : List Path)
deriving DecidableEq, Repr

/-- The settings files that could not be read. -/
def CommandEnding.failed : CommandEnding → List Path
  | .refused _ => []
  | .report _ failed => failed

/-- A use of the command. -/
def command (document : DocumentReader Failure) (s : Session) (args : List String) :
    Session × Except (Breakdown Failure) CommandEnding :=
  match parse args with
  | .error fault => (s, .ok (.refused fault))
  | .ok .version => (s, .ok (.report { printed := versionText, ending := .exit 0 } []))
  | .ok .help => (s, .ok (.report { printed := helpText, ending := .exit 0 } []))
  | .ok (.run options) =>
    match s.obtain document options.config? with
    | .ok (next, loaded) =>
      (next, .ok (.report (run s.world loaded.settings options) loaded.failed))
    | .error b => (s, .error b)

variable {document : DocumentReader Failure} {s next : Session} {loaded : Settings.Load}
  {b : Breakdown Failure} {args : List String} {o : Options}

theorem command_of_obtain_ok (hparse : parse args = .ok (.run o))
    (h : s.obtain document o.config? = .ok (next, loaded)) :
    s.command document args =
      (next, .ok (.report (run s.world loaded.settings o) loaded.failed)) := by
  simp only [command, hparse, h]

theorem command_of_obtain_error (hparse : parse args = .ok (.run o))
    (h : s.obtain document o.config? = .error b) : s.command document args = (s, .error b) := by
  simp only [command, hparse, h]

end Session

/-! ### Steps -/

/-- What can be done in a session. -/
inductive Step where
  /-- Writes a file. -/
  | write (path : Path) (bytes : List UInt8)
  /-- Makes a directory. -/
  | makeDirectory (path : Path)
  /-- Removes a file. -/
  | remove (path : Path)
  /-- Sets a variable. -/
  | setVariable (name value : String)
  /-- Unsets a variable. -/
  | unsetVariable (name : String)
  /-- Makes a file unreadable under this name. -/
  | makeUnreadable (name : String)
  /-- Asks for the places of settings files. -/
  | candidates
  /-- Loads settings without keeping them. -/
  | load (explicit? : Option Path)
  /-- Asks for the settings to work with. -/
  | obtain (explicit? : Option Path)
  /-- Forgets the settings. -/
  | forget
  /-- Reads a source file. -/
  | read (name : String)
  /-- Cuts a source file into tokens. -/
  | tokens (name : String)
  /-- Checks a source file. -/
  | check (name : String) (showTokens : Bool)
  /-- Asks for the source files below a directory. -/
  | walk (root : Path)
  /-- Uses the command. -/
  | command (args : List String)

/-- The settings as they are shown. -/
structure SettingsView where
  /-- The suffixes of source files. -/
  suffixes : List String
  /-- The names of the directories that a walk leaves out. -/
  excluded : List String
  /-- Whether tokens and nodes are shown. -/
  showTokens : Bool
  /-- The name of the least level that is logged. -/
  logLevel : String
  /-- The file that was read. -/
  file? : Option Path
deriving DecidableEq, Repr

/-- The settings as they are shown, where they can be. -/
def Settings.view? (s : Settings) : Except NotNames SettingsView := do
  let suffixes ← s.suffixes?
  let excluded ← s.excluded?
  let showTokens := s.showTokens
  return { suffixes, excluded, showTokens, logLevel := s.logLevel, file? := s.file? }

/-- What comes of a step. -/
inductive Answer where
  /-- Nothing but its effect. -/
  | done
  /-- The world does not allow it. -/
  | impossible
  /-- Paths. -/
  | paths (found : List Path)
  /-- Settings that are not kept. -/
  | loaded (view : SettingsView)
  /-- The settings to work with, and whether they are those that were shown last. -/
  | obtained (same : Bool) (view : SettingsView)
  /-- The settings name no suffixes or directories. -/
  | notNames (e : NotNames)
  /-- A file cannot be opened. -/
  | unreadable (name : String) (fault : AccessFault)
  /-- The text of a file. -/
  | text (source : List Char)
  /-- The tokens of a file. -/
  | tokens (found : Except Fault (List Token))
  /-- The check of a file. -/
  | checked (c : FileCheck)
  /-- A use of the command. -/
  | command (e : Session.CommandEnding)

/-- What comes of a step, with the settings files that could not be read. -/
structure Outcome where
  /-- The answer. -/
  answer : Answer
  /-- The settings files that could not be read. -/
  failed : List Path := []

namespace Session

/-- The session in the changed world, if the change is possible. -/
def change (s : Session) : Option World → Session × Except (Breakdown Failure) Outcome
  | some world => ({ s with world }, .ok { answer := .done })
  | none => (s, .ok { answer := .impossible })

/-- Shows settings, where that is possible. -/
def showSettings (settings : Settings) (answer : SettingsView → Answer) : Answer :=
  match settings.view? with
  | .ok view => answer view
  | .error e => .notNames e

/-- The text of a source file, turned into an answer. -/
def withSource (w : World) (name : String) (answer : List Char → Answer) : Outcome :=
  match w.read name with
  | .ok bytes => { answer := answer (Text.ofSourceBytes bytes).text }
  | .error fault => { answer := .unreadable name fault }

/-- A step, and what comes of it. -/
def step (document : DocumentReader Failure) (s : Session) :
    Step → Session × Except (Breakdown Failure) Outcome
  | .write path bytes => s.change (s.world.write? path bytes)
  | .makeDirectory path => s.change (s.world.makeDirectories? path)
  | .remove path => s.change (some (s.world.remove path))
  | .setVariable name value => s.change (some (s.world.setVariable name value))
  | .unsetVariable name => s.change (some (s.world.unsetVariable name))
  | .makeUnreadable name => s.change (some (s.world.makeUnreadable name))
  | .candidates => (s, .ok { answer := .paths (Settings.candidates s.world none) })
  | .load explicit? =>
    let loaded := Settings.loadWith document s.world explicit?
    (s, loaded.map fun l => { answer := showSettings l.settings .loaded, failed := l.failed })
  | .obtain explicit? =>
    match s.obtain document explicit? with
    | .ok (next, loaded) =>
      ({ next with shown? := some next.loads },
        .ok
          { answer := showSettings loaded.settings (.obtained (s.shown? == some next.loads))
            failed := loaded.failed })
    | .error b => (s, .error b)
  | .forget => (s.forget, .ok { answer := .done })
  | .read name => (s, .ok (withSource s.world name .text))
  | .tokens name =>
    (s, .ok (withSource s.world name fun source => .tokens (tokenize true source)))
  | .check name showTokens => (s, .ok { answer := .checked (checkFile s.world showTokens name) })
  | .walk root =>
    match s.obtain document none with
    | .ok (next, loaded) =>
      let answer := match Command.walk s.world loaded.settings root with
        | .ok files => Answer.paths files
        | .error e => .notNames e
      (next, .ok { answer, failed := loaded.failed })
    | .error b => (s, .error b)
  | .command args =>
    let (next, ending) := s.command document args
    (next, ending.map fun e => { answer := .command e, failed := e.failed })

/-- What comes of the steps, one after the other. -/
def results (document : DocumentReader Failure) (s : Session) :
    List Step → List (Except (Breakdown Failure) Outcome)
  | [] => []
  | first :: rest =>
    let (next, result) := s.step document first
    result :: results document next rest

end Session

end DocAudit
