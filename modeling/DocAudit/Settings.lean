import DocAudit.Text.Encoding
import DocAudit.Text.UpperCase
import DocAudit.Text.Blank
import DocAudit.World.Basic
import DocAudit.Yaml.Value

namespace DocAudit

open Yaml (Value)

/-!
# Settings

A run is governed by four settings.  Each has a default, a settings file may replace it, and for
two of them a variable of the environment has the last word.

* `Settings` — the values in effect, and the file they were read from;
* `Settings.suffixes?`, `Settings.excluded?`, `Settings.showTokens`, `Settings.logLevel` — what
  the values mean;
* `Settings.candidates` — the places where a settings file may be;
* `Settings.DocumentReader` — how settings files are read, which is left open here;
* `Settings.Attempt` — what comes of one of the places;
* `Settings.loadWith` — the settings of a world, with the files that could not be read.
-/

/-- The values that govern a run. -/
structure Settings where
  /-- The suffixes of source files. -/
  extensions : Value := .list [.text ".rs"]
  /-- The names of the directories that a walk leaves out. -/
  excludedDirectories : Value := .list [.text ".git", .text "target"]
  /-- Whether tokens and nodes are shown. -/
  printTokens : Value := .bool false
  /-- The least level of what is logged. -/
  level : Value := .text "WARNING"
  /-- The file that was read. -/
  file? : Option Path := none
deriving Repr

/-! ### What the values mean -/

/-- Why a value cannot be taken for names. -/
inductive NotNames where
  /-- It is an integer. -/
  | integer
  /-- It is a floating-point number. -/
  | float
  /-- It is a truth value. -/
  | truth
deriving DecidableEq, Repr

/-- The report of a value that cannot be taken for names. -/
def NotNames.message (e : NotNames) : String :=
  let shape := match e with
    | .integer => "int"
    | .float => "float"
    | .truth => "bool"
  s!"'{shape}' object is not iterable"

namespace Settings

/-- The names that a value stands for: those in a list, the keys of a mapping, or the characters of
    a text.  A value that counts as false stands for none. -/
def names? (v : Value) : Except NotNames (List String) :=
  if !v.holds then .ok []
  else
    match v with
    | .null => .ok []
    | .text s => .ok (s.toList.map Char.toString)
    | .list items => .ok (items.map Value.asText)
    | .map entries => .ok (entries.map fun entry => entry.1.asText)
    | .int _ => .error .integer
    | .float _ => .error .float
    | .bool _ => .error .truth

/-- The suffixes of source files. -/
def suffixes? (s : Settings) : Except NotNames (List String) :=
  names? s.extensions

/-- The names of the directories that a walk leaves out. -/
def excluded? (s : Settings) : Except NotNames (List String) :=
  names? s.excludedDirectories

/-- Whether tokens and nodes are shown. -/
def showTokens (s : Settings) : Bool :=
  s.printTokens.holds

/-- The name of the least level that is logged. -/
def logLevel (s : Settings) : String :=
  Text.upperCase s.level.asText

/-- Whether debug messages are logged. -/
def logsDebug (s : Settings) : Bool :=
  s.logLevel == "DEBUG" || s.logLevel == "NOTSET"

/-! ### The environment and a file -/

/-- The words that switch a setting on. -/
def switchWords : List String :=
  ["1", "true", "yes", "on"]

/-- Whether the text is a word that switches a setting on, in either case and between blanks.
    Beyond ASCII no letter turns into one of these words. -/
def isSwitch (text : String) : Bool :=
  switchWords.contains (String.ofList ((Text.trim text.toList).map Char.toLower))

/-- The settings with what the environment has to say. -/
def withEnvironment (s : Settings) (w : World) : Settings :=
  let printTokens := match w.valueOf? "DOCCHECK_PRINT_TOKENS" with
    | some text => .bool (isSwitch text)
    | none => s.printTokens
  let level := match w.valueOf? "DOCCHECK_LOG_LEVEL" with
    | some text => .text text
    | none => s.level
  { s with printTokens, level }

/-- The settings with the entries of a file in place of the defaults. -/
def ofFile (path : Path) (entries : List (Value × Value)) : Settings :=
  let fallback : Settings := {}
  { extensions := (Value.lookup? entries "extensions").getD fallback.extensions
    excludedDirectories :=
      (Value.lookup? entries "exclude_dirs").getD fallback.excludedDirectories
    printTokens := (Value.lookup? entries "print_tokens").getD fallback.printTokens
    level := (Value.lookup? entries "log_level").getD fallback.level
    file? := some path }

/-! ### Reading -/

/-- The places where a settings file may be, the first ones first: an explicit path stands alone. -/
def candidates (w : World) : Option Path → List Path
  | some path => [path]
  | none =>
    let named := (w.valueOf? "DOCCHECK_CONFIG").filter (· != "")
    (named.map Path.ofText).toList
      ++ [w.workingDirectory.below ["doccheck.yaml"], w.home.below [".doccheck", "config.yaml"]]

/-- The entries of a document.  One that counts as false has none. -/
def entriesOf? (v : Value) : Option (List (Value × Value)) :=
  if !v.holds then some []
  else
    match v with
    | .map entries => some entries
    | _ => none

/-- A way to read documents: what the text says, or nothing where it is malformed.  A reader may also
    fail in a way that nobody expects, and then the load fails with it. -/
abbrev DocumentReader (Failure : Type) := List Char → Except Failure (Option Value)

variable {Failure : Type}

/-- What comes of a place where a settings file may be. -/
inductive Attempt (Failure : Type) where
  /-- Nothing is there. -/
  | absent
  /-- What is there cannot be opened, or is no mapping. -/
  | failed
  /-- The file has these entries. -/
  | loaded (entries : List (Value × Value))
  /-- The reader of documents fails in a way of its own. -/
  | broken (cause : Failure)
deriving Repr

/-- Tries to read a settings file. -/
def attempt (document : DocumentReader Failure) (w : World) (path : Path) : Attempt Failure :=
  if !w.isPresent path then .absent
  else
    match (w.read path.text).toOption.bind Text.ofUtf8Bytes? with
    | none => .failed
    | some text =>
      match document text with
      | .error cause => .broken cause
      | .ok v? =>
        match v?.bind entriesOf? with
        | some entries => .loaded entries
        | none => .failed

/-- Settings as they were loaded. -/
structure Load where
  /-- The settings. -/
  settings : Settings
  /-- The files that are there but could not be read, up to the one that could. -/
  failed : List Path
deriving Repr

/-- A load that failed together with the reader of documents. -/
structure Breakdown (Failure : Type) where
  /-- The failure of the reader. -/
  cause : Failure
  /-- The files that are there but could not be read, up to the one that the reader failed on. -/
  failed : List Path
deriving Repr

/-- What comes of a load behind other files that could not be read. -/
def behind (failed : List Path) :
    Except (Breakdown Failure) Load → Except (Breakdown Failure) Load
  | .ok l => .ok { l with failed := failed ++ l.failed }
  | .error b => .error { b with failed := failed ++ b.failed }

/-- The settings in the first of the files that can be read. -/
def loadFirst (document : DocumentReader Failure) (w : World) :
    List Path → Except (Breakdown Failure) Load
  | [] => .ok { settings := {}, failed := [] }
  | path :: rest =>
    match attempt document w path with
    | .absent => loadFirst document w rest
    | .failed => behind [path] (loadFirst document w rest)
    | .loaded entries => .ok { settings := .ofFile path entries, failed := [] }
    | .broken cause => .error { cause, failed := [] }

/-- The load with what the environment has to say. -/
def Load.withEnvironment (l : Load) (w : World) : Load :=
  { l with settings := l.settings.withEnvironment w }

/-- Loads the settings of a world: from the first candidate that can be read, and from the
    environment. -/
def loadWith (document : DocumentReader Failure) (w : World) (explicit? : Option Path) :
    Except (Breakdown Failure) Load :=
  (loadFirst document w (candidates w explicit?)).map fun l => l.withEnvironment w

/-- The warning about a settings file, without its reason. -/
def loadWarning (path : Path) : String :=
  s!"Failed to load config from {path.text}"

end Settings

end DocAudit
