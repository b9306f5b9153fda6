import DocAudit.Text.Quoted

namespace DocAudit.Command

/-!
# Flags of the command line

* `Flag` — what may be asked for besides paths, with the spellings;
* `UsageFault` — why a command line is refused, with the wording.
-/

/-- The name of the command. -/
def programName : String := "doccheck"

/-- The version of the command. -/
def programVersion : String := "0.1.0"

/-- What may be asked for besides paths. -/
inductive Flag where
  /-- A help text is shown. -/
  | help
  /-- The version is shown. -/
  | version
  /-- Tokens and nodes are shown. -/
  | printTokens
  /-- Directories are walked. -/
  | recursive
  /-- The settings file is given. -/
  | config
  /-- Debug messages are logged. -/
  | verbose
deriving DecidableEq, Repr

namespace Flag

/-- All flags. -/
def all : List Flag :=
  [.help, .version, .printTokens, .recursive, .config, .verbose]

/-- The spellings of the flag. -/
def spellings : Flag → List String
  | .help => ["-h", "--help"]
  | .version => ["--version"]
  | .printTokens => ["--print-tokens"]
  | .recursive => ["-r", "--recursive"]
  | .config => ["-c", "--config"]
  | .verbose => ["-v", "--verbose"]

/-- Whether a value belongs to the flag. -/
def takesValue : Flag → Bool
  | .config => true
  | _ => false

/-- The flag with this spelling. -/
def ofSpelling? (spelling : String) : Option Flag :=
  all.find? fun flag => flag.spellings.contains spelling

/-- The spellings that begin with the characters, each with its flag. -/
def startingWith (start : List Char) : List (String × Flag) :=
  all.flatMap fun flag =>
    (flag.spellings.filter fun spelling => start.isPrefixOf spelling.toList).map (·, flag)

/-- All spellings of the flag in one text. -/
def name (flag : Flag) : String :=
  "/".intercalate flag.spellings

end Flag

/-- Why a command line is refused. -/
inductive UsageFault where
  /-- A shortened spelling fits several flags. -/
  | ambiguous (word : String) (spellings : List String)
  /-- The value of a flag is missing. -/
  | missingValue (flag : Flag)
  /-- A flag without a value has one. -/
  | extraValue (flag : Flag) (value : String)
  /-- Some words fit nowhere. -/
  | unrecognized (words : List String)
deriving DecidableEq, Repr

namespace UsageFault

/-- The report of the fault. -/
def message : UsageFault → String
  | .ambiguous word spellings =>
    s!"ambiguous option: {word} could match " ++ ", ".intercalate spellings
  | .missingValue flag => s!"argument {flag.name}: expected one argument"
  | .extraValue flag value =>
    s!"argument {flag.name}: ignored explicit argument {Text.quoted value}"
  | .unrecognized words => "unrecognized arguments: " ++ " ".intercalate words

/-- The report of the fault as a line of its own. -/
def line (fault : UsageFault) : String :=
  s!"{programName}: error: {fault.message}"

end UsageFault

end DocAudit.Command
