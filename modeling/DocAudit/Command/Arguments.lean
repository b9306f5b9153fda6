import DocAudit.Command.Flag
import DocAudit.World.Path

namespace DocAudit.Command

/-!
# The command line

* `Word`, `classify` — what each word of a command line is;
* `Options` — what a run is asked to do;
* `parse` — the request of a command line.

Long spellings may be shortened as long as they fit one flag.  Short flags may stand together, and
the value of a flag may follow it directly, behind an equals sign or as the next word.  The paths
have to stand together.
-/

/-! ### Words -/

/-- A word of a command line. -/
inductive Word where
  /-- A path, or the value of the flag before it. -/
  | operand (text : String)
  /-- Two hyphens, behind which every word is an operand. -/
  | separator
  /-- A flag as it is spelled, with a value in the same word. -/
  | option (short : Bool) (flag : Flag) (value? : Option String)
  /-- A word that looks like a flag but is none. -/
  | unknown (text : String)
deriving DecidableEq, Repr

/-- The word as it was written, where it may belong to the paths. -/
def Word.operand? : Word → Option String
  | .operand text => some text
  | .separator => some "--"
  | .option _ _ _ | .unknown _ => none

/-- Whether the word may belong to the paths. -/
def Word.isOperand (w : Word) : Bool :=
  w.operand?.isSome

/-- Whether the characters are a hyphen and a decimal number, which is no flag. -/
def isNegativeNumber : List Char → Bool
  | '-' :: number =>
    let fraction := number.dropWhile Char.isDigit
    match fraction with
    | [] => !number.isEmpty
    | '.' :: places => !places.isEmpty && places.all Char.isDigit
    | _ => false
  | _ => false

/-- The characters before the first equals sign, and those behind it if there is one. -/
def splitValue (cs : List Char) : List Char × Option String :=
  let name := cs.takeWhile (· != '=')
  match cs.drop name.length with
  | [] => (name, none)
  | _ :: value => (name, some (String.ofList value))

/-- What a word of at least two characters is that begins with a hyphen. -/
def classifyHyphened (cs : List Char) : Except UsageFault Word :=
  let text := String.ofList cs
  let (name, value?) := splitValue cs
  let short := (cs.drop 1).head? != some '-'
  let other : Word :=
    if isNegativeNumber cs || cs.contains ' ' then .operand text else .unknown text
  match Flag.ofSpelling? text, Flag.ofSpelling? (String.ofList name) with
  | some flag, _ => .ok (.option short flag none)
  | none, some flag => .ok (.option short flag value?)
  | none, none =>
    if short then
      match Flag.ofSpelling? (String.ofList (cs.take 2)) with
      | some flag => .ok (.option true flag (some (String.ofList (cs.drop 2))))
      | none => .ok other
    else
      match Flag.startingWith name with
      | [] => .ok other
      | [(_, flag)] => .ok (.option false flag value?)
      | several => .error (.ambiguous text (several.map Prod.fst))

/-- What a word is, as long as no separator came before it. -/
def classify (text : String) : Except UsageFault Word :=
  match text.toList with
  | '-' :: c :: rest => classifyHyphened ('-' :: c :: rest)
  | _ => .ok (.operand text)

/-- What the words are. -/
def classifyAll : List String → Except UsageFault (List Word)
  | [] => .ok []
  | text :: rest =>
    if text = "--" then .ok (.separator :: rest.map .operand)
    else do
      let word ← classify text
      return word :: (← classifyAll rest)

/-! ### Flags that stand together -/

/-- The flags of a word of short flags: the first one, and those that the characters stand for.
    The rest of the word is the value of the first flag that takes one. -/
def expand (flag : Flag) : List Char → Except UsageFault (List (Flag × Option String))
  | [] => .ok [(flag, none)]
  | c :: rest =>
    if flag.takesValue then .ok [(flag, some (String.ofList (c :: rest)))]
    else
      match Flag.ofSpelling? (String.ofList ['-', c]) with
      | some next => do return (flag, none) :: (← expand next rest)
      | none => .error (.extraValue flag (String.ofList (c :: rest)))

/-- The flags of a word, each with its value if it stands in the word. -/
def flagsOf (short : Bool) (flag : Flag) :
    Option String → Except UsageFault (List (Flag × Option String))
  | none => .ok [(flag, none)]
  | some value =>
    if flag.takesValue then .ok [(flag, some value)]
    else if short && !value.isEmpty then expand flag value.toList
    else .error (.extraValue flag value)

/-- Gives the last flag the next word for its value, if it lacks one. -/
def completeLast (flags : List (Flag × Option String)) (rest : List Word) :
    Except UsageFault (List (Flag × Option String) × List Word) :=
  match flags.getLast? with
  | some (flag, none) =>
    if flag.takesValue then
      match rest with
      | .operand value :: behind => .ok (flags.dropLast ++ [(flag, some value)], behind)
      | _ => .error (.missingValue flag)
    else .ok (flags, rest)
  | _ => .ok (flags, rest)

/-! ### Requests -/

/-- What a run is asked to do. -/
structure Options where
  /-- The files and directories to check. -/
  paths : List Path := []
  /-- Whether tokens and nodes are shown. -/
  printTokens : Bool := false
  /-- Whether directories are walked. -/
  recursive : Bool := false
  /-- The settings file. -/
  config? : Option Path := none
  /-- Whether debug messages are logged. -/
  verbose : Bool := false
deriving DecidableEq, Repr

/-- What a command line asks for. -/
inductive Request where
  /-- A run. -/
  | run (options : Options)
  /-- The version. -/
  | version
  /-- A help text. -/
  | help
deriving DecidableEq, Repr

/-- The options with one more flag. -/
def Options.apply (o : Options) : Flag × Option String → Options
  | (.printTokens, _) => { o with printTokens := true }
  | (.recursive, _) => { o with recursive := true }
  | (.verbose, _) => { o with verbose := true }
  | (.config, value?) => { o with config? := value?.map Path.ofText }
  | (.help, _) | (.version, _) => o

/-- The request that a flag makes at once, whatever follows it. -/
def Flag.request? : Flag → Option Request
  | .help => some .help
  | .version => some .version
  | _ => none

/-- What was read of a command line. -/
structure Reading where
  /-- The options. -/
  options : Options := {}
  /-- Whether the paths were read. -/
  hasPaths : Bool := false
  /-- The words that fit nowhere. -/
  leftover : List String := []

/-- Takes words for the paths, or for leftovers if the paths were read.  Of the paths, the first
    separator is none. -/
def Reading.addOperands (r : Reading) (words : List Word) : Reading :=
  let texts := words.filterMap Word.operand?
  if r.hasPaths then { r with leftover := r.leftover ++ texts }
  else
    { r with
      options := { r.options with paths := (texts.erase "--").map Path.ofText }
      hasPaths := true }

theorem length_dropWhile_le {α : Type} (p : α → Bool) (l : List α) :
    (l.dropWhile p).length ≤ l.length :=
  (List.dropWhile_sublist p).length_le

/-- The request of the words behind those that were read. -/
def readWords (r : Reading) (words : List Word) : Except UsageFault Request :=
  match words with
  | [] =>
    if r.leftover.isEmpty then .ok (.run r.options) else .error (.unrecognized r.leftover)
  | .unknown text :: rest => readWords { r with leftover := r.leftover ++ [text] } rest
  | .option short flag value? :: rest => do
    let (flags, behind) ← completeLast (← flagsOf short flag value?) rest
    match flags.findSome? fun f => f.1.request? with
    | some request => return request
    | none =>
      if _h : behind.length ≤ rest.length then
        readWords { r with options := flags.foldl Options.apply r.options } behind
      else return .run r.options
  | word :: rest =>
    have _h := length_dropWhile_le Word.isOperand rest
    let operands := word :: rest.takeWhile Word.isOperand
    readWords (r.addOperands operands) (rest.dropWhile Word.isOperand)
termination_by words.length

/-- The request of a command line. -/
def parse (args : List String) : Except UsageFault Request := do
  readWords {} (← classifyAll args)

end DocAudit.Command
