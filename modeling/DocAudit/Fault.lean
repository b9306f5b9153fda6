import DocAudit.Text.Position
import DocAudit.Text.Quoted
import DocAudit.Token.Basic

namespace DocAudit

/-!
# Faults of the input

A `Fault` says why a text could not be cut into tokens, or a token list not be searched for
declarations: the stage, the cause and the place.  `Fault.message` is the one place with the
wording.
-/

/-- Where a fault arises. -/
inductive Stage where
  /-- A text is cut into tokens. -/
  | tokens
  /-- A token list is searched for declarations. -/
  | statements
deriving DecidableEq, Repr

/-- Why an input is refused. -/
inductive Cause where
  /-- A character belongs to no lexical class. -/
  | strayCharacter (c : Char)
  /-- An item of the token list is no token but a value of another shape. -/
  | notToken (shape : String)
  /-- A token starts before its predecessor ends, or ends before it starts. -/
  | misordered (token : Token)
  /-- A cause given in words. -/
  | stated (reason : String)
deriving DecidableEq, Repr

/-- The reason in words. -/
def Cause.reason : Cause → String
  | .strayCharacter c => s!"unexpected character {Text.quoted c.toString}"
  | .notToken shape => s!"expected a token, got {shape}"
  | .misordered t => s!"token {Text.quoted t.text} is out of source order"
  | .stated reason => reason

/-- A refusal of the input, with its place. -/
structure Fault where
  /-- Where it arose. -/
  stage : Stage
  /-- Why it arose. -/
  cause : Cause
  /-- The offset of the place. -/
  offset : Int
  /-- The line of the place, and 0 where no text is at hand. -/
  line : Int := 0
  /-- The column of the place, and 0 where no text is at hand. -/
  column : Int := 0
deriving DecidableEq, Repr

namespace Fault

/-- A fault at an offset of a text, with the line and column there. -/
def within (text : List Char) (stage : Stage) (cause : Cause) (offset : Int) : Fault :=
  let place := Position.ofOffset text offset
  { stage, cause, offset, line := place.line, column := place.column }

/-- The offending token, if the fault lies in one. -/
def token? (f : Fault) : Option Token :=
  match f.cause with
  | .misordered t => some t
  | _ => none

/-- The report of the fault: by line and column where the line is known, by offset elsewhere. -/
def message (f : Fault) : String :=
  let parser := match f.stage with
    | .tokens => "token parser error"
    | .statements => "statement parser error"
  if f.line = 0 then
    s!"{parser} at offset {f.offset}, reason: {f.cause.reason}"
  else
    s!"{parser} at line {f.line} column {f.column}, reason: {f.cause.reason}"

end Fault

end DocAudit
