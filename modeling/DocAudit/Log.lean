namespace DocAudit

/-!
# The debug log

What a run says about its progress.  All entries have the lowest level, so a run either logs all of
them or none.
-/

/-- An event of a run. -/
inductive LogEntry where
  /-- A file is no valid UTF-8 and is read byte by byte. -/
  | byteText (path : String)
  /-- A file was read. -/
  | checking (path : String)
  /-- A file was cut into so many tokens. -/
  | tokens (path : String) (count : Nat)
  /-- A file has so many nodes, of which some are declarations. -/
  | nodes (path : String) (count declarations : Nat)
  /-- So many files were checked, of which some failed. -/
  | finished (files failed : Nat)
deriving DecidableEq, Repr

namespace LogEntry

/-- The part of the program that logs the event. -/
def logger : LogEntry → String
  | .byteText _ => "doccheck.parser.lexer"
  | .checking _ => "doccheck.checker"
  | .tokens _ _ => "doccheck.parser.lexer"
  | .nodes _ _ _ => "doccheck.parser.declarations"
  | .finished _ _ => "doccheck.cli"

/-- The event in words. -/
def message : LogEntry → String
  | .byteText path => s!"{path}: not valid UTF-8, reading as latin-1"
  | .checking path => s!"Checking {path}"
  | .tokens path count => s!"{path}: {count} tokens"
  | .nodes path count declarations =>
    s!"{path}: {count} complex tokens, {declarations} declarations"
  | .finished files failed => s!"Checked {files} files, {failed} failed"

/-- The line of the log. -/
def line (e : LogEntry) : String :=
  s!"DEBUG {e.logger}: {e.message}"

end LogEntry

end DocAudit
