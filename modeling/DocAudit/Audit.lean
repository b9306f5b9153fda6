import DocAudit.Declaration.Outline
import DocAudit.Documentation.Rule
import DocAudit.Listing
import DocAudit.Log

namespace DocAudit

/-!
# The audit of a source text

`audit` cuts a text into tokens, finds its declarations and reports the first that falls short.  On
the way it shows tokens and nodes, if that is asked for, and keeps a log.
-/

/-- Why a text does not pass. -/
inductive Problem where
  /-- The text cannot be read. -/
  | fault (f : Fault)
  /-- A declaration falls short. -/
  | finding (f : Finding)
deriving DecidableEq, Repr

/-- The report of the problem. -/
def Problem.message : Problem → String
  | .fault f => f.message
  | .finding f => f.message

/-- The outcome of an audit. -/
structure Audit where
  /-- The listings, if they were asked for. -/
  printed : String := ""
  /-- What was logged, in order. -/
  log : List LogEntry := []
  /-- The first problem, if there is one. -/
  problem? : Option Problem := none
deriving DecidableEq, Repr

/-- Audits the nodes of a text, of which the tokens are known. -/
def auditNodes (label : String) (showTokens : Bool) (source : List Char) (tokens : List Token) :
    Audit :=
  match outline? (tokens.map Item.token) (some source) with
  | .error fault => { problem? := some (.fault fault) }
  | .ok nodes =>
    { printed :=
        if showTokens then listing "parsed complex tokens" source (nodes.map Entry.node) else ""
      log := [.nodes label nodes.length (nodes.countP Node.isDeclaration)]
      problem? := (firstFinding? nodes).map fun f => .finding (f.locate source) }

/-- Audits a source text.  The label names it in the log.  An empty text passes without a trace. -/
def audit (label : String) (showTokens : Bool) (source : List Char) : Audit :=
  if source.isEmpty then {}
  else
    match tokenize true source with
    | .error fault => { problem? := some (.fault fault) }
    | .ok tokens =>
      let shown :=
        if showTokens then listing "parsed tokens" source (tokens.map Entry.token) else ""
      let rest := auditNodes label showTokens source tokens
      { rest with
        printed := shown ++ rest.printed
        log := .tokens label tokens.length :: rest.log }

/-- The first problem of a source text, if it has one. -/
def problem? (source : List Char) : Option Problem :=
  (audit "" false source).problem?

end DocAudit
