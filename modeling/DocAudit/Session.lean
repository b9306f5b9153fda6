import DocAudit.Session.Basic
import DocAudit.Yaml.Document

namespace DocAudit

open Settings (DocumentReader Breakdown)

/-!
# Sessions with YAML documents

What sessions do does not depend on how settings files are read.  For the command that runs they are
documents in the part of YAML that `Yaml.read?` reads, which has no failures of its own.

* `Yaml.document` — the reader of settings files;
* `Settings.certain` — what comes of a load that cannot fail;
* `Session.steps` — what comes of the steps of a session.
-/

/-- Settings files are YAML documents. -/
def Yaml.document : DocumentReader Empty :=
  fun text => .ok (Yaml.read? text)

/-- What comes of a load whose reader has no failures of its own. -/
def Settings.certain {α : Type} : Except (Breakdown Empty) α → α
  | .ok a => a
  | .error b => nomatch b.cause

/-- What comes of the steps, one after the other. -/
def Session.steps (s : Session) (steps : List Step) : List Outcome :=
  (s.results Yaml.document steps).map Settings.certain

end DocAudit
