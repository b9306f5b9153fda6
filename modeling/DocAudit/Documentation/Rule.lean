import DocAudit.Declaration.Basic
import DocAudit.Documentation.Bullet
import DocAudit.Text.Position

namespace DocAudit

/-!
# The documentation rules

Every declaration needs documentation, every field of a struct too, and that of a function has to
fit its signature.  `Node.finding?` is the first rule that a node breaks, `firstFinding?` that of a
list of nodes.  A `Finding` says which declaration falls short, by which `Gap`, and where.
-/

/-- What a finding is about. -/
inductive Subject where
  /-- A struct. -/
  | struct
  /-- A field of a struct. -/
  | field
  /-- A function. -/
  | function
  /-- An enumeration, a trait or a constant. -/
  | named (kind : NamedKind)
deriving DecidableEq, Repr

/-- The kind of a declaration, in a word. -/
def Subject.word : Subject → String
  | .struct => "struct"
  | .field => "field"
  | .function => "function"
  | .named kind => kind.word

/-- The kind of a declaration, as a message names it. -/
def Subject.phrase : Subject → String
  | .field => "struct field"
  | subject => subject.word

/-- How the documentation of a declaration falls short. -/
inductive Gap where
  /-- There is none. -/
  | undocumented
  /-- It leaves ASCII. -/
  | notAscii
  /-- It does not speak of the value that the function returns. -/
  | returnMissing
  /-- It speaks of a return value where there is none. -/
  | returnSuperfluous
  /-- An argument has no bullet. -/
  | argumentMissing (argument : String)
  /-- A bullet names no argument. -/
  | argumentUnknown (argument : String)
deriving DecidableEq, Repr

/-- A declaration that falls short of a rule. -/
structure Finding where
  /-- What it is about. -/
  subject : Subject
  /-- The name of the declaration. -/
  name : String
  /-- The characters of the declaration. -/
  span : Span
  /-- How it falls short. -/
  gap : Gap
  /-- Where it starts, once a text is at hand. -/
  position? : Option Position := none
deriving DecidableEq, Repr

namespace Finding

/-- The argument concerned, if the finding is about one. -/
def argument? (f : Finding) : Option String :=
  match f.gap with
  | .argumentMissing argument => some argument
  | .argumentUnknown argument => some argument
  | _ => none

/-- The finding, placed in the text that the declaration comes from. -/
def locate (f : Finding) (text : List Char) : Finding :=
  { f with position? := some (.ofOffset text f.span.start) }

/-- The report of the finding. -/
def message (f : Finding) : String :=
  let subject := s!"{f.subject.phrase} \"{f.name}\""
  match f.gap with
  | .undocumented => s!"expected to find documentation for the {subject}"
  | .notAscii => s!"expected the documentation for the {subject} to only use ASCII characters"
  | .returnMissing =>
    "expected to find the \"return\" keyword (case-insensitive) in the documentation that describes "
      ++ s!"the return value for the {subject}"
  | .returnSuperfluous => s!"found documentation of the VOID return value for the {subject}"
  | .argumentMissing argument =>
    s!"expected to find documentation for the argument \"{argument}\" of the {subject}"
  | .argumentUnknown argument =>
    s!"found documentation for a non-existing argument \"{argument}\" of the {subject}"

end Finding

/-! ### Functions -/

/-- Whether the word stands somewhere in the text. -/
def occursIn (word : List Char) : List Char → Bool
  | [] => word.isEmpty
  | c :: rest => word.isPrefixOf (c :: rest) || occursIn word rest

/-- Whether the text speaks of returning: it holds `return`, in any case and also within a word. -/
def mentionsReturn (docs : String) : Bool :=
  occursIn "return".toList (docs.toList.map Char.toLower)

/-- The first rule that the documentation of a function breaks: it is there, in ASCII; it mentions
    returning exactly if there is a return type; it has a bullet for every argument but the
    receiver, and for nothing else. -/
def Function.gap? (f : Function) : Option Gap :=
  if f.docs.isEmpty then some .undocumented
  else if !f.docs.toList.all (·.toNat < 0x80) then some .notAscii
  else if !f.returnsNothing && !mentionsReturn f.docs then some .returnMissing
  else if f.returnsNothing && mentionsReturn f.docs then some .returnSuperfluous
  else
    let documented := Documentation.documentedNames f.docs.toList
    let missing := f.arguments.find? fun a => a != receiverName && !documented.contains a
    let unknown := documented.find? fun name => !f.arguments.contains name
    (missing.map Gap.argumentMissing).or (unknown.map Gap.argumentUnknown)

/-- The first rule that a function breaks. -/
def Function.finding? (f : Function) : Option Finding :=
  f.gap?.map fun gap => { subject := .function, name := f.name, span := f.span, gap }

/-! ### Other declarations -/

/-- A finding about a declaration that has no documentation. -/
def undocumented? (subject : Subject) (name docs : String) (span : Span) : Option Finding :=
  if docs.isEmpty then some { subject, name, span, gap := .undocumented } else none

/-- The finding about a struct itself, if it has no documentation. -/
def Struct.ownFinding? (s : Struct) : Option Finding :=
  undocumented? .struct s.name s.docs s.span

/-- The finding about the first field that has no documentation. -/
def Struct.fieldFinding? (s : Struct) : Option Finding :=
  s.fields.findSome? fun f => undocumented? .field f.name f.docs f.span

/-- The first rule that an enumeration, a trait or a constant breaks. -/
def Named.finding? (n : Named) : Option Finding :=
  undocumented? (.named n.kind) n.name n.docs n.span

/-! ### Nodes -/

/-- The first rule that a node breaks.  Single tokens and fields on their own break none. -/
def Node.finding? : Node → Option Finding
  | .struct s => s.ownFinding?.or s.fieldFinding?
  | .function f => f.finding?
  | .named n => n.finding?
  | .other _ _ => none
  | .field _ => none
  | .blank _ => none

/-- The first rule that one of the nodes breaks, in their order. -/
def firstFinding? (nodes : List Node) : Option Finding :=
  nodes.findSome? Node.finding?

end DocAudit
