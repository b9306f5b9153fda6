import DocAudit.Declaration.Basic
import DocAudit.Text.Position
import DocAudit.Text.Quoted

namespace DocAudit

/-!
# Listings of tokens and nodes

`listing` shows a list of tokens or nodes for people: a title, a line for each entry with the place
where it starts and a description, and a rule below.
-/

/-- The capitalized name of a lexical class. -/
def TokenKind.title : TokenKind → String
  | .control => "Control"
  | .operator => "Operator"
  | .identifier => "Identifier"
  | .comment => "Comment"
  | .other => "Other"

/-- The name of a lexical class in capitals. -/
def TokenKind.code : TokenKind → String
  | .control => "CONTROL"
  | .operator => "OPERATOR"
  | .identifier => "IDENTIFIER"
  | .comment => "COMMENT"
  | .other => "OTHER"

namespace Token

/-- A description of the token.  Single characters are quoted with escapes, all else stands as it is
    between double quotes. -/
def describe (t : Token) : String :=
  match t.kind with
  | .control | .other => s!"{t.kind.title}({Text.quoted t.text})"
  | _ => s!"{t.kind.title}(\"{t.text}\")"

/-- The token with everything that it holds. -/
def display (t : Token) : String :=
  s!"Token({t.kind.code}, {Text.quoted t.text}, {t.span.start}..{t.span.stop})"

end Token

/-- The span as a pair of offsets. -/
def Span.display (s : Span) : String :=
  s!"({s.start}, {s.stop})"

/-- The names between double quotes, in brackets. -/
def nameList (names : List String) : String :=
  "[" ++ ", ".intercalate (names.map fun name => s!"\"{name}\"") ++ "]"

/-- The capitalized word for a declaration. -/
def NamedKind.title : NamedKind → String
  | .enum => "Enum"
  | .trait => "Trait"
  | .const => "Const"

/-- The spelling of a truth value. -/
def truthWord (b : Bool) : String :=
  if b then "True" else "False"

/-- A description of the node. -/
def Node.describe : Node → String
  | .struct s =>
    let fields := nameList (s.fields.map Field.name)
    s!"Struct(name=\"{s.name}\", fields={fields}, docs={Text.quoted s.docs})"
  | .function f =>
    s!"Function(name=\"{f.name}\", args={nameList f.arguments}, "
      ++ s!"void_return={truthWord f.returnsNothing}, docs={Text.quoted f.docs})"
  | .named n => s!"{n.kind.title}(name=\"{n.name}\", docs={Text.quoted n.docs})"
  | .other t _ => s!"Other({t.describe})"
  | .field f =>
    s!"FieldInfo(span={f.span.display}, name={Text.quoted f.name}, docs={Text.quoted f.docs})"
  | .blank span => s!"ComplexToken(span={span.display})"

/-- What a listing shows. -/
inductive Entry where
  /-- A token. -/
  | token (t : Token)
  /-- A node. -/
  | node (n : Node)
deriving DecidableEq, Repr

namespace Entry

/-- The characters that the entry covers. -/
def span : Entry → Span
  | .token t => t.span
  | .node n => n.span

/-- A description of the entry. -/
def describe : Entry → String
  | .token t => t.describe
  | .node n => n.describe

/-- The line of the entry: where it starts in the text, and its description. -/
def line (text : List Char) (e : Entry) : String :=
  let place := Position.ofOffset text e.span.start
  s!"[line {place.line}, column {place.column}] {e.describe}"

end Entry

/-- The rule below a listing. -/
def listingRule : String :=
  "------------------------------------"

/-- The lines of a listing: the title, a line for each entry, the rule and an empty line. -/
def listingLines (title : String) (text : List Char) (entries : List Entry) : List String :=
  s!"{title}:" :: entries.map (Entry.line text) ++ [listingRule, ""]

/-- The lines one below the other, each with its line break. -/
def joinLines (lines : List String) : String :=
  String.join (lines.map fun line => line ++ "\n")

/-- The listing of entries that come from a text. -/
def listing (title : String) (text : List Char) (entries : List Entry) : String :=
  joinLines (listingLines title text entries)

end DocAudit
