import DocAudit.Token.Basic

namespace DocAudit

/-!
# Declarations

A `Node` is an entry of a file's outline: a declaration, with the text of the comments directly
above it, or a single token between declarations.  `Span.covering` is the span of a run of tokens.
-/

/-- A field of a struct. -/
structure Field where
  /-- The name of the field. -/
  name : String
  /-- The comments directly above the field, joined. -/
  docs : String
  /-- The characters of the field, its comments included. -/
  span : Span
deriving DecidableEq, Repr

/-- A struct. -/
structure Struct where
  /-- The name of the struct. -/
  name : String
  /-- The fields, in their order. -/
  fields : List Field
  /-- The comments directly above the struct, joined. -/
  docs : String
  /-- The characters of the struct, its comments included. -/
  span : Span
deriving DecidableEq, Repr

/-- A function signature. -/
structure Function where
  /-- The name of the function. -/
  name : String
  /-- The names of the arguments, in their order; a receiver is named `self`. -/
  arguments : List String
  /-- Whether the signature names no return type. -/
  returnsNothing : Bool
  /-- The comments directly above the function, joined. -/
  docs : String
  /-- The characters of the signature, its comments included. -/
  span : Span
deriving DecidableEq, Repr

/-- The declarations of which only the name matters. -/
inductive NamedKind where
  /-- An enumeration. -/
  | enum
  /-- A trait. -/
  | trait
  /-- A constant. -/
  | const
deriving DecidableEq, Repr

/-- The word that introduces the declaration, which also names its kind in reports. -/
def NamedKind.word : NamedKind → String
  | .enum => "enum"
  | .trait => "trait"
  | .const => "const"

/-- A declaration of which only the name matters. -/
structure Named where
  /-- What is declared. -/
  kind : NamedKind
  /-- The name. -/
  name : String
  /-- The comments directly above the declaration, joined. -/
  docs : String
  /-- The characters of the declaration, its comments included. -/
  span : Span
deriving DecidableEq, Repr

/-- An entry of an outline. -/
inductive Node where
  /-- A struct with its fields. -/
  | struct (s : Struct)
  /-- A function signature. -/
  | function (f : Function)
  /-- An enumeration, a trait or a constant. -/
  | named (n : Named)
  /-- A token that belongs to no declaration. -/
  | other (token : Token) (span : Span)
  /-- A field on its own. -/
  | field (f : Field)
  /-- A stretch of text of which nothing is known. -/
  | blank (span : Span)
deriving DecidableEq, Repr

/-- The characters that the entry covers. -/
def Node.span : Node → Span
  | .struct s => s.span
  | .function f => f.span
  | .named n => n.span
  | .other _ span => span
  | .field f => f.span
  | .blank span => span

/-- Whether the entry is more than a token that was passed through. -/
def Node.isDeclaration : Node → Bool
  | .other _ _ => false
  | _ => true

/-- The name under which a receiver is recorded. -/
def receiverName : String := "self"

/-- From the start of the first token to the end of the last one. -/
def Span.covering (block : List Token) : Span where
  start := (block.head?.map (·.span.start)).getD 0
  stop := (block.getLast?.map (·.span.stop)).getD 0

end DocAudit
