namespace DocAudit

/-!
# Tokens

A token is a piece of a source text: its kind, the text that it records and the span that it covers.
Offsets count characters.  A token list may also come from outside, so neither the text nor the span
is tied to the kind, and offsets are any integers.
-/

/-- The lexical classes. -/
inductive TokenKind where
  /-- One of the delimiters of the declaration syntax. -/
  | control
  /-- The arrow in front of a return type. -/
  | operator
  /-- A name or a keyword. -/
  | identifier
  /-- A line comment or a documentation block. -/
  | comment
  /-- Any other single character. -/
  | other
deriving DecidableEq, Repr

/-- A half-open range of offsets. -/
structure Span where
  /-- The offset of the first character. -/
  start : Int := 0
  /-- The offset just behind the last character. -/
  stop : Int := 0
deriving DecidableEq, Repr

/-- A piece of a source text. -/
structure Token where
  /-- The lexical class. -/
  kind : TokenKind
  /-- What the token records: a comment its text without the marker, any other token its
      characters. -/
  text : String
  /-- The characters that it covers. -/
  span : Span
deriving DecidableEq, Repr

namespace Token

/-- Whether the token is the given delimiter. -/
def isControl (t : Token) (delimiter : String) : Bool :=
  t.kind == .control && t.text == delimiter

/-- Whether the token is the given word. -/
def isKeyword (t : Token) (word : String) : Bool :=
  t.kind == .identifier && t.text == word

/-- Whether the token is the given character outside the named classes. -/
def isOther (t : Token) (character : String) : Bool :=
  t.kind == .other && t.text == character

/-- Whether the token is the given operator. -/
def isOperator (t : Token) (operator : String) : Bool :=
  t.kind == .operator && t.text == operator

/-- Whether the token is a name or keyword, whichever. -/
def isIdentifier (t : Token) : Bool :=
  t.kind == .identifier

/-- Whether the token is a comment. -/
def isComment (t : Token) : Bool :=
  t.kind == .comment

-- The classes exclude each other: with these equations `grind` tells any two of them apart.
attribute [grind =] isControl isKeyword isOther isOperator isIdentifier isComment

end Token

end DocAudit
