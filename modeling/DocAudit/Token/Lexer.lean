import DocAudit.Fault
import DocAudit.Text.Blank

namespace DocAudit

/-!
# Cutting a text into tokens

Blanks separate tokens.  At every other place the alternatives are tried in a fixed order and the
first that applies takes a `Lexeme` from the front of the text:

* `Lexeme.blockComment?` — a documentation block, from its opener to the first closer;
* `Lexeme.lineComment?` — a comment up to the end of its line;
* `Lexeme.arrow?`, `Lexeme.delimiter?`, `Lexeme.word?` — the arrow, a delimiter, a name.

What none of them takes is a token of one character, or, in strict mode, a fault.  `tokenize` is the
entry point.
-/

/-- Whether the character is a delimiter of the declaration syntax. -/
def isDelimiter (c : Char) : Bool :=
  ['(', ')', ',', ':', '{', '}', '<', '>'].contains c

/-- Whether a name may start with the character. -/
def isWordStart (c : Char) : Bool :=
  c == '_' || c.isAlpha

/-- Whether a name may go on with the character. -/
def isWordPart (c : Char) : Bool :=
  isWordStart c || c.isDigit

/-- What a token takes from the front of a text. -/
structure Lexeme where
  /-- The lexical class. -/
  kind : TokenKind
  /-- What the token records. -/
  text : List Char
  /-- How many characters it covers. -/
  width : Nat
  /-- A token covers at least one character. -/
  width_pos : 0 < width := by omega

namespace Lexeme

/-- How many characters stand before the first closer of a block comment. -/
def closerAt? : List Char → Option Nat
  | [] => none
  | c :: rest =>
    if c = '*' ∧ rest.head? = some '/' then some 0 else (closerAt? rest).map (· + 1)

/-- A documentation block: a slash, a star and a marker, which is a star or an exclamation mark,
    then everything before the first closer, as it stands.  An opener that is never closed is no
    comment. -/
def blockComment? : List Char → Option Lexeme
  | '/' :: '*' :: marker :: body =>
    if marker = '*' ∨ marker = '!' then
      (closerAt? body).map fun n => { kind := .comment, text := body.take n, width := n + 5 }
    else none
  | _ => none

/-- The text of a line comment without the third slash or the exclamation mark of documentation. -/
def dropMarker : List Char → List Char
  | [] => []
  | c :: body => if c = '/' ∨ c = '!' then body else c :: body

/-- A comment from two slashes to the end of the line, which it leaves in place.  It records its
    text without marker and surrounding blanks. -/
def lineComment? : List Char → Option Lexeme
  | '/' :: '/' :: rest =>
    let body := rest.takeWhile (· != '\n')
    some { kind := .comment, text := Text.trim (dropMarker body), width := body.length + 2 }
  | _ => none

/-- The arrow in front of a return type. -/
def arrow? : List Char → Option Lexeme
  | '-' :: '>' :: _ => some { kind := .operator, text := ['-', '>'], width := 2 }
  | _ => none

/-- One delimiter. -/
def delimiter? : List Char → Option Lexeme
  | [] => none
  | c :: _ => if isDelimiter c then some { kind := .control, text := [c], width := 1 } else none

/-- The longest name at the front. -/
def word? : List Char → Option Lexeme
  | [] => none
  | c :: rest =>
    if isWordStart c then
      let more := rest.takeWhile isWordPart
      some { kind := .identifier, text := c :: more, width := more.length + 1 }
    else none

/-- The first alternative that applies. -/
def ofText? (cs : List Char) : Option Lexeme :=
  blockComment? cs <|> lineComment? cs <|> arrow? cs <|> delimiter? cs <|> word? cs

/-- One character of no named class. -/
def single (c : Char) : Lexeme where
  kind := .other
  text := [c]
  width := 1

/-- The token that the lexeme makes at an offset. -/
def token (x : Lexeme) (offset : Nat) : Token where
  kind := x.kind
  text := String.ofList x.text
  span := ⟨offset, offset + x.width⟩

end Lexeme

/-- A character that no alternative takes, where the catch-all is off. -/
structure Stray where
  /-- The character. -/
  char : Char
  /-- Its offset. -/
  offset : Nat
deriving DecidableEq, Repr

/-- The tokens of a text that stands at an offset, up to its end or to the first stray character. -/
def tokensFrom (catchAll : Bool) (offset : Nat) (cs : List Char) : Except Stray (List Token) :=
  match cs with
  | [] => .ok []
  | c :: rest =>
    if Text.isBlank c then tokensFrom catchAll (offset + 1) rest
    else
      match Lexeme.ofText? (c :: rest) with
      | some x => do
        have := x.width_pos
        let more ← tokensFrom catchAll (offset + x.width) ((c :: rest).drop x.width)
        return x.token offset :: more
      | none =>
        if catchAll then do
          let more ← tokensFrom catchAll (offset + 1) rest
          return (Lexeme.single c).token offset :: more
        else .error ⟨c, offset⟩
termination_by cs.length
decreasing_by
  all_goals simp only [List.length_drop, List.length_cons]
  all_goals omega

/-- The tokens of a source text.  Without the catch-all, a character of no named class is a
    fault. -/
def tokenize (catchAll : Bool) (source : List Char) : Except Fault (List Token) :=
  match tokensFrom catchAll 0 source with
  | .ok tokens => .ok tokens
  | .error stray => .error (.within source .tokens (.strayCharacter stray.char) stray.offset)

end DocAudit
