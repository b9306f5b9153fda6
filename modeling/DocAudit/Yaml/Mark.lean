import DocAudit.Yaml.Scalar
import DocAudit.Yaml.Wording

namespace DocAudit.Yaml

/-!
# Marks of a document

Between the characters of a document and its value stand the marks: indicators, scalars, and the
ends of the blocks that indentation closes.

* `Mark` — a mark;
* `Cursor` — what is left to read, and the surroundings that decide what it means;
* `Cursor.step?` — the marks at the next word;
* `marks?` — the marks of a text.  Anchors, tags, block scalars and directives are refused.
-/

/-- A mark of a document. -/
inductive Mark where
  /-- A document starts. -/
  | documentStart
  /-- A document is over. -/
  | documentEnd
  /-- An indented list starts. -/
  | blockList
  /-- An indented mapping starts. -/
  | blockMap
  /-- An indented list or mapping is over. -/
  | blockEnd
  /-- A hyphen announces an item. -/
  | item
  /-- A key comes next. -/
  | key
  /-- The value of a key comes next. -/
  | value
  /-- A bracket opens a list. -/
  | openList
  /-- A bracket closes a list. -/
  | closeList
  /-- A brace opens a mapping. -/
  | openMap
  /-- A brace closes a mapping. -/
  | closeMap
  /-- A comma. -/
  | comma
  /-- A scalar with its value. -/
  | scalar (v : Value)
deriving Repr

/-- A place within a document. -/
structure Cursor where
  /-- What is left to read. -/
  rest : List Glyph
  /-- The columns of the open blocks, from the inside out. -/
  blocks : List Nat := []
  /-- How many brackets and braces are open. -/
  depth : Nat := 0
  /-- Whether a key without an indicator may stand here. -/
  keyAllowed : Bool := true

namespace Cursor

/-! ### Surroundings -/

/-- Whether a bracket or brace is open: then indentation carries no meaning. -/
def inFlow (c : Cursor) : Bool :=
  c.depth != 0

/-- The least column within the innermost block. -/
def margin (c : Cursor) : Nat :=
  match c.blocks with
  | [] => 0
  | column :: _ => column + 1

/-- Whether the column is that of the innermost block, whose next key or item then stands there. -/
def isAligned (c : Cursor) (column : Nat) : Bool :=
  !c.inFlow && column + 1 == c.margin

/-- Closes the blocks that stand further to the right than the column. -/
def unwind (column : Nat) : List Nat → List Mark × List Nat
  | [] => ([], [])
  | block :: outer =>
    if column < block then
      let (ends, open_) := unwind column outer
      (.blockEnd :: ends, open_)
    else ([], block :: outer)

/-- Opens a block at the column, unless the innermost one stands there already. -/
def indent (c : Cursor) (opening : Mark) (column : Nat) : List Mark × List Nat :=
  if c.inFlow || column < c.margin then ([], c.blocks) else ([opening], column :: c.blocks)

/-! ### Between words -/

/-- The glyphs behind spaces, comments and line breaks; the first flag tells whether a comment is
    being read, the second one in the result whether a line ended. -/
def skipGap (inComment : Bool) : List Glyph → Bool × List Glyph
  | [] => (false, [])
  | g :: rest =>
    if isBreak g.char then (true, (skipGap false rest).2)
    else if inComment || g.char = '#' then skipGap true rest
    else if g.char = ' ' then skipGap false rest
    else (false, g :: rest)

/-- The cursor at the next word.  At the start of a line a key is allowed. -/
def skip (c : Cursor) : Cursor :=
  let (broken, rest) := skipGap false c.rest
  { c with rest, keyAllowed := c.keyAllowed || (broken && !c.inFlow) }

/-! ### Words -/

/-- How far behind the start of a key its colon may stand. -/
def keyLimit : Nat := 1024

/-- Whether the scalar that starts at the first glyph is a key: a colon follows it on the same line
    and not too far away. -/
def isKeyBefore (c : Cursor) (start : Glyph) (behind : List Glyph) : Bool :=
  match behind.dropWhile fun g => g.char == ' ' with
  | g :: rest =>
    g.char == ':' && (c.inFlow || endsWord rest) && g.line == start.line
      && c.rest.length - (rest.length + 1) ≤ keyLimit
  | [] => false

/-- The marks of a scalar, with the cursor behind it.  A scalar in the column of the innermost
    block has to be a key. -/
def scalar? (c : Cursor) (start : Glyph) (v : Value) (word : Wording) :
    Option (List Mark × Cursor) :=
  if c.keyAllowed && c.isKeyBefore start word.rest then
    let (opening, blocks) := c.indent .blockMap start.column
    let behind := (word.rest.dropWhile fun g => g.char == ' ').tail
    some (opening ++ [.key, .scalar v, .value],
      { c with rest := behind, blocks, keyAllowed := false })
  else if c.keyAllowed && c.isAligned start.column then none
  else some ([.scalar v], { c with rest := word.rest, keyAllowed := word.broken })

/-- The marks of an indicator that stands in a block, with the cursor behind it.  Outside of
    brackets it needs a place where a key is allowed. -/
def indicator? (c : Cursor) (opening mark : Mark) (column : Nat) (rest : List Glyph)
    (keyAllowed : Bool) : Option (List Mark × Cursor) :=
  if c.inFlow || c.keyAllowed then
    let (opened, blocks) := c.indent opening column
    some (opened ++ [mark], { c with rest, blocks, keyAllowed })
  else none

/-- The mark of an opening bracket or brace, with the cursor behind it. -/
def open? (c : Cursor) (mark : Mark) (column : Nat) (rest : List Glyph) :
    Option (List Mark × Cursor) :=
  if c.keyAllowed && c.isAligned column then none
  else some ([mark], { c with rest, depth := c.depth + 1, keyAllowed := true })

/-- The mark of a closing bracket or brace, with the cursor behind it. -/
def close? (c : Cursor) (mark : Mark) (rest : List Glyph) : Option (List Mark × Cursor) :=
  if c.inFlow then some ([mark], { c with rest, depth := c.depth - 1, keyAllowed := false })
  else none

/-- The mark between documents, with the cursor behind it.  It closes all blocks. -/
def document? (c : Cursor) (mark : Mark) : Option (List Mark × Cursor) :=
  if c.inFlow then none
  else
    some (c.blocks.map (fun _ => .blockEnd) ++ [mark],
      { c with rest := c.rest.drop 3, blocks := [], keyAllowed := false })

/-- Whether a scalar without quotes may begin with the character, which stands before the glyphs. -/
def startsPlain (c : Cursor) (first : Char) (behind : List Glyph) : Bool :=
  if first == '-' then !endsWord behind
  else if first == '?' || first == ':' then !c.inFlow && !endsWord behind
  else !(isGap first || Wording.isFlowIndicator first || "#&*!|>'\"%@`".contains first)

/-- The marks at the next word, which begins with the given glyph, with the cursor behind it. -/
def step? (c : Cursor) (g : Glyph) (rest : List Glyph) : Option (List Mark × Cursor) :=
  if startsWithMark '-' c.rest then c.document? .documentStart
  else if startsWithMark '.' c.rest then c.document? .documentEnd
  else if g.char = '[' then c.open? .openList g.column rest
  else if g.char = '\x7b' then c.open? .openMap g.column rest
  else if g.char = ']' then c.close? .closeList rest
  else if g.char = '\x7d' then c.close? .closeMap rest
  else if g.char = ',' then
    if c.inFlow then some ([.comma], { c with rest, keyAllowed := true }) else none
  else if g.char = '-' ∧ endsWord rest then c.indicator? .blockList .item g.column rest true
  else if g.char = '?' ∧ (c.inFlow ∨ endsWord rest) then
    c.indicator? .blockMap .key g.column rest (!c.inFlow)
  else if g.char = ':' ∧ (c.inFlow ∨ endsWord rest) then
    c.indicator? .blockMap .value g.column rest (!c.inFlow)
  else if g.char = '\'' ∨ g.char = '"' then do
    let word ← Wording.quoted? g.char rest
    c.scalar? g (.text (String.ofList word.text)) word
  else if c.startsPlain g.char rest then do
    let word := Wording.plain c.inFlow c.margin c.rest
    c.scalar? g (← plainValue? (String.ofList word.text)) word
  else none

/-- The marks from the cursor to the end of the text. -/
def marks? (c : Cursor) : Option (List Mark) :=
  let here := c.skip
  match here.rest with
  | [] => some (if here.inFlow then [] else here.blocks.map fun _ => .blockEnd)
  | g :: rest => do
    let (ends, blocks) := if here.inFlow then ([], here.blocks) else unwind g.column here.blocks
    let (found, next) ← step? { here with blocks } g rest
    if _h : next.rest.length < c.rest.length then
      let more ← marks? next
      return ends ++ found ++ more
    else none
termination_by c.rest.length

end Cursor

/-- The marks of a text. -/
def marks? (text : List Char) : Option (List Mark) :=
  if text.all isAdmitted then Cursor.marks? { rest := glyphs text } else none

end DocAudit.Yaml
