namespace DocAudit.Yaml

/-!
# Characters in their place

Indentation carries meaning in a document, so every character is read together with its line and its
column.

* `isAdmitted` — the characters that a document may hold;
* `Glyph`, `glyphs` — a character in its place, and a text as a list of them;
* `startsDocument` — the mark between two documents.
-/

/-- The characters that may stand in a document: no controls but tab and line breaks, and no
    non-characters. -/
def isAdmitted (c : Char) : Bool :=
  let n := c.toNat
  n == 0x09 || n == 0x0A || n == 0x0D || (0x20 ≤ n && n ≤ 0x7E) || n == 0x85
    || (0xA0 ≤ n && n ≤ 0xFFFD) || 0x10000 ≤ n

/-- A character with its line and column, both counted from 0. -/
structure Glyph where
  /-- The character. -/
  char : Char
  /-- Its line. -/
  line : Nat
  /-- Its column. -/
  column : Nat
deriving DecidableEq, Repr

/-- The characters that end a line.  A line feed also stands for the next-line control. -/
def isBreak (c : Char) : Bool :=
  c == '\n' || c == '\u2028' || c == '\u2029'

/-- The characters that part words. -/
def isGap (c : Char) : Bool :=
  c == ' ' || c == '\t' || isBreak c

/-- The mark of byte order, which takes no column. -/
def byteOrderMark : Char := '\uFEFF'

/-- The characters in their places, of which the first is given. -/
def glyphsFrom (line column : Nat) : List Char → List Glyph
  | [] => []
  | c :: rest =>
    ⟨c, line, column⟩ ::
      if isBreak c then glyphsFrom (line + 1) 0 rest
      else if c = byteOrderMark then glyphsFrom line column rest
      else glyphsFrom line (column + 1) rest

/-- The text as glyphs, without a byte order mark in front. -/
def glyphs (text : List Char) : List Glyph :=
  let cs := text.map fun c => if c = '\u0085' then '\n' else c
  glyphsFrom 0 0 (if cs.head? = some byteOrderMark then cs.tail else cs)

/-- Whether the first glyph, if there is one, passes the test. -/
def headIs (test : Char → Bool) (gs : List Glyph) : Bool :=
  (gs.head?.map fun g => test g.char).getD false

/-- Whether a word ends here: at a gap, or because nothing follows. -/
def endsWord (gs : List Glyph) : Bool :=
  gs.isEmpty || headIs isGap gs

/-- Whether the glyphs begin with the three characters, at the start of a line and as a word. -/
def startsWithMark (c : Char) (gs : List Glyph) : Bool :=
  (gs.take 3).map Glyph.char == [c, c, c] && (gs.head?.map Glyph.column) == some 0
    && endsWord (gs.drop 3)

/-- Whether a mark between documents comes next. -/
def startsDocument (gs : List Glyph) : Bool :=
  startsWithMark '-' gs || startsWithMark '.' gs

end DocAudit.Yaml
