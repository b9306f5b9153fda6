import DocAudit.Yaml.Glyph

namespace DocAudit.Yaml

/-!
# The texts of scalars

A scalar may run over several lines, which are folded: a single line break is a space, and of
several the first is dropped.

* `Wording.plain` — a scalar without quotes;
* `Wording.quoted?` — a scalar behind its opening quote.
-/

/-- A text that was read, and what stands behind it. -/
structure Wording where
  /-- The text. -/
  text : List Char
  /-- What stands behind it. -/
  rest : List Glyph
  /-- Whether a line ended behind the text, before the rest. -/
  broken : Bool := false
deriving DecidableEq, Repr

namespace Wording

/-! ### Folding of lines -/

/-- The line breaks among blanks, and what stands behind all of them. -/
def lineBreaks (isBlank : Char → Bool) : List Glyph → List Char × List Glyph
  | [] => ([], [])
  | g :: rest =>
    if isBreak g.char then
      let (breaks, behind) := lineBreaks isBlank rest
      (g.char :: breaks, behind)
    else if isBlank g.char then lineBreaks isBlank rest
    else ([], g :: rest)

/-- What a line break amounts to, together with those that follow it. -/
def foldBreaks (first : Char) (further : List Char) : List Char :=
  if first ≠ '\n' then first :: further
  else if further.isEmpty then [' ']
  else further

/-- The blanks and line breaks at the start of the glyphs, folded. -/
def gap (isBlank : Char → Bool) (gs : List Glyph) : Wording :=
  let behind := gs.dropWhile fun g => isBlank g.char
  match behind with
  | g :: rest =>
    if isBreak g.char then
      let (further, last) := lineBreaks isBlank rest
      { text := foldBreaks g.char further, rest := last, broken := true }
    else { text := (gs.takeWhile fun h => isBlank h.char).map Glyph.char, rest := behind }
  | [] => { text := (gs.takeWhile fun h => isBlank h.char).map Glyph.char, rest := [] }

/-! ### Without quotes -/

/-- The characters that structure a list or mapping in brackets. -/
def isFlowIndicator (c : Char) : Bool :=
  c == ',' || c == '[' || c == ']' || c == '\x7b' || c == '\x7d'

/-- Whether a word without quotes ends before the glyphs.  A colon ends it only in front of a gap
    or, in brackets, of one of their indicators. -/
def endsRun (inFlow : Bool) : List Glyph → Bool
  | [] => true
  | g :: rest =>
    isGap g.char || (g.char == ':' && (endsWord rest || (inFlow && headIs isFlowIndicator rest)))
      || (inFlow && (g.char == '?' || isFlowIndicator g.char))

/-- The characters up to the end of the word. -/
def run (inFlow : Bool) : List Glyph → Wording
  | [] => { text := [], rest := [] }
  | g :: rest =>
    if endsRun inFlow (g :: rest) then { text := [], rest := g :: rest }
    else
      let more := run inFlow rest
      { text := g.char :: more.text, rest := more.rest }

/-- Whether a scalar without quotes is over behind a gap: at a comment, between documents, or on a
    line that is indented less than the margin. -/
def isOver (inFlow : Bool) (margin : Nat) (behind : List Glyph) : Bool :=
  headIs (· == '#') behind || startsDocument behind
    || (!inFlow && (behind.head?.map fun g => decide (g.column < margin)).getD false)

/-- A scalar without quotes, as far as it goes. -/
def plain (inFlow : Bool) (margin : Nat) (gs : List Glyph) : Wording :=
  let word := run inFlow gs
  let blank := gap (· == ' ') word.rest
  let whole : Wording := { word with rest := blank.rest, broken := blank.broken }
  if word.text.isEmpty then { text := [], rest := gs }
  else if blank.text.isEmpty || isOver inFlow margin blank.rest then whole
  else if _h : blank.rest.length < gs.length then
    let more := plain inFlow margin blank.rest
    if more.text.isEmpty then whole else { more with text := word.text ++ blank.text ++ more.text }
  else whole
termination_by gs.length

/-! ### In quotes -/

/-- The character that a letter stands for behind a backslash. -/
def escapes : List (Char × Char) :=
  [('0', '\x00'), ('a', '\x07'), ('b', '\x08'), ('t', '\t'), ('\t', '\t'), ('n', '\n'),
    ('v', '\x0b'), ('f', '\x0c'), ('r', '\r'), ('e', '\x1b'), (' ', ' '), ('"', '"'),
    ('\\', '\\'), ('/', '/'), ('N', '\u0085'), ('_', '\u00a0'), ('L', '\u2028'), ('P', '\u2029')]

/-- How many hexadecimal digits a letter takes behind a backslash. -/
def codeWidths : List (Char × Nat) :=
  [('x', 2), ('u', 4), ('U', 8)]

/-- The value of a hexadecimal digit. -/
def hexDigit? (c : Char) : Option Nat :=
  if c.isDigit then some (c.toNat - '0'.toNat)
  else if 'a' ≤ c && c ≤ 'f' then some (c.toNat - 'a'.toNat + 10)
  else if 'A' ≤ c && c ≤ 'F' then some (c.toNat - 'A'.toNat + 10)
  else none

/-- The character whose number the hexadecimal digits write. -/
def hexChar? (digits : List Char) : Option Char := do
  let code ← digits.foldlM (fun n c => (hexDigit? c).map (n * 16 + ·)) 0
  if code.isValidChar then some (Char.ofNat code) else none

/-- What a backslash and the glyphs behind it stand for. -/
def escape? : List Glyph → Option Wording
  | [] => none
  | g :: rest =>
    match escapes.lookup g.char, codeWidths.lookup g.char with
    | some c, _ => some { text := [c], rest }
    | none, some width => do
      let digits := (rest.take width).map Glyph.char
      let c ← if digits.length = width then hexChar? digits else none
      return { text := [c], rest := rest.drop width }
    | none, none =>
      if isBreak g.char then
        let (breaks, behind) := lineBreaks (fun c => c == ' ' || c == '\t') rest
        if startsDocument behind then none else some { text := breaks, rest := behind }
      else none

/-- The next character or gap between quotes; a doubled single quote is one character. -/
def piece? (quote : Char) : List Glyph → Option Wording
  | [] => none
  | g :: rest =>
    if isGap g.char then
      let blank := gap (fun c => c == ' ' || c == '\t') (g :: rest)
      if startsDocument blank.rest then none else some blank
    else if g.char = '\\' ∧ quote = '"' then escape? rest
    else if g.char = quote then some { text := [quote], rest := rest.tail }
    else some { text := [g.char], rest }

/-- Whether the closing quote comes next. -/
def isClosed (quote : Char) : List Glyph → Bool
  | [] => false
  | g :: rest => g.char == quote && !(quote == '\'' && headIs (· == quote) rest)

/-- The text up to the closing quote. -/
def quoted? (quote : Char) (gs : List Glyph) : Option Wording :=
  if isClosed quote gs then some { text := [], rest := gs.tail }
  else do
    let first ← piece? quote gs
    if _h : first.rest.length < gs.length then
      let more ← quoted? quote first.rest
      return { more with text := first.text ++ more.text }
    else none
termination_by gs.length

end Wording

end DocAudit.Yaml
