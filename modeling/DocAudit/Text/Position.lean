namespace DocAudit

/-!
# Lines and columns

An offset counts the characters before a place in a text.  `Position.ofOffset` turns it into the
line and column that reports show, both counted from 1.
-/

/-- A place in a text, as reports show it. -/
structure Position where
  /-- The line, counted from 1. -/
  line : Nat
  /-- The column, counted from 1. -/
  column : Nat
deriving DecidableEq, Repr

namespace Position

/-- The position just behind `before`, the text that stands in front of a place. -/
def after (before : List Char) : Position where
  line := before.count '\n' + 1
  column := (before.reverse.takeWhile (· != '\n')).length + 1

/-- The position at an offset.  An offset before the text counts as its start, one behind the text
    as its end. -/
def ofOffset (text : List Char) (offset : Int) : Position :=
  after (text.take offset.toNat)

end Position

end DocAudit
