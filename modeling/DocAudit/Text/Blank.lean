namespace DocAudit.Text

/-!
# Blank characters

* `isBlank` — the white space that may stand between tokens and that trimming removes;
* `trim` — a text without the blanks at its two ends.
-/

/-- White space: the controls U+0009-000D and U+001C-001F, the space, and the separators and
    line breaks of Unicode beyond ASCII.  Zero-width characters are not blank. -/
def isBlank (c : Char) : Bool :=
  let n := c.toNat
  (0x09 ≤ n && n ≤ 0x0D) || (0x1C ≤ n && n ≤ 0x20) || n == 0x85 || n == 0xA0 || n == 0x1680
    || (0x2000 ≤ n && n ≤ 0x200A) || n == 0x2028 || n == 0x2029 || n == 0x202F || n == 0x205F
    || n == 0x3000

/-- The text without the blanks at its end. -/
def trimEnd (cs : List Char) : List Char :=
  (cs.reverse.dropWhile isBlank).reverse

/-- The text without the blanks at its two ends. -/
def trim (cs : List Char) : List Char :=
  trimEnd (cs.dropWhile isBlank)

end DocAudit.Text
