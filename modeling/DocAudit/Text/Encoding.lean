namespace DocAudit.Text

/-!
# From bytes to text

* `decodeUtf8?` — UTF-8 by the letter: no overlong form, no surrogate, nothing above U+10FFFF;
* `foldNewlines` — each of the three line endings becomes a line feed;
* `ofSourceBytes` — how a source file is read: UTF-8 without its byte order mark, and any file that
  is not valid UTF-8 as a whole byte by byte.
-/

/-- A byte that continues a multi-byte sequence. -/
def isContinuation (b : UInt8) : Bool :=
  0x80 ≤ b && b ≤ 0xBF

/-- Whether the two bytes may open a sequence of three: they encode neither a code point that a
    shorter sequence reaches nor a surrogate. -/
def opensThree (a b : UInt8) : Bool :=
  if a == 0xE0 then 0xA0 ≤ b && b ≤ 0xBF
  else if a == 0xED then 0x80 ≤ b && b ≤ 0x9F
  else 0xE1 ≤ a && a ≤ 0xEF && isContinuation b

/-- Whether the two bytes may open a sequence of four: they encode neither a code point that a
    shorter sequence reaches nor one above the last. -/
def opensFour (a b : UInt8) : Bool :=
  if a == 0xF0 then 0x90 ≤ b && b ≤ 0xBF
  else if a == 0xF4 then 0x80 ≤ b && b ≤ 0x8F
  else 0xF1 ≤ a && a ≤ 0xF3 && isContinuation b

/-- The character of a sequence whose first byte counts `lead` and whose other bytes are
    continuations. -/
def sequenceChar (lead : Nat) (continuations : List UInt8) : Char :=
  Char.ofNat (continuations.foldl (fun code b => code * 0x40 + (b.toNat - 0x80)) lead)

/-- The text that the bytes encode, if they are valid UTF-8. -/
def decodeUtf8? : List UInt8 → Option (List Char)
  | [] => some []
  | a :: rest =>
    if a < 0x80 then do
      let more ← decodeUtf8? rest
      return Char.ofNat a.toNat :: more
    else
      match rest with
      | [] => none
      | b :: rest =>
        if 0xC2 ≤ a && a ≤ 0xDF && isContinuation b then do
          let more ← decodeUtf8? rest
          return sequenceChar (a.toNat - 0xC0) [b] :: more
        else
          match rest with
          | [] => none
          | c :: rest =>
            if opensThree a b && isContinuation c then do
              let more ← decodeUtf8? rest
              return sequenceChar (a.toNat - 0xE0) [b, c] :: more
            else
              match rest with
              | [] => none
              | d :: rest =>
                if opensFour a b && isContinuation c && isContinuation d then do
                  let more ← decodeUtf8? rest
                  return sequenceChar (a.toNat - 0xF0) [b, c, d] :: more
                else none

/-- The byte order mark in UTF-8. -/
def byteOrderMark : List UInt8 :=
  [0xEF, 0xBB, 0xBF]

/-- The text of UTF-8 bytes without a byte order mark in front.  Bytes that break off within the
    mark are an empty text. -/
def decodeSigned? (bytes : List UInt8) : Option (List Char) :=
  if bytes.isPrefixOf byteOrderMark then some []
  else if byteOrderMark.isPrefixOf bytes then decodeUtf8? (bytes.drop byteOrderMark.length)
  else decodeUtf8? bytes

/-- The text in which every byte stands for the character of its number. -/
def decodeBytes (bytes : List UInt8) : List Char :=
  bytes.map fun b => Char.ofNat b.toNat

/-- The text with every carriage return, and the line feed behind it if there is one, made a line
    feed. -/
def foldNewlines : List Char → List Char
  | [] => []
  | c :: rest =>
    if c = '\r' then
      if rest.head? = some '\n' then foldNewlines rest else '\n' :: foldNewlines rest
    else c :: foldNewlines rest

/-- The text of a file. -/
structure Decoded where
  /-- The characters, with line feeds for line endings. -/
  text : List Char
  /-- Whether the file had to be read byte by byte. -/
  bytewise : Bool
deriving DecidableEq, Repr

/-- The text of a source file. -/
def ofSourceBytes (bytes : List UInt8) : Decoded :=
  match decodeSigned? bytes with
  | some cs => { text := foldNewlines cs, bytewise := false }
  | none => { text := foldNewlines (decodeBytes bytes), bytewise := true }

/-- The text of a file that has to be UTF-8; a byte order mark is part of it. -/
def ofUtf8Bytes? (bytes : List UInt8) : Option (List Char) :=
  (decodeUtf8? bytes).map foldNewlines

end DocAudit.Text
