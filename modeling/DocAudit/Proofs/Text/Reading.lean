import DocAudit.Proofs.Text.Utf8
import Mathlib.Data.List.Infix

namespace DocAudit.Text

/-!
# Files that read as the same text

Which line endings a file has, and whether a byte order mark stands in front, does not show in its text.

* `LineEnding`, `LineEnding.write` — bytes with another line ending in place of each line feed;
* `LineEnding.foldNewlines_spell` — folding undoes that in a text;
* `LineEnding.decodeUtf8?_write`, `LineEnding.decodeBytes_write` — both decoders commute with it;
* `Reads`, `ofSourceBytes_reads` — the text of a file, told by what its bytes encode;
* `Respells`, `ofSourceBytes_of_respells` — the other ways to write a file, all of which read the same.
-/

/-- A text without carriage returns does not change when it is folded. -/
theorem foldNewlines_of_not_mem {cs : List Char} (h : '\r' ∉ cs) : foldNewlines cs = cs := by
  induction cs with
  | nil => rfl
  | cons c cs ih =>
    rw [List.mem_cons, not_or] at h
    rw [foldNewlines, if_neg (Ne.symm h.1), ih h.2]

/-! ### Line endings -/

/-- A line ending other than the line feed. -/
inductive LineEnding where
  /-- A carriage return and a line feed. -/
  | crlf
  /-- A carriage return. -/
  | cr

namespace LineEnding

/-- The bytes of the line ending. -/
def bytes : LineEnding → List UInt8
  | crlf => [0x0D, 0x0A]
  | cr => [0x0D]

/-- The characters of the line ending. -/
def text : LineEnding → List Char
  | crlf => ['\r', '\n']
  | cr => ['\r']

/-- The bytes with the line ending in place of each line feed. -/
def write (e : LineEnding) (bytes : List UInt8) : List UInt8 :=
  bytes.flatMap fun b => if b = 0x0A then e.bytes else [b]

/-- The text with the line ending in place of each line feed. -/
def spell (e : LineEnding) (cs : List Char) : List Char :=
  cs.flatMap fun c => if c = '\n' then e.text else [c]

variable {e : LineEnding} {b : UInt8} {bytes front : List UInt8} {c : Char} {cs : List Char}

theorem write_cons_lineFeed (e : LineEnding) (rest : List UInt8) :
    e.write (0x0A :: rest) = e.bytes ++ e.write rest :=
  List.flatMap_cons

/-- Either line ending begins with the carriage return. -/
theorem append_write_cons (e : LineEnding) (front rest : List UInt8) :
    front ++ e.write (0x0A :: rest) = front ++ 0x0D :: (e.bytes.tail ++ e.write rest) := by
  cases e <;> rfl

theorem write_cons (h : b ≠ 0x0A) (rest : List UInt8) :
    e.write (b :: rest) = b :: e.write rest := by
  rw [write, List.flatMap_cons, if_neg h]
  rfl

theorem write_append (e : LineEnding) (front back : List UInt8) :
    e.write (front ++ back) = e.write front ++ e.write back :=
  List.flatMap_append

theorem spell_cons_lineFeed (e : LineEnding) (cs : List Char) :
    e.spell ('\n' :: cs) = e.text ++ e.spell cs :=
  List.flatMap_cons

theorem spell_cons (h : c ≠ '\n') (cs : List Char) : e.spell (c :: cs) = c :: e.spell cs := by
  rw [spell, List.flatMap_cons, if_neg h]
  rfl

theorem write_of_not_mem (h : 0x0A ∉ bytes) : e.write bytes = bytes := by
  induction bytes with
  | nil => rfl
  | cons b bytes ih =>
    rw [List.mem_cons, not_or] at h
    rw [write_cons (Ne.symm h.1), ih h.2]

/-! ### Folding -/

theorem head?_spell_cr (cs : List Char) : (cr.spell cs).head? ≠ some '\n' := by
  cases cs with
  | nil => simp [spell]
  | cons c cs =>
    by_cases h : c = '\n'
    · rw [h, spell_cons_lineFeed]
      simp [text]
    · rw [spell_cons h]
      simpa using h

/-- **Folding undoes the line endings.** -/
theorem foldNewlines_spell (h : '\r' ∉ cs) : foldNewlines (e.spell cs) = cs := by
  induction cs with
  | nil => rfl
  | cons c cs ih =>
    rw [List.mem_cons, not_or] at h
    by_cases hc : c = '\n'
    · subst hc
      rw [spell_cons_lineFeed]
      cases e with
      | crlf =>
        show foldNewlines ('\r' :: '\n' :: crlf.spell cs) = _
        rw [foldNewlines, if_pos rfl, List.head?_cons, if_pos rfl, foldNewlines,
          if_neg (by decide), ih h.2]
      | cr =>
        show foldNewlines ('\r' :: cr.spell cs) = _
        rw [foldNewlines, if_pos rfl, if_neg (head?_spell_cr cs), ih h.2]
    · rw [spell_cons hc, foldNewlines, if_neg (Ne.symm h.1), ih h.2]

/-! ### Decoding -/

/-- The line feed has a byte of its own, and no other character has that byte. -/
theorem encodeUtf8_spell (e : LineEnding) (cs : List Char) :
    encodeUtf8 (e.spell cs) = e.write (encodeUtf8 cs) := by
  induction cs with
  | nil => rfl
  | cons c cs ih =>
    by_cases hc : c = '\n'
    · have hending : encodeUtf8 e.text = e.bytes := by cases e <;> decide
      rw [hc, spell_cons_lineFeed, encodeUtf8_append, hending, ih]
      exact (write_cons_lineFeed e _).symm
    · have hbyte : 0x0A ∉ String.utf8EncodeChar c := by
        intro hmem
        have hchar := encodeChar_eq_one_iff.1 (encodeChar_eq_of_mem hmem (by decide))
        exact hc hchar.2.symm
      rw [spell_cons hc, encodeUtf8_cons, encodeUtf8_cons, write_append, write_of_not_mem hbyte, ih]

/-- Bytes that are a text with other line endings are a text as they are. -/
theorem exists_encodeUtf8_of_append_write {ds : List Char} (h : encodeUtf8 ds = front ++ e.write bytes) :
    ∃ cs, encodeUtf8 cs = front ++ bytes := by
  induction bytes generalizing front ds with
  | nil => exact ⟨ds, h⟩
  | cons b bytes ih =>
    by_cases hb : b = 0x0A
    · subst hb
      -- The bytes are cut at the line ending.
      obtain ⟨before, behind, -, hbefore, hbehind⟩ :=
        (encodeUtf8_eq_append_iff (by decide)).1 (h.trans (e.append_write_cons front bytes))
      obtain ⟨after, hafter⟩ : ∃ after, encodeUtf8 after = [] ++ e.write bytes := by
        cases e with
        | crlf =>
          have hcut : encodeUtf8 behind = [] ++ 0x0A :: crlf.write bytes := hbehind
          obtain ⟨_, after, -, -, hafter⟩ := (encodeUtf8_eq_append_iff (by decide)).1 hcut
          exact ⟨after, hafter⟩
        | cr => exact ⟨behind, hbehind⟩
      obtain ⟨cs, hcs⟩ := ih hafter
      refine ⟨before ++ '\n' :: cs, ?_⟩
      rw [encodeUtf8_append, hbefore, encodeUtf8_cons, hcs]
      rfl
    · rw [write_cons hb, List.append_cons] at h
      rw [List.append_cons]
      exact ih h

/-- **Decoding commutes with the line endings**, also where it fails. -/
theorem decodeUtf8?_write (e : LineEnding) (bytes : List UInt8) :
    decodeUtf8? (e.write bytes) = (decodeUtf8? bytes).map e.spell := by
  cases h : decodeUtf8? bytes with
  | some cs =>
    obtain rfl := decodeUtf8?_eq_some_iff.1 h
    exact decodeUtf8?_eq_some_iff.2 (encodeUtf8_spell e cs).symm
  | none =>
    rw [Option.map_none, Option.eq_none_iff_forall_ne_some]
    intro ds hds
    have hwritten : encodeUtf8 ds = [] ++ e.write bytes := (decodeUtf8?_eq_some_iff.1 hds).symm
    obtain ⟨cs, hcs⟩ := exists_encodeUtf8_of_append_write hwritten
    cases h.symm.trans (decodeUtf8?_eq_some_iff.2 hcs.symm)

theorem decodeBytes_write (e : LineEnding) (bytes : List UInt8) :
    decodeBytes (e.write bytes) = e.spell (decodeBytes bytes) := by
  induction bytes with
  | nil => rfl
  | cons b bytes ih =>
    by_cases hb : b = 0x0A
    · have hending : decodeBytes e.bytes = e.text := by cases e <;> decide
      have happend : decodeBytes (e.bytes ++ e.write bytes) =
          decodeBytes e.bytes ++ decodeBytes (e.write bytes) := List.map_append
      rw [hb, write_cons_lineFeed, happend, hending, ih]
      exact (spell_cons_lineFeed e _).symm
    · have hchar : Char.ofNat b.toNat ≠ '\n' := by
        rw [ne_eq, ofNat_byte_eq_iff]
        exact fun h => hb (UInt8.toNat_inj.1 h.symm)
      rw [write_cons hb]
      show Char.ofNat b.toNat :: decodeBytes (e.write bytes) = _
      rw [ih]
      exact (spell_cons hchar _).symm

end LineEnding

/-! ### Reading a file -/

variable {e : LineEnding} {bytes bytes' : List UInt8}

theorem carriageReturn_not_mem_decodeBytes (h : 0x0D ∉ bytes) : '\r' ∉ decodeBytes bytes := by
  intro hmem
  obtain ⟨b, hb, hchar⟩ := List.mem_map.1 hmem
  obtain rfl : 0x0D = b := UInt8.toNat_inj.1 (ofNat_byte_eq_iff.1 hchar)
  exact h hb

theorem carriageReturn_not_mem_of_decodeUtf8? {cs : List Char} (hcs : decodeUtf8? bytes = some cs)
    (h : 0x0D ∉ bytes) : '\r' ∉ cs := by
  obtain rfl := decodeUtf8?_eq_some_iff.1 hcs
  intro hmem
  refine h (List.mem_flatMap.2 ⟨'\r', hmem, ?_⟩)
  decide

/-- Behind a byte order mark, UTF-8 is decoded as it would be without one. -/
theorem decodeSigned?_mark_append (bytes : List UInt8) :
    decodeSigned? (byteOrderMark ++ bytes) = decodeUtf8? bytes := by
  cases bytes with
  | nil => rfl
  | cons b bytes => rfl

theorem decodeSigned?_of_unsigned (hpart : ¬bytes <+: byteOrderMark) (h : ¬byteOrderMark <+: bytes) :
    decodeSigned? bytes = decodeUtf8? bytes := by
  rw [← List.isPrefixOf_iff_prefix] at hpart h
  rw [decodeSigned?, if_neg hpart, if_neg h]

namespace LineEnding

/-- Another line ending puts no new start without a carriage return in front of the bytes. -/
theorem prefix_of_prefix_write {front : List UInt8} (hfront : 0x0D ∉ front)
    (h : front <+: e.write bytes) : front <+: bytes := by
  induction front generalizing bytes with
  | nil => exact List.nil_prefix
  | cons x front ih =>
    rw [List.mem_cons, not_or] at hfront
    cases bytes with
    | nil => exact h
    | cons b bytes =>
      by_cases hb : b = 0x0A
      · have hwritten : e.write (b :: bytes) = 0x0D :: (e.bytes.tail ++ e.write bytes) := by
          rw [hb]
          exact e.append_write_cons [] bytes
        rw [hwritten, List.cons_prefix_cons] at h
        exact absurd h.1.symm hfront.1
      · rw [write_cons hb, List.cons_prefix_cons] at h
        exact List.cons_prefix_cons.2 ⟨h.1, ih hfront.2 h.2⟩

/-- The same part of the bytes is decoded whatever the line endings are. -/
theorem exists_decodeSigned?_write (hfeed : 0x0A ∈ bytes) (e : LineEnding) :
    ∃ behind, behind <:+ bytes ∧ decodeSigned? bytes = decodeUtf8? behind ∧
      decodeSigned? (e.write bytes) = decodeUtf8? (e.write behind) := by
  by_cases hmark : byteOrderMark <+: bytes
  · obtain ⟨behind, rfl⟩ := hmark
    have hwritten : e.write (byteOrderMark ++ behind) = byteOrderMark ++ e.write behind := by
      rw [write_append, write_of_not_mem (by decide)]
    exact ⟨behind, List.suffix_append _ _, decodeSigned?_mark_append _,
      hwritten ▸ decodeSigned?_mark_append _⟩
  · have hreturn : 0x0D ∈ e.write bytes :=
      List.mem_flatMap.2 ⟨0x0A, hfeed, by cases e <;> decide⟩
    have hpart : ¬bytes <+: byteOrderMark := fun h => absurd (h.subset hfeed) (by decide)
    have hpart' : ¬e.write bytes <+: byteOrderMark := fun h => absurd (h.subset hreturn) (by decide)
    have hmark' : ¬byteOrderMark <+: e.write bytes := fun h =>
      hmark (prefix_of_prefix_write (by decide) h)
    exact ⟨bytes, List.suffix_refl _, decodeSigned?_of_unsigned hpart hmark,
      decodeSigned?_of_unsigned hpart' hmark'⟩

/-- **Line endings do not show.** -/
theorem ofSourceBytes_write (e : LineEnding) (h : 0x0D ∉ bytes) :
    ofSourceBytes (e.write bytes) = ofSourceBytes bytes := by
  by_cases hfeed : 0x0A ∈ bytes
  · obtain ⟨behind, hsuffix, hbytes, hwritten⟩ := exists_decodeSigned?_write hfeed e
    rw [ofSourceBytes, ofSourceBytes, hbytes, hwritten, decodeUtf8?_write]
    cases hdecoded : decodeUtf8? behind with
    | some cs =>
      have hcs : '\r' ∉ cs :=
        carriageReturn_not_mem_of_decodeUtf8? hdecoded fun hmem => h (hsuffix.subset hmem)
      simp only [Option.map_some, foldNewlines_spell hcs, foldNewlines_of_not_mem hcs]
    | none =>
      have hcs := carriageReturn_not_mem_decodeBytes h
      simp only [Option.map_none, decodeBytes_write, foldNewlines_spell hcs,
        foldNewlines_of_not_mem hcs]
  · rw [write_of_not_mem hfeed]

end LineEnding

/-- Valid UTF-8 without a byte order mark does not break off within one. -/
theorem decodeSigned?_encodeUtf8 {cs : List Char} (hmark : ¬byteOrderMark <+: encodeUtf8 cs) :
    decodeSigned? (encodeUtf8 cs) = some cs := by
  have hdecoded := decodeUtf8?_encodeUtf8 cs
  by_cases hpart : encodeUtf8 cs <+: byteOrderMark
  · have hparts : encodeUtf8 cs ∈ [[], [0xEF], [0xEF, 0xBB], byteOrderMark] :=
      (List.mem_inits _ _).2 hpart
    simp only [List.mem_cons, List.not_mem_nil, or_false] at hparts
    rcases hparts with h | h | h | h <;> rw [h] at hdecoded hmark ⊢
    · exact hdecoded
    · have hnone : decodeUtf8? [0xEF] = none := rfl
      cases hnone.symm.trans hdecoded
    · have hnone : decodeUtf8? [0xEF, 0xBB] = none := rfl
      cases hnone.symm.trans hdecoded
    · exact absurd (List.prefix_refl _) hmark
  · rw [decodeSigned?_of_unsigned hpart hmark, hdecoded]

/-- **A byte order mark does not show.** -/
theorem ofSourceBytes_mark_append {cs : List Char} (hmark : ¬byteOrderMark <+: encodeUtf8 cs) :
    ofSourceBytes (byteOrderMark ++ encodeUtf8 cs) = ofSourceBytes (encodeUtf8 cs) := by
  rw [ofSourceBytes, ofSourceBytes, decodeSigned?_mark_append, decodeUtf8?_encodeUtf8,
    decodeSigned?_encodeUtf8 hmark]

/-- Bytes that begin with a byte order mark are UTF-8 just if those behind it are. -/
theorem decodeUtf8?_mark_append (bytes : List UInt8) :
    decodeUtf8? (byteOrderMark ++ bytes) = (decodeUtf8? bytes).map ('\uFEFF' :: ·) := by
  have hmark : byteOrderMark = String.utf8EncodeChar '\uFEFF' := by decide
  rw [hmark, decodeUtf8?_encodeChar_append]

/-- The text of a file with these bytes. -/
inductive Reads : List UInt8 → List Char → Prop where
  /-- UTF-8 is the text that it encodes. -/
  | utf8 {cs : List Char} (h : ¬byteOrderMark <+: encodeUtf8 cs) :
      Reads (encodeUtf8 cs) (foldNewlines cs)
  /-- A byte order mark in front of UTF-8 does not count. -/
  | marked (cs : List Char) : Reads (byteOrderMark ++ encodeUtf8 cs) (foldNewlines cs)
  /-- Bytes that break off within a byte order mark are an empty text. -/
  | brokenOff {bytes : List UInt8} (h : bytes <+: byteOrderMark) : Reads bytes []
  /-- Any other bytes stand for the characters of their numbers. -/
  | bytewise {bytes : List UInt8} (hpart : ¬bytes <+: byteOrderMark) (h : ∀ cs, bytes ≠ encodeUtf8 cs) :
      Reads bytes (foldNewlines (decodeBytes bytes))

/-- **Every file has a text.** -/
theorem ofSourceBytes_reads (bytes : List UInt8) : Reads bytes (ofSourceBytes bytes).text := by
  by_cases hpart : bytes <+: byteOrderMark
  · have hempty : decodeSigned? bytes = some [] := if_pos (List.isPrefixOf_iff_prefix.2 hpart)
    rw [ofSourceBytes, hempty]
    exact .brokenOff hpart
  · by_cases hmark : byteOrderMark <+: bytes
    · obtain ⟨behind, rfl⟩ := hmark
      rw [ofSourceBytes, decodeSigned?_mark_append]
      cases hdecoded : decodeUtf8? behind with
      | some cs =>
        obtain rfl := decodeUtf8?_eq_some_iff.1 hdecoded
        exact .marked cs
      | none =>
        refine .bytewise hpart fun cs hcs => ?_
        have hsome := decodeUtf8?_eq_some_iff.2 hcs
        rw [decodeUtf8?_mark_append, hdecoded] at hsome
        cases hsome
    · rw [ofSourceBytes, decodeSigned?_of_unsigned hpart hmark]
      cases hdecoded : decodeUtf8? bytes with
      | some cs =>
        obtain rfl := decodeUtf8?_eq_some_iff.1 hdecoded
        exact .utf8 hmark
      | none =>
        refine .bytewise hpart fun cs hcs => ?_
        cases hdecoded.symm.trans (decodeUtf8?_eq_some_iff.2 hcs)

/-- The bytes of a file, and those of a file that has its lines ended otherwise or a byte order mark in
    front. -/
inductive Respells : List UInt8 → List UInt8 → Prop where
  /-- Without carriage returns, each line feed may become another line ending. -/
  | endings (e : LineEnding) {bytes : List UInt8} (h : 0x0D ∉ bytes) : Respells bytes (e.write bytes)
  /-- In front of UTF-8 without a byte order mark, one may be put. -/
  | marked {cs : List Char} (h : ¬byteOrderMark <+: encodeUtf8 cs) :
      Respells (encodeUtf8 cs) (byteOrderMark ++ encodeUtf8 cs)

theorem ofSourceBytes_of_respells (h : Respells bytes bytes') :
    ofSourceBytes bytes' = ofSourceBytes bytes := by
  cases h with
  | endings e h => exact e.ofSourceBytes_write h
  | marked h => exact ofSourceBytes_mark_append h

end DocAudit.Text
