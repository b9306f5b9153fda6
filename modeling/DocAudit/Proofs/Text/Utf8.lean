import DocAudit.Text.Encoding
import Mathlib.Data.List.Basic

namespace DocAudit.Text

/-!
# UTF-8, written and read

Decoding accepts just the bytes that encoding writes.  A byte below 128 is never part of a longer
sequence, so bytes can be cut at it.

* `encodeUtf8` — the bytes of a text;
* `pair_iff`, `opensThree_iff`, `opensFour_iff` — how longer sequences begin, told by the codes that they
  begin;
* `encodeChar_eq_one_iff` to `encodeChar_eq_four_iff` — the bytes of a character, by their number;
* `decodeUtf8?_eq_some_iff` — decoding is the inverse of encoding;
* `encodeUtf8_eq_append_iff` — the text in front of a byte below 128, and the text behind it.
-/

variable {a b c d x : UInt8} {bytes front back : List UInt8} {char : Char} {cs : List Char}

/-- The UTF-8 bytes of a text. -/
def encodeUtf8 (cs : List Char) : List UInt8 :=
  cs.flatMap String.utf8EncodeChar

theorem encodeUtf8_cons (char : Char) (cs : List Char) :
    encodeUtf8 (char :: cs) = String.utf8EncodeChar char ++ encodeUtf8 cs :=
  List.flatMap_cons

theorem encodeUtf8_append (cs ds : List Char) :
    encodeUtf8 (cs ++ ds) = encodeUtf8 cs ++ encodeUtf8 ds :=
  List.flatMap_append

/-! ### How sequences begin -/

theorem lt_ascii_iff : a < 0x80 ↔ a.toNat < 0x80 :=
  UInt8.lt_iff_toNat_lt

theorem not_lt_ascii (h : 0x80 ≤ a.toNat) : ¬a < 0x80 :=
  fun hlt => absurd (lt_ascii_iff.1 hlt) (Nat.not_lt_of_le h)

theorem isContinuation_iff : isContinuation b = true ↔ 0x80 ≤ b.toNat ∧ b.toNat ≤ 0xBF := by
  rw [isContinuation, Bool.and_eq_true, decide_eq_true_eq, decide_eq_true_eq, UInt8.le_iff_toNat_le,
    UInt8.le_iff_toNat_le]
  rfl

theorem pair_iff : (0xC2 ≤ a && a ≤ 0xDF && isContinuation b) = true ↔
    (0xC2 ≤ a.toNat ∧ a.toNat ≤ 0xDF) ∧ (0x80 ≤ b.toNat ∧ b.toNat ≤ 0xBF) := by
  rw [Bool.and_eq_true, Bool.and_eq_true, decide_eq_true_eq, decide_eq_true_eq, isContinuation_iff,
    UInt8.le_iff_toNat_le, UInt8.le_iff_toNat_le]
  rfl

theorem not_pair (h : 0xDF < a.toNat) : ¬(0xC2 ≤ a && a ≤ 0xDF && isContinuation b) = true :=
  fun hpair => absurd (pair_iff.1 hpair).1.2 (Nat.not_le_of_lt h)

/-- The codes that two bytes begin are neither those of a shorter sequence nor surrogates. -/
theorem opensThree_iff : opensThree a b = true ↔
    (0xE0 ≤ a.toNat ∧ a.toNat ≤ 0xEF) ∧ (0x80 ≤ b.toNat ∧ b.toNat ≤ 0xBF) ∧
      0x800 ≤ (a.toNat - 0xE0) * 0x1000 + (b.toNat - 0x80) * 0x40 ∧
      ((a.toNat - 0xE0) * 0x1000 + (b.toNat - 0x80) * 0x40 < 0xD800 ∨
        0xDFFF < (a.toNat - 0xE0) * 0x1000 + (b.toNat - 0x80) * 0x40) := by
  have hcontinuation := @isContinuation_iff b
  unfold opensThree
  simp only [beq_iff_eq, ← UInt8.toNat_inj, UInt8.toNat_ofNat]
  split_ifs with hfirst hlast <;>
    simp only [Bool.and_eq_true, decide_eq_true_eq, UInt8.le_iff_toNat_le, UInt8.toNat_ofNat,
      hcontinuation] <;> omega

/-- The codes that two bytes begin are neither those of a shorter sequence nor above the last. -/
theorem opensFour_iff : opensFour a b = true ↔
    0xF0 ≤ a.toNat ∧ (0x80 ≤ b.toNat ∧ b.toNat ≤ 0xBF) ∧
      0x10000 ≤ (a.toNat - 0xF0) * 0x40000 + (b.toNat - 0x80) * 0x1000 ∧
      (a.toNat - 0xF0) * 0x40000 + (b.toNat - 0x80) * 0x1000 ≤ 0x10FFFF := by
  have hcontinuation := @isContinuation_iff b
  unfold opensFour
  simp only [beq_iff_eq, ← UInt8.toNat_inj, UInt8.toNat_ofNat]
  split_ifs with hfirst hlast <;>
    simp only [Bool.and_eq_true, decide_eq_true_eq, UInt8.le_iff_toNat_le, UInt8.toNat_ofNat,
      hcontinuation] <;> omega

/-! ### The bytes of a character -/

theorem ofNat_eq_iff {n : Nat} (h : n.isValidChar) : Char.ofNat n = char ↔ char.toNat = n := by
  constructor
  · rintro rfl
    rw [Char.ofNat, dif_pos h]
    rfl
  · rintro rfl
    exact Char.ofNat_toNat char

/-- The character of the number of a byte. -/
theorem ofNat_byte_eq_iff : Char.ofNat a.toNat = char ↔ char.toNat = a.toNat :=
  ofNat_eq_iff (.inl (Nat.lt_trans a.toNat_lt (by decide)))

theorem byte_eq_iff {n : Nat} (h : n < 0x100) : UInt8.ofNat n = a ↔ a.toNat = n := by
  rw [UInt8.ofNat_eq_iff_mod_eq_toNat, Nat.mod_eq_of_lt h, eq_comm]

theorem encodeChar_eq_one_iff :
    String.utf8EncodeChar char = [a] ↔ a < 0x80 ∧ Char.ofNat a.toNat = char := by
  rw [lt_ascii_iff, ofNat_byte_eq_iff, String.utf8EncodeChar, Char.toNat_val]
  split_ifs <;>
    simp (disch := omega) only [List.cons.injEq, reduceCtorEq, and_true, and_false, false_iff,
      byte_eq_iff] <;> omega

theorem encodeChar_eq_two_iff : String.utf8EncodeChar char = [a, b] ↔
    (0xC2 ≤ a && a ≤ 0xDF && isContinuation b) = true ∧
      sequenceChar (a.toNat - 0xC0) [b] = char := by
  have hchar (h : (0xC2 ≤ a.toNat ∧ a.toNat ≤ 0xDF) ∧ (0x80 ≤ b.toNat ∧ b.toNat ≤ 0xBF)) :
      sequenceChar (a.toNat - 0xC0) [b] = char ↔
        char.toNat = (a.toNat - 0xC0) * 0x40 + (b.toNat - 0x80) :=
    ofNat_eq_iff (.inl (by simp only [List.foldl_cons, List.foldl_nil]; omega))
  rw [pair_iff, and_congr_right hchar, String.utf8EncodeChar, Char.toNat_val]
  split_ifs <;>
    simp (disch := omega) only [List.cons.injEq, reduceCtorEq, and_true, and_false, false_iff,
      byte_eq_iff] <;> omega

theorem encodeChar_eq_three_iff : String.utf8EncodeChar char = [a, b, c] ↔
    (opensThree a b && isContinuation c) = true ∧
      sequenceChar (a.toNat - 0xE0) [b, c] = char := by
  have hvalid : char.toNat < 0xD800 ∨ 0xDFFF < char.toNat ∧ char.toNat < 0x110000 := char.valid
  have hchar (h : opensThree a b = true ∧ isContinuation c = true) :
      sequenceChar (a.toNat - 0xE0) [b, c] = char ↔
        char.toNat = ((a.toNat - 0xE0) * 0x40 + (b.toNat - 0x80)) * 0x40 + (c.toNat - 0x80) := by
    rw [opensThree_iff, isContinuation_iff] at h
    refine ofNat_eq_iff ?_
    simp only [List.foldl_cons, List.foldl_nil, Nat.isValidChar]
    omega
  rw [Bool.and_eq_true, and_congr_right hchar, opensThree_iff, isContinuation_iff,
    String.utf8EncodeChar, Char.toNat_val]
  constructor
  · intro h
    split_ifs at h with hone htwo hthree <;>
      simp (disch := omega) only [List.cons.injEq, reduceCtorEq, and_true, and_false, byte_eq_iff] at h
    refine ⟨⟨⟨⟨?_, ?_⟩, ⟨?_, ?_⟩, ?_, ?_⟩, ?_, ?_⟩, ?_⟩ <;> omega
  · rintro ⟨⟨⟨⟨ha, ha'⟩, ⟨hb, hb'⟩, hlow, _⟩, hc, hc'⟩, hcode⟩
    rw [if_neg (by omega), if_neg (by omega), if_pos (by omega)]
    simp (disch := omega) only [List.cons.injEq, and_true, byte_eq_iff]
    refine ⟨?_, ?_, ?_⟩ <;> omega

theorem encodeChar_eq_four_iff : String.utf8EncodeChar char = [a, b, c, d] ↔
    (opensFour a b && isContinuation c && isContinuation d) = true ∧
      sequenceChar (a.toNat - 0xF0) [b, c, d] = char := by
  have hvalid : char.toNat < 0xD800 ∨ 0xDFFF < char.toNat ∧ char.toNat < 0x110000 := char.valid
  have hchar (h : (opensFour a b = true ∧ isContinuation c = true) ∧ isContinuation d = true) :
      sequenceChar (a.toNat - 0xF0) [b, c, d] = char ↔
        char.toNat = (((a.toNat - 0xF0) * 0x40 + (b.toNat - 0x80)) * 0x40 + (c.toNat - 0x80)) * 0x40 +
          (d.toNat - 0x80) := by
    rw [opensFour_iff, isContinuation_iff, isContinuation_iff] at h
    refine ofNat_eq_iff (.inr ?_)
    simp only [List.foldl_cons, List.foldl_nil]
    constructor <;> omega
  rw [Bool.and_eq_true, Bool.and_eq_true, and_congr_right hchar, opensFour_iff, isContinuation_iff,
    isContinuation_iff, String.utf8EncodeChar, Char.toNat_val]
  constructor
  · intro h
    split_ifs at h with hone htwo hthree <;>
      simp (disch := omega) only [List.cons.injEq, reduceCtorEq, and_true, and_false, byte_eq_iff] at h
    refine ⟨⟨⟨⟨?_, ⟨?_, ?_⟩, ?_, ?_⟩, ?_, ?_⟩, ?_, ?_⟩, ?_⟩ <;> omega
  · rintro ⟨⟨⟨⟨ha, ⟨hb, hb'⟩, hlow, _⟩, hc, hc'⟩, hd, hd'⟩, hcode⟩
    rw [if_neg (by omega), if_neg (by omega), if_neg (by omega)]
    simp (disch := omega) only [List.cons.injEq, and_true, byte_eq_iff]
    refine ⟨?_, ?_, ?_, ?_⟩ <;> omega

/-- A character has one to four bytes. -/
theorem encodeChar_cases (char : Char) :
    (∃ a, String.utf8EncodeChar char = [a]) ∨ (∃ a b, String.utf8EncodeChar char = [a, b]) ∨
      (∃ a b c, String.utf8EncodeChar char = [a, b, c]) ∨
        ∃ a b c d, String.utf8EncodeChar char = [a, b, c, d] := by
  rw [String.utf8EncodeChar]
  split_ifs
  · exact .inl ⟨_, rfl⟩
  · exact .inr (.inl ⟨_, _, rfl⟩)
  · exact .inr (.inr (.inl ⟨_, _, _, rfl⟩))
  · exact .inr (.inr (.inr ⟨_, _, _, _, rfl⟩))

/-- Where a character has a byte below 128, it has no other one. -/
theorem encodeChar_eq_of_mem (hmem : x ∈ String.utf8EncodeChar char) (hx : x < 0x80) :
    String.utf8EncodeChar char = [x] := by
  rw [lt_ascii_iff] at hx
  rcases encodeChar_cases char with ⟨a, h⟩ | ⟨a, b, h⟩ | ⟨a, b, c, h⟩ | ⟨a, b, c, d, h⟩ <;> rw [h] at hmem ⊢
  · rw [List.mem_singleton.1 hmem]
  · have hpair := pair_iff.1 (encodeChar_eq_two_iff.1 h).1
    simp only [List.mem_cons, List.not_mem_nil, or_false] at hmem
    rcases hmem with rfl | rfl <;> omega
  · obtain ⟨hbytes, _⟩ := encodeChar_eq_three_iff.1 h
    rw [Bool.and_eq_true, opensThree_iff, isContinuation_iff] at hbytes
    simp only [List.mem_cons, List.not_mem_nil, or_false] at hmem
    rcases hmem with rfl | rfl | rfl <;> omega
  · obtain ⟨hbytes, _⟩ := encodeChar_eq_four_iff.1 h
    rw [Bool.and_eq_true, Bool.and_eq_true, opensFour_iff, isContinuation_iff, isContinuation_iff] at hbytes
    simp only [List.mem_cons, List.not_mem_nil, or_false] at hmem
    rcases hmem with rfl | rfl | rfl | rfl <;> omega

/-! ### Decoding -/

/-- **The bytes of a character are read back.** -/
theorem decodeUtf8?_encodeChar_append (char : Char) (rest : List UInt8) :
    decodeUtf8? (String.utf8EncodeChar char ++ rest) = (decodeUtf8? rest).map (char :: ·) := by
  have hmap : (do let more ← decodeUtf8? rest; return char :: more) =
      (decodeUtf8? rest).map (char :: ·) := by
    cases decodeUtf8? rest <;> rfl
  rw [← hmap]
  rcases encodeChar_cases char with ⟨a, h⟩ | ⟨a, b, h⟩ | ⟨a, b, c, h⟩ | ⟨a, b, c, d, h⟩ <;>
    rw [h, decodeUtf8?.eq_def]
  · obtain ⟨ha, hchar⟩ := encodeChar_eq_one_iff.1 h
    dsimp only [List.cons_append, List.nil_append]
    rw [if_pos ha, hchar]
  · obtain ⟨hpair, hchar⟩ := encodeChar_eq_two_iff.1 h
    have ha := pair_iff.1 hpair
    have hone : ¬a < 0x80 := not_lt_ascii (by omega)
    dsimp only [List.cons_append, List.nil_append]
    rw [if_neg hone, if_pos hpair, hchar]
  · obtain ⟨hthree, hchar⟩ := encodeChar_eq_three_iff.1 h
    have ha := opensThree_iff.1 (Bool.and_eq_true_iff.1 hthree).1
    have hone : ¬a < 0x80 := not_lt_ascii (by omega)
    have hpair : ¬(0xC2 ≤ a && a ≤ 0xDF && isContinuation b) = true := not_pair (by omega)
    dsimp only [List.cons_append, List.nil_append]
    rw [if_neg hone, if_neg hpair, if_pos hthree, hchar]
  · obtain ⟨hfour, hchar⟩ := encodeChar_eq_four_iff.1 h
    have ha := opensFour_iff.1 (Bool.and_eq_true_iff.1 (Bool.and_eq_true_iff.1 hfour).1).1
    have hone : ¬a < 0x80 := not_lt_ascii (by omega)
    have hpair : ¬(0xC2 ≤ a && a ≤ 0xDF && isContinuation b) = true := not_pair (by omega)
    have hthree : ¬(opensThree a b && isContinuation c) = true := by
      rw [Bool.and_eq_true, opensThree_iff]
      omega
    dsimp only [List.cons_append, List.nil_append]
    rw [if_neg hone, if_neg hpair, if_neg hthree, if_pos hfour, hchar]

theorem decodeUtf8?_encodeUtf8 (cs : List Char) : decodeUtf8? (encodeUtf8 cs) = some cs := by
  induction cs with
  | nil => rfl
  | cons char cs ih => rw [encodeUtf8_cons, decodeUtf8?_encodeChar_append, ih, Option.map_some]

/-- The bytes that are decoded are those of the text: of the first character, and of what is decoded
    behind it. -/
theorem encodeUtf8_of_decodeUtf8? (h : decodeUtf8? bytes = some cs) : encodeUtf8 cs = bytes := by
  have hcons {first behind : List UInt8} {char : Char} {cs : List Char}
      (hfirst : String.utf8EncodeChar char = first)
      (hmore : (do let more ← decodeUtf8? behind; return char :: more) = some cs)
      (ih : ∀ {ds}, decodeUtf8? behind = some ds → encodeUtf8 ds = behind) :
      encodeUtf8 cs = first ++ behind := by
    obtain ⟨ds, hds, heq⟩ := Option.bind_eq_some_iff.1 hmore
    obtain rfl := Option.some.inj heq
    rw [encodeUtf8_cons, hfirst, ih hds]
  fun_induction decodeUtf8? bytes generalizing cs with
  | case1 =>
    obtain rfl := Option.some.inj h
    rfl
  | case2 a rest hone ih => exact hcons (encodeChar_eq_one_iff.2 ⟨hone, rfl⟩) h ih
  | case4 a hone b rest hpair ih => exact hcons (encodeChar_eq_two_iff.2 ⟨hpair, rfl⟩) h ih
  | case6 a hone b hpair c rest hthree ih =>
    exact hcons (encodeChar_eq_three_iff.2 ⟨hthree, rfl⟩) h ih
  | case8 a hone b hpair c hthree d rest hfour ih =>
    exact hcons (encodeChar_eq_four_iff.2 ⟨hfour, rfl⟩) h ih
  | case3 | case5 | case7 | case9 => cases h

/-- **Decoding is the inverse of encoding.** -/
theorem decodeUtf8?_eq_some_iff : decodeUtf8? bytes = some cs ↔ bytes = encodeUtf8 cs := by
  constructor
  · intro h
    exact (encodeUtf8_of_decodeUtf8? h).symm
  · rintro rfl
    exact decodeUtf8?_encodeUtf8 cs

/-! ### Cutting bytes -/

/-- **A byte below 128 cuts a text.**  It stands for a character of its own, and what stands in front of
    it and behind it are texts again. -/
theorem encodeUtf8_eq_append_iff (hx : x < 0x80) : encodeUtf8 cs = front ++ x :: back ↔
    ∃ before after, cs = before ++ Char.ofNat x.toNat :: after ∧ encodeUtf8 before = front ∧
      encodeUtf8 after = back := by
  constructor
  · intro h
    induction cs generalizing front with
    | nil => simp [encodeUtf8] at h
    | cons char cs ih =>
      rw [encodeUtf8_cons, List.append_eq_append_iff] at h
      rcases h with ⟨later, rfl, h⟩ | ⟨part, hpart, h⟩
      · obtain ⟨before, after, rfl, rfl, rfl⟩ := ih h
        exact ⟨char :: before, after, rfl, encodeUtf8_cons char before, rfl⟩
      · cases part with
        | nil =>
          have hlater : encodeUtf8 cs = [] ++ x :: back := h.symm
          obtain ⟨before, after, rfl, hbefore, rfl⟩ := ih hlater
          refine ⟨char :: before, after, rfl, ?_, rfl⟩
          rw [encodeUtf8_cons, hpart, hbefore, List.append_nil, List.append_nil]
        | cons y part =>
          -- The byte is one of the character.
          obtain ⟨rfl, rfl⟩ := List.cons.inj h
          have hchar : String.utf8EncodeChar char = [x] :=
            encodeChar_eq_of_mem (by rw [hpart]; simp) hx
          obtain ⟨rfl, rfl⟩ : front = [] ∧ part = [] := by
            rw [hchar, eq_comm, List.append_eq_singleton_iff] at hpart
            simpa using hpart
          exact ⟨[], cs, by rw [(encodeChar_eq_one_iff.1 hchar).2]; rfl, rfl, rfl⟩
  · rintro ⟨before, after, rfl, rfl, rfl⟩
    rw [encodeUtf8_append, encodeUtf8_cons, encodeChar_eq_one_iff.2 ⟨hx, rfl⟩]
    rfl

end DocAudit.Text
