import DocAudit.Token.Lexer
import Mathlib

namespace DocAudit

/-!
# What a token looks like

The classes of tokens, said without the order in which the alternatives are tried, and that the lexeme
at the front of a text is the one that the text spells there.

* `Run` — the longest stretch of characters of one class;
* `Text.Stripped` — a text without the blanks at its two ends;
* `Spells` — characters that make up a token, in front of the text behind them;
* `Lexeme.at?`, `Lexeme.at?_sound`, `Spells.at?_append` — the lexeme at the front is what is spelled.
-/

variable {c : Char} {cs body after chars text : List Char} {p : Char → Bool}

/-! ### Runs -/

/-- The text `body` is the longest stretch of characters of one class in front of `body ++ after`. -/
structure Run (p : Char → Bool) (body after : List Char) : Prop where
  /-- All of it belongs to the class. -/
  all : ∀ c ∈ body, p c = true
  /-- What stands behind does not start with the class. -/
  stops : ∀ c ∈ after.head?, p c = false

theorem Run.takeWhile_append (h : Run p body after) : (body ++ after).takeWhile p = body := by
  rw [List.takeWhile_append_of_pos h.all]
  cases after with
  | nil => simp
  | cons c after => simp [h.stops c rfl]

theorem Run.dropWhile_append (h : Run p body after) : (body ++ after).dropWhile p = after := by
  rw [List.dropWhile_append_of_pos h.all]
  cases after with
  | nil => rfl
  | cons c after => rw [List.dropWhile_cons_of_neg (by simp [h.stops c rfl])]

theorem run_takeWhile (p : Char → Bool) (cs : List Char) :
    Run p (cs.takeWhile p) (cs.dropWhile p) where
  all _ hc := List.mem_takeWhile_imp hc
  stops c hc := by
    have h := List.head?_dropWhile_not p cs
    rw [Option.mem_def.1 hc] at h
    exact h

/-! ### Trimming -/

namespace Text

/-- The text `text` is what is left of `cs` without the blanks at its two ends. -/
inductive Stripped : List Char → List Char → Prop where
  /-- Blanks, a text that neither starts nor ends with one, and blanks. -/
  | mk {front text back : List Char} (hfront : ∀ c ∈ front, isBlank c = true)
      (hback : ∀ c ∈ back, isBlank c = true) (hhead : ∀ c ∈ text.head?, isBlank c = false)
      (hlast : ∀ c ∈ text.getLast?, isBlank c = false) : Stripped (front ++ text ++ back) text

theorem trimEnd_append {back : List Char} (hback : ∀ c ∈ back, isBlank c = true)
    (hlast : ∀ c ∈ text.getLast?, isBlank c = false) : trimEnd (text ++ back) = text := by
  have hrun : Run isBlank back.reverse text.reverse :=
    ⟨fun c hc => hback c (List.mem_reverse.1 hc), by rwa [List.head?_reverse]⟩
  rw [trimEnd, List.reverse_append, hrun.dropWhile_append, List.reverse_reverse]

theorem Stripped.trim_eq (h : Stripped cs text) : trim cs = text := by
  obtain @⟨front, text, back, hfront, hback, hhead, hlast⟩ := h
  rw [trim, List.append_assoc, List.dropWhile_append_of_pos hfront]
  cases text with
  | nil =>
    rw [List.nil_append, List.dropWhile_eq_nil_iff.2 hback]
    rfl
  | cons c text =>
    rw [List.cons_append, List.dropWhile_cons_of_neg (by simp [hhead c rfl]), ← List.cons_append]
    exact trimEnd_append hback hlast

theorem stripped_trim (cs : List Char) : Stripped cs (trim cs) := by
  have hback := run_takeWhile isBlank (cs.dropWhile isBlank).reverse
  have hrest : trim cs ++ ((cs.dropWhile isBlank).reverse.takeWhile isBlank).reverse =
      cs.dropWhile isBlank := by
    rw [trim, trimEnd, ← List.reverse_append, List.takeWhile_append_dropWhile, List.reverse_reverse]
  have hfront : Run isBlank (cs.takeWhile isBlank)
      (trim cs ++ ((cs.dropWhile isBlank).reverse.takeWhile isBlank).reverse) := by
    rw [hrest]
    exact run_takeWhile isBlank cs
  have hsplit : cs.takeWhile isBlank ++ trim cs ++
      ((cs.dropWhile isBlank).reverse.takeWhile isBlank).reverse = cs := by
    rw [List.append_assoc, hrest, List.takeWhile_append_dropWhile]
  have hhead : ∀ c ∈ (trim cs).head?, isBlank c = false := fun c hc =>
    hfront.stops c (by rw [List.head?_append, Option.mem_def.1 hc]; rfl)
  have hlast : ∀ c ∈ (trim cs).getLast?, isBlank c = false := by
    rw [trim, trimEnd, List.getLast?_reverse]
    exact hback.stops
  have h := Stripped.mk hfront.all (fun c hc => hback.all c (List.mem_reverse.1 hc)) hhead hlast
  rwa [hsplit] at h

end Text

/-! ### The classes of tokens -/

/-- The text starts with a documentation block that is closed further on. -/
def StartsBlock (cs : List Char) : Prop :=
  ∃ marker body rest, (marker = '*' ∨ marker = '!') ∧
    cs = '/' :: '*' :: marker :: (body ++ '*' :: '/' :: rest)

/-- `Spells kind text chars after` says that the characters `chars`, in front of `after`, make up a
    token of this class that records `text`. -/
inductive Spells : TokenKind → List Char → List Char → List Char → Prop where
  /-- Two slashes and the rest of the line; the text has no marker and no blanks at its ends. -/
  | lineComment {body after text : List Char} (hrun : Run (· != '\n') body after)
      (ht : Text.Stripped (Lexeme.dropMarker body) text) :
      Spells .comment text ('/' :: '/' :: body) after
  /-- A documentation block through its first closer; the text is all between the marker and that
      closer. -/
  | blockComment {marker : Char} {body after : List Char} (hm : marker = '*' ∨ marker = '!')
      (hfirst : ¬['*', '/'] <:+: body) :
      Spells .comment body ('/' :: '*' :: marker :: (body ++ ['*', '/'])) after
  /-- The arrow. -/
  | arrow {after : List Char} : Spells .operator ['-', '>'] ['-', '>'] after
  /-- A delimiter. -/
  | delimiter {c : Char} {after : List Char} (hc : isDelimiter c = true) :
      Spells .control [c] [c] after
  /-- A name that does not go on behind. -/
  | word {c : Char} {more after : List Char} (hc : isWordStart c = true)
      (hrun : Run isWordPart more after) : Spells .identifier (c :: more) (c :: more) after
  /-- A character that is not blank and at which nothing else starts. -/
  | single {c : Char} {after : List Char} (hb : Text.isBlank c = false)
      (hd : isDelimiter c = false) (hw : isWordStart c = false)
      (harrow : ¬['-', '>'] <+: c :: after) (hline : ¬['/', '/'] <+: c :: after)
      (hblock : ¬StartsBlock (c :: after)) : Spells .other [c] [c] after

/-! ### Blanks and first characters -/

/-- A delimiter is not blank. -/
theorem isBlank_of_isDelimiter (h : isDelimiter c = true) : Text.isBlank c = false := by
  simp only [isDelimiter, List.contains_eq_mem, decide_eq_true_eq, List.mem_cons, List.not_mem_nil,
    or_false] at h
  rcases h with rfl | rfl | rfl | rfl | rfl | rfl | rfl | rfl <;> decide

/-- A name does not start with a blank. -/
theorem isBlank_of_isWordStart (h : isWordStart c = true) : Text.isBlank c = false := by
  simp only [isWordStart, Bool.or_eq_true, beq_iff_eq, Char.isAlpha, Char.isUpper, Char.isLower,
    Bool.and_eq_true, decide_eq_true_eq, UInt32.le_iff_toNat_le, ge_iff_le] at h
  have hrange : 65 ≤ c.toNat ∧ c.toNat ≤ 122 := by
    rcases h with rfl | ⟨hl, hu⟩ | ⟨hl, hu⟩
    · decide
    · exact ⟨hl, hu.trans (by decide)⟩
    · exact ⟨.trans (by decide) hl, hu⟩
  simp only [Text.isBlank, Bool.or_eq_false_iff, Bool.and_eq_false_iff, decide_eq_false_iff_not,
    beq_eq_false_iff_ne]
  omega

/-- A token starts with a character that is not blank. -/
theorem Spells.exists_cons {kind : TokenKind} (h : Spells kind text chars after) :
    ∃ c more, chars = c :: more ∧ Text.isBlank c = false := by
  cases h with
  | lineComment => exact ⟨_, _, rfl, by decide⟩
  | blockComment => exact ⟨_, _, rfl, by decide⟩
  | arrow => exact ⟨_, _, rfl, by decide⟩
  | delimiter hc => exact ⟨_, _, rfl, isBlank_of_isDelimiter hc⟩
  | word hc => exact ⟨_, _, rfl, isBlank_of_isWordStart hc⟩
  | single hb => exact ⟨_, _, rfl, hb⟩

/-! ### The alternatives -/

namespace Lexeme

variable {x : Lexeme} {n : Nat}

/-- The first closer is found, with the text in front of it. -/
theorem closerAt?_eq_some (h : closerAt? cs = some n) :
    ∃ body rest, cs = body ++ '*' :: '/' :: rest ∧ body.length = n ∧ ¬['*', '/'] <:+: body := by
  induction cs generalizing n with
  | nil => cases h
  | cons c cs ih =>
    rw [closerAt?] at h
    split at h
    · rename_i hc
      obtain ⟨rfl, hhead⟩ := hc
      obtain ⟨rest, rfl⟩ := List.head?_eq_some_iff.1 hhead
      exact ⟨[], rest, rfl, Option.some.inj h, by simp⟩
    · rename_i hc
      obtain ⟨m, hm, rfl⟩ := Option.map_eq_some_iff.1 h
      obtain ⟨body, rest, rfl, rfl, hbody⟩ := ih hm
      refine ⟨c :: body, rest, rfl, rfl, ?_⟩
      rw [List.infix_cons_iff, not_or]
      refine ⟨?_, hbody⟩
      -- A closer at the front would have been found there.
      intro hpre
      obtain ⟨rfl, hslash⟩ := List.cons_prefix_cons.1 hpre
      obtain ⟨more, rfl⟩ := hslash
      exact hc ⟨rfl, rfl⟩

/-- Where there is a closer, one is found. -/
theorem closerAt?_append (h : ¬['*', '/'] <:+: body) :
    closerAt? (body ++ '*' :: '/' :: after) = some body.length := by
  induction body with
  | nil => rfl
  | cons c body ih =>
    rw [List.infix_cons_iff, not_or] at h
    have hc : ¬(c = '*' ∧ (body ++ '*' :: '/' :: after).head? = some '/') := by
      rintro ⟨rfl, hhead⟩
      cases body with
      | nil => cases hhead
      | cons d body =>
        obtain rfl : d = '/' := Option.some.inj hhead
        exact h.1 (by simp)
    rw [List.cons_append, closerAt?, if_neg hc, ih h.2]
    rfl

theorem closerAt?_ne_none (body rest : List Char) :
    closerAt? (body ++ '*' :: '/' :: rest) ≠ none := by
  induction body with
  | nil => simp [closerAt?]
  | cons c body ih =>
    rw [List.cons_append, closerAt?]
    split
    · simp
    · rwa [ne_eq, Option.map_eq_none_iff]

/-- The lexeme is spelled at the front of the text. -/
def Fits (x : Lexeme) (cs : List Char) : Prop :=
  ∃ chars after, cs = chars ++ after ∧ x.width = chars.length ∧ Spells x.kind x.text chars after

/-- What is taken as a documentation block is one, through its first closer. -/
theorem blockComment?_eq_some (h : blockComment? cs = some x) :
    ∃ marker body after, (marker = '*' ∨ marker = '!') ∧
      cs = '/' :: '*' :: marker :: (body ++ '*' :: '/' :: after) ∧ ¬['*', '/'] <:+: body ∧
      x = { kind := .comment, text := body, width := body.length + 5 } := by
  unfold blockComment? at h
  split at h
  · rename_i marker rest
    split at h
    · rename_i hm
      obtain ⟨n, hn, rfl⟩ := Option.map_eq_some_iff.1 h
      obtain ⟨body, after, rfl, rfl, hfirst⟩ := closerAt?_eq_some hn
      exact ⟨marker, body, after, hm, rfl, hfirst, by simp⟩
    · cases h
  · cases h

theorem blockComment?_sound (h : blockComment? cs = some x) : x.Fits cs := by
  obtain ⟨marker, body, after, hm, rfl, hfirst, rfl⟩ := blockComment?_eq_some h
  exact ⟨'/' :: '*' :: marker :: (body ++ ['*', '/']), after, by simp, by simp,
    .blockComment hm hfirst⟩

theorem blockComment?_eq_none_iff : blockComment? cs = none ↔ ¬StartsBlock cs := by
  constructor
  · rintro h ⟨marker, body, rest, hm, rfl⟩
    simp only [blockComment?, if_pos hm, Option.map_eq_none_iff] at h
    exact closerAt?_ne_none body rest h
  · intro h
    cases hx : blockComment? cs with
    | none => rfl
    | some x =>
      obtain ⟨marker, body, after, hm, rfl, _⟩ := blockComment?_eq_some hx
      exact absurd ⟨marker, body, after, hm, rfl⟩ h

theorem lineComment?_sound (h : lineComment? cs = some x) : x.Fits cs := by
  unfold lineComment? at h
  split at h
  · rename_i rest
    cases h
    refine ⟨'/' :: '/' :: rest.takeWhile (· != '\n'), rest.dropWhile (· != '\n'), ?_, rfl, ?_⟩
    · simp
    · exact .lineComment (run_takeWhile _ rest) (Text.stripped_trim _)
  · cases h

theorem lineComment?_eq_none_iff : lineComment? cs = none ↔ ¬['/', '/'] <+: cs := by
  constructor
  · rintro h ⟨rest, rfl⟩
    cases h
  · intro h
    unfold lineComment?
    split
    · rename_i rest
      exact absurd ⟨rest, rfl⟩ h
    · rfl

theorem arrow?_sound (h : arrow? cs = some x) : x.Fits cs := by
  unfold arrow? at h
  split at h
  · cases h
    exact ⟨['-', '>'], _, rfl, rfl, .arrow⟩
  · cases h

theorem arrow?_eq_none_iff : arrow? cs = none ↔ ¬['-', '>'] <+: cs := by
  constructor
  · rintro h ⟨rest, rfl⟩
    cases h
  · intro h
    unfold arrow?
    split
    · rename_i rest
      exact absurd ⟨rest, rfl⟩ h
    · rfl

theorem delimiter?_sound (h : delimiter? cs = some x) : x.Fits cs := by
  cases cs with
  | nil => cases h
  | cons c cs =>
    rw [delimiter?, Option.ite_none_right_eq_some] at h
    obtain ⟨hc, h⟩ := h
    cases h
    exact ⟨[c], cs, rfl, rfl, .delimiter hc⟩

theorem word?_sound (h : word? cs = some x) : x.Fits cs := by
  cases cs with
  | nil => cases h
  | cons c cs =>
    rw [word?, Option.ite_none_right_eq_some] at h
    obtain ⟨hc, h⟩ := h
    cases h
    refine ⟨c :: cs.takeWhile isWordPart, cs.dropWhile isWordPart, ?_, rfl, ?_⟩
    · simp
    · exact .word hc (run_takeWhile isWordPart cs)

/-! ### The lexeme at the front -/

/-- The lexeme at the front of a text, if the text does not start with a blank. -/
def at? : List Char → Option Lexeme
  | [] => none
  | c :: rest => if Text.isBlank c then none else some ((ofText? (c :: rest)).getD (single c))

/-- **The lexeme at the front is spelled there.** -/
theorem at?_sound (h : at? cs = some x) : x.Fits cs := by
  cases cs with
  | nil => cases h
  | cons c cs =>
    rw [at?, Option.ite_none_left_eq_some, Option.some.injEq] at h
    obtain ⟨hb, rfl⟩ := h
    cases hx : ofText? (c :: cs) with
    | some x =>
      simp only [ofText?, Option.orElse_eq_orElse, Option.orElse_eq_or, Option.or_eq_some_iff] at hx
      rw [Option.getD_some]
      rcases hx with h | ⟨_, h | ⟨_, h | ⟨_, h | ⟨_, h⟩⟩⟩⟩
      · exact blockComment?_sound h
      · exact lineComment?_sound h
      · exact arrow?_sound h
      · exact delimiter?_sound h
      · exact word?_sound h
    | none =>
      simp only [ofText?, Option.orElse_eq_orElse, Option.orElse_eq_or, Option.or_eq_none_iff,
        blockComment?_eq_none_iff, lineComment?_eq_none_iff, arrow?_eq_none_iff] at hx
      obtain ⟨hblock, hline, harrow, hdelimiter, hword⟩ := hx
      have hd : isDelimiter c = false := by simpa [delimiter?] using hdelimiter
      have hw : isWordStart c = false := by simpa [word?] using hword
      exact ⟨[c], cs, rfl, rfl, .single (by simpa using hb) hd hw harrow hline hblock⟩

/-- Neither a comment nor the arrow starts with another character than a slash or a dash. -/
theorem ofText?_cons (hs : c ≠ '/') (ha : c ≠ '-') :
    ofText? (c :: cs) = (delimiter? (c :: cs)).or (word? (c :: cs)) := by
  have hblock : blockComment? (c :: cs) = none := by
    rw [blockComment?_eq_none_iff]
    rintro ⟨marker, body, rest, _, heq⟩
    exact hs (List.cons.inj heq).1
  have hline : lineComment? (c :: cs) = none := by
    rw [lineComment?_eq_none_iff, List.cons_prefix_cons]
    exact fun h => hs h.1.symm
  have harrow : arrow? (c :: cs) = none := by
    rw [arrow?_eq_none_iff, List.cons_prefix_cons]
    exact fun h => ha h.1.symm
  simp only [ofText?, hblock, hline, harrow, Option.orElse_eq_orElse, Option.orElse_eq_or,
    Option.none_or]

theorem at?_cons (hb : Text.isBlank c = false) :
    at? (c :: cs) = some ((ofText? (c :: cs)).getD (single c)) := by
  simp [at?, hb]

end Lexeme

/-- A delimiter starts neither a comment nor the arrow. -/
theorem ne_slash_and_ne_dash_of_isDelimiter (h : isDelimiter c = true) : c ≠ '/' ∧ c ≠ '-' := by
  constructor <;> (rintro rfl; revert h; decide)

/-- A name starts neither with a delimiter nor like a comment or the arrow. -/
theorem isDelimiter_of_isWordStart (h : isWordStart c = true) :
    isDelimiter c = false ∧ c ≠ '/' ∧ c ≠ '-' := by
  refine ⟨Bool.eq_false_iff.2 fun hd => ?_, ?_, ?_⟩
  · simp only [isDelimiter, List.contains_eq_mem, decide_eq_true_eq, List.mem_cons,
      List.not_mem_nil, or_false] at hd
    rcases hd with rfl | rfl | rfl | rfl | rfl | rfl | rfl | rfl <;> cases h
  · rintro rfl
    cases h
  · rintro rfl
    cases h

/-- **What is spelled at the front is the lexeme there**, whatever stands behind it. -/
theorem Spells.at?_append {kind : TokenKind} (h : Spells kind text chars after) :
    ∃ x, Lexeme.at? (chars ++ after) = some x ∧ x.kind = kind ∧ x.text = text ∧
      x.width = chars.length := by
  cases h with
  | @lineComment body _ _ hrun ht =>
    have hbody := hrun.takeWhile_append
    refine ⟨_, rfl, rfl, ?_, ?_⟩
    · show Text.trim (Lexeme.dropMarker ((body ++ after).takeWhile (· != '\n'))) = text
      rw [hbody, ht.trim_eq]
    · show ((body ++ after).takeWhile (· != '\n')).length + 2 = _
      rw [hbody]
      rfl
  | @blockComment marker _ _ hm hfirst =>
    have hat : Lexeme.at? ('/' :: '*' :: marker :: (text ++ '*' :: '/' :: after)) =
        some { kind := .comment, text, width := text.length + 5 } := by
      rw [Lexeme.at?_cons (by decide), Lexeme.ofText?, Lexeme.blockComment?, if_pos hm,
        Lexeme.closerAt?_append hfirst]
      simp
    exact ⟨_, by simpa using hat, rfl, rfl, by simp⟩
  | arrow => exact ⟨_, rfl, rfl, rfl, rfl⟩
  | @delimiter c _ hc =>
    obtain ⟨hs, ha⟩ := ne_slash_and_ne_dash_of_isDelimiter hc
    refine ⟨_, Lexeme.at?_cons (isBlank_of_isDelimiter hc), ?_⟩
    simp [Lexeme.ofText?_cons hs ha, Lexeme.delimiter?, hc]
  | @word c more _ hc hrun =>
    obtain ⟨hd, hs, ha⟩ := isDelimiter_of_isWordStart hc
    refine ⟨_, Lexeme.at?_cons (isBlank_of_isWordStart hc), ?_⟩
    simp [Lexeme.ofText?_cons hs ha, Lexeme.delimiter?, Lexeme.word?, hc, hd,
      hrun.takeWhile_append]
  | @single c _ hb hd hw harrow hline hblock =>
    have hat : Lexeme.at? (c :: after) = some (.single c) := by
      simp [Lexeme.at?_cons hb, Lexeme.ofText?, Lexeme.blockComment?_eq_none_iff.2 hblock,
        Lexeme.lineComment?_eq_none_iff.2 hline, Lexeme.arrow?_eq_none_iff.2 harrow,
        Lexeme.delimiter?, Lexeme.word?, hd, hw]
    exact ⟨_, hat, rfl, rfl, rfl⟩

/-- A text spells one token at its front. -/
theorem Spells.unique {kind kind' : TokenKind} {text' chars' after' : List Char}
    (h : Spells kind text chars after) (h' : Spells kind' text' chars' after')
    (heq : chars ++ after = chars' ++ after') :
    kind = kind' ∧ text = text' ∧ chars = chars' ∧ after = after' := by
  obtain ⟨x, hx, rfl, rfl, hwidth⟩ := h.at?_append
  obtain ⟨x', hx', rfl, rfl, hwidth'⟩ := h'.at?_append
  rw [heq, hx'] at hx
  obtain rfl := Option.some.inj hx
  obtain ⟨hchars, hafter⟩ := List.append_inj heq (hwidth.symm.trans hwidth')
  exact ⟨rfl, rfl, hchars, hafter⟩

end DocAudit
