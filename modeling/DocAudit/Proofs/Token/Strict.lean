import DocAudit.Proofs.Text.Position
import DocAudit.Proofs.Token.Layout

namespace DocAudit

/-!
# Without the catch-all

The lexer runs through a text in the same way with and without the catch-all, up to the first character
that no alternative takes.

* `Lexeme.kind_ne_other` — what an alternative takes belongs to a named class;
* `StrictOutcome` — what a run without the catch-all comes to, told by the tokens of the run with it;
* `tokensFrom_strict` — it is what the lexer does;
* `Fault.Blames` — the fault that a token of no named class stands for;
* `tokenize_strict` — a text is refused just where it has such a token, and for the first one.
-/

variable {cs source : List Char} {ts : List Token} {t : Token}

/-! ### Alternatives -/

/-- What an alternative takes belongs to a named class. -/
theorem Lexeme.kind_ne_other {x : Lexeme} (h : ofText? cs = some x) : x.kind ≠ .other := by
  simp only [ofText?, Option.orElse_eq_orElse, Option.orElse_eq_or, Option.or_eq_some_iff] at h
  rcases h with h | ⟨_, h | ⟨_, h | ⟨_, h | ⟨_, h⟩⟩⟩⟩
  · obtain ⟨_, _, _, _, _, _, rfl⟩ := blockComment?_eq_some h
    simp
  · unfold lineComment? at h
    split at h <;> cases h
    simp
  · unfold arrow? at h
    split at h <;> cases h
    simp
  · unfold delimiter? at h
    split at h
    · cases h
    · obtain ⟨_, h⟩ := Option.ite_none_right_eq_some.1 h
      cases h
      simp
  · unfold word? at h
    split at h
    · cases h
    · obtain ⟨_, h⟩ := Option.ite_none_right_eq_some.1 h
      cases h
      simp

/-! ### Two runs -/

/-- The first token of no named class. -/
def firstOther? (ts : List Token) : Option Token :=
  ts.find? (·.kind == .other)

theorem firstOther?_eq_none_iff : firstOther? ts = none ↔ ∀ t ∈ ts, t.kind ≠ .other := by
  simp [firstOther?]

/-- What a run without the catch-all comes to, where a run with it yields the tokens: the same tokens if
    all belong to a named class, else the character of the first one that does not. -/
inductive StrictOutcome : List Token → Except Stray (List Token) → Prop where
  /-- All tokens belong to a named class. -/
  | ok {ts : List Token} (h : firstOther? ts = none) : StrictOutcome ts (.ok ts)
  /-- Of those that do not, the first one is that character. -/
  | error {ts : List Token} {s : Stray}
      (h : firstOther? ts = some ((Lexeme.single s.char).token s.offset)) :
      StrictOutcome ts (.error s)

/-- A token of a named class in front leaves the outcome. -/
theorem StrictOutcome.cons {outcome : Except Stray (List Token)} (ht : t.kind ≠ .other)
    (h : StrictOutcome ts outcome) : StrictOutcome (t :: ts) (do
      let more ← outcome
      return t :: more) := by
  have hfirst : firstOther? (t :: ts) = firstOther? ts := by
    rw [firstOther?, List.find?_cons_of_neg (by simpa using ht), firstOther?]
  cases h with
  | ok h => exact .ok (hfirst.trans h)
  | error h => exact .error (hfirst.trans h)

/-- **The two runs agree up to the first token of no named class.** -/
theorem tokensFrom_strict (n : Nat) (cs : List Char) :
    ∃ ts, tokensFrom true n cs = .ok ts ∧ StrictOutcome ts (tokensFrom false n cs) := by
  fun_induction tokensFrom true n cs with
  | case1 n =>
    refine ⟨[], rfl, ?_⟩
    rw [tokensFrom]
    exact .ok rfl
  | case2 n c rest hb ih =>
    rw [tokensFrom, if_pos hb]
    exact ih
  | case3 n c rest hb x hx _ ih =>
    obtain ⟨ts, hts, hstrict⟩ := ih
    refine ⟨x.token n :: ts, by rw [hts]; rfl, ?_⟩
    rw [tokensFrom, if_neg hb]
    simp only [hx]
    exact hstrict.cons (Lexeme.kind_ne_other hx)
  | case4 n c rest hb hx _ ih =>
    -- Without the catch-all, the run ends at this character.
    obtain ⟨ts, hts, _⟩ := ih
    refine ⟨(Lexeme.single c).token n :: ts, by rw [hts]; rfl, ?_⟩
    rw [tokensFrom, if_neg hb]
    simp only [hx]
    exact .error rfl
  | case5 n c rest hb hx h => exact absurd rfl h

/-- The tokens of a text without the catch-all are those with it. -/
theorem tokenize_true_of_ok {catchAll : Bool} (h : tokenize catchAll source = .ok ts) :
    tokenize true source = .ok ts := by
  cases catchAll with
  | true => exact h
  | false =>
    obtain ⟨us, hus, hstrict⟩ := tokensFrom_strict 0 source
    rw [tokenize] at h
    generalize tokensFrom false 0 source = outcome at h hstrict
    cases hstrict with
    | ok _ => rw [tokenize, hus, h]
    | error _ => cases h

/-! ### The fault -/

/-- The fault names the character of the token and its place in the text. -/
structure Fault.Blames (f : Fault) (source : List Char) (t : Token) : Prop where
  /-- It arises where a text is cut into tokens. -/
  stage : f.stage = .tokens
  /-- Its offset is the start of the token. -/
  offset : f.offset = t.span.start
  /-- Its reason names the one character of the token, which stands there in the text. -/
  reason : ∃ (i : Nat) (c : Char), t.span.start = i ∧ source[i]? = some c ∧ t.text = c.toString ∧
    f.cause.reason = s!"unexpected character {Text.quoted c.toString}"
  /-- Its line and column are those behind the text in front of the token. -/
  place : ∃ place : Position, place.Follows (source.take t.span.start.toNat) ∧
    f.line = place.line ∧ f.column = place.column

/-- A token of no named class is the one character that stands at its start. -/
theorem Token.SpelledIn.exists_char (h : t.SpelledIn source) (ht : t.kind = .other) :
    ∃ (i : Nat) (c : Char), t.span.start = i ∧ source[i]? = some c ∧ t.text = c.toString := by
  obtain ⟨before, chars, after, rfl, hspan, hs⟩ := h
  rw [ht] at hs
  generalize htext : t.text.toList = text at hs
  cases hs with
  | @single c _ =>
    refine ⟨before.length, c, by rw [hspan], by simp, ?_⟩
    rw [← String.toList_inj, htext, Char.toString_eq_singleton, String.toList_singleton]

theorem Fault.blames_within {s : Stray}
    (hspelled : ((Lexeme.single s.char).token s.offset).SpelledIn source) :
    (within source .tokens (.strayCharacter s.char) s.offset).Blames source
      ((Lexeme.single s.char).token s.offset) where
  stage := rfl
  offset := rfl
  reason := by
    obtain ⟨i, c, hi, hget, htext⟩ := hspelled.exists_char rfl
    obtain rfl : s.char = c := by simpa [Lexeme.token, Lexeme.single] using htext
    exact ⟨i, s.char, hi, hget, rfl, rfl⟩
  place := ⟨_, Position.follows_after _, rfl, rfl⟩

/-- **A text is refused just for a character of no named class.**  With the catch-all off a text has the
    same tokens, if all of them belong to a named class.  Else it is refused for the first one that
    does not, by its character and its place. -/
theorem tokenize_strict (source : List Char) :
    ∃ ts, tokenize true source = .ok ts ∧
      (tokenize false source = .ok ts ↔ ∀ t ∈ ts, t.kind ≠ .other) ∧
      ∀ t, firstOther? ts = some t →
        ∃ fault, tokenize false source = .error fault ∧ fault.Blames source t := by
  obtain ⟨ts, hts, hcut⟩ := exists_tokenize source
  obtain ⟨us, hus, hstrict⟩ := tokensFrom_strict 0 source
  obtain rfl : us = ts := by
    rw [tokenize, hus] at hts
    exact Except.ok.inj hts
  refine ⟨us, hts, ?_⟩
  rw [← firstOther?_eq_none_iff, tokenize]
  generalize tokensFrom false 0 source = outcome at hstrict
  cases hstrict with
  | ok hnone =>
    refine ⟨iff_of_true rfl hnone, fun t ht => ?_⟩
    rw [hnone] at ht
    cases ht
  | @error s hsome =>
    have hspelled := (hcut.spelledIn _ (List.mem_of_find?_eq_some hsome)).2
    refine ⟨?_, fun t ht => ?_⟩
    · rw [hsome]
      exact iff_of_false (by simp) (by simp)
    · obtain rfl := Option.some.inj (hsome.symm.trans ht)
      exact ⟨_, rfl, Fault.blames_within hspelled⟩

/-- A text with a character of no named class on its second line. -/
def strayText : List Char :=
  "fn\n  @".toList

/-- That text is refused for that character, in column 3 of line 2. -/
theorem tokenize_strayText :
    ∃ fault : Fault, tokenize false strayText = .error fault ∧
      fault.Blames strayText ⟨.other, "@", ⟨5, 6⟩⟩ ∧ fault.line = 2 ∧ fault.column = 3 := by
  obtain ⟨ts, hts, _, hfirst⟩ := tokenize_strict strayText
  have htokens : tokenize true strayText =
      .ok [⟨.identifier, "fn", ⟨0, 2⟩⟩, ⟨.other, "@", ⟨5, 6⟩⟩] := by cbv
  have hrefused : tokenize false strayText = .error ⟨.tokens, .strayCharacter '@', 5, 2, 3⟩ := by cbv
  obtain rfl := Except.ok.inj (htokens.symm.trans hts)
  obtain ⟨fault, hfault, hblames⟩ := hfirst _ rfl
  obtain rfl := Except.error.inj (hrefused.symm.trans hfault)
  exact ⟨_, hfault, hblames, rfl, rfl⟩

end DocAudit
