import DocAudit.Proofs.Outline.Coverage
import DocAudit.Proofs.Token.Lexeme

namespace DocAudit

/-!
# Tokens cover the text

Where the tokens of a text stand, and that there is no other way to cut it.

* `CoversText` — tokens one behind another, with only blanks outside of them;
* `Token.SpelledIn` — a token that is what the text spells at its place;
* `Cut` — the run of the lexer through a text, as a relation;
* `tokenize_covers` — every text is cut into tokens that cover it;
* `tokenize_unique` — no other tokens that the text spells cover it.
-/

variable {before cs source : List Char} {ts us : List Token} {t : Token} {n : Nat}

/-- The character at the offset belongs to the span. -/
def Span.Contains (s : Span) (i : Nat) : Prop :=
  s.start ≤ i ∧ (i : Int) < s.stop

/-- From the offset `n` on, the tokens stand one behind another in the text, and what lies outside of
    them is blank. -/
structure CoversText (n : Nat) (source : List Char) (ts : List Token) : Prop where
  /-- No token starts in front of the offset. -/
  start_le : ∀ t ∈ ts, (n : Int) ≤ t.span.start
  /-- Each token ends where the next one starts or before. -/
  apart : ts.Pairwise fun t u => t.span.stop ≤ u.span.start
  /-- A character in no token is blank. -/
  blank : ∀ i c, n ≤ i → source[i]? = some c → (∀ t ∈ ts, ¬t.span.Contains i) →
    Text.isBlank c = true

/-! ### One token -/

/-- The token is what the text spells at its place. -/
def Token.SpelledIn (source : List Char) (t : Token) : Prop :=
  ∃ before chars after, source = before ++ chars ++ after ∧
    t.span = ⟨before.length, before.length + chars.length⟩ ∧
    Spells t.kind t.text.toList chars after

namespace Token.SpelledIn

/-- The token starts with a character that is not blank. -/
theorem start (h : t.SpelledIn source) :
    ∃ (i : Nat) (c : Char), t.span.start = i ∧ source[i]? = some c ∧ Text.isBlank c = false := by
  obtain ⟨before, chars, after, rfl, hspan, hs⟩ := h
  obtain ⟨c, more, rfl, hb⟩ := hs.exists_cons
  refine ⟨before.length, c, by rw [hspan], ?_, hb⟩
  simp

theorem start_lt_stop (h : t.SpelledIn source) : t.span.start < t.span.stop := by
  obtain ⟨before, chars, after, rfl, hspan, hs⟩ := h
  obtain ⟨c, more, rfl, hb⟩ := hs.exists_cons
  rw [hspan]
  simp only [List.length_cons]
  omega

theorem stop_le_length (h : t.SpelledIn source) : t.span.stop ≤ source.length := by
  obtain ⟨before, chars, after, rfl, hspan, hs⟩ := h
  rw [hspan]
  simp only [List.length_append]
  omega

/-- At one place a text spells one token. -/
theorem unique {u : Token} (h : t.SpelledIn source) (h' : u.SpelledIn source)
    (hstart : t.span.start = u.span.start) : t = u := by
  obtain ⟨before, chars, after, rfl, hspan, hs⟩ := h
  obtain ⟨before', chars', after', heq, hspan', hs'⟩ := h'
  rw [hspan, hspan'] at hstart
  rw [List.append_assoc, List.append_assoc] at heq
  obtain ⟨rfl, hfront⟩ := List.append_inj heq (Int.ofNat_inj.1 hstart)
  obtain ⟨hkind, htext, rfl, _⟩ := hs.unique hs' hfront
  obtain ⟨kind, text, span⟩ := t
  obtain ⟨kind', text', span'⟩ := u
  obtain rfl : kind = kind' := hkind
  obtain rfl : text = text' := String.toList_inj.1 htext
  obtain rfl : span = span' := hspan.trans hspan'.symm
  rfl

end Token.SpelledIn

/-! ### The run of the lexer -/

/-- `Cut before cs ts` says that the text `cs`, behind `before`, is cut into the tokens `ts`. -/
inductive Cut : List Char → List Char → List Token → Prop where
  /-- The end of the text. -/
  | done {before : List Char} : Cut before [] []
  /-- A blank between tokens. -/
  | blank {before cs : List Char} {c : Char} {ts : List Token} (hc : Text.isBlank c = true)
      (h : Cut (before ++ [c]) cs ts) : Cut before (c :: cs) ts
  /-- A token. -/
  | token {before chars after : List Char} {t : Token} {ts : List Token}
      (hspan : t.span = ⟨before.length, before.length + chars.length⟩)
      (hs : Spells t.kind t.text.toList chars after) (h : Cut (before ++ chars) after ts) :
      Cut before (chars ++ after) (t :: ts)

/-- One step of the run: the lexeme at the front makes the first token, if the text behind it is
    cut. -/
theorem Cut.exists_token {x : Lexeme} (hx : Lexeme.at? cs = some x) (hn : before.length = n)
    (hrest : ∀ front : List Char, front.length = n + x.width →
      ∃ ts, tokensFrom true (n + x.width) (cs.drop x.width) = .ok ts ∧
        Cut front (cs.drop x.width) ts) :
    ∃ ts, (do
        let more ← tokensFrom true (n + x.width) (cs.drop x.width)
        return x.token n :: more) = .ok ts ∧ Cut before cs ts := by
  obtain ⟨chars, after, rfl, hwidth, hs⟩ := Lexeme.at?_sound hx
  obtain ⟨ts, hts, hcut⟩ := hrest (before ++ chars) (by rw [List.length_append, hn, hwidth])
  refine ⟨x.token n :: ts, by rw [hts]; rfl, ?_⟩
  rw [hwidth, List.drop_left] at hcut
  refine .token ?_ ?_ hcut
  · rw [Lexeme.token, hn, hwidth]
  · rw [Lexeme.token, String.toList_ofList]
    exact hs

/-- Every text is cut into tokens. -/
theorem exists_cut (before cs : List Char) :
    ∃ ts, tokensFrom true before.length cs = .ok ts ∧ Cut before cs ts := by
  generalize hn : before.length = n
  fun_induction tokensFrom true n cs generalizing before with
  | case1 n => exact ⟨[], rfl, .done⟩
  | case2 n c rest hb ih =>
    obtain ⟨ts, hts, hcut⟩ := ih (before ++ [c]) (by simp [hn])
    exact ⟨ts, hts, .blank hb hcut⟩
  | case3 n c rest hb x hx _ ih =>
    have hat : Lexeme.at? (c :: rest) = some x := by
      rw [Lexeme.at?_cons (by simpa using hb), hx]
      rfl
    exact Cut.exists_token hat hn ih
  | case4 n c rest hb hx _ ih =>
    have hat : Lexeme.at? (c :: rest) = some (.single c) := by
      rw [Lexeme.at?_cons (by simpa using hb), hx]
      rfl
    exact Cut.exists_token hat hn ih
  | case5 n c rest hb hx h => exact absurd rfl h

namespace Cut

/-- Each token is spelled in the text, and none stands in front of where the run starts. -/
theorem spelledIn (h : Cut before cs ts) :
    ∀ t ∈ ts, (before.length : Int) ≤ t.span.start ∧ t.SpelledIn (before ++ cs) := by
  induction h with
  | done => simp
  | @blank before cs c ts hc _ ih =>
    intro t ht
    obtain ⟨hstart, hspelled⟩ := ih t ht
    rw [List.append_assoc] at hspelled
    refine ⟨?_, hspelled⟩
    rw [List.length_append] at hstart
    omega
  | @token before chars after t ts hspan hs _ ih =>
    intro u hu
    rcases List.mem_cons.1 hu with rfl | hu
    · refine ⟨Int.le_of_eq (congrArg Span.start hspan).symm, before, chars, after, ?_, hspan, hs⟩
      rw [List.append_assoc]
    · obtain ⟨hstart, hspelled⟩ := ih u hu
      rw [List.append_assoc] at hspelled
      refine ⟨?_, hspelled⟩
      rw [List.length_append] at hstart
      omega

/-- The tokens cover the text from where the run starts. -/
theorem coversText (h : Cut before cs ts) : CoversText before.length (before ++ cs) ts := by
  refine ⟨fun t ht => (h.spelledIn t ht).1, ?_, ?_⟩
  · induction h with
    | done => exact .nil
    | blank _ _ ih => exact ih
    | @token before chars after t ts hspan _ h ih =>
      refine .cons (fun u hu => ?_) ih
      have hstart := (h.spelledIn u hu).1
      rw [hspan]
      simpa using hstart
  · induction h with
    | done =>
      intro i c hi hget
      rw [List.append_nil, List.getElem?_eq_none hi] at hget
      cases hget
    | @blank before cs c ts hc _ ih =>
      intro i d hi hget hout
      rcases hi.eq_or_lt with rfl | hlt
      · -- The blank itself.
        obtain rfl : c = d := by simpa using hget
        exact hc
      · exact ih i d (by simpa using Nat.succ_le_of_lt hlt) (by simpa using hget) hout
    | @token before chars after t ts hspan _ _ ih =>
      intro i d hi hget hout
      have ht := hout t (by simp)
      simp only [Span.Contains, hspan] at ht
      refine ih i d ?_ (by simpa using hget) fun u hu => hout u (by simp [hu])
      rw [List.length_append]
      omega

end Cut

/-! ### There is no other way -/

namespace CoversText

variable {c : Char} {u : Token}

/-- Behind a blank, the tokens cover the text too. -/
theorem skip_blank (h : CoversText n source us) (hspelled : ∀ u ∈ us, u.SpelledIn source)
    (hget : source[n]? = some c) (hc : Text.isBlank c = true) : CoversText (n + 1) source us where
  start_le u hu := by
    obtain ⟨i, d, hi, hd, hb⟩ := (hspelled u hu).start
    have hle := h.start_le u hu
    -- A token does not start with a blank.
    have hne : i ≠ n := by
      rintro rfl
      rw [hget] at hd
      obtain rfl := Option.some.inj hd
      rw [hc] at hb
      cases hb
    omega
  apart := h.apart
  blank i d hi := h.blank i d (by omega)

/-- A character that is not blank belongs to a token. -/
theorem exists_contains {i : Nat} (h : CoversText n source us) (hi : n ≤ i)
    (hget : source[i]? = some c) (hc : Text.isBlank c = false) : ∃ u ∈ us, u.span.Contains i := by
  by_contra hout
  rw [h.blank i c hi hget fun u hu hin => hout ⟨u, hu, hin⟩] at hc
  cases hc

/-- No character belongs to two tokens. -/
theorem eq_of_contains {i : Nat} {v : Token} (h : CoversText n source us) (hu : u ∈ us)
    (hv : v ∈ us) (hui : u.span.Contains i) (hvi : v.span.Contains i) : u = v := by
  obtain ⟨j, hj, rfl⟩ := List.getElem_of_mem hu
  obtain ⟨k, hk, rfl⟩ := List.getElem_of_mem hv
  obtain ⟨hui, hiu⟩ := hui
  obtain ⟨hvi, hiv⟩ := hvi
  rcases Nat.lt_trichotomy j k with hlt | rfl | hlt
  · have hapart := List.pairwise_iff_getElem.1 h.apart j k hj hk hlt
    omega
  · rfl
  · have hapart := List.pairwise_iff_getElem.1 h.apart k j hk hj hlt
    omega

/-- At a character that is not blank, the first token starts. -/
theorem exists_first (h : CoversText n source us) (hspelled : ∀ u ∈ us, u.SpelledIn source)
    (hget : source[n]? = some c) (hc : Text.isBlank c = false) :
    ∃ u more, us = u :: more ∧ u.span.start = n := by
  obtain ⟨v, hv, hvn, _⟩ := h.exists_contains (Nat.le_refl n) hget hc
  have hvstart := h.start_le v hv
  cases us with
  | nil => cases hv
  | cons u more =>
    refine ⟨u, more, rfl, ?_⟩
    rcases List.mem_cons.1 hv with rfl | hmem
    · omega
    · -- A token in front of that one would have no room.
      have hstart := h.start_le u (by simp)
      have hlt := (hspelled u (by simp)).start_lt_stop
      have hapart := List.rel_of_pairwise_cons h.apart hmem
      omega

/-- Behind the first token, the others cover the text. -/
theorem tail {m : Nat} (h : CoversText n source (u :: us)) (hm : u.span.stop = m) (hnm : n ≤ m) :
    CoversText m source us where
  start_le v hv := by
    have hapart := List.rel_of_pairwise_cons h.apart hv
    omega
  apart := h.apart.of_cons
  blank i c hi hget hout := by
    refine h.blank i c (hnm.trans hi) hget fun v hv => ?_
    rcases List.mem_cons.1 hv with rfl | hv
    · rw [Span.Contains, hm]
      omega
    · exact hout v hv

end CoversText

/-- The tokens of a run are the only ones that cover the text and are spelled in it. -/
theorem Cut.unique (h : Cut before cs ts) (hcovers : CoversText before.length (before ++ cs) us)
    (hspelled : ∀ u ∈ us, u.SpelledIn (before ++ cs)) : us = ts := by
  induction h generalizing us with
  | @done before =>
    cases us with
    | nil => rfl
    | cons u more =>
      -- There is no room behind the text.
      have hle := hcovers.start_le u (by simp)
      have hlt := (hspelled u (by simp)).start_lt_stop
      have hlength := (hspelled u (by simp)).stop_le_length
      rw [List.append_nil] at hlength
      omega
  | @blank before cs c ts hc _ ih =>
    have hrest := hcovers.skip_blank hspelled (by simp) hc
    rw [List.append_cons] at hrest hspelled
    exact ih (by simpa using hrest) hspelled
  | @token before chars after t ts hspan hs _ ih =>
    obtain ⟨c, more, rfl, hb⟩ := hs.exists_cons
    obtain ⟨u, others, rfl, hstart⟩ := hcovers.exists_first hspelled (by simp) hb
    have ht : t.SpelledIn (before ++ (c :: more ++ after)) :=
      ⟨before, c :: more, after, (List.append_assoc ..).symm, hspan, hs⟩
    obtain rfl : u = t := (hspelled u (by simp)).unique ht (by rw [hstart, hspan])
    have hrest := hcovers.tail (m := (before ++ c :: more).length) (by simp [hspan]) (by simp)
    rw [← List.append_assoc] at hrest hspelled
    rw [ih hrest fun v hv => hspelled v (by simp [hv])]

/-! ### The tokens of a text -/

theorem exists_tokenize (source : List Char) :
    ∃ ts, tokenize true source = .ok ts ∧ Cut [] source ts := by
  obtain ⟨ts, hts, hcut⟩ := exists_cut [] source
  have hts : tokensFrom true 0 source = .ok ts := hts
  exact ⟨ts, by rw [tokenize, hts], hcut⟩

/-- **Every text is cut into tokens that cover it.**  The tokens are not empty, start with a character
    that is not blank, lie in the text one behind another, and each character that is not blank
    belongs to one of them.  So they stand in source order. -/
theorem tokenize_covers (source : List Char) :
    ∃ ts, tokenize true source = .ok ts ∧ CoversText 0 source ts ∧
      (∀ t ∈ ts, t.span.start < t.span.stop ∧ t.span.stop ≤ source.length ∧
        ∃ (i : Nat) (c : Char), t.span.start = i ∧ source[i]? = some c ∧ Text.isBlank c = false) ∧
      (∀ i c, source[i]? = some c → Text.isBlank c = false → ∃! t, t ∈ ts ∧ t.span.Contains i) ∧
      ∀ text, checkOrder (ts.map Item.token) text = .ok ts := by
  obtain ⟨ts, hts, hcut⟩ := exists_tokenize source
  have hcovers : CoversText 0 source ts := hcut.coversText
  have hspelled : ∀ t ∈ ts, t.SpelledIn source := fun t ht => (hcut.spelledIn t ht).2
  refine ⟨ts, hts, hcovers, fun t ht => ?_, fun i c hget hb => ?_, fun text => ?_⟩
  · have h := hspelled t ht
    exact ⟨h.start_lt_stop, h.stop_le_length, h.start⟩
  · obtain ⟨t, ht, hti⟩ := hcovers.exists_contains (Nat.zero_le i) hget hb
    exact ⟨t, ⟨ht, hti⟩, fun u hu => hcovers.eq_of_contains hu.1 ht hu.2 hti⟩
  · refine checkOrder_of_inOrder ⟨hcovers.apart, fun t ht => ?_⟩ hcovers.start_le text
    exact Int.le_of_lt (hspelled t ht).start_lt_stop

/-- **The tokens are what the text spells, and no others are.** -/
theorem tokenize_unique (source : List Char) :
    ∃ ts, tokenize true source = .ok ts ∧
      ∀ us, CoversText 0 source us ∧ (∀ u ∈ us, u.SpelledIn source) ↔ us = ts := by
  obtain ⟨ts, hts, hcut⟩ := exists_tokenize source
  refine ⟨ts, hts, fun us => ⟨fun h => hcut.unique h.1 h.2, ?_⟩⟩
  rintro rfl
  exact ⟨hcut.coversText, fun t ht => (hcut.spelledIn t ht).2⟩

end DocAudit
