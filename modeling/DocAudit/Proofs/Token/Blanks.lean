import DocAudit.Proofs.Token.Layout
import DocAudit.Proofs.Token.Unplaced

namespace DocAudit

/-!
# Blanks between tokens

Blanks that are put between the tokens of a text move the tokens behind them and change no token.  Behind
a line comment they may become part of it, but a comment is recorded without the blanks at its end.

* `AllBlank`, `Span.Surrounds` — what is put in, and the places where it may not be put;
* `Spells.insert_later`, `Spells.insert_behind` — a token is still spelled with blanks further on, and
  right behind it, where a line comment takes some of them;
* `Cut.insert_blanks` — hence the run of the lexer finds the same tokens;
* `tokenize_insert_blanks` — with blanks put in between tokens, a text has the same tokens.
-/

variable {before cs w a b after chars text : List Char} {c x y : Char} {ts : List Token}
  {kind : TokenKind}

/-- All characters are blank. -/
def AllBlank (w : List Char) : Prop :=
  ∀ c ∈ w, Text.isBlank c = true

/-- The offset lies strictly inside the span. -/
def Span.Surrounds (s : Span) (i : Nat) : Prop :=
  s.start < i ∧ (i : Int) < s.stop

theorem AllBlank.ne (hw : AllBlank w) (hc : c ∈ w) (hx : Text.isBlank x = false) : c ≠ x := by
  rintro rfl
  rw [hw c hc] at hx
  cases hx

/-! ### Openers and closers of comments -/

/-- Two characters that are not blank stand one behind the other without the blanks, if they do with
    them. -/
theorem pair_infix_of_insert (hw : AllBlank w) (hx : Text.isBlank x = false)
    (hy : Text.isBlank y = false) (h : [x, y] <:+: a ++ (w ++ b)) : [x, y] <:+: a ++ b := by
  induction a with
  | nil =>
    induction w with
    | nil => exact h
    | cons c w ih =>
      rw [List.nil_append, List.cons_append, List.infix_cons_iff, List.cons_prefix_cons] at h
      rcases h with ⟨rfl, _⟩ | h
      · exact absurd rfl (hw.ne (by simp) hx)
      · exact ih (fun d hd => hw d (by simp [hd])) h
  | cons c a ih =>
    rw [List.cons_append, List.infix_cons_iff, List.cons_prefix_cons] at h ⊢
    rcases h with ⟨rfl, hnext⟩ | h
    · -- The second character stands right behind the first one, so no blank is between them.
      refine .inl ⟨rfl, ?_⟩
      cases a with
      | nil =>
        cases w with
        | nil => exact hnext
        | cons d w => exact absurd (List.cons_prefix_cons.1 hnext).1.symm (hw.ne (by simp) hy)
      | cons d a => exact List.cons_prefix_cons.2 ⟨(List.cons_prefix_cons.1 hnext).1, List.nil_prefix⟩
    · exact .inr (ih h)

/-- Blanks do not make a documentation block. -/
theorem StartsBlock.of_insert (hw : AllBlank w) (h : StartsBlock (c :: (a ++ (w ++ b)))) :
    StartsBlock (c :: (a ++ b)) := by
  cases w with
  | nil => exact h
  | cons d w =>
    obtain ⟨marker, body, rest, hm, heq⟩ := h
    obtain ⟨rfl, htail⟩ := List.cons.inj heq
    have hd : ∀ x, Text.isBlank x = false → d ≠ x := fun x hx => hw.ne (by simp) hx
    -- The blanks stand neither in front of the star nor in front of the marker.
    rcases a with _ | ⟨star, _ | ⟨m, a⟩⟩
    · exact absurd (List.cons.inj htail).1 (hd '*' (by decide))
    · have hmarker : d = marker := (List.cons.inj (List.cons.inj htail).2).1
      rcases hm with rfl | rfl
      · exact absurd hmarker (hd '*' (by decide))
      · exact absurd hmarker (hd '!' (by decide))
    · simp only [List.cons_append, List.cons.injEq] at htail
      obtain ⟨rfl, rfl, hbody⟩ := htail
      have hcloser : ['*', '/'] <:+: a ++ (d :: w ++ b) := ⟨body, rest, by simpa using hbody.symm⟩
      obtain ⟨body', rest', heq'⟩ := pair_infix_of_insert hw (by decide) (by decide) hcloser
      exact ⟨m, body', rest', hm, by simp [← heq']⟩

/-! ### One token -/

/-- Blanks further on do not change a token. -/
theorem Spells.insert_later (hw : AllBlank w) (h : Spells kind text chars (c :: (a ++ b))) :
    Spells kind text chars (c :: (a ++ (w ++ b))) := by
  cases h with
  | lineComment hrun ht => exact .lineComment ⟨hrun.all, hrun.stops⟩ ht
  | blockComment hm hfirst => exact .blockComment hm hfirst
  | arrow => exact .arrow
  | delimiter hc => exact .delimiter hc
  | word hc hrun => exact .word hc ⟨hrun.all, hrun.stops⟩
  | @single d _ hb hd hword harrow hline hblock =>
    have hpair : ∀ {x y : Char} {us vs : List Char}, [x, y] <+: d :: c :: us → [x, y] <+: d :: c :: vs := by
      intro x y us vs h
      simpa [List.cons_prefix_cons] using h
    refine .single hb hd hword (fun h => harrow (hpair h)) (fun h => hline (hpair h)) fun h => ?_
    exact hblock (StartsBlock.of_insert (a := c :: a) hw h)

/-- A name does not go on with a blank. -/
theorem isWordPart_of_isBlank (hc : Text.isBlank c = true) : isWordPart c = false := by
  have hstart : isWordStart c = false := by
    cases h : isWordStart c with
    | false => rfl
    | true => rw [isBlank_of_isWordStart h] at hc; cases hc
  rw [isWordPart, hstart, Bool.false_or]
  simp only [Text.isBlank, Bool.or_eq_true, Bool.and_eq_true, decide_eq_true_eq, beq_iff_eq] at hc
  simp only [Char.isDigit, Bool.and_eq_false_iff, decide_eq_false_iff_not, UInt32.le_iff_toNat_le,
    ge_iff_le]
  have hval : c.val.toNat = c.toNat := rfl
  have hzero : '0'.val.toNat = 48 := rfl
  have hnine : '9'.val.toNat = 57 := rfl
  omega

/-- Blanks at the end of a comment are not recorded. -/
theorem Text.Stripped.append_blanks (h : Text.Stripped cs text) (hw : AllBlank w) :
    Text.Stripped (cs ++ w) text := by
  obtain @⟨front, text, back, hfront, hback, hhead, hlast⟩ := h
  have hback' : ∀ c ∈ back ++ w, Text.isBlank c = true := by
    intro c hc
    rcases List.mem_append.1 hc with hc | hc
    · exact hback c hc
    · exact hw c hc
  rw [List.append_assoc]
  exact .mk hfront hback' hhead hlast

/-- A marker is no blank. -/
theorem dropMarker_append_blanks (hw : AllBlank w) (body : List Char) :
    Lexeme.dropMarker (body ++ w) = Lexeme.dropMarker body ++ w := by
  cases body with
  | nil =>
    cases w with
    | nil => rfl
    | cons c w =>
      have hc : ¬ (c = '/' ∨ c = '!') := by
        rintro (h | h)
        · exact hw.ne (by simp) (by decide) h
        · exact hw.ne (by simp) (by decide) h
      exact if_neg hc
  | cons c body =>
    by_cases hc : c = '/' ∨ c = '!'
    · simp [Lexeme.dropMarker, hc]
    · simp [Lexeme.dropMarker, hc]

/-- Blanks right behind a token do not change it, but a line comment may take them in. -/
theorem Spells.insert_behind (hw : AllBlank w) (h : Spells kind text chars b) :
    ∃ taken left, w = taken ++ left ∧ Spells kind text (chars ++ taken) (left ++ b) := by
  cases h with
  | @lineComment body _ _ hrun ht =>
    -- The comment goes on up to the first line break among the blanks.
    refine ⟨w.takeWhile (· != '\n'), w.dropWhile (· != '\n'), by simp, ?_⟩
    have htaken : AllBlank (w.takeWhile (· != '\n')) :=
      fun c hc => hw c ((List.takeWhile_sublist _).subset hc)
    have hrest := run_takeWhile (· != '\n') w
    refine .lineComment ⟨?_, ?_⟩ (dropMarker_append_blanks htaken body ▸ ht.append_blanks htaken)
    · intro c hc
      rcases List.mem_append.1 hc with hc | hc
      · exact hrun.all c hc
      · exact hrest.all c hc
    · intro c hc
      rw [List.head?_append] at hc
      rcases Option.or_eq_some_iff.1 hc with hc | ⟨_, hc⟩
      · exact hrest.stops c hc
      · exact hrun.stops c hc
  | blockComment hm hfirst => exact ⟨[], w, rfl, by simpa using .blockComment hm hfirst⟩
  | arrow => exact ⟨[], w, rfl, .arrow⟩
  | delimiter hc => exact ⟨[], w, rfl, .delimiter hc⟩
  | @word c more _ hc hrun =>
    refine ⟨[], w, rfl, ?_⟩
    rw [List.append_nil]
    refine .word hc ⟨hrun.all, fun d hd => ?_⟩
    cases w with
    | nil => exact hrun.stops d hd
    | cons e w =>
      obtain rfl : e = d := Option.some.inj hd
      exact isWordPart_of_isBlank (hw e (by simp))
  | @single c _ hb hd hword harrow hline hblock =>
    refine ⟨[], w, rfl, ?_⟩
    cases w with
    | nil => exact .single hb hd hword harrow hline hblock
    | cons e w =>
      have he : ∀ x, Text.isBlank x = false → e ≠ x := fun x hx => hw.ne (by simp) hx
      refine .single hb hd hword ?_ ?_ fun h => hblock (StartsBlock.of_insert (a := []) hw h)
      · intro h
        exact he '>' (by decide) (List.cons_prefix_cons.1 (List.cons_prefix_cons.1 h).2).1.symm
      · intro h
        exact he '/' (by decide) (List.cons_prefix_cons.1 (List.cons_prefix_cons.1 h).2).1.symm

/-! ### The run of the lexer -/

namespace Cut

/-- Blanks in front of a text are passed over. -/
theorem blanks (hw : AllBlank w) (h : Cut (before ++ w) cs ts) : Cut before (w ++ cs) ts := by
  induction w generalizing before with
  | nil => simpa using h
  | cons c w ih =>
    refine .blank (hw c (by simp)) (ih (fun d hd => hw d (by simp [hd])) ?_)
    rwa [List.append_assoc, List.singleton_append]

/-- A token in front of tokens that are the same but for their places. -/
theorem cons_unplaced {t : Token} (hs : Spells t.kind t.text.toList chars after)
    (h : ∃ ts', Cut (before ++ chars) after ts' ∧ ts'.map Token.unplaced = ts.map Token.unplaced) :
    ∃ ts', Cut before (chars ++ after) ts' ∧
      ts'.map Token.unplaced = (t :: ts).map Token.unplaced := by
  obtain ⟨ts', h', heq⟩ := h
  let placed : Token := { t with span := ⟨before.length, before.length + chars.length⟩ }
  refine ⟨placed :: ts', .token rfl hs h', ?_⟩
  rw [List.map_cons, List.map_cons, heq]
  rfl

/-- Behind another text, the tokens are the same but for their places. -/
theorem shift (h : Cut before cs ts) (before' : List Char) :
    ∃ ts', Cut before' cs ts' ∧ ts'.map Token.unplaced = ts.map Token.unplaced := by
  induction h generalizing before' with
  | done => exact ⟨[], .done, rfl⟩
  | @blank before cs c ts hc _ ih =>
    obtain ⟨ts', h', heq⟩ := ih (before' ++ [c])
    exact ⟨ts', .blank hc h', heq⟩
  | @token before chars after t ts _ hs _ ih => exact cons_unplaced hs (ih (before' ++ chars))

theorem shift_blanks (hw : AllBlank w) (h : Cut before cs ts) (before' : List Char) :
    ∃ ts', Cut before' (w ++ cs) ts' ∧ ts'.map Token.unplaced = ts.map Token.unplaced := by
  obtain ⟨ts', h', heq⟩ := h.shift (before' ++ w)
  exact ⟨ts', h'.blanks hw, heq⟩

/-- **Blanks between tokens change no token.** -/
theorem insert_blanks (hw : AllBlank w) (h : Cut before (a ++ b) ts)
    (hout : ∀ t ∈ ts, ¬ t.span.Surrounds (before.length + a.length)) (before' : List Char) :
    ∃ ts', Cut before' (a ++ (w ++ b)) ts' ∧ ts'.map Token.unplaced = ts.map Token.unplaced := by
  generalize hcs : a ++ b = cs at h
  induction h generalizing a before' with
  | @done before =>
    obtain ⟨rfl, rfl⟩ := List.append_eq_nil_iff.1 hcs
    have hdone : Cut before [] [] := .done
    exact hdone.shift_blanks hw before'
  | @blank before cs c ts hc h ih =>
    cases a with
    | nil =>
      obtain rfl : b = c :: cs := hcs
      exact (Cut.blank hc h).shift_blanks hw before'
    | cons d a =>
      obtain ⟨rfl, rfl⟩ := List.cons.inj hcs
      have hlength : (before ++ [d]).length + a.length = before.length + (d :: a).length := by
        simp only [List.length_append, List.length_cons, List.length_nil]
        omega
      obtain ⟨ts', h', heq⟩ := ih (fun t ht => hlength ▸ hout t ht) (before' ++ [d]) rfl
      exact ⟨ts', .blank hc h', heq⟩
  | @token before chars after t ts hspan hs h ih =>
    cases a with
    | nil =>
      obtain rfl : b = chars ++ after := hcs
      exact (Cut.token hspan hs h).shift_blanks hw before'
    | cons c front =>
      -- The blanks are not put into the token, so they stand behind it.
      have hlength : chars.length ≤ (c :: front).length := by
        by_contra hlt
        rw [List.length_cons] at hlt
        refine hout t (by simp) ?_
        rw [Span.Surrounds, hspan]
        simp only [List.length_cons]
        omega
      obtain ⟨a, ha⟩ : chars <+: c :: front :=
        List.prefix_of_prefix_length_le ⟨after, rfl⟩ ⟨b, hcs⟩ hlength
      rw [← ha, List.append_assoc, List.append_cancel_left_eq] at hcs
      subst hcs
      rw [← ha, List.append_assoc]
      cases a with
      | nil =>
        -- Right behind the token, some of the blanks may belong to it.
        obtain ⟨taken, left, rfl, hs'⟩ := hs.insert_behind hw
        have hleft : AllBlank left := fun d hd => hw d (List.mem_append_right taken hd)
        have h' := cons_unplaced hs' (h.shift_blanks hleft (before' ++ (chars ++ taken)))
        simpa only [List.append_assoc, List.nil_append] using h'
      | cons d a =>
        have hout' : ∀ u ∈ ts, ¬ u.span.Surrounds ((before ++ chars).length + (d :: a).length) := by
          intro u hu
          rw [List.length_append, Nat.add_assoc, ← List.length_append, ha]
          exact hout u (List.mem_cons_of_mem t hu)
        exact cons_unplaced (hs.insert_later hw) (ih hout' (before' ++ chars) rfl)

/-- A text is cut in one way. -/
theorem eq {us : List Token} (h : Cut before cs ts) (h' : Cut before cs us) : ts = us :=
  h'.unique h.coversText fun t ht => (h.spelledIn t ht).2

end Cut

/-! ### The tokens of a text -/

theorem cut_of_tokenize {source : List Char} (h : tokenize true source = .ok ts) : Cut [] source ts := by
  obtain ⟨us, hus, hcut⟩ := exists_tokenize source
  obtain rfl : ts = us := Except.ok.inj (h.symm.trans hus)
  exact hcut

/-- **With blanks put in between tokens, a text has the same tokens**, but for their places. -/
theorem tokenize_insert_blanks (hw : AllBlank w) (h : tokenize true (a ++ b) = .ok ts)
    (hout : ∀ t ∈ ts, ¬ t.span.Surrounds a.length) :
    ∃ ts', tokenize true (a ++ w ++ b) = .ok ts' ∧
      ts'.map Token.unplaced = ts.map Token.unplaced := by
  obtain ⟨ts', hcut, heq⟩ := (cut_of_tokenize h).insert_blanks hw (by simpa using hout) []
  obtain ⟨us, hus, hcut'⟩ := exists_tokenize (a ++ w ++ b)
  rw [← List.append_assoc] at hcut
  exact ⟨ts', hcut.eq hcut' ▸ hus, heq⟩

end DocAudit
