import DocAudit.Proofs.Token.Strict

namespace DocAudit

/-!
# Where a block comment ends

A block comment ends at the first closer behind the three characters that open it.  Where the last of
these is a star, a slash right behind makes a closer out of that star.  This one is passed over, and the
comment goes on to the next closer of the text.

* `FirstCloser` — the first closer of a text at or behind an offset;
* `firstCloser_append` — where it stands behind a text without one;
* `Token.SpelledIn.firstCloser` — it ends each block comment of a text;
* `blockComment_ends` — and is the first one behind the opening slash and star too, but for a star that
  both opens and closes.
-/

variable {source body after : List Char} {ts : List Token} {t : Token} {start stop : Nat}

/-! ### Closers -/

/-- The first closer at or behind the offset `start` stands at the offset `stop`. -/
structure FirstCloser (source : List Char) (start stop : Nat) : Prop where
  /-- It does not stand in front of the offset. -/
  le : start ≤ stop
  /-- There stands a closer. -/
  closes : ['*', '/'] <+: source.drop stop
  /-- In between there is none. -/
  first : ∀ i, start ≤ i → i < stop → ¬['*', '/'] <+: source.drop i

/-- From one character earlier on, it is the first closer too, unless one stands at that character. -/
theorem FirstCloser.pred_iff (h : FirstCloser source (start + 1) stop) :
    FirstCloser source start stop ↔ ¬['*', '/'] <+: source.drop start := by
  constructor
  · intro hfirst
    exact hfirst.first start (Nat.le_refl start) h.le
  · intro hstart
    refine ⟨Nat.le_of_succ_le h.le, h.closes, fun i hi hlt => ?_⟩
    rcases hi.eq_or_lt with rfl | hi
    · exact hstart
    · exact h.first i hi hlt

/-- In a text without a closer, none starts in front of one, not even with the last character. -/
theorem not_prefix_drop {k : Nat} (h : ¬['*', '/'] <:+: body) (hk : k < body.length) :
    ¬['*', '/'] <+: (body ++ '*' :: '/' :: after).drop k := by
  intro hpre
  have hbody : body.take k ++ body.drop k = body := List.take_append_drop k body
  rw [List.drop_append_of_le_length hk.le] at hpre
  obtain ⟨c, more, hdrop⟩ := List.exists_cons_of_length_pos (l := body.drop k) (by simpa using hk)
  rw [hdrop, List.cons_append, List.cons_prefix_cons] at hpre
  obtain ⟨rfl, hpre⟩ := hpre
  cases more with
  | nil =>
    -- Behind the last character stands the star of the closer.
    simp at hpre
  | cons d more =>
    obtain ⟨rfl, _⟩ := List.cons_prefix_cons.1 hpre
    rw [hdrop] at hbody
    exact h ⟨body.take k, more, by simpa using hbody⟩

theorem firstCloser_append (front : List Char) (h : ¬['*', '/'] <:+: body) :
    FirstCloser (front ++ (body ++ '*' :: '/' :: after)) front.length
      (front.length + body.length) where
  le := Nat.le_add_right _ _
  closes := by simp
  first i hi hlt := by
    obtain ⟨k, rfl⟩ := Nat.exists_eq_add_of_le hi
    rw [List.drop_length_add_append]
    exact not_prefix_drop h (Nat.lt_of_add_lt_add_left hlt)

/-! ### Comments -/

/-- A block comment is closed by the first closer behind the three characters that open it. -/
theorem Token.SpelledIn.firstCloser (h : t.SpelledIn source) (hkind : t.kind = .comment)
    (hstart : t.span.start = start) (hopen : ['/', '*'] <+: source.drop start) :
    ∃ stop : Nat, t.span.stop = stop + 2 ∧ FirstCloser source (start + 3) stop := by
  obtain ⟨before, chars, after, rfl, hspan, hs⟩ := h
  obtain rfl : before.length = start := by
    rw [hspan] at hstart
    exact Int.ofNat_inj.1 hstart
  rw [List.append_assoc, List.drop_left] at hopen
  rw [hkind] at hs
  generalize t.text.toList = text at hs
  cases hs with
  | lineComment =>
    -- That one starts with two slashes.
    simp at hopen
  | @blockComment marker _ _ _ hfirst =>
    refine ⟨before.length + 3 + text.length, ?_, ?_⟩
    · rw [hspan]
      simp
      omega
    · simpa using firstCloser_append (before ++ ['/', '*', marker]) hfirst

/-- **A block comment ends at the first closer behind the characters that open it.**  That one is also
    the first one behind the slash and the star, just where these do not go on with a star and a
    slash. -/
theorem blockComment_ends {catchAll : Bool} (h : tokenize catchAll source = .ok ts) :
    ∀ t ∈ ts, t.kind = .comment → ∀ start : Nat, t.span.start = start →
      ['/', '*'] <+: source.drop start →
      ∃ stop : Nat, t.span.stop = stop + 2 ∧ FirstCloser source (start + 3) stop ∧
        (FirstCloser source (start + 2) stop ↔ ¬['/', '*', '*', '/'] <+: source.drop start) := by
  intro t ht hkind start hstart hopen
  obtain ⟨us, hus, hcut⟩ := exists_tokenize source
  obtain rfl := Except.ok.inj (hus.symm.trans (tokenize_true_of_ok h))
  have hspelled : t.SpelledIn source := (hcut.spelledIn t ht).2
  obtain ⟨stop, hstop, hfirst⟩ := hspelled.firstCloser hkind hstart hopen
  refine ⟨stop, hstop, hfirst, ?_⟩
  rw [hfirst.pred_iff]
  obtain ⟨rest, hrest⟩ := hopen
  have hrest' : source.drop (start + 2) = rest := by
    rw [← List.drop_drop, ← hrest]
    rfl
  rw [hrest', ← hrest]
  simp

/-! ### A star that opens and closes -/

/-- A text with a comment that is closed at once, a function and another comment. -/
def closedText : List Char :=
  "/**/ fn f() {} /** x */".toList

/-- One comment that runs over all of that text. -/
def closedComment : Token :=
  ⟨.comment, "/ fn f() {} /** x ", ⟨0, 23⟩⟩

theorem blockComment_ends_closedText :
    tokenize true closedText = .ok [closedComment] ∧
    ∃ stop : Nat, closedComment.span.stop = stop + 2 ∧ FirstCloser closedText 3 stop ∧
      (FirstCloser closedText 2 stop ↔ ¬['/', '*', '*', '/'] <+: closedText.drop 0) := by
  have htokens : tokenize true closedText = .ok [closedComment] := by cbv
  exact ⟨htokens, blockComment_ends htokens closedComment (by simp) rfl 0 rfl (by decide)⟩

/-- **The comment is closed at once and runs on to the end of the text**, over a function. -/
theorem comment_runs_over_closer :
    tokenize true closedText = .ok [closedComment] ∧ closedComment.span = ⟨0, 21 + 2⟩ ∧
    FirstCloser closedText 2 2 ∧ ¬FirstCloser closedText 2 21 := by
  have hcloses : ['*', '/'] <+: closedText.drop 2 := by decide
  refine ⟨by cbv, rfl, ⟨Nat.le_refl 2, hcloses, fun i hi hlt => ?_⟩, fun h => ?_⟩
  · omega
  · exact h.first 2 (Nat.le_refl 2) (by decide) hcloses

end DocAudit
