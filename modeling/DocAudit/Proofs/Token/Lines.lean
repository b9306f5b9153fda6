import DocAudit.Proofs.Token.Blanks

namespace DocAudit

/-!
# Lines are cut on their own

A token does not go on over a line break, unless it is a documentation block.  So what stands behind a
line break has no influence on the tokens in front of it, but for an opener that is never closed: a later
line may close it.

* `OpensBlock`, `Token.LeavesOpen` — the opener of a block, and a token in place of one;
* `Token.shift` — a token further on in the text;
* `Spells.append_line` — a token is spelled in the same way in front of another line;
* `Cut.append_line`, `Cut.behind` — the run goes on with the next line, and from there on as at the start
  of a text;
* `tokenize_append_line` — the tokens of two texts, one below the other.
-/

variable {before cs a b chars text after : List Char} {ts us : List Token} {t : Token}
  {kind : TokenKind}

/-! ### Openers -/

/-- The text starts with what opens a documentation block, closed or not. -/
def OpensBlock (cs : List Char) : Prop :=
  ['/', '*', '*'] <+: cs ∨ ['/', '*', '!'] <+: cs

instance (cs : List Char) : Decidable (OpensBlock cs) :=
  inferInstanceAs (Decidable (_ ∨ _))

theorem StartsBlock.opensBlock (h : StartsBlock cs) : OpensBlock cs := by
  obtain ⟨marker, body, rest, rfl | rfl, rfl⟩ := h
  · exact .inl ⟨_, rfl⟩
  · exact .inr ⟨_, rfl⟩

/-- A closer in the next line makes a block of an opener. -/
theorem OpensBlock.startsBlock (h : OpensBlock cs) : StartsBlock (cs ++ ['\n', '*', '/']) := by
  rcases h with ⟨body, rfl⟩ | ⟨body, rfl⟩
  · exact ⟨'*', body ++ ['\n'], [], .inl rfl, by simp⟩
  · exact ⟨'!', body ++ ['\n'], [], .inr rfl, by simp⟩

/-- The token has no class and stands where the text opens a documentation block: one that is never
    closed. -/
def Token.LeavesOpen (source : List Char) (t : Token) : Prop :=
  t.kind = .other ∧ OpensBlock (source.drop t.span.start.toNat)

instance (source : List Char) (t : Token) : Decidable (t.LeavesOpen source) :=
  inferInstanceAs (Decidable (_ ∧ _))

/-- A token of no class does not stand where a documentation block is closed. -/
theorem Token.SpelledIn.not_startsBlock {source : List Char} (h : t.SpelledIn source)
    (hkind : t.kind = .other) : ¬StartsBlock (source.drop t.span.start.toNat) := by
  obtain ⟨before, chars, after, rfl, hspan, hs⟩ := h
  rw [hkind] at hs
  generalize t.text.toList = text at hs
  cases hs with
  | single _ _ _ _ _ hblock => simpa [hspan] using hblock

/-! ### One token -/

/-- What stands at the front of a line and holds no line break ends in that line. -/
theorem prefix_of_prefix_line {w : List Char} (hw : '\n' ∉ w) (h : w <+: a ++ '\n' :: b) :
    w <+: a := by
  have hline : a ++ ['\n'] <+: a ++ '\n' :: b := ⟨b, by simp⟩
  rcases List.prefix_or_prefix_of_prefix h hline with hpre | hpre
  · rcases List.prefix_concat_iff.1 hpre with rfl | hpre
    · exact absurd (by simp) hw
    · exact hpre
  · exact absurd (hpre.subset (by simp)) hw

/-- A stretch of characters other than line breaks stays the longest one. -/
theorem Run.append_line {p : Char → Bool} (h : Run p chars after) (hp : p '\n' = false)
    (b : List Char) : Run p chars (after ++ '\n' :: b) where
  all := h.all
  stops c hc := by
    cases after with
    | nil =>
      obtain rfl : '\n' = c := Option.some.inj hc
      exact hp
    | cons d after => exact h.stops c hc

/-- A token is spelled in the same way in front of another line, if it is not an opener that this line
    may close. -/
theorem Spells.append_line (h : Spells kind text chars after)
    (hopen : kind = .other → ¬OpensBlock (chars ++ after)) (b : List Char) :
    Spells kind text chars (after ++ '\n' :: b) := by
  cases h with
  | lineComment hrun ht => exact .lineComment (hrun.append_line (by decide) b) ht
  | blockComment hm hfirst => exact .blockComment hm hfirst
  | arrow => exact .arrow
  | delimiter hc => exact .delimiter hc
  | word hc hrun => exact .word hc (hrun.append_line (by decide) b)
  | @single c _ hb hd hw harrow hline hblock =>
    rw [List.singleton_append] at hopen
    have hfront {w : List Char} (hw : '\n' ∉ w) (h : w <+: c :: (after ++ '\n' :: b)) :
        w <+: c :: after := prefix_of_prefix_line hw h
    refine .single hb hd hw (fun h => harrow (hfront (by decide) h))
      (fun h => hline (hfront (by decide) h)) fun h => hopen rfl ?_
    exact h.opensBlock.imp (hfront (by decide)) (hfront (by decide))

/-! ### The run of the lexer -/

/-- The token with its place moved on by a number of characters. -/
def Token.shift (t : Token) (n : Nat) : Token :=
  { t with span := ⟨t.span.start + n, t.span.stop + n⟩ }

namespace Cut

/-- Behind more text, the same tokens stand further on. -/
theorem behind (h : Cut before cs ts) (front : List Char) :
    Cut (front ++ before) cs (ts.map (·.shift front.length)) := by
  induction h with
  | done => exact .done
  | @blank before cs c ts hc _ ih =>
    rw [← List.append_assoc] at ih
    exact .blank hc ih
  | @token before chars after t ts hspan hs _ ih =>
    rw [← List.append_assoc] at ih
    refine .token ?_ hs ih
    simp only [Token.shift, hspan, List.length_append, Span.mk.injEq]
    omega

/-- The run through a line goes on with the next one, if no opener is left open. -/
theorem append_line (h : Cut before a ts) (hopen : ∀ t ∈ ts, ¬t.LeavesOpen (before ++ a))
    (hrest : Cut (before ++ (a ++ ['\n'])) b us) : Cut before (a ++ '\n' :: b) (ts ++ us) := by
  induction h with
  | done => exact .blank (by decide) hrest
  | @blank before a c ts hc _ ih =>
    rw [List.append_cons] at hopen
    rw [List.cons_append, List.append_cons before c] at hrest
    exact .blank hc (ih hopen hrest)
  | @token before chars after t ts hspan hs _ ih =>
    have hkind : t.kind = .other → ¬OpensBlock (chars ++ after) := by
      intro hother hblock
      exact hopen t (by simp) ⟨hother, by simpa [hspan] using hblock⟩
    rw [← List.append_assoc] at hopen
    rw [List.append_assoc chars, ← List.append_assoc] at hrest
    rw [List.append_assoc]
    exact .token hspan (hs.append_line hkind b)
      (ih (fun u hu => hopen u (List.mem_cons_of_mem t hu)) hrest)

end Cut

/-! ### The tokens of two texts, one below the other -/

/-- **Lines are cut on their own.**  Below a text that leaves no opener of a documentation block open,
    another text has the tokens that it has on its own, further on by the length of the first one and the
    line break, and the first one keeps its tokens.  A text that leaves one open does not have this
    property. -/
theorem tokenize_append_line (a : List Char) :
    ∃ ts, tokenize true a = .ok ts ∧
      ((∀ t ∈ ts, ¬t.LeavesOpen a) ↔
        ∀ b, ∃ us, tokenize true b = .ok us ∧
          tokenize true (a ++ '\n' :: b) = .ok (ts ++ us.map (·.shift (a.length + 1)))) := by
  obtain ⟨ts, hts, hcut⟩ := exists_tokenize a
  refine ⟨ts, hts, fun hopen b => ?_, fun hlines t ht hopen => ?_⟩
  · obtain ⟨us, hus, hbelow⟩ := exists_tokenize b
    refine ⟨us, hus, ?_⟩
    have hrest : Cut (a ++ ['\n']) b (us.map (·.shift (a.length + 1))) := by
      simpa using hbelow.behind (a ++ ['\n'])
    obtain ⟨vs, hvs, hboth⟩ := exists_tokenize (a ++ '\n' :: b)
    rw [hvs, hboth.eq (hcut.append_line hopen hrest)]
  · -- A closer in the next line turns the token into the start of a comment.
    obtain ⟨us, _, hboth⟩ := hlines ['*', '/']
    have hspelled := ((cut_of_tokenize hboth).spelledIn t (List.mem_append_left _ ht)).2
    have hstart : t.span.start.toNat ≤ a.length := by
      obtain ⟨i, c, hi, hget, _⟩ := ((hcut.spelledIn t ht).2).start
      have hlt := (List.getElem?_eq_some_iff.1 hget).1
      simp only [List.nil_append] at hlt
      omega
    refine hspelled.not_startsBlock hopen.1 ?_
    rw [List.nil_append, List.drop_append_of_le_length hstart]
    exact hopen.2.startsBlock

/-- A line with a comment and, at its end, a dash. -/
def dashText : List Char :=
  "/** x */ -".toList

/-- The tokens of that line. -/
def dashTokens : List Token :=
  [⟨.comment, " x ", ⟨0, 8⟩⟩, ⟨.other, "-", ⟨9, 10⟩⟩]

/-- A line with a bracket that would make an arrow of a dash, and at its end a slash. -/
def bracketText : List Char :=
  "> /".toList

/-- The tokens of that line. -/
def bracketTokens : List Token :=
  [⟨.control, ">", ⟨0, 1⟩⟩, ⟨.other, "/", ⟨2, 3⟩⟩]

/-- The dash and the bracket below it are no arrow. -/
theorem tokenize_append_line_dashText :
    (∀ t ∈ dashTokens, ¬t.LeavesOpen dashText) ∧
    tokenize true (dashText ++ '\n' :: bracketText) =
      .ok (dashTokens ++ bracketTokens.map (·.shift 11)) := by
  have hopen : ∀ t ∈ dashTokens, ¬t.LeavesOpen dashText := by decide
  have hdash : tokenize true dashText = .ok dashTokens := by cbv
  have hbracket : tokenize true bracketText = .ok bracketTokens := by cbv
  obtain ⟨ts, hts, hiff⟩ := tokenize_append_line dashText
  obtain rfl : dashTokens = ts := Except.ok.inj (hdash.symm.trans hts)
  obtain ⟨us, hus, hboth⟩ := hiff.1 hopen bracketText
  obtain rfl : bracketTokens = us := Except.ok.inj (hbracket.symm.trans hus)
  exact ⟨hopen, hboth⟩

end DocAudit
