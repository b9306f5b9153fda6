import DocAudit.Proofs.Audit.Place
import DocAudit.Proofs.Documentation.Seams

namespace DocAudit

open Reader Documentation

/-!
# Line comments above a function

The documentation of a function is the text of the comments above it, joined.  Whether a line ends in
between makes no difference to the bullets, for the text of a line comment neither starts nor ends with
the blank that each marker holds.  It does make one to the word `return`, which may lie over several
lines.

* `commentsAt` — the comments that a declaration starts with;
* `Token.IsLineComment` — a comment that ends with its line;
* `docs_of_function` — the documentation of a function is their text;
* `bullets_of_lineComments` — the bullets are those of the lines;
* `returnDocs_of_comments` — where the return rule finds its word;
* `core_turns_superfluous` — a function that is reported for a word in none of its lines.
-/

variable {source : List Char} {ts block : List Token} {t : Token} {docs : String} {s : Span}
  {f : Function}

/-! ### The comments of a declaration -/

/-- The comments that a declaration with this span starts with: the tokens from its start on, as far as
    they are comments. -/
def commentsAt (ts : List Token) (s : Span) : List Token :=
  (ts.dropWhile fun t => t.span.start < s.start).takeWhile Token.isComment

/-- The token is a comment that ends with its line: the text has two slashes where it starts. -/
def Token.IsLineComment (source : List Char) (t : Token) : Prop :=
  t.kind = .comment ∧ ['/', '/'] <+: source.drop t.span.start.toNat

instance (source : List Char) (t : Token) : Decidable (t.IsLineComment source) :=
  inferInstanceAs (Decidable (_ ∧ _))

/-- The text of a line comment neither starts nor ends with a blank. -/
theorem Token.SpelledIn.trimmed (h : t.SpelledIn source) (hline : t.IsLineComment source) :
    Text.Trimmed t.text.toList := by
  obtain ⟨before, chars, after, rfl, hspan, hs⟩ := h
  obtain ⟨hkind, hopens⟩ := hline
  have hfront : ['/', '/'] <+: chars ++ after := by simpa [hspan] using hopens
  rw [hkind] at hs
  generalize t.text.toList = text at hs
  cases hs with
  | lineComment _ ht => exact ht.trimmed
  | blockComment _ _ =>
    -- That one starts with a slash and a star.
    simp at hfront

/-- The documentation of a declaration is the text of the comments that it starts with. -/
theorem HasBlock.docs_eq_join (h : HasBlock ts block docs s)
    (hts : tokenize true source = .ok ts) :
    docs = String.join ((commentsAt ts s).map Token.text) := by
  have hcut : Cut [] source ts := cut_of_tokenize hts
  obtain ⟨before, after, rfl, ⟨first, last, hfirst, _, rfl⟩, _, run, rest, hrun, hcomments, hrest, rfl⟩ := h
  obtain ⟨more, rfl⟩ := List.head?_eq_some_iff.1 hfirst
  -- The tokens in front of the declaration start further to the front.
  have hbefore : ∀ t ∈ before, t.span.start < first.span.start := by
    intro t ht
    have hwidth := ((hcut.spelledIn t (by simp [ht])).2).start_lt_stop
    have hapart := (List.pairwise_append.1 hcut.coversText.apart).2.2 t ht first (by simp)
    omega
  have hfrom : (before ++ (first :: more ++ after)).dropWhile
      (fun t => t.span.start < first.span.start) = run ++ rest := by
    rw [List.dropWhile_append_of_pos (by simpa using hbefore), List.cons_append,
      List.dropWhile_cons_of_neg (by simp), ← List.cons_append, hrun]
  rw [commentsAt, hfrom]
  exact (Header.docs_append hcomments hrest).symm

theorem mem_of_mem_commentsAt (ht : t ∈ commentsAt ts s) : t ∈ ts :=
  ((List.takeWhile_sublist _).trans (List.dropWhile_sublist _)).subset ht

theorem docs_of_function (hts : tokenize true source = .ok ts) (hf : .function f ∈ outline ts) :
    f.docs = String.join ((commentsAt ts f.span).map Token.text) := by
  obtain ⟨block, hblock⟩ := hasBlock_of_declares hf (.function f)
  exact hblock.docs_eq_join hts

/-- The texts of line comments are trimmed. -/
theorem trimmed_of_lineComments (hts : tokenize true source = .ok ts)
    (hline : ∀ t ∈ commentsAt ts s, t.IsLineComment source) :
    ∀ text ∈ (commentsAt ts s).map (·.text.toList), Text.Trimmed text := by
  rintro text htext
  obtain ⟨t, ht, rfl⟩ := List.mem_map.1 htext
  have hspelled := ((cut_of_tokenize hts).spelledIn t (mem_of_mem_commentsAt ht)).2
  exact hspelled.trimmed (hline t ht)

/-! ### Bullets -/

/-- **The bullets of a function are those of its lines.**  Take any function of a text that starts with
    line comments only.  Its documentation, which is their text, has as many bullets as they have one by
    one.  If each name is closed in its line, the names are those of the lines, in their order. -/
theorem bullets_of_lineComments (source : List Char) :
    ∃ ts nodes, tokenize true source = .ok ts ∧ outlineOfSource? source = .ok nodes ∧
      ∀ f, Node.function f ∈ nodes → (∀ t ∈ commentsAt ts f.span, t.IsLineComment source) →
        f.docs = String.join ((commentsAt ts f.span).map Token.text) ∧
        (documentedNames f.docs.toList).length =
          ((commentsAt ts f.span).map fun t => (documentedNames t.text.toList).length).sum ∧
        ((∀ t ∈ commentsAt ts f.span, BulletsClosed t.text.toList) →
          documentedNames f.docs.toList =
            (commentsAt ts f.span).flatMap fun t => documentedNames t.text.toList) := by
  obtain ⟨ts, hts, _⟩ := exists_tokenize source
  refine ⟨ts, outline ts, hts, outlineOfSource?_of_tokenize hts, fun f hf hline => ?_⟩
  have hdocs := docs_of_function hts hf
  have htext : f.docs.toList = ((commentsAt ts f.span).map (·.text.toList)).flatten := by
    rw [hdocs, String.toList_join, List.flatMap_map, List.flatMap_def]
  obtain ⟨hcount, hnames⟩ := documentedNames_flatten (trimmed_of_lineComments hts hline)
  rw [List.map_map, ← htext] at hcount
  rw [← htext, List.flatMap_map, List.forall_mem_map] at hnames
  exact ⟨hdocs, hcount, hnames⟩

/-- Three comments, of which the first one ends with a star and the second one is empty, above a
    function. -/
def starText : List Char :=
  "/// * `a` *\n///\n/// * `b`\nfn f()".toList

/-- The tokens of the comments. -/
def starComments : List Token :=
  [⟨.comment, "* `a` *", ⟨0, 11⟩⟩, ⟨.comment, "", ⟨12, 15⟩⟩, ⟨.comment, "* `b`", ⟨16, 25⟩⟩]

/-- The tokens of the text. -/
def starTokens : List Token :=
  starComments ++
    [⟨.identifier, "fn", ⟨26, 28⟩⟩, ⟨.identifier, "f", ⟨29, 30⟩⟩, ⟨.control, "(", ⟨30, 31⟩⟩,
      ⟨.control, ")", ⟨31, 32⟩⟩]

/-- The function of the text. -/
def starFunction : Function :=
  ⟨"f", [], true, "* `a` ** `b`", ⟨0, 32⟩⟩

theorem bulletsClosed_starComments : ∀ t ∈ starComments, BulletsClosed t.text.toList := by
  -- A marker stands at the front or nowhere.
  have hfront : ∀ t ∈ starComments, ∀ q < 7, MarkerAt t.text.toList q → q = 0 := by decide
  have hlength : ∀ t ∈ starComments, t.text.toList.length ≤ 7 := by decide
  intro t ht q hq
  obtain rfl := hfront t ht q (hq.lt_length.trans_le (hlength t ht)) hq
  simp only [starComments, List.mem_cons, List.not_mem_nil, or_false] at ht
  rcases ht with rfl | rfl | rfl
  · exact ⟨[], 'a', [], [' ', '*'], rfl, by decide⟩
  · exact absurd hq (by decide)
  · exact ⟨[], 'b', [], [], rfl, by decide⟩

/-- The star in front of a marker makes no other bullet. -/
theorem bullets_starText :
    tokenize true starText = .ok starTokens ∧ outlineOfSource? starText = .ok [.function starFunction] ∧
    commentsAt starTokens starFunction.span = starComments ∧
    (∀ t ∈ starComments, t.IsLineComment starText) ∧
    (∀ t ∈ starComments, BulletsClosed t.text.toList) ∧
    documentedNames starFunction.docs.toList =
      starComments.flatMap fun t => documentedNames t.text.toList := by
  have htokens : tokenize true starText = .ok starTokens := by cbv
  have hnext : nextNode? starTokens = some (.function starFunction, []) := by cbv
  have houtline : outlineOfSource? starText = .ok [.function starFunction] := by
    rw [outlineOfSource?_of_tokenize htokens, outline_of_nextNode? hnext, outline_nil]
  have hcomments : commentsAt starTokens starFunction.span = starComments := by decide
  have hline : ∀ t ∈ starComments, t.IsLineComment starText := by decide
  obtain ⟨ts, nodes, hts, hnodes, hbullets⟩ := bullets_of_lineComments starText
  obtain rfl : starTokens = ts := Except.ok.inj (htokens.symm.trans hts)
  obtain rfl := Except.ok.inj (houtline.symm.trans hnodes)
  have h := hbullets starFunction (by simp)
  rw [hcomments] at h
  exact ⟨htokens, houtline, hcomments, hline, bulletsClosed_starComments,
    (h hline).2.2 bulletsClosed_starComments⟩

/-! ### The word `return` -/

/-- The return rule finds its word: it faults a function without a return type for it, and does not miss
    it in a function with one. -/
def Function.FindsReturnDocs (f : Function) : Prop :=
  if f.returnsNothing then f.gap? = some .returnSuperfluous else f.gap? ≠ some .returnMissing

/-- In documentation that the return rule looks at, it finds the word where the text holds it. -/
theorem Function.findsReturnDocs_iff (hd : f.docs ≠ "") (ha : IsAscii f.docs) :
    f.FindsReturnDocs ↔ MentionsReturning f.docs := by
  rw [FindsReturnDocs]
  cases hr : f.returnsNothing with
  | true =>
    rw [if_pos rfl, gap?_eq_some_iff]
    constructor
    · intro h
      cases h with
      | returnSuperfluous _ _ _ hm => exact hm
    · exact .returnSuperfluous hd ha hr
  | false =>
    rw [if_neg Bool.false_ne_true, ne_eq, gap?_eq_some_iff]
    constructor
    · intro h
      by_contra hm
      exact h (.returnMissing hd ha hr hm)
    · rintro hm (_ | _ | ⟨_, _, _, hm'⟩)
      exact hm' hm

/-- **Where the return rule finds its word.**  Take any function of a text whose documentation is there
    and ASCII.  The rule finds the word if one of the comments above the function mentions returning on
    its own, or if the word lies over several of them. -/
theorem returnDocs_of_comments (source : List Char) :
    ∃ ts nodes, tokenize true source = .ok ts ∧ outlineOfSource? source = .ok nodes ∧
      ∀ f, Node.function f ∈ nodes → f.docs ≠ "" → IsAscii f.docs →
        (f.FindsReturnDocs ↔
          (∃ t ∈ commentsAt ts f.span, MentionsReturning t.text) ∨
            ReturnsAcross ((commentsAt ts f.span).map Token.text)) := by
  obtain ⟨ts, hts, _⟩ := exists_tokenize source
  refine ⟨ts, outline ts, hts, outlineOfSource?_of_tokenize hts, fun f hf hd ha => ?_⟩
  rw [Function.findsReturnDocs_iff hd ha, docs_of_function hts hf, mentionsReturning_join_iff]
  simp only [List.mem_map, exists_exists_and_eq_and]

/-- Two comments, in the lines above a function. -/
def coreText : List Char :=
  "/// core\n/// turns\nfn f()".toList

/-- The tokens of that text. -/
def coreTokens : List Token :=
  [⟨.comment, "core", ⟨0, 8⟩⟩, ⟨.comment, "turns", ⟨9, 18⟩⟩, ⟨.identifier, "fn", ⟨19, 21⟩⟩,
    ⟨.identifier, "f", ⟨22, 23⟩⟩, ⟨.control, "(", ⟨23, 24⟩⟩, ⟨.control, ")", ⟨24, 25⟩⟩]

/-- The function of the text. -/
def coreFunction : Function :=
  ⟨"f", [], true, "coreturns", ⟨0, 25⟩⟩

theorem tokenize_coreText : tokenize true coreText = .ok coreTokens := by cbv

theorem outlineOfSource?_coreText : outlineOfSource? coreText = .ok [.function coreFunction] := by
  have hnext : nextNode? coreTokens = some (.function coreFunction, []) := by cbv
  rw [outlineOfSource?_of_tokenize tokenize_coreText, outline_of_nextNode? hnext, outline_nil]

theorem commentsAt_coreFunction : commentsAt coreTokens coreFunction.span = coreTokens.take 2 := by
  decide

/-- The function is reported. -/
theorem findsReturnDocs_coreFunction : coreFunction.FindsReturnDocs := by
  show coreFunction.gap? = some .returnSuperfluous
  decide

/-- Neither comment mentions returning. -/
theorem not_mentionsReturning_coreTokens : ¬∃ t ∈ coreTokens.take 2, MentionsReturning t.text := by
  simp only [← mentionsReturn_iff]
  decide

/-- The function is reported, so the word lies over the two lines. -/
theorem returnDocs_coreText :
    outlineOfSource? coreText = .ok [.function coreFunction] ∧ coreFunction.docs ≠ "" ∧
    IsAscii coreFunction.docs ∧ coreFunction.FindsReturnDocs ∧ ReturnsAcross ["core", "turns"] := by
  have hdocs : coreFunction.docs ≠ "" := by decide
  have hascii : IsAscii coreFunction.docs := all_toNat_lt_iff.1 (by decide)
  obtain ⟨ts, nodes, hts, hnodes, hreturn⟩ := returnDocs_of_comments coreText
  obtain rfl : coreTokens = ts := Except.ok.inj (tokenize_coreText.symm.trans hts)
  obtain rfl := Except.ok.inj (outlineOfSource?_coreText.symm.trans hnodes)
  have hfinds := hreturn coreFunction (by simp) hdocs hascii
  rw [commentsAt_coreFunction] at hfinds
  have hacross := (hfinds.1 findsReturnDocs_coreFunction).resolve_left not_mentionsReturning_coreTokens
  exact ⟨hnodes, hdocs, hascii, findsReturnDocs_coreFunction, hacross⟩

/-- **A function is reported for a word that none of its lines holds.**  The lines are `core` and `turns`,
    which are read as `coreturns`. -/
theorem core_turns_superfluous :
    outlineOfSource? coreText = .ok [.function coreFunction] ∧ coreFunction.docs ≠ "" ∧
    IsAscii coreFunction.docs ∧ tokenize true coreText = .ok coreTokens ∧
    (∀ t ∈ commentsAt coreTokens coreFunction.span, t.IsLineComment coreText) ∧
    ¬(coreFunction.FindsReturnDocs ↔
      ∃ t ∈ commentsAt coreTokens coreFunction.span, MentionsReturning t.text) := by
  have hlines : ¬(coreFunction.FindsReturnDocs ↔
      ∃ t ∈ commentsAt coreTokens coreFunction.span, MentionsReturning t.text) := by
    rw [commentsAt_coreFunction]
    exact fun h => not_mentionsReturning_coreTokens (h.1 findsReturnDocs_coreFunction)
  exact ⟨outlineOfSource?_coreText, by decide, all_toNat_lt_iff.1 (by decide), tokenize_coreText,
    by decide, hlines⟩

end DocAudit
