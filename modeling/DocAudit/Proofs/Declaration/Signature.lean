import DocAudit.Proofs.Declaration.Entries
import DocAudit.Proofs.Declaration.Qualifiers
import DocAudit.Proofs.Outline.Coverage

namespace DocAudit

/-!
# Signatures are read back

What a function signature is, written down, and that an outline gives it back.

* `Receiver`, `Parameter` — the entries of a parameter list;
* `parameters_append` — the loop over parameters reads a written list back;
* `Signature` — a written signature, with the function that it declares;
* `outline_signature` — an outline has that function in front, and goes on right behind its tokens.

Where a signature has no arrow, its end shows only in what follows: `EndsParameters` says that the
tokens behind it do not read as more of its parameter list.
-/

open Reader Header

variable {ts us rest : List Token} {t d : Token}

/-! ### Parameters -/

/-- A receiver: `self`, `&self` or `&mut self`. -/
inductive Receiver : List Token → Prop where
  /-- The word alone. -/
  | value {s : Token} (hs : s.isKeyword receiverName = true) : Receiver [s]
  /-- The word behind a reference sign. -/
  | reference {a s : Token} {m : List Token} (ha : a.isOther "&" = true)
      (hm : m = [] ∨ Word "mut" m) (hs : s.isKeyword receiverName = true) :
      Receiver (a :: (m ++ [s]))

theorem Receiver.exists_cons (h : Receiver ts) :
    ∃ t us, (t.isIdentifier = true ∨ t.isOther "&" = true) ∧ ts = t :: us := by
  cases h with
  | value hs => exact ⟨_, _, .inl (by grind), rfl⟩
  | reference ha _ _ => exact ⟨_, _, .inr ha, rfl⟩

/-- An entry of a parameter list, with the name under which it is recorded. -/
inductive Parameter : String → List Token → Prop where
  /-- A receiver. -/
  | receiver {ts : List Token} (h : Receiver ts) : Parameter receiverName ts
  /-- A name with its type. -/
  | named {m ty : List Token} {n c : Token} (hm : m = [] ∨ Word "mut" m)
      (hn : n.isIdentifier = true) (hmut : n.isKeyword "mut" = false) (hc : c.isControl ":" = true)
      (hty : TypeExpr.Derives .type ty) : Parameter n.text (m ++ n :: c :: ty)

/-- The end of a receiver is a comma or a parenthesis. -/
theorem control?_or_of_endsEntry (hd : EndsEntry ")" d) :
    (control? "," (d :: rest)).or (control? ")" (d :: rest)) = some rest := by
  rcases hd with hd | hd
  · simp [hd]
  · have hcomma : d.isControl "," = false := by grind
    simp [hd, hcomma]

theorem receiver?_append (h : Receiver ts) (hd : EndsEntry ")" d) :
    receiver? (ts ++ d :: rest) = some rest := by
  have hend : (control? "," (d :: rest)).or (control? ")" (d :: rest)) = some rest :=
    control?_or_of_endsEntry hd
  cases h with
  | @value s hs =>
    have ha : s.isOther "&" = false := by grind
    simpa [receiver?, ha, hs] using hend
  | @reference a s m ha hm hs =>
    have hmut : Heads (·.isKeyword "mut" = false) (s :: d :: rest) :=
      Heads.cons_iff.2 (by grind [receiverName])
    have hskip : skipWord "mut" (m ++ s :: d :: rest) = s :: d :: rest := skipWord_append hm hmut
    simpa [receiver?, ha, hskip, hs] using hend

theorem receiver?_sound (h : receiver? ts = some rest) :
    ∃ front d, Receiver front ∧ EndsEntry ")" d ∧ ts = front ++ d :: rest := by
  simp only [receiver?, Option.orElse_eq_orElse, Option.orElse_eq_or, Option.bind_eq_bind,
    Option.bind_eq_some_iff] at h
  obtain ⟨us, rs, rd⟩ := h
  obtain ⟨s, hs, heq⟩ := next?_eq_some_iff.1 rs
  obtain ⟨d, hd, rfl⟩ : ∃ d, EndsEntry ")" d ∧ us = d :: rest := by
    rcases Option.or_eq_some_iff.1 rd with rd | ⟨_, rd⟩
    · obtain ⟨d, hd, rfl⟩ := next?_eq_some_iff.1 rd
      exact ⟨d, .inl hd, rfl⟩
    · obtain ⟨d, hd, rfl⟩ := next?_eq_some_iff.1 rd
      exact ⟨d, .inr hd, rfl⟩
  -- The word may stand behind a reference sign, with `mut` between them.
  split at heq
  · rename_i vs ra
    obtain ⟨a, ha, rfl⟩ := next?_eq_some_iff.1 ra
    obtain ⟨m, hm, hvs⟩ := (Takes.keyword "mut").optional_sound vs
    have hskip : Reader.optional (keyword? "mut") vs = s :: d :: rest := heq
    rw [hskip] at hvs
    exact ⟨_, d, .reference ha (hm.imp_left And.left) hs, hd, by simp [hvs]⟩
  · exact ⟨[s], d, .value hs, hd, heq⟩

/-- What starts like a named parameter is not read as a receiver: not even the name `self`, because a
    colon follows it. -/
theorem receiver?_eq_none_of_named {n c : Token} (hm : ts = [] ∨ Word "mut" ts)
    (hn : n.isIdentifier = true) (hc : c.isControl ":" = true) :
    receiver? (ts ++ n :: c :: rest) = none := by
  cases hr : receiver? (ts ++ n :: c :: rest) with
  | none => rfl
  | some us =>
    obtain ⟨front, d, hf, hd, heq⟩ := receiver?_sound hr
    -- The colon is no end of a receiver, and its first token is none of a named parameter's.
    have hcd : c ≠ d := by
      rintro rfl
      rcases hd with hd | hd <;> grind
    cases hf with
    | @value s hs =>
      rcases hm with rfl | ⟨w, hw, rfl⟩
      · exact absurd (List.cons.inj (List.cons.inj heq).2).1 hcd
      · have hws : w = s := (List.cons.inj heq).1
        grind [receiverName]
    | @reference a s m ha _ _ =>
      rcases hm with rfl | ⟨w, hw, rfl⟩
      · have hna : n = a := (List.cons.inj heq).1
        grind
      · have hwa : w = a := (List.cons.inj heq).1
        grind

theorem parameter?_append {name : String} (h : Parameter name ts) (hd : EndsEntry ")" d) :
    parameter? (ts ++ d :: rest) = some (name, rest) := by
  cases h with
  | receiver h => rw [parameter?, receiver?_append h hd]
  | @named m ty n c hm hn hmut hc hty =>
    have hname : skipWord "mut" (m ++ n :: c :: (ty ++ d :: rest)) = n :: c :: (ty ++ d :: rest) :=
      skipWord_append hm (Heads.cons_iff.2 hmut)
    have htype : TypeExpr.type? (ty ++ d :: rest) = some (d :: rest) :=
      type?_append_of_endsEntry hty hd (by decide)
    rw [List.append_assoc, List.cons_append, List.cons_append, parameter?,
      receiver?_eq_none_of_named hm hn hc]
    simp [hname, hn, hc, htype, skipEntryEnd_cons hd]

/-- What `parameter?` reads starts like a parameter. -/
theorem parameter?_sound {name : String} (h : parameter? ts = some (name, rest)) :
    (∃ front d us, Receiver front ∧ EndsEntry ")" d ∧ ts = front ++ d :: us) ∨
    ∃ m n c us, (m = [] ∨ Word "mut" m) ∧ n.isIdentifier = true ∧ c.isControl ":" = true ∧
      ts = m ++ n :: c :: us := by
  -- Receivers are tried first.
  rw [parameter?] at h
  split at h
  · rename_i us hr
    obtain ⟨front, d, hf, hd, rfl⟩ := receiver?_sound hr
    exact .inl ⟨front, d, us, hf, hd, rfl⟩
  · simp only [Option.bind_eq_bind, Option.bind_eq_some_iff, Prod.exists] at h
    obtain ⟨_, vs, rn, us, rc, _⟩ := h
    obtain ⟨n, hn, _, hskip⟩ := word?_eq_some_iff.1 rn
    obtain ⟨c, hc, rfl⟩ := next?_eq_some_iff.1 rc
    obtain ⟨m, hm, hts⟩ := (Takes.keyword "mut").optional_sound ts
    rw [show Reader.optional (keyword? "mut") ts = n :: c :: us from hskip] at hts
    exact .inr ⟨m, n, c, us, hm.imp_left And.left, hn, hc, hts⟩

/-- A token that is neither a word nor a reference sign starts no parameter. -/
theorem parameter?_cons_eq_none (hi : t.isIdentifier = false) (ha : t.isOther "&" = false) :
    parameter? (t :: rest) = none := by
  have hs : t.isKeyword receiverName = false := by grind
  have hm : t.isKeyword "mut" = false := by grind
  have hr : receiver? (t :: rest) = none := by simp [receiver?, ha, hs]
  have hskip : skipWord "mut" (t :: rest) = t :: rest :=
    skipWord_append (.inl rfl) (Heads.cons_iff.2 hm)
  simp [parameter?, hr, hskip, hi]

/-- The tokens do not read as more of a parameter list: they start neither with the closing
    parenthesis nor with a receiver that ends like an entry nor with a name and a colon. -/
structure EndsParameters (ts : List Token) : Prop where
  /-- They do not start with the closing parenthesis. -/
  closer : Heads (·.isControl ")" = false) ts
  /-- They do not start with a receiver. -/
  receiver : ∀ front d us, Receiver front → EndsEntry ")" d → ts ≠ front ++ d :: us
  /-- They do not start with a named parameter. -/
  named : ∀ m n c us, (m = [] ∨ Word "mut" m) → n.isIdentifier = true → c.isControl ":" = true →
    ts ≠ m ++ n :: c :: us

/-- A token that is neither a word nor a reference sign nor the closing parenthesis, such as the brace
    of a body, ends a parameter list. -/
theorem endsParameters_cons (hi : t.isIdentifier = false) (ha : t.isOther "&" = false)
    (hc : t.isControl ")" = false) : EndsParameters (t :: rest) where
  closer := Heads.cons_iff.2 hc
  receiver := by
    intro front d us hf _ heq
    obtain ⟨u, more, hu, rfl⟩ := hf.exists_cons
    obtain rfl : t = u := (List.cons.inj heq).1
    rcases hu with hu | hu
    · rw [hi] at hu
      cases hu
    · rw [ha] at hu
      cases hu
  named := by
    intro m n c us hm hn _ heq
    have hword : Heads (·.isIdentifier = true) (m ++ n :: c :: us) :=
      (Word.heads hm (by grind)).append (Heads.cons_iff.2 hn)
    rw [← heq, Heads.cons_iff, hi] at hword
    cases hword

theorem EndsParameters.parameter?_eq_none (h : EndsParameters ts) : parameter? ts = none := by
  cases hp : parameter? ts with
  | none => rfl
  | some found =>
    rcases parameter?_sound hp with ⟨front, d, us, hf, hd, heq⟩ | ⟨m, n, c, us, hm, hn, hc, heq⟩
    · exact absurd heq (h.receiver front d us hf hd)
    · exact absurd heq (h.named m n c us hm hn hc)

theorem EndsParameters.control?_eq_none (h : EndsParameters ts) : control? ")" ts = none :=
  h.closer.next?_eq_none

/-- **Parameter lists are read back**, if the tokens behind the list, its closing parenthesis
    included, do not read as more of it. -/
theorem parameters_append {names : List String}
    (h : Entries (fun name ts _ => Parameter name ts) ")" names ts)
    (hrest : parameter? rest = none) (hnot : control? ")" rest = none) :
    (parameters (ts ++ rest)).1 = names ∧
      Reader.optional (control? ")") (parameters (ts ++ rest)).2 = rest :=
  many_append h (fun _ hp hd => parameter?_append hp hd)
    (fun _ hc => parameter?_cons_eq_none (by grind) (by grind)) hrest hnot

/-! ### Signatures -/

/-- A written function signature. -/
structure Signature where
  /-- The comments above it. -/
  comments : List Token
  /-- What stands in front of the word `fn`. -/
  qualifiers : List Token
  /-- The word `fn`. -/
  keyword : Token
  /-- The name. -/
  name : Token
  /-- Whatever stands between the name and the parameters. -/
  generics : List Token
  /-- The parenthesis that opens the parameter list. -/
  opener : Token
  /-- The names under which the parameters are recorded. -/
  names : List String
  /-- The parameter list through its closing parenthesis. -/
  parameters : List Token
  /-- The arrow, or nothing. -/
  arrow : List Token
  comments_isComment : ∀ t ∈ comments, t.isComment = true
  qualifiers_spec : Qualifiers qualifiers
  keyword_isKeyword : keyword.isKeyword "fn" = true
  name_isIdentifier : name.isIdentifier = true
  generics_spec : ∀ t ∈ generics, t.isControl "(" = false
  opener_isControl : opener.isControl "(" = true
  parameters_spec : Entries (fun name ts _ => Parameter name ts) ")" names parameters
  arrow_spec : arrow = [] ∨ ∃ a, a.isOperator "->" = true ∧ arrow = [a]

namespace Signature

variable (s : Signature)

/-- The tokens of the signature through the parenthesis that opens the parameter list. -/
def front : List Token :=
  s.comments ++ (s.qualifiers ++ s.keyword :: s.name :: (s.generics ++ [s.opener]))

/-- The tokens of the signature. -/
def tokens : List Token :=
  s.front ++ s.parameters ++ s.arrow

/-- The function that the signature declares. -/
def function : Function where
  name := s.name.text
  arguments := s.names
  returnsNothing := s.arrow.isEmpty
  docs := String.join (s.comments.map Token.text)
  span := Span.covering s.tokens

/-- The tokens behind the comments, with more behind the opening parenthesis. -/
theorem front_append (us : List Token) : s.front ++ us =
    s.comments ++ (s.qualifiers ++ s.keyword :: s.name :: (s.generics ++ s.opener :: us)) := by
  simp [front]

/-- Behind the comments there is no further one. -/
theorem heads_behind_comments (us : List Token) :
    Heads (·.isComment = false) (s.qualifiers ++ s.keyword :: us) := by
  have hk : s.keyword.isComment = false := by grind [s.keyword_isKeyword]
  exact s.qualifiers_spec.heads.append (Heads.cons_iff.2 hk)

theorem docs_front_append (us : List Token) :
    docs (s.front ++ us) = String.join (s.comments.map Token.text) := by
  rw [front_append]
  exact docs_append s.comments_isComment (s.heads_behind_comments _)

/-- Through the opening parenthesis, a signature is read to its name. -/
theorem signature?_append (us : List Token) :
    signature? (s.front ++ us) = some (s.name.text, us) := by
  have hgenerics : past? (·.isControl "(") (s.generics ++ s.opener :: us) = some us := by
    have h := (Takes.past (·.isControl "(")).append
      ⟨s.generics, s.opener, s.generics_spec, s.opener_isControl, rfl⟩ us
    rwa [List.append_assoc] at h
  have hfn : IsOneOf ["fn", "struct"] s.keyword := .of_isKeyword s.keyword_isKeyword (by decide)
  rw [front_append, signature?, skipDocs_append s.comments_isComment (s.heads_behind_comments _),
    skipQualifiers_append s.qualifiers_spec hfn]
  simp [s.keyword_isKeyword, s.name_isIdentifier, hgenerics]

/-- What stands behind the parameter list, the arrow included, does not read as more of it. -/
theorem parameters_end (hrest : s.arrow = [] → EndsParameters rest) :
    parameter? (s.arrow ++ rest) = none ∧ control? ")" (s.arrow ++ rest) = none := by
  rcases s.arrow_spec with harrow | ⟨a, ha, harrow⟩
  · rw [harrow]
    exact ⟨(hrest harrow).parameter?_eq_none, (hrest harrow).control?_eq_none⟩
  · have hcloser : a.isControl ")" = false := by grind
    rw [harrow]
    exact ⟨parameter?_cons_eq_none (by grind) (by grind), by simp [hcloser]⟩

/-- The arrow is taken where it is there. -/
theorem arrow_append (hrest : s.arrow = [] → Heads (·.isOperator "->" = false) rest) :
    (next? (·.isOperator "->") (s.arrow ++ rest)).getD (s.arrow ++ rest) = rest ∧
      (next? (·.isOperator "->") (s.arrow ++ rest)).isNone = s.arrow.isEmpty := by
  rcases s.arrow_spec with harrow | ⟨a, ha, harrow⟩
  · rw [harrow, List.nil_append, (hrest harrow).next?_eq_none]
    exact ⟨rfl, rfl⟩
  · rw [harrow]
    simp [ha]

/-- **Signatures are read back**, if the tokens behind a signature without an arrow read neither as
    more of its parameter list nor as an arrow. -/
theorem function?_append (hend : s.arrow = [] → EndsParameters rest)
    (hop : s.arrow = [] → Heads (·.isOperator "->" = false) rest) :
    function? (s.tokens ++ rest) = some (s.function, rest) := by
  obtain ⟨hparameter, hcloser⟩ := s.parameters_end hend
  obtain ⟨hnames, hbehind⟩ := parameters_append s.parameters_spec hparameter hcloser
  obtain ⟨hskip, hnone⟩ := s.arrow_append hop
  -- The head leaves the parameters, these leave the arrow, and that leaves the rest.
  have htokens : s.tokens ++ rest = s.front ++ (s.parameters ++ (s.arrow ++ rest)) := by
    rw [tokens, List.append_assoc, List.append_assoc]
  have hsignature : signature? (s.tokens ++ rest) =
      some (s.name.text, s.parameters ++ (s.arrow ++ rest)) := by
    rw [htokens, signature?_append]
  have hdocs : docs (s.tokens ++ rest) = String.join (s.comments.map Token.text) := by
    rw [htokens, docs_front_append]
  simp only [function?, hsignature, hnames, hbehind, hskip, hnone, hdocs, blockBefore_append,
    Option.bind_eq_bind, Option.bind_some, Option.pure_def]
  rfl

end Signature

/-- **An outline gives a signature back.** If the tokens of an accepted list start with a signature,
    the outline starts with the function that it declares, over just its tokens, and goes on behind
    them. -/
theorem outline_signature {items : List Item} {source : Option (List Char)} (s : Signature)
    (h : checkOrder items source = .ok (s.tokens ++ rest))
    (hend : s.arrow = [] → EndsParameters rest)
    (hop : s.arrow = [] → Heads (·.isOperator "->" = false) rest) :
    outline? items source = .ok (.function s.function :: outline rest) := by
  have hfirst : recognizeFirst? Form.order (s.tokens ++ rest) =
      some (.function s.function, rest) := by
    rw [recognizeFirst?, Form.order, List.findSome?_cons, Form.recognize?,
      s.function?_append hend hop]
    rfl
  rw [outline?, h, ← outline_of_recognizeFirst? hfirst]
  rfl

/-- The parameter list `&self, x: u8)`. -/
theorem entries_method : Entries (fun name ts _ => Parameter name ts) ")" ["self", "x"]
    ([⟨.other, "&", ⟨15, 16⟩⟩, ⟨.identifier, "self", ⟨16, 20⟩⟩] ++ ⟨.control, ",", ⟨20, 21⟩⟩ ::
      ([⟨.identifier, "x", ⟨22, 23⟩⟩, ⟨.control, ":", ⟨23, 24⟩⟩, ⟨.identifier, "u8", ⟨25, 27⟩⟩] ++
        [⟨.control, ")", ⟨27, 28⟩⟩])) := by
  have hself : Parameter "self" [⟨.other, "&", ⟨15, 16⟩⟩, ⟨.identifier, "self", ⟨16, 20⟩⟩] :=
    .receiver (.reference rfl (.inl rfl) rfl)
  have htype : TypeExpr.Derives .type [⟨.identifier, "u8", ⟨25, 27⟩⟩] :=
    .plain (.simple (.bare (.name rfl)))
  have hnamed : Parameter "x" [⟨.identifier, "x", ⟨22, 23⟩⟩, ⟨.control, ":", ⟨23, 24⟩⟩,
      ⟨.identifier, "u8", ⟨25, 27⟩⟩] :=
    .named (n := ⟨.identifier, "x", ⟨22, 23⟩⟩) (.inl rfl) rfl rfl rfl htype
  exact .more hself rfl (.last hnamed rfl)

/-- A method under a comment: `pub fn f(&self, x: u8)`. -/
def methodSignature : Signature where
  comments := [⟨.comment, "d", ⟨0, 5⟩⟩]
  qualifiers := [⟨.identifier, "pub", ⟨6, 9⟩⟩]
  keyword := ⟨.identifier, "fn", ⟨10, 12⟩⟩
  name := ⟨.identifier, "f", ⟨13, 14⟩⟩
  generics := []
  opener := ⟨.control, "(", ⟨14, 15⟩⟩
  names := _
  parameters := _
  arrow := []
  comments_isComment := by decide
  qualifiers_spec := .mk (.inl rfl)
    (.mk .nil (.inr (.plain rfl)) (.inl rfl) (.inl rfl) (.inl rfl)) (.inl rfl)
  keyword_isKeyword := rfl
  name_isIdentifier := rfl
  generics_spec := by decide
  opener_isControl := rfl
  parameters_spec := entries_method
  arrow_spec := .inl rfl

/-- The method in front of the brace of its body. -/
theorem outline_method :
    outline? (List.map .token (methodSignature.tokens ++ [⟨.control, "\x7b", ⟨29, 30⟩⟩])) none =
      .ok (.function ⟨"f", ["self", "x"], true, "d", ⟨0, 28⟩⟩ ::
        outline [⟨.control, "\x7b", ⟨29, 30⟩⟩]) :=
  outline_signature methodSignature rfl (fun _ => endsParameters_cons rfl rfl rfl)
    fun _ => Heads.cons_iff.2 rfl

end DocAudit
