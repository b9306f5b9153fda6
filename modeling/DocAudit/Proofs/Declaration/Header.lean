import DocAudit.Declaration.Header
import DocAudit.Proofs.Token.Takes
import Mathlib.Data.List.TakeWhile

namespace DocAudit.Header

/-!
# What stands in front of a declaration, as it is written

* `Attribute`, `Attributes`, `Visibility`, `Linkage`, `Word` — the written parts;
* `skipDocs_append`, `skipAttributes_append`, `skipVisibility_append`, `skipExtern_append` — each
  skipping function passes over its part, if the next token does not belong to the part too;
* `skipDocs_sound`, `skipAttributes_sound`, `skipVisibility_sound` — and over nothing else;
* `Opening` — comments, attributes and a visibility, as they stand in front of a field or a struct,
  with `skipOpening_append` and `skipOpening_sound`;
* `Attributes.heads`, `Visibility.heads`, `Linkage.heads`, `Word.heads`, `IsOneOf` — how a part
  starts, which tells it from the parts in front of it.
-/

open Reader

variable {ts us rest comments : List Token} {t : Token}

/-! ### Written parts -/

/-- An attribute, up to the first closing bracket. -/
inductive Attribute : List Token → Prop where
  /-- A hash sign and a bracket, anything, and the first closing bracket. -/
  | mk {h o c : Token} {body : List Token} (hh : h.isOther "#" = true) (ho : o.isOther "[" = true)
      (hbody : ∀ t ∈ body, t.isOther "]" = false) (hc : c.isOther "]" = true) :
      Attribute (h :: o :: body ++ [c])

/-- Attributes, one behind another. -/
inductive Attributes : List Token → Prop where
  /-- No attribute. -/
  | nil : Attributes []
  /-- An attribute and more. -/
  | cons {a as : List Token} (h : Attribute a) (hs : Attributes as) : Attributes (a ++ as)

/-- A parenthesis and everything through the first closing one. -/
inductive Parenthesized : List Token → Prop where
  /-- A parenthesis, anything, and the first closing parenthesis. -/
  | mk {o c : Token} {body : List Token} (ho : o.isControl "(" = true)
      (hbody : ∀ t ∈ body, t.isControl ")" = false) (hc : c.isControl ")" = true) :
      Parenthesized (o :: body ++ [c])

/-- The word `pub`, alone or with parentheses. -/
inductive Visibility : List Token → Prop where
  /-- The word alone. -/
  | plain {p : Token} (hp : p.isKeyword "pub" = true) : Visibility [p]
  /-- The word with parentheses. -/
  | scoped {p : Token} {us : List Token} (hp : p.isKeyword "pub" = true) (hu : Parenthesized us) :
      Visibility (p :: us)

/-- The word `extern`, alone or with a quoted name. -/
inductive Linkage : List Token → Prop where
  /-- The word alone. -/
  | plain {e : Token} (he : e.isKeyword "extern" = true) : Linkage [e]
  /-- The word with a quoted name. -/
  | quoted {e o n c : Token} (he : e.isKeyword "extern" = true) (ho : o.isOther "\"" = true)
      (hn : n.isIdentifier = true) (hc : c.isOther "\"" = true) : Linkage [e, o, n, c]

/-- The given word. -/
def Word (word : String) (ts : List Token) : Prop :=
  ∃ t, t.isKeyword word = true ∧ ts = [t]

/-! ### Comments -/

theorem skipDocs_append (hts : ∀ t ∈ ts, t.isComment = true)
    (hrest : Heads (·.isComment = false) rest) : skipDocs (ts ++ rest) = rest := by
  unfold skipDocs
  rw [List.dropWhile_append_of_pos hts]
  cases rest with
  | nil => rfl
  | cons t rest =>
    have ht : t.isComment = false := hrest t rfl
    rw [List.dropWhile_cons_of_neg (by simp [ht])]

theorem docs_append (hts : ∀ t ∈ ts, t.isComment = true)
    (hrest : Heads (·.isComment = false) rest) :
    docs (ts ++ rest) = String.join (ts.map Token.text) := by
  unfold docs
  rw [List.takeWhile_append_of_pos hts]
  cases rest with
  | nil => rw [List.takeWhile_nil, List.append_nil]
  | cons t rest =>
    have ht : t.isComment = false := hrest t rfl
    rw [List.takeWhile_cons_of_neg (by simp [ht]), List.append_nil]

theorem skipDocs_sound (ts : List Token) :
    ∃ comments, (∀ t ∈ comments, t.isComment = true) ∧ ts = comments ++ skipDocs ts :=
  ⟨ts.takeWhile Token.isComment, fun _ => List.mem_takeWhile_imp,
    (List.takeWhile_append_dropWhile).symm⟩

theorem heads_skipDocs (ts : List Token) : Heads (·.isComment = false) (skipDocs ts) := by
  intro t ht
  have hnot := List.head?_dropWhile_not Token.isComment ts
  rw [show (ts.dropWhile Token.isComment).head? = some t from ht] at hnot
  exact hnot

/-- With a token behind the comments, more tokens at the end do not change the documentation. -/
theorem docs_append_of_ne_nil (h : skipDocs ts ≠ []) (us : List Token) : docs (ts ++ us) = docs ts := by
  obtain ⟨cs, hcs, hts⟩ := skipDocs_sound ts
  have hplain : Heads (·.isComment = false) (skipDocs ts) := heads_skipDocs ts
  rw [hts, List.append_assoc, docs_append hcs (hplain.append_of_ne_nil h us), docs_append hcs hplain]

/-! ### Attributes -/

theorem takes_attribute : Takes attribute? Attribute := by
  refine ((Takes.next (·.isOther "#")).bind ((Takes.next (·.isOther "[")).bind
    (.past (·.isOther "]")))).congr fun front => ?_
  constructor
  · rintro ⟨_, _, ⟨h, hh, rfl⟩, ⟨_, _, ⟨o, ho, rfl⟩, ⟨body, c, hbody, hc, rfl⟩, rfl⟩, rfl⟩
    exact .mk hh ho hbody hc
  · rintro ⟨hh, ho, hbody, hc⟩
    exact ⟨_, _, ⟨_, hh, rfl⟩, ⟨_, _, ⟨_, ho, rfl⟩, ⟨_, _, hbody, hc, rfl⟩, rfl⟩, rfl⟩

theorem skipAttributes_append (h : Attributes ts) (hrest : Heads (·.isOther "#" = false) rest) :
    skipAttributes (ts ++ rest) = rest := by
  induction h with
  | nil =>
    have hhash : other? "#" rest = none := hrest.next?_eq_none
    exact skipAttributes_of_none (by rw [List.nil_append, attribute?, hhash]; rfl)
  | @cons a as ha _ ih =>
    rw [List.append_assoc, skipAttributes_of_some (takes_attribute.append ha _), ih]

theorem skipAttributes_sound (ts : List Token) :
    ∃ attributes, Attributes attributes ∧ ts = attributes ++ skipAttributes ts := by
  fun_induction skipAttributes ts with
  | case1 ts us h _ ih =>
    obtain ⟨a, ha, rfl⟩ := takes_attribute.sound h
    obtain ⟨as, has, heq⟩ := ih
    exact ⟨a ++ as, .cons ha has, by rw [List.append_assoc, ← heq]⟩
  | case2 ts _ => exact ⟨[], .nil, rfl⟩

/-! ### Visibility -/

theorem takes_parenthesized : Takes parenthesized? Parenthesized := by
  refine ((Takes.next (·.isControl "(")).bind (.past (·.isControl ")"))).congr fun front => ?_
  constructor
  · rintro ⟨_, _, ⟨o, ho, rfl⟩, ⟨body, c, hbody, hc, rfl⟩, rfl⟩
    exact .mk ho hbody hc
  · rintro ⟨ho, hbody, hc⟩
    exact ⟨_, _, ⟨_, ho, rfl⟩, ⟨_, _, hbody, hc, rfl⟩, rfl⟩

/-- A visibility is passed over, if no parenthesis follows that could belong to it. -/
theorem skipVisibility_visibility (h : Visibility ts) (hrest : Heads (·.isControl "(" = false) rest) :
    skipVisibility (ts ++ rest) = rest := by
  have hparen : parenthesized? rest = none := by
    have hopener : control? "(" rest = none := hrest.next?_eq_none
    rw [parenthesized?, hopener]
    rfl
  unfold skipVisibility
  rcases h with hp | ⟨hp, hu⟩
  · simpa [hp] using optional_of_none hparen
  · simpa [hp] using optional_of_some (takes_parenthesized.append hu rest)

theorem skipVisibility_append (h : ts = [] ∨ Visibility ts)
    (hrest : Heads (fun t => t.isKeyword "pub" = false ∧ t.isControl "(" = false) rest) :
    skipVisibility (ts ++ rest) = rest := by
  rcases h with rfl | h
  · have hpub : keyword? "pub" rest = none := (hrest.imp fun _ ht => ht.1).next?_eq_none
    rw [List.nil_append, skipVisibility, hpub]
  · exact skipVisibility_visibility h (hrest.imp fun _ ht => ht.2)

theorem skipVisibility_sound (ts : List Token) :
    ∃ visibility, (visibility = [] ∨ Visibility visibility) ∧
      ts = visibility ++ skipVisibility ts := by
  unfold skipVisibility
  split
  · rename_i us h
    obtain ⟨p, hp, rfl⟩ := next?_eq_some_iff.1 h
    obtain ⟨scope, hs | hs, heq⟩ := takes_parenthesized.optional_sound us
    · rw [hs.1, List.nil_append] at heq
      exact ⟨[p], .inr (.plain hp), congrArg (p :: ·) heq⟩
    · exact ⟨p :: scope, .inr (.scoped hp hs), congrArg (p :: ·) heq⟩
  · exact ⟨[], .inl rfl, rfl⟩

/-! ### Linkage -/

theorem skipExtern_of_heads (h : Heads (·.isKeyword "extern" = false) ts) : skipExtern ts = ts := by
  have hextern : keyword? "extern" ts = none := h.next?_eq_none
  exact optional_of_none (by rw [extern?, hextern]; rfl)

theorem skipExtern_append (h : Linkage ts) (hrest : Heads (·.isOther "\"" = false) rest) :
    skipExtern (ts ++ rest) = rest := by
  have hquote : other? "\"" rest = none := hrest.next?_eq_none
  refine optional_of_some ?_
  cases h with
  | plain he => simp [extern?, he, hquote]
  | quoted he ho hn hc => simp [extern?, he, ho, quotedName?, hn, hc]

/-! ### Words -/

theorem skipWord_append {word : String} (h : ts = [] ∨ Word word ts)
    (hrest : Heads (·.isKeyword word = false) rest) : skipWord word (ts ++ rest) = rest :=
  (Takes.keyword word).optional_append h hrest.next?_eq_none

/-! ### First tokens -/

/-- The token is one of the given words. -/
def IsOneOf (words : List String) (t : Token) : Prop :=
  t.isIdentifier = true ∧ t.text ∈ words

namespace IsOneOf

variable {words : List String} {word : String} {t : Token}

theorem of_isKeyword (h : t.isKeyword word = true) (hw : word ∈ words) : IsOneOf words t := by
  simp only [Token.isKeyword, Bool.and_eq_true, beq_iff_eq] at h
  exact ⟨by simp [Token.isIdentifier, h.1], h.2 ▸ hw⟩

theorem isKeyword_eq_false (h : IsOneOf words t) (hw : word ∉ words) :
    t.isKeyword word = false := by
  cases hk : t.isKeyword word with
  | false => rfl
  | true =>
    simp only [Token.isKeyword, Bool.and_eq_true, beq_iff_eq] at hk
    exact absurd (hk.2 ▸ h.2) hw

theorem isOther_eq_false (h : IsOneOf words t) (character : String) :
    t.isOther character = false := by
  have hk : t.kind = .identifier := by simpa [Token.isIdentifier] using h.1
  simp [Token.isOther, hk]

theorem isControl_eq_false (h : IsOneOf words t) (delimiter : String) :
    t.isControl delimiter = false := by
  have hk : t.kind = .identifier := by simpa [Token.isIdentifier] using h.1
  simp [Token.isControl, hk]

theorem isComment_eq_false (h : IsOneOf words t) : t.isComment = false := by
  have hk : t.kind = .identifier := by simpa [Token.isIdentifier] using h.1
  simp [Token.isComment, hk]

end IsOneOf

section FirstToken

variable {p : Token → Prop}

theorem Attributes.heads (h : Attributes ts) (hp : ∀ t, t.isOther "#" = true → p t) :
    Heads p ts := by
  cases h with
  | nil => exact .nil
  | cons ha _ =>
    obtain ⟨hh, _, _, _⟩ := ha
    exact Heads.cons_iff.2 (hp _ hh)

theorem Visibility.heads (h : ts = [] ∨ Visibility ts) (hp : ∀ t, t.isKeyword "pub" = true → p t) :
    Heads p ts := by
  rcases h with rfl | hv | ⟨hv, _⟩
  · exact .nil
  · exact Heads.cons_iff.2 (hp _ hv)
  · exact Heads.cons_iff.2 (hp _ hv)

theorem Linkage.heads (h : ts = [] ∨ Linkage ts) (hp : ∀ t, t.isKeyword "extern" = true → p t) :
    Heads p ts := by
  rcases h with rfl | he | ⟨he, _, _, _⟩
  · exact .nil
  · exact Heads.cons_iff.2 (hp _ he)
  · exact Heads.cons_iff.2 (hp _ he)

theorem Word.heads {word : String} (h : ts = [] ∨ Word word ts)
    (hp : ∀ t, t.isKeyword word = true → p t) : Heads p ts := by
  rcases h with rfl | ⟨t, ht, rfl⟩
  · exact .nil
  · exact Heads.cons_iff.2 (hp t ht)

end FirstToken

/-! ### Openings -/

/-- What may stand in front of a field or a struct: comments, attributes and a visibility. -/
inductive Opening : List Token → List Token → Prop where
  /-- The parts in their order. -/
  | mk {cs as v : List Token} (hcs : ∀ t ∈ cs, t.isComment = true) (has : Attributes as)
      (hv : v = [] ∨ Visibility v) : Opening cs (cs ++ (as ++ v))

theorem Opening.heads {p : Token → Prop} (h : Opening comments ts)
    (hc : ∀ t, t.isComment = true → p t) (ha : ∀ t, t.isOther "#" = true → p t)
    (hv : ∀ t, t.isKeyword "pub" = true → p t) : Heads p ts := by
  obtain ⟨hcs, has, hvis⟩ := h
  have hcomments : Heads p comments := fun t ht => hc t (hcs t (List.mem_of_head? ht))
  exact hcomments.append ((has.heads ha).append (Visibility.heads hvis hv))

/-- The token could not belong to the opening in front of it. -/
structure EndsOpening (t : Token) : Prop where
  isComment : t.isComment = false
  isOther : t.isOther "#" = false
  isKeyword : t.isKeyword "pub" = false
  isControl : t.isControl "(" = false

theorem endsOpening_of_isIdentifier (hi : t.isIdentifier = true) (hp : t.isKeyword "pub" = false) :
    EndsOpening t := by
  have h : IsOneOf [t.text] t := ⟨hi, List.mem_singleton_self _⟩
  exact ⟨h.isComment_eq_false, h.isOther_eq_false _, hp, h.isControl_eq_false _⟩

theorem endsOpening_of_isControl {delimiter : String} (h : t.isControl delimiter = true)
    (hne : delimiter ≠ "(") : EndsOpening t :=
  ⟨by grind, by grind, by grind, by grind⟩

/-- An opening is passed over up to a token that could not belong to it, and its comments are the
    documentation. -/
theorem skipOpening_append (h : Opening comments ts) (ht : EndsOpening t) :
    skipOpening (ts ++ t :: rest) = t :: rest ∧
      docs (ts ++ t :: rest) = String.join (comments.map Token.text) := by
  obtain @⟨as, v, hcs, has, hv⟩ := h
  -- What follows a part, from the last one to the first, does not belong to it.
  have hpub : Heads (fun t => t.isKeyword "pub" = false ∧ t.isControl "(" = false) (t :: rest) :=
    Heads.cons_iff.2 ⟨ht.isKeyword, ht.isControl⟩
  have hhash : Heads (·.isOther "#" = false) (v ++ t :: rest) :=
    (Visibility.heads hv (by grind)).append (Heads.cons_iff.2 ht.isOther)
  have hcomment : Heads (·.isComment = false) (as ++ (v ++ t :: rest)) :=
    (has.heads (by grind)).append
      ((Visibility.heads hv (by grind)).append (Heads.cons_iff.2 ht.isComment))
  have hts : comments ++ (as ++ v) ++ t :: rest = comments ++ (as ++ (v ++ t :: rest)) := by
    simp only [List.append_assoc]
  rw [hts, docs_append hcs hcomment, skipOpening, skipDocs_append hcs hcomment,
    skipAttributes_append has hhash, skipVisibility_append hv hpub]
  exact ⟨rfl, rfl⟩

/-- What is passed over as an opening is one. -/
theorem skipOpening_sound (ts : List Token) :
    ∃ comments front, Opening comments front ∧ ts = front ++ skipOpening ts := by
  obtain ⟨cs, hcs, hdocs⟩ := skipDocs_sound ts
  obtain ⟨as, has, hattributes⟩ := skipAttributes_sound (skipDocs ts)
  obtain ⟨v, hv, hvisibility⟩ := skipVisibility_sound (skipAttributes (skipDocs ts))
  refine ⟨cs, cs ++ (as ++ v), .mk hcs has hv, ?_⟩
  rw [List.append_assoc, List.append_assoc, skipOpening, ← hvisibility, ← hattributes, ← hdocs]

end DocAudit.Header
