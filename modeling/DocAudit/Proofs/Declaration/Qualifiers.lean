import DocAudit.Declaration.Recognizer
import DocAudit.Proofs.Declaration.Header

namespace DocAudit

/-!
# Qualifiers of a declaration

Between the comments above a declaration and the word that introduces it may stand attributes, a
visibility, further words and a linkage.

* `Modifiers`, `Qualifiers` — what may stand there, written down;
* `skipModifiers_append`, `skipQualifiers_append` — it is passed over, up to the word that introduces
  the declaration.
-/

open Reader Header

variable {ts rest : List Token} {t : Token}

/-- Attributes, a visibility and the words `const`, `async` and `unsafe`, each of which may be
    missing. -/
inductive Modifiers : List Token → Prop where
  /-- The parts in their order. -/
  | mk {as v c a u : List Token} (has : Attributes as) (hv : v = [] ∨ Visibility v)
      (hc : c = [] ∨ Word "const" c) (ha : a = [] ∨ Word "async" a)
      (hu : u = [] ∨ Word "unsafe" u) : Modifiers (as ++ (v ++ (c ++ (a ++ u))))

/-- What may stand between the comments and the word `fn`: modifiers, perhaps with a linkage in front
    of them or behind them. -/
inductive Qualifiers : List Token → Prop where
  /-- The parts in their order. -/
  | mk {e ms l : List Token} (he : e = [] ∨ Linkage e) (hm : Modifiers ms)
      (hl : l = [] ∨ Linkage l) : Qualifiers (e ++ (ms ++ l))

theorem Modifiers.nil : Modifiers [] :=
  .mk .nil (.inl rfl) (.inl rfl) (.inl rfl) (.inl rfl)

theorem Modifiers.heads {p : Token → Prop} (h : Modifiers ts) (hp : ∀ t, t.isOther "#" = true → p t)
    (hw : ∀ t, IsOneOf ["pub", "const", "async", "unsafe"] t → p t) : Heads p ts := by
  obtain ⟨has, hv, hc, ha, hu⟩ := h
  have hword : ∀ {w}, w ∈ ["pub", "const", "async", "unsafe"] → ∀ t, t.isKeyword w = true → p t :=
    fun hmem t ht => hw t (.of_isKeyword ht hmem)
  exact (has.heads hp).append <| (Visibility.heads hv (hword (by decide))).append <|
    (Word.heads hc (hword (by decide))).append <| (Word.heads ha (hword (by decide))).append <|
    Word.heads hu (hword (by decide))

/-- Qualifiers start with an attribute or a word. -/
theorem Qualifiers.heads_of {p : Token → Prop} (h : Qualifiers ts)
    (hp : ∀ t, t.isOther "#" = true → p t) (hw : ∀ t, t.isIdentifier = true → p t) : Heads p ts := by
  obtain ⟨he, hm, hl⟩ := h
  have hlinkage : ∀ t : Token, t.isKeyword "extern" = true → p t := fun t ht => hw t (by grind)
  have hmodifiers : Heads p _ := hm.heads hp fun t ht => hw t ht.1
  exact (Linkage.heads he hlinkage).append (hmodifiers.append (Linkage.heads hl hlinkage))

/-- Qualifiers are no comments. -/
theorem Qualifiers.heads (h : Qualifiers ts) : Heads (·.isComment = false) ts :=
  h.heads_of (by grind) (by grind)

/-- A word that may be missing, in front of words that may follow it. -/
theorem heads_word_append {word : String} {words : List String} (h : ts = [] ∨ Word word ts)
    (hrest : Heads (IsOneOf words) rest) : Heads (IsOneOf (word :: words)) (ts ++ rest) :=
  (Word.heads h fun _ ht => .of_isKeyword ht (by simp)).append
    (hrest.imp fun _ ht => ⟨ht.1, List.mem_cons_of_mem word ht.2⟩)

theorem skipModifiers_append (h : Modifiers ts)
    (hrest : Heads (IsOneOf ["extern", "fn", "struct"]) rest) :
    skipModifiers (ts ++ rest) = rest := by
  obtain ⟨has, hv, hc, ha, hu⟩ := h
  -- Behind each word only the later ones may follow, collected from the back.
  have behindAsync := heads_word_append hu hrest
  have behindConst := heads_word_append ha behindAsync
  have behindVisibility := heads_word_append hc behindConst
  have hpub : Heads (fun t => t.isKeyword "pub" = false ∧ t.isControl "(" = false) _ :=
    behindVisibility.imp fun _ ht => ⟨ht.isKeyword_eq_false (by decide), ht.isControl_eq_false _⟩
  have hhash : Heads (·.isOther "#" = false) _ :=
    (Visibility.heads hv (by grind)).append (behindVisibility.imp fun _ ht => ht.isOther_eq_false _)
  unfold skipModifiers
  simp only [List.append_assoc]
  rw [skipAttributes_append has hhash, skipVisibility_append hv hpub,
    skipWord_append hc (behindConst.imp fun _ ht => ht.isKeyword_eq_false (by decide)),
    skipWord_append ha (behindAsync.imp fun _ ht => ht.isKeyword_eq_false (by decide)),
    skipWord_append hu (hrest.imp fun _ ht => ht.isKeyword_eq_false (by decide))]

/-- A linkage in front of something that neither starts a linkage nor a quotation. -/
theorem skipExtern_linkage (h : ts = [] ∨ Linkage ts)
    (hrest : Heads (fun t => t.isOther "\"" = false ∧ t.isKeyword "extern" = false) rest) :
    skipExtern (ts ++ rest) = rest := by
  rcases h with rfl | h
  · exact skipExtern_of_heads (hrest.imp fun _ ht => ht.2)
  · exact skipExtern_append h (hrest.imp fun _ ht => ht.1)

/-- Everything between the comments and the word that introduces a declaration is passed over. -/
theorem skipQualifiers_append (h : Qualifiers ts) (ht : IsOneOf ["fn", "struct"] t) :
    skipQualifiers (ts ++ t :: rest) = t :: rest := by
  obtain @⟨e, ms, l, he, hm, hl⟩ := h
  have hword : Heads (IsOneOf ["extern", "fn", "struct"]) (t :: rest) :=
    Heads.cons_iff.2 ⟨ht.1, List.mem_cons_of_mem "extern" ht.2⟩
  have hlinkage : Heads (IsOneOf ["extern", "fn", "struct"]) (l ++ t :: rest) :=
    (Linkage.heads hl fun _ ht => .of_isKeyword ht (by decide)).append hword
  have hmiddle : skipModifiers (ms ++ (l ++ t :: rest)) = l ++ t :: rest :=
    skipModifiers_append hm hlinkage
  have hlast : ∀ {l}, l = [] ∨ Linkage l → skipExtern (l ++ t :: rest) = t :: rest :=
    fun hl => skipExtern_linkage hl
      (Heads.cons_iff.2 ⟨ht.isOther_eq_false _, ht.isKeyword_eq_false (by decide)⟩)
  unfold skipQualifiers
  simp only [List.append_assoc]
  rcases he with rfl | he
  · by_cases hms : ms = []
    · -- Without modifiers, the first step already takes the linkage that stands behind them.
      subst hms
      have hnone := skipModifiers_append .nil hword
      rw [List.nil_append] at hnone
      rw [List.nil_append, List.nil_append, hlast hl, hnone]
      exact hlast (.inl rfl)
    · -- The first modifier is not `extern`, so the first step takes nothing.
      have hstart : Heads (·.isKeyword "extern" = false) ms :=
        hm.heads (by grind) fun _ ht => ht.isKeyword_eq_false (by decide)
      have hfirst : skipExtern (ms ++ (l ++ t :: rest)) = ms ++ (l ++ t :: rest) :=
        skipExtern_of_heads (hstart.append_of_ne_nil hms _)
      rw [List.nil_append, hfirst, hmiddle, hlast hl]
  · have hquote : Heads (·.isOther "\"" = false) (ms ++ (l ++ t :: rest)) :=
      (hm.heads (by grind) fun _ ht => ht.isOther_eq_false _).append
        (hlinkage.imp fun _ ht => ht.isOther_eq_false _)
    rw [skipExtern_append he hquote, hmiddle, hlast hl]

/-- Attributes and a visibility are qualifiers. -/
theorem qualifiers_of_attributes {as v : List Token} (has : Attributes as)
    (hv : v = [] ∨ Visibility v) : Qualifiers (as ++ v) := by
  have hm : Modifiers (as ++ v) := by
    have h := Modifiers.mk has hv (.inl rfl) (.inl rfl) (.inl rfl)
    rwa [List.nil_append, List.nil_append, List.append_nil] at h
  have h := Qualifiers.mk (.inl rfl) hm (.inl rfl)
  rwa [List.nil_append, List.append_nil] at h

/-- An opening, with its comments, may stand in front of a function as well. -/
theorem skipQualifiers_opening {comments : List Token} (h : Opening comments ts)
    (ht : IsOneOf ["fn", "struct"] t) : skipQualifiers (skipDocs (ts ++ t :: rest)) = t :: rest := by
  obtain @⟨as, v, hcs, has, hv⟩ := h
  have hq : Qualifiers (as ++ v) := qualifiers_of_attributes has hv
  have hcomment : Heads (·.isComment = false) (as ++ v ++ t :: rest) :=
    hq.heads.append (Heads.cons_iff.2 ht.isComment_eq_false)
  rw [List.append_assoc, skipDocs_append hcs hcomment, skipQualifiers_append hq ht]

end DocAudit
