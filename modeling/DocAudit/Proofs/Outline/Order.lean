import DocAudit.Proofs.Declaration.Starts
import DocAudit.Proofs.Outline.Coverage
import Mathlib

namespace DocAudit

/-!
# The order in which the forms are tried

Two forms hardly ever apply at the same place: behind the comments, the attributes and the visibility
stands the word of the form, and each form has its own.  Only `const` may introduce a constant and
stand in front of `fn` as well.  So the order matters for these two forms and for no others.

* `Form.word`, `Form.Applies.exists_word` — the word that introduces a form, and where it stands;
* `skipQualifiers_opening_eq` — what a function passes over behind an opening;
* `Form.rivals_of_ne` — two forms that apply at one place are the function and the constant;
* `recognizeFirst?_eq_some_iff_of_sublist` — what is recognized when functions are tried in front of
  constants, said without the order;
* `outline?_eq_inOrder_iff` — the orders of all forms that give the outline are the ones that do so.
-/

open Reader Header
open scoped List

variable {ts front rest comments : List Token} {t k n : Token} {form form' : Form}

/-! ### The word of a form -/

/-- The word that introduces a declaration of the form. -/
def Form.word : Form → String
  | .function => "fn"
  | .struct => "struct"
  | .named kind => kind.word

/-- The word tells the form. -/
theorem Form.find?_word (form : Form) : Form.order.find? (·.word == form.word) = some form := by
  rcases form with _ | _ | _ | _ | _ <;> rfl

theorem Form.word_injective (h : form.word = form'.word) : form = form' := by
  have hform := find?_word form
  rw [h, find?_word] at hform
  exact (Option.some.inj hform).symm

/-- No form but the function has a word that may stand in front of `fn`, apart from `const`. -/
theorem Form.word_not_mem (hfunction : form ≠ .function) :
    form.word ∉ ["async", "unsafe", "extern", "fn", "pub"] := by
  rcases form with _ | _ | _ | _ | _
  · exact absurd rfl hfunction
  all_goals decide

/-- Where another form than the function applies, its word stands behind the opening, and a name
    behind that. -/
theorem Form.Applies.exists_word (h : form.Applies ts) (hfunction : form ≠ .function) :
    ∃ comments front k n rest, Opening comments front ∧ k.isKeyword form.word = true ∧
      n.isIdentifier = true ∧ ts = front ++ k :: n :: rest := by
  cases h with
  | function _ => exact absurd rfl hfunction
  | @struct _ _ _ rest o h _ =>
    obtain @⟨_, opening, generics, k, n, hopening, hk, hn, _⟩ := h
    exact ⟨_, opening, k, n, generics ++ o :: rest, hopening, hk, hn, by simp⟩
  | @named kind _ comments _ rest h =>
    obtain @⟨_, as, v, k, n, hcs, has, _, hv, hk, hn⟩ := h
    exact ⟨comments, comments ++ (as ++ v), k, n, rest, .mk hcs has hv, hk, hn, by simp⟩

theorem Form.endsOpening_of_word (hfunction : form ≠ .function) (hk : k.isKeyword form.word = true) :
    EndsOpening k := by
  have hword : IsOneOf [form.word] k := .of_isKeyword hk (List.mem_singleton_self _)
  refine endsOpening_of_isIdentifier hword.1 (hword.isKeyword_eq_false fun hpub => ?_)
  exact word_not_mem hfunction (by simp [← List.mem_singleton.1 hpub])

/-- At one place stands the word of one form, the function apart. -/
theorem Form.eq_of_applies (h : form.Applies ts) (h' : form'.Applies ts)
    (hfunction : form ≠ .function) (hfunction' : form' ≠ .function) : form = form' := by
  obtain ⟨_, front, k, n, rest, hopening, hk, _, rfl⟩ := h.exists_word hfunction
  obtain ⟨_, front', k', n', rest', hopening', hk', _, heq⟩ := h'.exists_word hfunction'
  -- Both openings are passed over, so the words are the same token.
  have hskip : skipOpening (front ++ k :: n :: rest) = k :: n :: rest :=
    (skipOpening_append hopening (endsOpening_of_word hfunction hk)).1
  rw [heq, (skipOpening_append hopening' (endsOpening_of_word hfunction' hk')).1] at hskip
  obtain rfl : k' = k := (List.cons.inj hskip).1
  simp only [Token.isKeyword, Bool.and_eq_true, beq_iff_eq] at hk hk'
  exact word_injective (hk.2.symm.trans hk'.2)

/-! ### What a function passes over -/

/-- The words that may follow `const` in a signature. -/
def signatureWords : List String :=
  ["async", "unsafe", "extern", "fn"]

/-- Behind an opening, a function passes over the words that it may have in front of `fn`, and over
    nothing else. -/
theorem skipQualifiers_opening_eq (h : Opening comments front) (hk : EndsOpening k)
    (hlinkage : k.isKeyword "extern" = false) :
    skipQualifiers (skipDocs (front ++ k :: rest)) =
      skipExtern (skipWord "unsafe" (skipWord "async" (skipWord "const" (k :: rest)))) := by
  have hfirst : skipExtern (skipDocs (front ++ k :: rest)) = skipDocs (front ++ k :: rest) := by
    obtain @⟨as, v, hcs, has, hv⟩ := h
    -- Neither an attribute nor a visibility nor the word starts like a linkage.
    have hheads {p : Token → Prop} (hp : p k) (ha : ∀ t, t.isOther "#" = true → p t)
        (hw : ∀ t, t.isKeyword "pub" = true → p t) : Heads p (as ++ (v ++ k :: rest)) :=
      (has.heads ha).append ((Visibility.heads hv hw).append (Heads.cons_iff.2 hp))
    have hcomment : Heads (·.isComment = false) (as ++ (v ++ k :: rest)) :=
      hheads hk.isComment (by grind) (by grind)
    have hplain : Heads (·.isKeyword "extern" = false) (as ++ (v ++ k :: rest)) :=
      hheads hlinkage (by grind) (by grind)
    rw [List.append_assoc, List.append_assoc, skipDocs_append hcs hcomment,
      skipExtern_of_heads hplain]
  have hopening : skipVisibility (skipAttributes (skipDocs (front ++ k :: rest))) = k :: rest :=
    (skipOpening_append h hk).1
  rw [skipQualifiers, hfirst, skipModifiers, hopening]

theorem skipWord_cons {word : String} (ht : t.isKeyword word = false) :
    skipWord word (t :: rest) = t :: rest :=
  skipWord_append (.inl rfl) (Heads.cons_iff.2 ht)

/-- Where `fn` is found behind `async`, `unsafe` and a linkage, the first word is one of these. -/
theorem mem_signatureWords (ht : t.isIdentifier = true)
    (hfn : keyword? "fn" (skipExtern (skipWord "unsafe" (skipWord "async" (t :: rest)))) ≠ none) :
    t.text ∈ signatureWords := by
  by_contra hmem
  have hword : IsOneOf [t.text] t := ⟨ht, List.mem_singleton_self _⟩
  have hno {word : String} (hw : word ∈ signatureWords) : t.isKeyword word = false :=
    hword.isKeyword_eq_false fun h => hmem (List.mem_singleton.1 h ▸ hw)
  have hlinkage : Heads (·.isKeyword "extern" = false) (t :: rest) :=
    Heads.cons_iff.2 (hno (by decide))
  rw [skipWord_cons (hno (by decide)), skipWord_cons (hno (by decide)), skipExtern_of_heads hlinkage,
    keyword?_cons, hno (by decide)] at hfn
  exact hfn rfl

/-! ### Two forms at one place -/

/-- A function applies at the word of another form only if that is `const`, and then one of its own
    words follows. -/
theorem Form.function_rival (h : Applies .function (front ++ k :: n :: rest))
    (hopening : Opening comments front) (hfunction : form ≠ .function)
    (hk : k.isKeyword form.word = true) (hn : n.isIdentifier = true) :
    form = .named .const ∧ n.text ∈ signatureWords := by
  have hword : IsOneOf [form.word] k := .of_isKeyword hk (List.mem_singleton_self _)
  have hother {word : String} (hw : word ∈ ["async", "unsafe", "extern", "fn", "pub"]) :
      k.isKeyword word = false :=
    hword.isKeyword_eq_false fun h => word_not_mem hfunction (List.mem_singleton.1 h ▸ hw)
  have hfn : keyword? "fn" (skipQualifiers (skipDocs (front ++ k :: n :: rest))) ≠ none := by
    intro hnone
    refine recognize?_ne_none_iff.2 h ?_
    rw [recognize?, function?, signature?, hnone]
    rfl
  rw [skipQualifiers_opening_eq hopening (endsOpening_of_word hfunction hk) (hother (by decide))]
    at hfn
  by_cases hconst : form = .named .const
  · -- The word is passed over, so the signature goes on with the name.
    subst hconst
    have hskip : skipWord "const" (k :: n :: rest) = n :: rest :=
      optional_of_some (by rw [keyword?_cons, show k.isKeyword "const" = true from hk]; rfl)
    rw [hskip] at hfn
    exact ⟨rfl, mem_signatureWords hn hfn⟩
  · -- The word is not passed over, and it is not `fn`.
    have hno : k.isKeyword "const" = false := by
      refine hword.isKeyword_eq_false fun h => hconst ?_
      exact word_injective (List.mem_singleton.1 h).symm
    rw [skipWord_cons hno] at hfn
    have hmem := mem_signatureWords hword.1 hfn
    rw [List.mem_singleton.1 hword.2] at hmem
    exact absurd (List.mem_append_left ["pub"] hmem) (word_not_mem hfunction)

/-- Behind an opening, the word `const` and a name make up a constant. -/
theorem named?_const_append (hopening : Opening comments front) (hk : k.isKeyword "const" = true)
    (hn : n.isIdentifier = true) :
    ∃ d, named? .const (front ++ k :: n :: rest) = some (d, rest) ∧ d.name = n.text := by
  obtain @⟨as, v, hcs, has, hv⟩ := hopening
  have hstart : NamedStart .const n.text comments (comments ++ (as ++ (v ++ [k, n]))) :=
    .mk hcs has (by rintro ⟨⟩) hv hk hn
  refine ⟨.ofStart .const n.text comments (comments ++ (as ++ (v ++ [k, n]))), ?_, rfl⟩
  simpa using hstart.named?_append rest

/-- The forms are the function and the constant, in either order. -/
def Form.Rivals (form form' : Form) : Prop :=
  form = .function ∧ form' = .named .const ∨ form = .named .const ∧ form' = .function

/-- **Two forms that apply at one place are the function and the constant**, and the constant has a
    word of the signature for its name. -/
theorem Form.rivals_of_ne (h : form.Applies ts) (h' : form'.Applies ts) (hne : form ≠ form') :
    form.Rivals form' ∧ ∃ d rest, named? .const ts = some (d, rest) ∧ d.name ∈ signatureWords := by
  have hconst {other : Form} (hfn : Applies .function ts) (ho : other.Applies ts)
      (hother : other ≠ .function) : other = .named .const ∧
        ∃ d rest, named? .const ts = some (d, rest) ∧ d.name ∈ signatureWords := by
    obtain ⟨_, front, k, n, rest, hopening, hk, hn, rfl⟩ := ho.exists_word hother
    obtain ⟨rfl, hmem⟩ := function_rival hfn hopening hother hk hn
    obtain ⟨d, hd, hname⟩ := named?_const_append hopening hk hn
    exact ⟨rfl, d, rest, hd, hname ▸ hmem⟩
  by_cases hfunction : form = .function
  · subst hfunction
    obtain ⟨heq, hd⟩ := hconst h h' hne.symm
    exact ⟨.inl ⟨rfl, heq⟩, hd⟩
  · by_cases hfunction' : form' = .function
    · subst hfunction'
      obtain ⟨heq, hd⟩ := hconst h' h hne
      exact ⟨.inr ⟨heq, rfl⟩, hd⟩
    · exact absurd (eq_of_applies h h' hfunction hfunction') hne

/-! ### Orders -/

variable {order order' : List Form} {node : Node}

/-- Where functions stand in front of constants in the order, they do so at each constant. -/
theorem function_mem_of_sublist {earlier later : List Form}
    (hnodup : (earlier ++ .named .const :: later).Nodup)
    (hsub : [.function, .named .const] <+ earlier ++ .named .const :: later) :
    .function ∈ earlier := by
  obtain ⟨first, second, heq, hfirst, hsecond⟩ := List.sublist_append_iff.1 hsub
  cases first with
  | cons form first =>
    obtain rfl : Form.function = form := (List.cons.inj heq).1
    exact hfirst.subset (by simp)
  | nil =>
    -- Else the constant would stand behind itself.
    rw [List.nil_append] at heq
    rw [← heq] at hsecond
    have hlater : Form.named .const ∈ later := by
      cases hsecond with
      | cons _ h => exact h.subset (by simp)
    have hdistinct := (List.nodup_append.1 hnodup).2.1
    exact absurd hlater (List.nodup_cons.1 hdistinct).1

/-- With functions in front of constants, what is recognized does not depend on the order: some form
    applies, and if that is the constant, the function does not. -/
theorem recognizeFirst?_eq_some_iff_of_sublist (hnodup : order.Nodup)
    (hsub : [.function, .named .const] <+ order) :
    recognizeFirst? order ts = some (node, rest) ↔
      ∃ form ∈ order, form.recognize? ts = some (node, rest) ∧
        (form = .named .const → Form.recognize? .function ts = none) := by
  have hfirst : ∀ {found}, recognizeFirst? order ts = some found →
      ∃ form ∈ order, form.recognize? ts = some found ∧
        (form = .named .const → Form.recognize? .function ts = none) := by
    intro found h
    obtain ⟨earlier, form, later, rfl, hread, hnone⟩ := List.findSome?_eq_some_iff.1 h
    refine ⟨form, by simp, hread, ?_⟩
    rintro rfl
    exact hnone _ (function_mem_of_sublist hnodup hsub)
  constructor
  · exact hfirst
  · rintro ⟨form, hmem, hread, hconst⟩
    cases hr : recognizeFirst? order ts with
    | none =>
      rw [recognizeFirst?, List.findSome?_eq_none_iff] at hr
      rw [hr form hmem] at hread
      cases hread
    | some found =>
      obtain ⟨form', _, hread', hconst'⟩ := hfirst hr
      by_cases heq : form = form'
      · rw [← heq, hread] at hread'
        exact hread'.symm
      · -- Of the two rivals, the constant is found only where the function fails.
        have happlies : form.Applies ts := Form.recognize?_ne_none_iff.1 (by simp [hread])
        have happlies' : form'.Applies ts := Form.recognize?_ne_none_iff.1 (by simp [hread'])
        rcases (Form.rivals_of_ne happlies happlies' heq).1 with ⟨rfl, rfl⟩ | ⟨rfl, rfl⟩
        · rw [hconst' rfl] at hread
          cases hread
        · rw [hconst rfl] at hread'
          cases hread'

theorem recognizeFirst?_eq (hperm : order.Perm order') (hnodup : order.Nodup)
    (hsub : [.function, .named .const] <+ order) (hsub' : [.function, .named .const] <+ order')
    (ts : List Token) : recognizeFirst? order ts = recognizeFirst? order' ts := by
  refine Option.ext fun ⟨node, rest⟩ => ?_
  rw [recognizeFirst?_eq_some_iff_of_sublist hnodup hsub,
    recognizeFirst?_eq_some_iff_of_sublist (hperm.nodup_iff.1 hnodup) hsub']
  simp only [hperm.mem_iff]

theorem outlineInOrder_of_some (h : recognizeFirst? order ts = some (node, rest)) :
    outlineInOrder order ts = node :: outlineInOrder order rest := by
  cases ts with
  | nil =>
    obtain ⟨more, hne, hnil⟩ := behind_of_recognizeFirst? h
    exact absurd (List.append_eq_nil_iff.1 hnil.symm).1 hne
  | cons t more =>
    rw [outlineInOrder]
    split
    · rename_i hr
      rw [h, Option.some.injEq, Prod.mk.injEq] at hr
      rw [hr.1, hr.2]
    · rename_i hr
      rw [h] at hr
      cases hr

theorem outlineInOrder_of_none (h : recognizeFirst? order (t :: rest) = none) :
    outlineInOrder order (t :: rest) = .other t t.span :: outlineInOrder order rest := by
  rw [outlineInOrder]
  split
  · rename_i hr
    rw [h] at hr
    cases hr
  · rfl

/-- Orders in which the same is recognized everywhere give the same outlines. -/
theorem outlineInOrder_congr (h : ∀ ts, recognizeFirst? order ts = recognizeFirst? order' ts)
    (ts : List Token) : outlineInOrder order ts = outlineInOrder order' ts := by
  fun_induction outlineInOrder order ts with
  | case1 => rw [outlineInOrder]
  | case2 t more node rest hr ih => rw [ih, outlineInOrder_of_some ((h _).symm.trans hr)]
  | case3 t more hr ih => rw [ih, outlineInOrder_of_none ((h _).symm.trans hr)]

/-! ### The orders that give the outline -/

/-- The tokens of `const fn f (`. -/
def constFunctionTokens : List Token :=
  [⟨.identifier, "const", ⟨0, 5⟩⟩, ⟨.identifier, "fn", ⟨6, 8⟩⟩, ⟨.identifier, "f", ⟨9, 10⟩⟩,
    ⟨.control, "(", ⟨10, 11⟩⟩]

theorem function?_constFunctionTokens :
    function? constFunctionTokens = some (⟨"f", [], true, "", ⟨0, 11⟩⟩, []) := by cbv

theorem named?_constFunctionTokens : named? .const constFunctionTokens =
    some (⟨.const, "fn", "", ⟨0, 8⟩⟩, constFunctionTokens.drop 2) := by cbv

/-- Tried in front of functions, a constant takes `fn` for its name. -/
theorem recognizeFirst?_constFunctionTokens (hnodup : order.Nodup) (hmem : .named .const ∈ order)
    (hsub : ¬ [.function, .named .const] <+ order) :
    recognizeFirst? order constFunctionTokens =
      some (.named ⟨.const, "fn", "", ⟨0, 8⟩⟩, constFunctionTokens.drop 2) := by
  have hread : Form.recognize? (.named .const) constFunctionTokens =
      some (.named ⟨.const, "fn", "", ⟨0, 8⟩⟩, constFunctionTokens.drop 2) :=
    Form.recognize?_eq_some_iff.2 (.named named?_constFunctionTokens)
  have happlies : Form.Applies (.named .const) constFunctionTokens :=
    Form.recognize?_ne_none_iff.1 (by simp [hread])
  obtain ⟨earlier, later, rfl⟩ := List.append_of_mem hmem
  refine List.findSome?_eq_some_iff.2 ⟨earlier, .named .const, later, rfl, hread, ?_⟩
  intro form hform
  -- The function is not tried before, and no other form applies here.
  by_contra happlies'
  have hne : form ≠ .named .const := by
    rintro rfl
    exact (List.nodup_append.1 hnodup).2.2 _ hform _ (by simp) rfl
  rcases (Form.rivals_of_ne (Form.recognize?_ne_none_iff.1 happlies') happlies hne).1 with
    ⟨rfl, _⟩ | ⟨rfl, _⟩
  · refine hsub ((List.singleton_sublist.2 hform).append (List.singleton_sublist.2 ?_))
    exact List.mem_cons_self
  · exact hne rfl

/-- **The order matters only for the function and the constant.** If two forms are recognized at one
    place, they are these two, and the constant has one of the words `async`, `unsafe`, `extern` and
    `fn` for its name.  So the orders in which functions are tried in front of constants are the ones
    that give every accepted list its outline. -/
theorem outline?_eq_inOrder_iff :
    (∀ (ts : List Token) (form form' : Form), form ≠ form' → form.recognize? ts ≠ none →
      form'.recognize? ts ≠ none → form.Rivals form' ∧
        ∃ d rest, named? .const ts = some (d, rest) ∧ d.name ∈ signatureWords) ∧
    ∀ order : List Form, order.Perm Form.order →
      ([.function, .named .const] <+ order ↔
        ∀ items source ts, checkOrder items source = .ok ts →
          outline? items source = .ok (outlineInOrder order ts)) := by
  constructor
  · intro ts form form' hne h h'
    exact Form.rivals_of_ne (Form.recognize?_ne_none_iff.1 h) (Form.recognize?_ne_none_iff.1 h') hne
  · intro order hperm
    have hnodup : order.Nodup := hperm.nodup_iff.2 (by decide)
    constructor
    · intro hsub items source ts hts
      have hfirst := recognizeFirst?_eq hperm hnodup hsub (by decide)
      rw [outline?, hts, outlineInOrder_congr hfirst]
      rfl
    · -- Any other order takes `const fn f (` for a constant.
      intro h
      by_contra hsub
      have houtline := h (constFunctionTokens.map .token) none constFunctionTokens rfl
      have hconst := recognizeFirst?_constFunctionTokens hnodup (hperm.mem_iff.2 (by decide)) hsub
      have hfunction : recognizeFirst? Form.order constFunctionTokens =
          some (.function ⟨"f", [], true, "", ⟨0, 11⟩⟩, []) := by
        rw [recognizeFirst?, Form.order, List.findSome?_cons, Form.recognize?,
          function?_constFunctionTokens, Option.map_some]
      rw [outlineInOrder_of_some hconst] at houtline
      have houtline : outline constFunctionTokens = _ := Except.ok.inj houtline
      rw [outline_of_recognizeFirst? hfunction] at houtline
      cases (List.cons.inj houtline).1

/-- At `const fn f (` a function and a constant are recognized, and an order that tries the function
    first, with traits in front of both and structs behind, gives the outline. -/
theorem outline?_constFunctionTokens :
    (Form.recognize? .function constFunctionTokens ≠ none ∧
      Form.recognize? (.named .const) constFunctionTokens ≠ none ∧
      Form.Rivals .function (.named .const) ∧
      ∃ d rest, named? .const constFunctionTokens = some (d, rest) ∧ d.name ∈ signatureWords) ∧
    checkOrder (constFunctionTokens.map .token) none = .ok constFunctionTokens ∧
    outline? (constFunctionTokens.map .token) none = .ok (outlineInOrder
      [.named .trait, .function, .named .enum, .named .const, .struct] constFunctionTokens) := by
  have hfunction : Form.recognize? .function constFunctionTokens ≠ none := by
    rw [Form.recognize?, function?_constFunctionTokens]
    exact Option.some_ne_none _
  have hconst : Form.recognize? (.named .const) constFunctionTokens ≠ none := by
    rw [Form.recognize?, named?_constFunctionTokens]
    exact Option.some_ne_none _
  have hrivals := outline?_eq_inOrder_iff.1 constFunctionTokens .function (.named .const) (by decide)
    hfunction hconst
  have horder := (outline?_eq_inOrder_iff.2
    [.named .trait, .function, .named .enum, .named .const, .struct] (by decide)).1 (by decide)
  exact ⟨⟨hfunction, hconst, hrivals⟩, rfl, horder _ none _ rfl⟩

end DocAudit
