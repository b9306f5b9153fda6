import DocAudit.Proofs.Declaration.Starts
import DocAudit.Proofs.Outline.Coverage
import Mathlib.Data.List.Basic

namespace DocAudit

/-!
# No declaration is passed through

A token is passed through where no form of declaration applies.  Of the tokens that introduce a
declaration, none is passed through: each lies in the block of a declaration.

* `Introduces` — a word that introduces a declaration, with what has to stand behind it;
* `Introduces.exists_applies` — at such a word a form applies, with nothing in front of the word;
* `outline_passthrough` — hence such a word lies in the block of a declaration, and so does the name
  behind it, unless that block ends in the word itself.

The exception cannot be left out.  A word is also a name, so a declaration may take for its own name
the word that introduces the next one.
-/

open Reader Header

variable {ts rest : List Token} {k : Token}

/-- The token introduces a declaration, with the tokens behind it: it is the word of a form and a name
    follows it.  A function has to have a parenthesis somewhere behind its name, and a struct a brace
    or a semicolon. -/
inductive Introduces : Token → List Token → Prop where
  /-- The word of an enumeration, a trait or a constant, and its name. -/
  | named {kind : NamedKind} {k n : Token} {rest : List Token} (hk : k.isKeyword kind.word = true)
      (hn : n.isIdentifier = true) : Introduces k (n :: rest)
  /-- The word `fn`, the name, and somewhere a parenthesis. -/
  | function {k n : Token} {rest : List Token} (hk : k.isKeyword "fn" = true)
      (hn : n.isIdentifier = true) (ho : ∃ o ∈ rest, o.isControl "(" = true) :
      Introduces k (n :: rest)
  /-- The word `struct`, the name, and somewhere the end of a head. -/
  | struct {k n : Token} {rest : List Token} (hk : k.isKeyword "struct" = true)
      (hn : n.isIdentifier = true) (ho : ∃ o ∈ rest, endsStructHead o = true) :
      Introduces k (n :: rest)

/-- The first of the tokens that satisfy a test. -/
theorem exists_first {p : Token → Bool} (h : ∃ t ∈ ts, p t = true) :
    ∃ front t rest, ts = front ++ t :: rest ∧ (∀ u ∈ front, p u = false) ∧ p t = true := by
  obtain ⟨t, ht⟩ := Option.isSome_iff_exists.1 (List.find?_isSome.2 h)
  obtain ⟨hp, front, rest, rfl, hfront⟩ := List.find?_eq_some_iff_append.1 ht
  exact ⟨front, t, rest, rfl, fun u hu => by simpa using hfront u hu, hp⟩

/-- Where a declaration is introduced a form applies: what may stand in front of the word is
    optional. -/
theorem Introduces.exists_applies (h : Introduces k rest) :
    ∃ form ∈ Form.order, form.Applies (k :: rest) := by
  cases h with
  | @named kind _ n rest hk hn =>
    have hstart : NamedStart kind n.text [] [k, n] :=
      .mk (List.forall_mem_nil _) .nil (fun _ => rfl) (.inl rfl) hk hn
    have happlies : Form.Applies (.named kind) ([k, n] ++ rest) := .named hstart
    exact ⟨.named kind, by cases kind <;> decide, happlies⟩
  | @function _ n rest hk hn ho =>
    obtain ⟨generics, o, inside, rfl, hgenerics, ho⟩ := exists_first ho
    have hqualifiers : Qualifiers [] := .mk (.inl rfl) .nil (.inl rfl)
    have hstart : SignatureStart n.text [] (k :: n :: (generics ++ [o])) :=
      .mk (List.forall_mem_nil _) hqualifiers hk hn hgenerics ho
    have happlies : Form.Applies .function (k :: n :: (generics ++ [o]) ++ inside) := .function hstart
    exact ⟨.function, by decide, by simpa using happlies⟩
  | @struct _ n rest hk hn ho =>
    obtain ⟨generics, o, inside, rfl, hgenerics, ho⟩ := exists_first ho
    have hopening : Opening [] [] := .mk (List.forall_mem_nil _) .nil (.inl rfl)
    have hstart : StructStart n.text [] (k :: n :: generics) := .mk hopening hk hn hgenerics
    have happlies : Form.Applies .struct (k :: n :: generics ++ o :: inside) := .struct hstart ho
    exact ⟨.struct, by decide, happlies⟩

theorem Introduces.recognizeFirst?_ne_none (h : Introduces k rest) :
    recognizeFirst? Form.order (k :: rest) ≠ none := by
  obtain ⟨form, hmem, happlies⟩ := h.exists_applies
  intro hnone
  rw [recognizeFirst?, List.findSome?_eq_none_iff] at hnone
  exact Form.recognize?_ne_none_iff.2 happlies (hnone form hmem)

/-- The entry in whose block a token of the list lies. -/
theorem exists_entry {α : Type} {entries : List (α × List Token)} {front : List Token}
    (h : (entries.map Prod.snd).flatten = front ++ k :: rest) :
    ∃ before a inside behind after, entries = before ++ (a, inside ++ k :: behind) :: after ∧
      front = (before.map Prod.snd).flatten ++ inside ∧
      rest = behind ++ (after.map Prod.snd).flatten := by
  induction entries generalizing front with
  | nil => simp at h
  | cons e entries ih =>
    obtain ⟨a, block⟩ := e
    rw [List.map_cons, List.flatten_cons] at h
    rcases List.append_eq_append_iff.1 h with ⟨more, rfl, hmore⟩ | ⟨more, rfl, hmore⟩
    · -- The token stands behind this block.
      obtain ⟨before, b, inside, behind, after, rfl, rfl, rfl⟩ := ih hmore
      exact ⟨(a, block) :: before, b, inside, behind, after, rfl, by simp, rfl⟩
    · rcases List.cons_eq_append_iff.1 hmore with ⟨rfl, hflat⟩ | ⟨behind, rfl, rfl⟩
      · obtain ⟨before, b, inside, behind, after, rfl, hfront, rfl⟩ :=
          ih (hflat.trans (List.nil_append (k :: rest)).symm)
        exact ⟨(a, front ++ []) :: before, b, inside, behind, after, rfl, by simp [← hfront], rfl⟩
      · exact ⟨[], a, front, behind, entries, rfl, rfl, rfl⟩

/-- **No declaration is passed through.** The nodes of an accepted list have consecutive blocks that
    make up the list.  A token that is passed through introduces no declaration.  So each token that
    introduces one lies in the block of a declaration, and the name behind it does too, unless the
    token is the last one of that block. -/
theorem outline_passthrough {items : List Item} {source : Option (List Char)}
    (h : checkOrder items source = .ok ts) :
    ∃ entries : List (Node × List Token),
      Chain nextNode? ts entries [] ∧
      outline? items source = .ok (entries.map Prod.fst) ∧
      items = (entries.map Prod.snd).flatten.map Item.token ∧
      (∀ before t span block after, entries = before ++ (.other t span, block) :: after →
        block = [t] ∧ ¬ Introduces t (after.map Prod.snd).flatten) ∧
      ∀ front k rest, ts = front ++ k :: rest → Introduces k rest →
        ∃ before node inside behind after, entries = before ++ (node, inside ++ k :: behind) :: after ∧
          front = (before.map Prod.snd).flatten ++ inside ∧ node.isDeclaration = true ∧
          (behind = [] ∨ ∃ n more, behind = n :: more ∧ rest.head? = some n) := by
  obtain ⟨entries, hc, hnodes, hitems, hflat⟩ := outline_entries h
  have hother : ∀ before t span block after, entries = before ++ (.other t span, block) :: after →
      block = [t] ∧ ¬ Introduces t (after.map Prod.snd).flatten := by
    rintro before t span block after rfl
    rcases nextNode?_cases (nextNode?_of_chain hc) with ⟨form, _, hread⟩ | ⟨u, hnode, hblock, hnone⟩
    · cases (Form.recognize?_eq_some_iff.1 hread).isDeclaration
    · cases hnode
      rw [hblock] at hnone
      obtain rfl : block = [t] := List.append_cancel_right hblock
      exact ⟨rfl, fun hintroduces => hintroduces.recognizeFirst?_ne_none hnone⟩
  refine ⟨entries, hc, hnodes, hitems, hother, ?_⟩
  intro front k rest hts hintroduces
  obtain ⟨before, node, inside, behind, after, hentries, hfront, rfl⟩ := exists_entry (hflat.trans hts)
  refine ⟨before, node, inside, behind, after, hentries, hfront, ?_, ?_⟩
  · -- Were it passed through, it would not introduce anything.
    cases node with
    | other t span =>
      obtain ⟨hblock, hnot⟩ := hother before t span _ after hentries
      obtain ⟨rfl, rfl⟩ : inside = [] ∧ k = t := by
        cases inside with
        | nil => exact ⟨rfl, List.head_eq_of_cons_eq hblock⟩
        | cons u inside => simp at hblock
      obtain rfl : behind = [] := List.tail_eq_of_cons_eq hblock
      exact absurd hintroduces hnot
    | _ => rfl
  · cases behind with
    | nil => exact .inl rfl
    | cons n more => exact .inr ⟨n, more, rfl, rfl⟩

/-! ### A word as a name -/

/-- The tokens of `const enum X`. -/
def constEnumTokens : List Token :=
  [⟨.identifier, "const", ⟨0, 5⟩⟩, ⟨.identifier, "enum", ⟨6, 10⟩⟩, ⟨.identifier, "X", ⟨11, 12⟩⟩]

/-- The walk over these tokens takes `enum` for the name of a constant. -/
theorem chain_constEnumTokens :
    Chain nextNode? constEnumTokens
      [(.named ⟨.const, "enum", "", ⟨0, 10⟩⟩, constEnumTokens.take 2),
        (.other ⟨.identifier, "X", ⟨11, 12⟩⟩ ⟨11, 12⟩, constEnumTokens.drop 2)] [] := by
  have hconst : nextNode? constEnumTokens =
      some (.named ⟨.const, "enum", "", ⟨0, 10⟩⟩, constEnumTokens.drop 2) := by cbv
  have hother : nextNode? (constEnumTokens.drop 2) =
      some (.other ⟨.identifier, "X", ⟨11, 12⟩⟩ ⟨11, 12⟩, []) := by cbv
  exact .cons hconst rfl (by decide) (.cons hother rfl (by decide) (.done rfl))

/-- Of these tokens, the first two introduce a declaration, and both lie in the block of the constant.
    The last one is passed through, and it introduces nothing. -/
theorem outline_constEnumTokens :
    checkOrder (constEnumTokens.map .token) none = .ok constEnumTokens ∧
    outline? (constEnumTokens.map .token) none =
      .ok [.named ⟨.const, "enum", "", ⟨0, 10⟩⟩, .other ⟨.identifier, "X", ⟨11, 12⟩⟩ ⟨11, 12⟩] ∧
    Introduces ⟨.identifier, "const", ⟨0, 5⟩⟩ (constEnumTokens.drop 1) ∧
    Introduces ⟨.identifier, "enum", ⟨6, 10⟩⟩ (constEnumTokens.drop 2) ∧
    ¬ Introduces ⟨.identifier, "X", ⟨11, 12⟩⟩ [] ∧
    ∀ front k rest, constEnumTokens = front ++ k :: rest → Introduces k rest →
      k ∈ constEnumTokens.take 2 := by
  have horder : checkOrder (constEnumTokens.map .token) none = .ok constEnumTokens := rfl
  obtain ⟨entries, hc, _, _, hother, hintroduces⟩ := outline_passthrough horder
  obtain ⟨rfl, _⟩ := chain_constEnumTokens.unique hc
  refine ⟨horder, outline?_of_chain horder chain_constEnumTokens,
    @Introduces.named .const _ _ _ rfl rfl, @Introduces.named .enum _ _ _ rfl rfl, ?_, ?_⟩
  · obtain ⟨_, hnot⟩ := hother [(.named ⟨.const, "enum", "", ⟨0, 10⟩⟩, constEnumTokens.take 2)]
      _ _ _ [] rfl
    exact hnot
  · intro front k rest htokens hk
    obtain ⟨before, node, inside, behind, after, hentries, _, hdeclaration, _⟩ :=
      hintroduces front k rest htokens hk
    have hmem : (node, inside ++ k :: behind) ∈ before ++ (node, inside ++ k :: behind) :: after :=
      List.mem_append_right _ List.mem_cons_self
    rw [← hentries, List.mem_cons, List.mem_singleton] at hmem
    -- The last token is no declaration.
    rcases hmem with hconst | hlast
    · rw [← (Prod.mk.inj hconst).2]
      exact List.mem_append_right _ List.mem_cons_self
    · rw [(Prod.mk.inj hlast).1] at hdeclaration
      cases hdeclaration

/-- Here `enum` with the name behind it does not lie in the block of any declaration: the constant takes
    `enum` for its name and ends there. -/
theorem enum_with_name_in_no_block :
    checkOrder (constEnumTokens.map .token) none = .ok constEnumTokens ∧
    ∃ (front rest : List Token) (k n : Token), constEnumTokens = front ++ k :: n :: rest ∧
      Introduces k (n :: rest) ∧
      ∀ entries, Chain nextNode? constEnumTokens entries [] →
        ¬ ∃ before node inside behind after,
          entries = before ++ (node, inside ++ k :: n :: behind) :: after ∧
          front = (before.map Prod.snd).flatten ++ inside ∧ node.isDeclaration = true := by
  refine ⟨rfl, constEnumTokens.take 1, [], ⟨.identifier, "enum", ⟨6, 10⟩⟩,
    ⟨.identifier, "X", ⟨11, 12⟩⟩, rfl, @Introduces.named .enum _ _ _ rfl rfl, ?_⟩
  rintro entries hc ⟨before, node, inside, behind, after, hentries, hfront, _⟩
  obtain ⟨rfl, _⟩ := chain_constEnumTokens.unique hc
  cases before with
  | nil =>
    obtain rfl : inside = constEnumTokens.take 1 := hfront.symm
    obtain ⟨hhead, _⟩ := List.cons.inj hentries
    exact absurd (congrArg (List.length ∘ Prod.snd) hhead) (by simp [constEnumTokens])
  | cons e before =>
    obtain ⟨rfl, _⟩ := List.cons.inj hentries
    exact absurd (congrArg List.length hfront) (by simp [constEnumTokens])

end DocAudit
