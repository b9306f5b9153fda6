import DocAudit.Proofs.Declaration.Body
import DocAudit.Proofs.Declaration.Starts
import Mathlib

namespace DocAudit

/-!
# A body ends at its closing bracket

The fields of a struct and the parameters of a function are read from behind an opener.  Where that
opener has a matching closer, what is recorded stays in front of it, and so does the declaration.

* `ClosedByEntry` — an entry takes the matching closer along;
* `Struct.Confined`, `Function.Confined` — what confinement means, and under which conditions;
* `struct?_confined`, `function?_confined` — what one recognizer takes is confined;
* `outline_confined` — hence every declaration of an outline is.

Attributes and visibilities in front of a field are passed over without regard to braces, so those have
to be balanced.  And an entry may end in the matching closer itself.  Where one does, the entries stay in
front of that closer if no further one can be read behind it, and the declaration does so if there is not
one more closer either.
-/

open Reader Header

variable {ts us rest block behind : List Token} {node : Node}

/-- Some entry, with those in front of it, takes the tokens inside the brackets and the matching closer
    as its end. -/
def ClosedByEntry {α : Type} (members : List (α × List Token)) (within : List Token) (d : Token) :
    Prop :=
  ∃ first, first <+: members ∧ (first.map Prod.snd).flatten = within ++ [d]

/-- The struct stays inside its braces.  Its head ends at the first token that may end one; if that is
    a brace, the fields are read from behind it on.  Take a matching closer behind the tokens `within`,
    and let no field be read behind it if a field takes it.  Then the blocks of the fields do not reach
    beyond it.  The block of the struct does not either, unless a field takes it and there is one
    more. -/
def Struct.Confined (s : Struct) (block behind : List Token) : Prop :=
  ∃ head body, block ++ behind = head ++ body ∧
    structHead? (block ++ behind) = some (s.name, body) ∧
    ∀ o inside, body = o :: inside → o.isControl "\x7b" = true →
      ∃ members last, Chain field? inside members last ∧ members.map Prod.fst = s.fields ∧
        ∀ within d rest, inside = within ++ d :: rest → Encloses "\x7b" "\x7d" within d →
          (∀ m ∈ members, Balanced "\x7b" "\x7d" m.2.dropLast) →
          (ClosedByEntry members within d → field? rest = none) →
          (members.map Prod.snd).flatten <+: within ++ [d] ∧
          ((ClosedByEntry members within d → control? "\x7d" rest = none) →
            block <+: head ++ o :: (within ++ [d]))

/-- The function stays inside its parentheses.  The parameters are read from behind the opener.  Take a
    matching closer behind the tokens `within`, and let no parameter be read behind it if a parameter
    takes it.  Then the blocks of the parameters do not reach beyond it.  The block of the function does
    at most by an arrow right behind, unless a parameter takes the closer and there is one more. -/
def Function.Confined (f : Function) (block behind : List Token) : Prop :=
  ∃ head o inside members last, block ++ behind = head ++ o :: inside ∧
    signature? (block ++ behind) = some (f.name, inside) ∧ o.isControl "(" = true ∧
    Chain parameter? inside members last ∧ members.map Prod.fst = f.arguments ∧
    ∀ within d rest, inside = within ++ d :: rest → Encloses "(" ")" within d →
      (ClosedByEntry members within d → parameter? rest = none) →
      (members.map Prod.snd).flatten <+: within ++ [d] ∧
      ((ClosedByEntry members within d → control? ")" rest = none) →
        ∃ arrow, (arrow = [] ∨ ∃ a, a.isOperator "->" = true ∧ arrow = [a]) ∧ arrow <+: rest ∧
          block <+: head ++ o :: (within ++ d :: arrow))

/-- A struct or a function stays inside its brackets. -/
def Node.Confined : Node → List Token → List Token → Prop
  | .struct s, block, behind => s.Confined block behind
  | .function f, block, behind => f.Confined block behind
  | _, _, _ => True

/-! ### Structs -/

theorem struct?_confined {s : Struct} (h : struct? (block ++ us) = some (s, us)) :
    s.Confined block us := by
  simp only [struct?, Option.bind_eq_bind, Option.bind_eq_some_iff, Option.pure_def,
    Option.some.injEq, Prod.mk.injEq, Prod.exists] at h
  obtain ⟨name, body, hhead, rfl, hus⟩ := h
  obtain ⟨head, _, hsplit⟩ := behind_of_structHead? hhead
  refine ⟨head, body, hsplit, hhead, ?_⟩
  rintro o inside rfl ho
  have hbody : structBody (o :: inside) =
      ((fields inside).1, Reader.optional (control? "\x7d") (fields inside).2) := by
    simp [structBody, ho]
  obtain ⟨members, hc, hfields⟩ := many_chain behind_of_field? inside
  refine ⟨members, _, hc, by rw [hbody]; exact hfields, ?_⟩
  intro within d rest heq hd hbraces hfield
  -- Each field is read from its block, so it is an entry with balanced braces.
  have hentry : ∀ m ∈ members, EntryBlock "\x7b" "\x7d" m.2 := by
    intro m hm
    obtain ⟨before, after, rfl⟩ := List.append_of_mem hm
    exact field?_entryBlock hc.read?_append.2 (hbraces m hm)
  have hends : ∀ first, first <+: members → (first.map Prod.snd).flatten = within ++ [d] →
      field? rest = none := fun first hfirst hflat => hfield ⟨first, hfirst, hflat⟩
  refine ⟨hc.entries_inside hentry (by decide) hd heq hends, fun hcloser => ?_⟩
  obtain ⟨taken, htaken, hinside⟩ := hc.closed_inside hentry (by decide) hd heq hends
    fun hflat => hcloser ⟨members, List.prefix_rfl, hflat⟩
  rw [hbody] at hus
  have hblock : block = head ++ o :: taken := by
    refine List.append_cancel_right (hsplit.trans ?_)
    rw [htaken, ← hus, List.append_assoc]
    rfl
  rw [hblock]
  exact (List.prefix_append_right_inj head).2 (List.cons_prefix_cons.2 ⟨rfl, hinside⟩)

/-! ### Functions -/

/-- Behind the parameters, at most the token right behind the matching closer is taken as the arrow. -/
theorem exists_arrow {within taken closed : List Token} {d : Token}
    (hclosed : taken ++ closed = within ++ d :: rest) (htaken : taken <+: within ++ [d]) :
    ∃ arrow, (arrow = [] ∨ ∃ a, a.isOperator "->" = true ∧ arrow = [a]) ∧ arrow <+: rest ∧
      ∃ read, read ++ (next? (·.isOperator "->") closed).getD closed = taken ++ closed ∧
        read <+: within ++ d :: arrow := by
  cases ha : next? (·.isOperator "->") closed with
  | none =>
    refine ⟨[], .inl rfl, List.nil_prefix, taken, rfl, htaken⟩
  | some us =>
    obtain ⟨a, hop, rfl⟩ := next?_eq_some_iff.1 ha
    have hread : taken ++ [a] <+: within ++ d :: rest := ⟨us, by rw [← hclosed]; simp⟩
    obtain ⟨more, hmore⟩ := htaken
    cases more with
    | nil =>
      -- The list is closed, so the arrow stands right behind.
      rw [List.append_nil] at hmore
      have hrest : a :: us = rest := by
        refine List.append_cancel_left (hclosed.trans ?_)
        rw [hmore]
        simp
      refine ⟨[a], .inr ⟨a, hop, rfl⟩, ⟨us, hrest⟩, taken ++ [a], by simp, ?_⟩
      rw [hmore]
      simp
    | cons m more =>
      -- Else there is still room for it in front of the closer.
      refine ⟨[], .inl rfl, List.nil_prefix, taken ++ [a], by simp, ?_⟩
      refine List.prefix_of_prefix_length_le hread ⟨rest, by simp⟩ ?_
      rw [← hmore]
      simp

theorem function?_confined {f : Function} (h : function? (block ++ us) = some (f, us)) :
    f.Confined block us := by
  simp only [function?, Option.bind_eq_bind, Option.bind_eq_some_iff, Option.pure_def,
    Option.some.injEq, Prod.mk.injEq, Prod.exists] at h
  obtain ⟨name, inside, hsignature, rfl, hus⟩ := h
  obtain ⟨_, front, hstart, hfront⟩ := signature?_eq_some_iff.1 hsignature
  obtain ⟨head, o, ho, rfl⟩ := hstart.exists_concat
  have hsplit : block ++ us = head ++ o :: inside := by
    rw [hfront, List.append_assoc, List.singleton_append]
  obtain ⟨members, hc, hnames⟩ := many_chain behind_of_parameter? inside
  refine ⟨head, o, inside, members, _, hsplit, hsignature, ho, hc, hnames, ?_⟩
  intro within d rest heq hd hparameter
  have hentry : ∀ m ∈ members, EntryBlock "(" ")" m.2 :=
    hc.forall_mem fun _ hr => parameter?_entryBlock hr
  have hends : ∀ first, first <+: members → (first.map Prod.snd).flatten = within ++ [d] →
      parameter? rest = none := fun first hfirst hflat => hparameter ⟨first, hfirst, hflat⟩
  refine ⟨hc.entries_inside hentry (by decide) hd heq hends, fun hcloser => ?_⟩
  obtain ⟨taken, htaken, hinside⟩ := hc.closed_inside hentry (by decide) hd heq hends
    fun hflat => hcloser ⟨members, List.prefix_rfl, hflat⟩
  obtain ⟨arrow, harrow, hpre, read, hread, hwithin⟩ := exists_arrow (htaken.symm.trans heq) hinside
  have hblock : block = head ++ o :: read := by
    refine List.append_cancel_right (hsplit.trans ?_)
    rw [htaken, ← hread, ← hus, List.append_assoc]
    rfl
  refine ⟨arrow, harrow, hpre, ?_⟩
  rw [hblock]
  exact (List.prefix_append_right_inj head).2 (List.cons_prefix_cons.2 ⟨rfl, hwithin⟩)

/-! ### Outlines -/

theorem confined_of_nextNode? (h : nextNode? (block ++ us) = some (node, us)) :
    node.Confined block us := by
  rcases nextNode?_cases h with ⟨form, _, hread⟩ | ⟨t, rfl, _, _⟩
  · cases Form.recognize?_eq_some_iff.1 hread with
    | function hf => exact function?_confined hf
    | struct hs => exact struct?_confined hs
    | named _ => trivial
  · trivial

/-- **A body ends at its closing bracket.** The nodes of an accepted list have consecutive blocks that
    make up the list, and each struct and function stays inside its brackets. -/
theorem outline_confined {items : List Item} {source : Option (List Char)}
    (h : checkOrder items source = .ok ts) :
    ∃ entries : List (Node × List Token),
      Chain nextNode? ts entries [] ∧
      outline? items source = .ok (entries.map Prod.fst) ∧
      items = (entries.map Prod.snd).flatten.map Item.token ∧
      ∀ before node block after, entries = before ++ (node, block) :: after →
        node.Confined block (after.map Prod.snd).flatten := by
  obtain ⟨entries, hc, hnodes, hitems, _⟩ := outline_entries h
  refine ⟨entries, hc, hnodes, hitems, ?_⟩
  rintro before node block after rfl
  exact confined_of_nextNode? (nextNode?_of_chain hc)

/-- The tokens of a struct, and a semicolon behind it. -/
def confinedTokens : List Token :=
  oneFieldStruct.tokens ++ [⟨.other, ";", ⟨30, 31⟩⟩]

theorem endsFields_semicolon : EndsFields [⟨.other, ";", ⟨30, 31⟩⟩] :=
  endsFields_cons rfl rfl rfl rfl

theorem chain_confinedTokens :
    Chain nextNode? confinedTokens
      [(.struct oneFieldStruct.struct, oneFieldStruct.tokens),
        (.other ⟨.other, ";", ⟨30, 31⟩⟩ ⟨30, 31⟩, [⟨.other, ";", ⟨30, 31⟩⟩])] [] := by
  have hstruct := nextNode?_of_struct? (oneFieldStruct.function?_eq_none _)
    (oneFieldStruct.struct?_append endsFields_semicolon)
  have hother : nextNode? [⟨.other, ";", ⟨30, 31⟩⟩] =
      some (.other ⟨.other, ";", ⟨30, 31⟩⟩ ⟨30, 31⟩, []) := by cbv
  exact .cons hstruct rfl (by decide) (.cons hother rfl (by decide) (.done rfl))

/-- The one field takes the brace that closes the struct as its end.  The semicolon behind that brace is
    neither a field nor one more brace, so neither the field nor the struct reaches beyond it. -/
theorem outline_confined_oneFieldStruct :
    checkOrder (confinedTokens.map .token) none = .ok confinedTokens ∧
    outline? (confinedTokens.map .token) none =
      .ok [.struct oneFieldStruct.struct, .other ⟨.other, ";", ⟨30, 31⟩⟩ ⟨30, 31⟩] ∧
    Encloses "\x7b" "\x7d" oneFieldStruct.body.dropLast ⟨.control, "\x7d", ⟨29, 30⟩⟩ ∧
    ∃ members last, Chain field? (oneFieldStruct.body ++ [⟨.other, ";", ⟨30, 31⟩⟩]) members last ∧
      members.map Prod.fst = [⟨"a", "w", ⟨16, 30⟩⟩] ∧
      ClosedByEntry members oneFieldStruct.body.dropLast ⟨.control, "\x7d", ⟨29, 30⟩⟩ ∧
      (members.map Prod.snd).flatten <+: oneFieldStruct.body ∧
      oneFieldStruct.tokens <+:
        oneFieldStruct.tokens.take 4 ++ oneFieldStruct.opener :: oneFieldStruct.body := by
  have horder : checkOrder (confinedTokens.map .token) none = .ok confinedTokens := rfl
  have hcloses : Encloses "\x7b" "\x7d" oneFieldStruct.body.dropLast ⟨.control, "\x7d", ⟨29, 30⟩⟩ :=
    ⟨balanced_of_forall (by decide), rfl⟩
  obtain ⟨entries, hc, _, _, hconfined⟩ := outline_confined horder
  obtain ⟨rfl, _⟩ := chain_confinedTokens.unique hc
  obtain ⟨head, body, hsplit, hhead, hmembers⟩ :=
    hconfined [] (.struct oneFieldStruct.struct) _ _ rfl
  -- The head ends at the brace, with the field and the semicolon behind it.
  have hread := oneFieldStruct.structHead?_append [⟨.other, ";", ⟨30, 31⟩⟩]
  obtain ⟨_, rfl⟩ := Prod.mk.inj (Option.some.inj (hread.symm.trans hhead))
  obtain rfl : oneFieldStruct.tokens.take 4 = head := List.append_cancel_right hsplit
  obtain ⟨members, last, hfields, hnames, hinside⟩ := hmembers _ _ rfl rfl
  have hfield : field? (oneFieldStruct.body ++ [⟨.other, ";", ⟨30, 31⟩⟩]) =
      some (⟨"a", "w", ⟨16, 30⟩⟩, [⟨.other, ";", ⟨30, 31⟩⟩]) :=
    field?_append writtenField_a (.inr rfl)
  have hend := endsFields_semicolon.field?_eq_none
  have hchain : Chain field? (oneFieldStruct.body ++ [⟨.other, ";", ⟨30, 31⟩⟩])
      [(⟨"a", "w", ⟨16, 30⟩⟩, oneFieldStruct.body)] [⟨.other, ";", ⟨30, 31⟩⟩] :=
    .cons hfield rfl (by decide) (.done hend)
  obtain ⟨rfl, _⟩ := hchain.unique hfields
  obtain ⟨hfieldInside, hblock⟩ := hinside oneFieldStruct.body.dropLast _ _ rfl hcloses
    (List.forall_mem_singleton.2 hcloses.balanced) fun _ => hend
  exact ⟨horder, outline?_of_chain horder chain_confinedTokens, hcloses, _, _, hfields, hnames,
    ⟨_, List.prefix_rfl, rfl⟩, hfieldInside,
    hblock fun _ => endsFields_semicolon.closer.next?_eq_none⟩

/-! ### A brace in an attribute -/

/-- The field `#[doc = "\x7d"]` `a: u8` in front of the closing brace. -/
theorem writtenField_attribute : WrittenField ⟨"a", "", ⟨11, 31⟩⟩
    ([⟨.other, "#", ⟨11, 12⟩⟩, ⟨.other, "[", ⟨12, 13⟩⟩, ⟨.identifier, "doc", ⟨13, 16⟩⟩,
        ⟨.other, "=", ⟨17, 18⟩⟩, ⟨.other, "\"", ⟨19, 20⟩⟩, ⟨.control, "\x7d", ⟨20, 21⟩⟩,
        ⟨.other, "\"", ⟨21, 22⟩⟩, ⟨.other, "]", ⟨22, 23⟩⟩] ++
      [⟨.identifier, "a", ⟨24, 25⟩⟩, ⟨.control, ":", ⟨25, 26⟩⟩, ⟨.identifier, "u8", ⟨27, 29⟩⟩])
    ⟨.control, "\x7d", ⟨30, 31⟩⟩ := by
  have hattribute : Attribute (⟨.other, "#", ⟨11, 12⟩⟩ :: ⟨.other, "[", ⟨12, 13⟩⟩ ::
      [⟨.identifier, "doc", ⟨13, 16⟩⟩, ⟨.other, "=", ⟨17, 18⟩⟩, ⟨.other, "\"", ⟨19, 20⟩⟩,
        ⟨.control, "\x7d", ⟨20, 21⟩⟩, ⟨.other, "\"", ⟨21, 22⟩⟩] ++ [⟨.other, "]", ⟨22, 23⟩⟩]) :=
    .mk rfl rfl (by decide) rfl
  have hopening := Opening.mk (List.forall_mem_nil _) (.cons hattribute .nil) (.inl rfl)
  have htype : TypeExpr.Derives .type [⟨.identifier, "u8", ⟨27, 29⟩⟩] :=
    .plain (.simple (.bare (.name rfl)))
  exact .mk (n := ⟨.identifier, "a", ⟨24, 25⟩⟩) (c := ⟨.control, ":", ⟨25, 26⟩⟩)
    (d := ⟨.control, "\x7d", ⟨30, 31⟩⟩) hopening rfl rfl rfl htype

/-- A struct with a field under an attribute that holds a closing brace. -/
def attributeStruct : WrittenStruct where
  comments := []
  opening := []
  keyword := ⟨.identifier, "struct", ⟨0, 6⟩⟩
  name := ⟨.identifier, "S", ⟨7, 8⟩⟩
  generics := []
  opener := ⟨.control, "\x7b", ⟨9, 10⟩⟩
  members := [⟨"a", "", ⟨11, 31⟩⟩]
  body := _
  opening_spec := .mk (List.forall_mem_nil _) .nil (.inl rfl)
  keyword_isKeyword := rfl
  name_isIdentifier := rfl
  generics_spec := oneFieldStruct.generics_spec
  opener_isControl := rfl
  body_spec := .last writtenField_attribute rfl

/-- The text of that struct. -/
def attributeText : List Char :=
  "struct S \x7b #[doc = \"\x7d\"] a: u8 \x7d".toList

/-- By counting, the brace in the attribute closes the body.  The field under that attribute is recorded
    all the same, and it ends behind that brace, like the struct. -/
theorem brace_in_attribute_closes_body :
    ∃ (head within rest : List Token) (o d : Token) (s : Struct) (f : Field),
      tokenize true attributeText = .ok (head ++ o :: (within ++ d :: rest)) ∧
      structHead? (head ++ o :: (within ++ d :: rest)) = some (s.name, o :: (within ++ d :: rest)) ∧
      o.isControl "\x7b" = true ∧ Encloses "\x7b" "\x7d" within d ∧
      outlineOfSource? attributeText = .ok [.struct s] ∧
      f ∈ s.fields ∧ d.span.stop < f.span.stop ∧ d.span.stop < s.span.stop := by
  have htokens : tokenize true attributeText = .ok attributeStruct.tokens := by cbv
  have hhead := attributeStruct.structHead?_append []
  have hfunction := attributeStruct.function?_eq_none []
  have hend : EndsFields [] := ⟨.nil, by simp⟩
  have hstruct := attributeStruct.struct?_append hend
  rw [List.append_nil] at hhead hfunction hstruct
  have hnext := nextNode?_of_struct? hfunction hstruct
  have houtline : outlineOfSource? attributeText = .ok [.struct attributeStruct.struct] := by
    have horder : checkOrder (attributeStruct.tokens.map Item.token) (some attributeText) =
        .ok attributeStruct.tokens := rfl
    simp only [outlineOfSource?, outline?, htokens, horder, Except.bind, bind, pure, Except.pure,
      outline_of_nextNode? hnext, outline_nil]
  -- The brace in the attribute is the sixth token behind the opener of the body.
  exact ⟨attributeStruct.tokens.take 2, attributeStruct.body.take 5, attributeStruct.body.drop 6,
    attributeStruct.opener, ⟨.control, "\x7d", ⟨20, 21⟩⟩, attributeStruct.struct,
    ⟨"a", "", ⟨11, 31⟩⟩, htokens, hhead, rfl, ⟨balanced_of_forall (by decide), rfl⟩, houtline,
    by decide, by decide, by decide⟩

end DocAudit
