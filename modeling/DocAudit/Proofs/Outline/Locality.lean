import DocAudit.Proofs.Declaration.Parts
import DocAudit.Proofs.Declaration.Steady

namespace DocAudit

/-!
# A declaration depends only on its own tokens

To find the end of a declaration, the tokens behind it are looked at.  But what is recorded depends on
none of them: the tokens of its block, on their own, give the same declaration.  Only a struct that ends
in front of a semicolon needs that semicolon to be one.

* `function?_alone`, `struct?_alone`, `named?_alone` — each recognizer reads a block on its own;
* `recognizeFirst?_cut` — the form that is recognized in the block alone is the first one there, too;
* `outline_block` — hence every node of an outline is all that the outline of its block has.
-/

open Reader Header

variable {ts us block : List Token} {node : Node} {t : Token}

/-! ### One declaration -/

theorem Perhaps.optional_append {p : Token → Bool} (h : Perhaps p ts)
    (hus : Heads (fun t => p t = false) us) : Reader.optional (next? p) (ts ++ us) = us :=
  (Takes.next p).optional_append h hus.next?_eq_none

@[simp] theorem blockBefore_nil (ts : List Token) : blockBefore ts [] = ts := by
  simp [blockBefore]

theorem function?_alone {f : Function} (h : function? (block ++ us) = some (f, us)) :
    function? block = some (f, []) := by
  have hspan : f.span = .covering block := span_of_function? h
  obtain ⟨comments, front, members, closing, arrow, hstart, hc, hnames, hclosing, harrow, hnothing,
    hdocs, rfl⟩ := function?_parts h
  have hc' : Chain parameter? ((members.map Prod.snd).flatten ++ (closing ++ arrow)) members
      (closing ++ arrow) := by
    rw [← List.append_assoc closing, ← List.append_assoc] at hc
    exact hc.cut steady_parameter
  have hparameters : parameters ((members.map Prod.snd).flatten ++ (closing ++ arrow)) =
      (f.arguments, closing ++ arrow) := hnames ▸ hc'.many_eq behind_of_parameter?
  -- The arrow is no parenthesis, and nothing stands behind it.
  have hclosed : Reader.optional (control? ")") (closing ++ arrow) = arrow :=
    hclosing.optional_append fun t ht => by grind [harrow.forall_mem t (List.mem_of_head? ht)]
  have hrest : (next? (·.isOperator "->") arrow).getD arrow = [] := by
    have hend : Reader.optional (next? (·.isOperator "->")) (arrow ++ []) = [] :=
      harrow.optional_append .nil
    rwa [List.append_nil] at hend
  have hisNone : (next? (·.isOperator "->") arrow).isNone = f.returnsNothing := by
    rcases harrow with rfl | ⟨a, ha, rfl⟩
    · rw [hnothing]
      rfl
    · rw [hnothing, next?_cons, if_pos ha]
      rfl
  simp only [function?, hstart.signature?_append, hstart.docs_append, hparameters, hclosed, hrest,
    hisNone, blockBefore_nil, ← hspan, ← hdocs, Option.bind_eq_bind, Option.bind_some,
    Option.pure_def]

theorem span_of_struct? {s : Struct} (h : struct? (block ++ us) = some (s, us)) :
    s.span = .covering block := by
  simp only [struct?, Option.bind_eq_bind, Option.bind_eq_some_iff, Option.pure_def,
    Option.some.injEq, Prod.mk.injEq, Prod.exists] at h
  obtain ⟨_, _, _, rfl, hus⟩ := h
  rw [hus, blockBefore_append]

/-- Behind a struct whose head does not end with it, all may be cut off. -/
theorem struct?_alone {s : Struct} (h : struct? (block ++ us) = some (s, us))
    (hstops : structHead? (block ++ us) ≠ some (s.name, us)) : struct? block = some (s, []) := by
  have hspan : s.span = .covering block := span_of_struct? h
  obtain ⟨comments, front, o, hstart, hdocs, ⟨ho, _, rfl, more, rfl⟩ |
    ⟨ho, members, closing, hc, hfields, hclosing, rfl⟩⟩ := struct?_parts h
  · exact absurd (hstart.structHead?_append (by simp [endsStructHead, ho]) more) hstops
  · have hends : endsStructHead o = true := by simp [endsStructHead, ho]
    rw [← List.append_assoc] at hc
    have hc' : Chain field? ((members.map Prod.snd).flatten ++ closing) members closing :=
      hc.cut steady_field
    have hmembers : DocAudit.fields ((members.map Prod.snd).flatten ++ closing) = (s.fields, closing) :=
      hfields ▸ hc'.many_eq behind_of_field?
    have hclosed : Reader.optional (control? "\x7d") closing = [] := by
      have hend : Reader.optional (control? "\x7d") (closing ++ []) = [] := hclosing.optional_append .nil
      rwa [List.append_nil] at hend
    simp only [struct?, hstart.structHead?_append hends, hstart.docs_append, structBody, control?_cons, ho,
      if_true, hmembers, hclosed, blockBefore_nil, ← hspan, ← hdocs, Option.bind_eq_bind,
      Option.bind_some, Option.pure_def]

/-- Behind a struct whose head ends with it stands a semicolon, and all but that may be cut off. -/
theorem struct?_semicolon {s : Struct} (h : struct? (block ++ us) = some (s, us))
    (hstops : structHead? (block ++ us) = some (s.name, us)) :
    ∃ semicolon more, semicolon.isOther ";" = true ∧ us = semicolon :: more ∧
      struct? (block ++ [semicolon]) = some (s, [semicolon]) := by
  have hspan : s.span = .covering block := span_of_struct? h
  obtain ⟨comments, front, o, hstart, hdocs, ⟨ho, hfields, rfl, more, rfl⟩ |
    ⟨ho, members, closing, _, _, _, rfl⟩⟩ := struct?_parts h
  · have hends : endsStructHead o = true := by simp [endsStructHead, ho]
    have hopener : control? "\x7b" [o] = none := by simp [show o.isControl "\x7b" = false by grind]
    refine ⟨o, more, ho, rfl, ?_⟩
    simp only [struct?, hstart.structHead?_append hends, hstart.docs_append, structBody, hopener,
      blockBefore_append, ← hspan, ← hdocs, ← hfields, Option.bind_eq_bind, Option.bind_some,
      Option.pure_def]
  · -- Behind a head that ends at a brace, the brace is left.
    have hends : endsStructHead o = true := by simp [endsStructHead, ho]
    rw [List.append_assoc, List.cons_append, hstart.structHead?_append hends, Option.some.injEq,
      Prod.mk.injEq] at hstops
    have hlength := congrArg List.length hstops.2
    simp only [List.length_cons, List.length_append] at hlength
    omega

theorem named?_alone {kind : NamedKind} {d : Named} (h : named? kind (block ++ us) = some (d, us)) :
    named? kind block = some (d, []) := by
  obtain ⟨name, comments, front, hstart, rfl, heq⟩ := named?_eq_some_iff.1 h
  obtain rfl := List.append_cancel_right heq
  exact named?_eq_some_iff.2 ⟨name, comments, block, hstart, rfl, (List.append_nil block).symm⟩

/-! ### All forms -/

/-- The node is a struct whose head ends with its block, in front of a semicolon.  It has no fields
    in braces. -/
def Node.StopsAtSemicolon : Node → (block behind : List Token) → Prop
  | .struct s, block, behind => structHead? (block ++ behind) = some (s.name, behind)
  | _, _, _ => False

theorem Form.recognize?_alone {form : Form} (h : form.recognize? (block ++ us) = some (node, us))
    (hstops : ¬ node.StopsAtSemicolon block us) : form.recognize? block = some (node, []) := by
  rw [Form.recognize?_eq_some_iff] at h ⊢
  cases h with
  | function hf => exact .function (function?_alone hf)
  | struct hs => exact .struct (struct?_alone hs hstops)
  | named hd => exact .named (named?_alone hd)

theorem Form.recognize?_semicolon {form : Form} (h : form.recognize? (block ++ us) = some (node, us))
    (hstops : node.StopsAtSemicolon block us) :
    ∃ semicolon more, semicolon.isOther ";" = true ∧ us = semicolon :: more ∧
      form.recognize? (block ++ [semicolon]) = some (node, [semicolon]) := by
  cases Form.recognize?_eq_some_iff.1 h with
  | struct hs =>
    obtain ⟨semicolon, more, hsemicolon, hus, hread⟩ := struct?_semicolon hs hstops
    exact ⟨semicolon, more, hsemicolon, hus, Form.recognize?_eq_some_iff.2 (.struct hread)⟩
  | _ => cases hstops

/-- A form that is not recognized is not recognized either if tokens at the end are cut off.  So a
    form that is recognized in both lists is the first one in both. -/
theorem recognizeFirst?_cut {order : List Form} {rest rest' : List Token}
    (h : recognizeFirst? order (ts ++ us) = some (node, rest'))
    (hform : ∀ form : Form, form.recognize? (ts ++ us) = some (node, rest') →
      form.recognize? ts = some (node, rest)) :
    recognizeFirst? order ts = some (node, rest) := by
  rw [recognizeFirst?, List.findSome?_eq_some_iff] at h ⊢
  obtain ⟨earlier, form, later, rfl, hread, hnone⟩ := h
  refine ⟨earlier, form, later, rfl, hform form hread, fun form' hmem => ?_⟩
  by_contra hread'
  have happlies : form'.Applies (ts ++ us) := (Form.recognize?_ne_none_iff.1 hread').append us
  exact Form.recognize?_ne_none_iff.2 happlies (hnone form' hmem)

theorem recognizeFirst?_eq_none_cut {order : List Form} (h : recognizeFirst? order (ts ++ us) = none) :
    recognizeFirst? order ts = none := by
  rw [recognizeFirst?, List.findSome?_eq_none_iff] at h ⊢
  intro form hmem
  by_contra hread
  have happlies : form.Applies (ts ++ us) := (Form.recognize?_ne_none_iff.1 hread).append us
  exact Form.recognize?_ne_none_iff.2 happlies (h form hmem)

/-- No declaration starts at a token that cannot open one. -/
theorem recognizeFirst?_cons_eq_none {order : List Form} (ht : ¬ Form.Opens t) :
    recognizeFirst? order (t :: ts) = none := by
  rw [recognizeFirst?, List.findSome?_eq_none_iff]
  intro form _
  by_contra hread
  exact ht (Heads.cons_iff.1 (Form.recognize?_ne_none_iff.1 hread).heads)

/-! ### One step of the walk -/

theorem nextNode?_alone (h : nextNode? (block ++ us) = some (node, us))
    (hstops : ¬ node.StopsAtSemicolon block us) : nextNode? block = some (node, []) := by
  rw [nextNode?_eq_some_iff] at h ⊢
  rcases h with hread | ⟨t, rfl, hblock, hnone⟩
  · exact .inl (recognizeFirst?_cut hread fun form hform => form.recognize?_alone hform hstops)
  · obtain rfl : block = [t] := List.append_cancel_right hblock
    exact .inr ⟨t, rfl, rfl, recognizeFirst?_eq_none_cut hnone⟩

theorem nextNode?_semicolon (h : nextNode? (block ++ us) = some (node, us))
    (hstops : node.StopsAtSemicolon block us) :
    ∃ semicolon more, semicolon.isOther ";" = true ∧ us = semicolon :: more ∧
      nextNode? (block ++ [semicolon]) = some (node, [semicolon]) := by
  rcases nextNode?_eq_some_iff.1 h with hread | ⟨t, rfl, _, _⟩
  · obtain ⟨form, _, hform⟩ := List.exists_of_findSome?_eq_some hread
    obtain ⟨semicolon, more, hsemicolon, rfl, _⟩ := form.recognize?_semicolon hform hstops
    refine ⟨semicolon, more, hsemicolon, rfl, nextNode?_eq_some_iff.2 (.inl ?_)⟩
    rw [List.append_cons] at hread
    refine recognizeFirst?_cut hread fun form hform => ?_
    rw [List.append_assoc, List.singleton_append] at hform
    obtain ⟨_, _, _, heq, halone⟩ := form.recognize?_semicolon hform hstops
    cases heq
    exact halone
  · cases hstops

/-! ### Outlines -/

/-- A semicolon is passed through. -/
theorem outline_semicolon (ht : t.isOther ";" = true) : outline [t] = [.other t t.span] := by
  have hnot : ¬ Form.Opens t := by
    rintro (h | h | h) <;> grind
  have hnext : nextNode? [t] = some (.other t t.span, []) :=
    nextNode?_eq_some_iff.2 (.inr ⟨t, rfl, rfl, recognizeFirst?_cons_eq_none hnot⟩)
  rw [outline_of_nextNode? hnext, outline_nil]

/-- Tokens that stand together in an accepted list are accepted on their own. -/
theorem checkOrder_of_infix {items : List Item} {source text : Option (List Char)}
    (h : checkOrder items source = .ok ts) (hus : us <:+: ts) :
    checkOrder (us.map .token) text = .ok us := by
  have hfrom : checkOrderFrom 0 items = .ok ts := by
    unfold checkOrder at h
    split at h
    · rename_i vs hvs
      cases h
      exact hvs
    · split at h <;> cases h
  obtain ⟨_, hstart, hapart, hforward⟩ := inOrder_of_checkOrderFrom hfrom
  have horder : InOrder us :=
    ⟨hapart.sublist hus.sublist, fun t ht => hforward t (hus.subset ht)⟩
  exact checkOrder_of_inOrder horder (fun t ht => hstart t (hus.subset ht)) text

/-- **A declaration depends only on its own tokens.** The nodes of an accepted list have consecutive
    blocks that make up the list, and the outline of a block on its own is its node.  A struct that ends
    in front of a semicolon has to have that behind its block; the outline then has the struct and the
    semicolon. -/
theorem outline_block {items : List Item} {source : Option (List Char)}
    (h : checkOrder items source = .ok ts) :
    ∃ entries : List (Node × List Token),
      Chain nextNode? ts entries [] ∧
      outline? items source = .ok (entries.map Prod.fst) ∧
      items = (entries.map Prod.snd).flatten.map Item.token ∧
      ∀ before node block after, entries = before ++ (node, block) :: after →
        (¬ node.StopsAtSemicolon block (after.map Prod.snd).flatten →
          ∀ text, outline? (block.map .token) text = .ok [node]) ∧
        (node.StopsAtSemicolon block (after.map Prod.snd).flatten →
          ∃ semicolon more, semicolon.isOther ";" = true ∧
            (after.map Prod.snd).flatten = semicolon :: more ∧
            ∀ text, outline? ((block ++ [semicolon]).map .token) text =
              .ok [node, .other semicolon semicolon.span]) := by
  obtain ⟨entries, hc, hnodes, hitems, hflat⟩ := outline_entries h
  refine ⟨entries, hc, hnodes, hitems, ?_⟩
  rintro before node block after rfl
  have hstep := nextNode?_of_chain hc
  rw [List.map_append, List.flatten_append, List.map_cons, List.flatten_cons] at hflat
  constructor
  · intro hstops text
    have hinfix : block <:+: ts := ⟨_, _, by rw [← hflat, List.append_assoc]⟩
    rw [outline?, checkOrder_of_infix h hinfix]
    show Except.ok (outline block) = _
    rw [outline_of_nextNode? (nextNode?_alone hstep hstops), outline_nil]
  · intro hstops
    obtain ⟨semicolon, more, hsemicolon, hafter, hnext⟩ := nextNode?_semicolon hstep hstops
    refine ⟨semicolon, more, hsemicolon, hafter, fun text => ?_⟩
    have hinfix : block ++ [semicolon] <:+: ts :=
      ⟨(before.map Prod.snd).flatten, more, by rw [← hflat, hafter]; simp⟩
    rw [outline?, checkOrder_of_infix h hinfix]
    show Except.ok (outline (block ++ [semicolon])) = _
    rw [outline_of_nextNode? hnext, outline_semicolon hsemicolon]

/-- The tokens of `struct A ; const B`. -/
def unitStructTokens : List Token :=
  [⟨.identifier, "struct", ⟨0, 6⟩⟩, ⟨.identifier, "A", ⟨7, 8⟩⟩, ⟨.other, ";", ⟨8, 9⟩⟩,
    ⟨.identifier, "const", ⟨10, 15⟩⟩, ⟨.identifier, "B", ⟨16, 17⟩⟩]

/-- The struct among them. -/
def unitStruct : Struct where
  name := "A"
  fields := []
  docs := ""
  span := ⟨0, 8⟩

/-- The constant among them. -/
def unitConst : Named where
  kind := .const
  name := "B"
  docs := ""
  span := ⟨10, 17⟩

theorem chain_unitStructTokens :
    Chain nextNode? unitStructTokens
      [(.struct unitStruct, unitStructTokens.take 2),
        (.other ⟨.other, ";", ⟨8, 9⟩⟩ ⟨8, 9⟩, [⟨.other, ";", ⟨8, 9⟩⟩]),
        (.named unitConst, unitStructTokens.drop 3)] [] := by
  have hstruct : nextNode? unitStructTokens = some (.struct unitStruct, unitStructTokens.drop 2) := by
    cbv
  have hother : nextNode? (unitStructTokens.drop 2) =
      some (.other ⟨.other, ";", ⟨8, 9⟩⟩ ⟨8, 9⟩, unitStructTokens.drop 3) := by cbv
  have hconst : nextNode? (unitStructTokens.drop 3) = some (.named unitConst, []) := by cbv
  exact .cons hstruct rfl (by decide)
    (.cons hother rfl (by decide) (.cons hconst rfl (by decide) (.done rfl)))

/-- The struct ends in front of a semicolon, so it needs that to be one.  The constant behind it needs
    nothing but its own tokens. -/
theorem outline_unitStructTokens :
    checkOrder (unitStructTokens.map .token) none = .ok unitStructTokens ∧
    outline? (unitStructTokens.map .token) none =
      .ok [.struct unitStruct, .other ⟨.other, ";", ⟨8, 9⟩⟩ ⟨8, 9⟩, .named unitConst] ∧
    (∀ text, outline? ((unitStructTokens.take 3).map .token) text =
      .ok [.struct unitStruct, .other ⟨.other, ";", ⟨8, 9⟩⟩ ⟨8, 9⟩]) ∧
    ∀ text, outline? ((unitStructTokens.drop 3).map .token) text = .ok [.named unitConst] := by
  have horder : checkOrder (unitStructTokens.map .token) none = .ok unitStructTokens := rfl
  obtain ⟨entries, hc, _, _, halone⟩ := outline_block horder
  obtain ⟨rfl, _⟩ := chain_unitStructTokens.unique hc
  have hstops : Node.StopsAtSemicolon (.struct unitStruct) (unitStructTokens.take 2)
      (unitStructTokens.drop 2) := by
    show structHead? unitStructTokens = some ("A", unitStructTokens.drop 2)
    cbv
  obtain ⟨_, hsemicolon⟩ := halone [] _ _ _ rfl
  obtain ⟨semicolon, more, _, hbehind, hstruct⟩ := hsemicolon hstops
  obtain ⟨rfl, _⟩ := List.cons.inj hbehind
  obtain ⟨hconst, _⟩ := halone [(.struct unitStruct, unitStructTokens.take 2),
    (.other ⟨.other, ";", ⟨8, 9⟩⟩ ⟨8, 9⟩, [⟨.other, ";", ⟨8, 9⟩⟩])] _ _ [] rfl
  exact ⟨horder, outline?_of_chain horder chain_unitStructTokens, hstruct, hconst id⟩

end DocAudit
