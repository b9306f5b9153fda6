import DocAudit.Proofs.Declaration.Body
import DocAudit.Proofs.Declaration.Parts
import Mathlib

namespace DocAudit

/-!
# Comments belong to what stands below them

The comments directly above a declaration are its documentation, all of them: the block of a
declaration starts where the run of comments starts, not within it.  The same holds of every field.

* `EndsPlain` — a block that does not end in a comment;
* `endsPlain_of_recognize?` — a declaration does not end in a comment, but for a struct in front of a
  semicolon;
* `recognizeFirst?_cons_comment` — where a declaration starts, one starts at a comment in front of it;
* `IsWholeRun`, `Node.HasWholeRun` — the documentation is that of a whole run of comments;
* `outline_documentation` — this holds of every declaration of an outline.
-/

open Reader Header

variable {ts us rest block : List Token} {node : Node} {t : Token}

/-! ### The end of a block -/

/-- The list does not end in a comment. -/
def EndsPlain (ts : List Token) : Prop :=
  ∀ t ∈ ts.getLast?, t.isComment = false

namespace EndsPlain

theorem of_forall (h : ∀ t ∈ ts, t.isComment = false) : EndsPlain ts :=
  fun t ht => h t (List.mem_of_getLast? ht)

@[simp] theorem nil : EndsPlain [] :=
  of_forall (List.forall_mem_nil _)

@[simp] theorem concat_iff : EndsPlain (ts ++ [t]) ↔ t.isComment = false := by
  simp [EndsPlain]

theorem append (h : EndsPlain ts) (g : EndsPlain us) : EndsPlain (ts ++ us) := by
  intro t ht
  rw [List.getLast?_append] at ht
  rcases Option.or_eq_some_iff.1 ht with hu | ⟨_, ht⟩
  · exact g t hu
  · exact h t ht

theorem append_of_ne_nil (g : EndsPlain us) (hne : us ≠ []) : EndsPlain (ts ++ us) := by
  intro t ht
  rw [List.getLast?_append_of_ne_nil _ hne] at ht
  exact g t ht

theorem flatten {blocks : List (List Token)} (h : ∀ ts ∈ blocks, EndsPlain ts) :
    EndsPlain blocks.flatten := by
  induction blocks with
  | nil => exact .nil
  | cons ts blocks ih =>
    rw [List.flatten_cons]
    exact (h ts (by simp)).append (ih fun us hus => h us (by simp [hus]))

end EndsPlain

/-- A name with its type does not end in a comment, with its end or without. -/
theorem endsPlain_typed {front ty ending : List Token} {n c : Token} {closer : String}
    (hc : c.isControl ":" = true) (hty : TypeExpr.Derives .type ty)
    (he : ending = [] ∨ ∃ t, EndsEntry closer t ∧ ending = [t]) :
    EndsPlain (front ++ n :: c :: ty ++ ending) := by
  have htype : EndsPlain (c :: ty) := .of_forall fun t ht => by
    rcases List.mem_cons.1 ht with rfl | ht
    · grind
    · grind [hty.mem_kinds t ht]
  have hending : EndsPlain ending := by
    rcases he with rfl | ⟨t, ht, rfl⟩
    · exact .nil
    · exact .of_forall (by rcases ht with ht | ht <;> grind)
  rw [List.append_cons front n]
  exact (htype.append_of_ne_nil (by simp)).append hending

theorem endsPlain_of_parameter? {name : String} (h : parameter? (block ++ us) = some (name, us)) :
    EndsPlain block := by
  rcases parameter?_block h with ⟨front, d, _, hd, rfl⟩ | ⟨m, n, c, ty, ending, _, _, hc, hty, he, rfl⟩
  · rw [EndsPlain.concat_iff]
    rcases hd with hd | hd <;> grind
  · exact endsPlain_typed hc hty he

theorem endsPlain_of_field? {f : Field} (h : field? (block ++ us) = some (f, us)) :
    EndsPlain block := by
  obtain ⟨opening, n, c, ty, ending, _, hc, hty, he, rfl⟩ := field?_block h
  exact endsPlain_typed hc hty he

theorem EndsPlain.of_perhaps {p : Token → Bool} (h : Perhaps p ts)
    (hp : ∀ t, p t = true → t.isComment = false) : EndsPlain ts :=
  .of_forall fun t ht => hp t (h.forall_mem t ht)

/-- Entries of which none ends in a comment do not end in one together. -/
theorem endsPlain_members {α : Type} {members : List (α × List Token)}
    (h : ∀ m ∈ members, EndsPlain m.2) : EndsPlain (members.map Prod.snd).flatten :=
  .flatten (List.forall_mem_map.2 h)

/-! ### Declarations -/

theorem endsPlain_of_function? {f : Function} (h : function? (block ++ us) = some (f, us)) :
    EndsPlain block := by
  obtain ⟨comments, front, members, closing, arrow, hstart, hc, _, hclosing, harrow, _, _, rfl⟩ :=
    function?_parts h
  obtain ⟨head, o, ho, rfl⟩ := hstart.exists_concat
  have hfront : EndsPlain (head ++ [o]) := EndsPlain.concat_iff.2 (by grind)
  have hmembers : EndsPlain (members.map Prod.snd).flatten :=
    endsPlain_members (hc.forall_mem fun _ hr => endsPlain_of_parameter? hr)
  exact hfront.append (hmembers.append ((EndsPlain.of_perhaps hclosing (by grind)).append
    (.of_perhaps harrow (by grind))))

/-- A struct does not end in a comment, unless its block ends in front of a semicolon. -/
theorem endsPlain_of_struct? {s : Struct} (h : struct? (block ++ us) = some (s, us)) :
    EndsPlain block ∨ ∃ semicolon more, semicolon.isOther ";" = true ∧ us = semicolon :: more := by
  obtain ⟨comments, front, o, _, _, ⟨ho, _, _, more, hus⟩ | ⟨ho, members, closing, hc, _, hclosing, rfl⟩⟩ :=
    struct?_parts h
  · exact .inr ⟨o, more, ho, hus⟩
  · refine .inl ?_
    have hfront : EndsPlain (front ++ [o]) := EndsPlain.concat_iff.2 (by grind)
    have hmembers : EndsPlain (members.map Prod.snd).flatten :=
      endsPlain_members (hc.forall_mem fun _ hr => endsPlain_of_field? hr)
    rw [List.append_cons]
    exact hfront.append (hmembers.append (.of_perhaps hclosing (by grind)))

theorem endsPlain_of_named? {kind : NamedKind} {d : Named}
    (h : named? kind (block ++ us) = some (d, us)) : EndsPlain block := by
  obtain ⟨name, comments, front, hstart, _, heq⟩ := named?_eq_some_iff.1 h
  obtain rfl := List.append_cancel_right heq
  obtain @⟨_, as, v, k, n, _, _, _, _, _, hn⟩ := hstart
  have hts : comments ++ (as ++ (v ++ [k, n])) = comments ++ (as ++ (v ++ [k])) ++ [n] := by simp
  rw [hts, EndsPlain.concat_iff]
  grind

/-- **A declaration does not end in a comment**, but for a struct in front of a semicolon. -/
theorem endsPlain_of_recognize? {form : Form} (h : form.recognize? (block ++ us) = some (node, us)) :
    EndsPlain block ∨ ∃ semicolon more, semicolon.isOther ";" = true ∧ us = semicolon :: more := by
  cases Form.recognize?_eq_some_iff.1 h with
  | function hf => exact .inl (endsPlain_of_function? hf)
  | struct hs => exact endsPlain_of_struct? hs
  | named hd => exact .inl (endsPlain_of_named? hd)

/-! ### The start of a block -/

/-- Where a form applies behind a comment, one applies at that comment already. -/
theorem recognizeFirst?_cons_comment {order : List Form} (ht : t.isComment = true)
    (h : recognizeFirst? order (t :: ts) = none) : recognizeFirst? order ts = none := by
  rw [recognizeFirst?, List.findSome?_eq_none_iff] at h ⊢
  intro form hform
  by_contra hread
  have happlies : form.Applies ts := Form.recognize?_ne_none_iff.1 hread
  exact Form.recognize?_ne_none_iff.2 (happlies.cons_comment ht) (h form hform)

theorem exists_recognize?_of_isDeclaration (h : nextNode? ts = some (node, rest))
    (hd : node.isDeclaration = true) : ∃ form ∈ Form.order, form.recognize? ts = some (node, rest) := by
  rcases nextNode?_cases h with hform | ⟨t, rfl, _, _⟩
  · exact hform
  · cases hd

/-- What stands in front of a declaration does not end in a comment: such a comment would have
    belonged to the declaration. -/
theorem endsPlain_before {before after : List (Node × List Token)}
    (hc : Chain nextNode? ts (before ++ (node, block) :: after) rest)
    (hd : node.isDeclaration = true) : EndsPlain (before.map Prod.snd).flatten := by
  rcases List.eq_nil_or_concat' before with rfl | ⟨first, ⟨previous, taken⟩, rfl⟩
  · exact .nil
  -- The declaration is read behind the block of the previous node.
  have hnext := hc.read?_append.2
  rw [List.append_assoc, List.singleton_append] at hc
  obtain ⟨hne, hprevious⟩ := hc.read?_append
  rw [List.map_cons, List.flatten_cons, List.append_assoc] at hprevious
  obtain ⟨form, hmem, hread⟩ := exists_recognize?_of_isDeclaration hnext hd
  have htaken : EndsPlain taken := by
    rcases nextNode?_cases hprevious with ⟨form', _, hread'⟩ | ⟨t, _, heq, hnone⟩
    · rcases endsPlain_of_recognize? hread' with hplain | ⟨semicolon, more, hs, heq⟩
      · exact hplain
      · -- No declaration starts at a semicolon.
        have happlies := Form.recognize?_ne_none_iff.1 (Option.ne_none_iff_exists'.2 ⟨_, hread⟩)
        have hopens : Form.Opens semicolon := by
          have h := happlies.heads
          rwa [heq, Heads.cons_iff] at h
        rcases hopens with h | h | h <;> grind
    · -- A comment that was passed through would have opened the declaration behind it.
      obtain rfl : taken = [t] := List.append_cancel_right (heq.trans (List.singleton_append ..).symm)
      refine .of_forall (List.forall_mem_singleton.2 ?_)
      by_contra hcomment
      rw [Bool.not_eq_false] at hcomment
      have hfirst := recognizeFirst?_cons_comment hcomment hnone
      rw [recognizeFirst?, List.findSome?_eq_none_iff] at hfirst
      exact Option.some_ne_none _ (hread.symm.trans (hfirst form hmem))
  rw [List.map_append, List.flatten_append, List.map_singleton, List.flatten_singleton]
  exact htaken.append_of_ne_nil hne

/-! ### The documentation -/

/-- The text is that of a whole run of comments: the run stands at the front of `ts`, no comment
    follows it, and none stands in front of it, at the end of `before`. -/
def IsWholeRun (text : String) (before ts : List Token) : Prop :=
  EndsPlain before ∧ ∃ run rest, ts = run ++ rest ∧ (∀ t ∈ run, t.isComment = true) ∧
    Heads (·.isComment = false) rest ∧ text = String.join (run.map Token.text)

/-- The documentation of the declaration is that of a whole run of comments, at the start of its
    block, and that of each field of a struct too, at the start of the block that the loop over the
    fields takes for it. -/
def Node.HasWholeRun : Node → (before block behind : List Token) → Prop
  | .function f, before, block, behind => IsWholeRun f.docs before (block ++ behind)
  | .named d, before, block, behind => IsWholeRun d.docs before (block ++ behind)
  | .struct s, before, block, behind => IsWholeRun s.docs before (block ++ behind) ∧
      ∃ (head tail : List Token) (members : List (Field × List Token)),
        block = head ++ ((members.map Prod.snd).flatten ++ tail) ∧
        Chain field? ((members.map Prod.snd).flatten ++ (tail ++ behind)) members (tail ++ behind) ∧
        members.map Prod.fst = s.fields ∧
        ∀ first f inside last, members = first ++ (f, inside) :: last →
          IsWholeRun f.docs (before ++ (head ++ (first.map Prod.snd).flatten))
            (inside ++ ((last.map Prod.snd).flatten ++ (tail ++ behind)))
  | .other _ _, _, _, _ => True
  | .field _, _, _, _ => False
  | .blank _, _, _, _ => False

theorem isWholeRun_docs {before : List Token} (h : EndsPlain before) (ts : List Token) :
    IsWholeRun (docs ts) before ts := by
  refine ⟨h, ts.takeWhile Token.isComment, skipDocs ts, ?_, ?_, heads_skipDocs ts, rfl⟩
  · rw [skipDocs, List.takeWhile_append_dropWhile]
  · exact fun t ht => List.mem_takeWhile_imp ht

theorem docs_of_field? {f : Field} (h : field? ts = some (f, rest)) : f.docs = docs ts := by
  simp only [field?, Option.bind_eq_bind, Option.bind_eq_some_iff, Option.pure_def,
    Option.some.injEq, Prod.mk.injEq, Prod.exists] at h
  obtain ⟨_, us, _, vs, _, ws, _, rfl, _⟩ := h
  rfl

/-- The documentation of a struct, and of its fields. -/
theorem hasWholeRun_of_struct? {s : Struct} {before : List Token}
    (h : struct? (block ++ us) = some (s, us)) (hbefore : EndsPlain before) :
    (Node.struct s).HasWholeRun before block us := by
  have hdocs : s.docs = docs (block ++ us) := by
    simp only [struct?, Option.bind_eq_bind, Option.bind_eq_some_iff, Option.pure_def,
      Option.some.injEq, Prod.mk.injEq, Prod.exists] at h
    obtain ⟨_, body, _, rfl, _⟩ := h
    rfl
  refine ⟨hdocs ▸ isWholeRun_docs hbefore _, ?_⟩
  obtain ⟨comments, front, o, _, _, ⟨ho, hfields, rfl, more, rfl⟩ | ⟨ho, members, closing, hc, hfields, _, rfl⟩⟩ :=
    struct?_parts h
  · -- Behind the semicolon no field is looked for, and none starts there.
    have hnone : field? (o :: more) = none :=
      (endsFields_cons (by grind) (by grind) (by grind) (by grind)).field?_eq_none
    exact ⟨block, [], [], by simp, .done hnone, hfields.symm, by simp⟩
  · refine ⟨front ++ [o], closing, members, by simp, hc, hfields, ?_⟩
    rintro first f inside last rfl
    rw [docs_of_field? hc.read?_append.2]
    refine isWholeRun_docs ?_ _
    -- In front of a field stands the brace or the field before.
    have hopener : EndsPlain (front ++ [o]) := EndsPlain.concat_iff.2 (by grind)
    have hfirst : EndsPlain (first.map Prod.snd).flatten :=
      endsPlain_members fun m hm =>
        hc.forall_mem (fun _ hr => endsPlain_of_field? hr) m (List.mem_append_left _ hm)
    exact (hopener.append hfirst).append_of_ne_nil (by simp)

theorem hasWholeRun_of_recognize? {form : Form} {before : List Token}
    (h : form.recognize? (block ++ us) = some (node, us)) (hbefore : EndsPlain before) :
    node.HasWholeRun before block us := by
  cases Form.recognize?_eq_some_iff.1 h with
  | function hf =>
    simp only [function?, Option.bind_eq_bind, Option.bind_eq_some_iff, Option.pure_def,
      Option.some.injEq, Prod.mk.injEq, Prod.exists] at hf
    obtain ⟨_, _, _, rfl, _⟩ := hf
    exact isWholeRun_docs hbefore _
  | struct hs => exact hasWholeRun_of_struct? hs hbefore
  | named hd =>
    simp only [named?, Option.bind_eq_bind, Option.bind_eq_some_iff, Option.pure_def,
      Option.some.injEq, Prod.mk.injEq, Prod.exists] at hd
    obtain ⟨_, _, _, _, _, rfl, _⟩ := hd
    exact isWholeRun_docs hbefore _

/-- Each node of an outline has the documentation that stands above it. -/
theorem hasWholeRun_of_chain {before after : List (Node × List Token)}
    (hc : Chain nextNode? ts (before ++ (node, block) :: after) []) :
    node.HasWholeRun (before.map Prod.snd).flatten block (after.map Prod.snd).flatten := by
  rcases nextNode?_cases (nextNode?_of_chain hc) with ⟨form, _, hread⟩ | ⟨t, rfl, _, _⟩
  · have hdeclaration := (Form.recognize?_eq_some_iff.1 hread).isDeclaration
    exact hasWholeRun_of_recognize? hread (endsPlain_before hc hdeclaration)
  · trivial

/-- **No comment above a declaration is lost.** The nodes of an accepted list have consecutive blocks
    that make up the list.  In front of the block of a declaration stands no comment, and its
    documentation is the whole run of comments at the start of the block.  The same holds of each field
    of a struct. -/
theorem outline_documentation {items : List Item} {source : Option (List Char)}
    (h : checkOrder items source = .ok ts) :
    ∃ entries : List (Node × List Token),
      Chain nextNode? ts entries [] ∧
      outline? items source = .ok (entries.map Prod.fst) ∧
      items = (entries.map Prod.snd).flatten.map Item.token ∧
      ∀ before node block after, entries = before ++ (node, block) :: after →
        node.HasWholeRun (before.map Prod.snd).flatten block (after.map Prod.snd).flatten := by
  obtain ⟨entries, hc, hnodes, hitems, _⟩ := outline_entries h
  refine ⟨entries, hc, hnodes, hitems, ?_⟩
  rintro before node block after rfl
  exact hasWholeRun_of_chain hc

/-- The tokens of a word, two comments and, behind them, a struct whose field has a comment of its
    own. -/
def commentedStructTokens : List Token :=
  [⟨.identifier, "mod", ⟨0, 3⟩⟩, ⟨.comment, "One.", ⟨4, 12⟩⟩, ⟨.comment, "Two.", ⟨13, 21⟩⟩,
    ⟨.identifier, "struct", ⟨22, 28⟩⟩, ⟨.identifier, "S", ⟨29, 30⟩⟩, ⟨.control, "\x7b", ⟨31, 32⟩⟩,
    ⟨.comment, "Three.", ⟨33, 43⟩⟩, ⟨.identifier, "a", ⟨44, 45⟩⟩, ⟨.control, ":", ⟨45, 46⟩⟩,
    ⟨.identifier, "u8", ⟨47, 49⟩⟩, ⟨.control, "\x7d", ⟨50, 51⟩⟩]

/-- The struct among them. -/
def commentedStruct : Struct where
  name := "S"
  fields := [⟨"a", "Three.", ⟨33, 51⟩⟩]
  docs := "One.Two."
  span := ⟨4, 51⟩

theorem chain_commentedStructTokens :
    Chain nextNode? commentedStructTokens
      [(.other ⟨.identifier, "mod", ⟨0, 3⟩⟩ ⟨0, 3⟩, commentedStructTokens.take 1),
        (.struct commentedStruct, commentedStructTokens.drop 1)] [] := by
  have hhead : structHead? (commentedStructTokens.drop 1) =
      some ("S", commentedStructTokens.drop 5) := by cbv
  have hfield : field? (commentedStructTokens.drop 6) =
      some (⟨"a", "Three.", ⟨33, 51⟩⟩, []) := by cbv
  have hnone : field? [] = none := by cbv
  have hfields : Chain field? (commentedStructTokens.drop 6)
      [(⟨"a", "Three.", ⟨33, 51⟩⟩, commentedStructTokens.drop 6)] [] :=
    .cons hfield rfl (by decide) (.done hnone)
  have hstruct : struct? (commentedStructTokens.drop 1) = some (commentedStruct, []) :=
    struct?_of_chain hhead rfl hfields
  have hfunction : function? (commentedStructTokens.drop 1) = none := by cbv
  have hother : nextNode? commentedStructTokens =
      some (.other ⟨.identifier, "mod", ⟨0, 3⟩⟩ ⟨0, 3⟩, commentedStructTokens.drop 1) := by cbv
  exact .cons hother rfl (by decide)
    (.cons (nextNode?_of_struct? hfunction hstruct) rfl (by decide) (.done rfl))

/-- Above the struct stand two comments, and both are its documentation.  Its field has the comment above
    it. -/
theorem outline_commentedStructTokens :
    checkOrder (commentedStructTokens.map .token) none = .ok commentedStructTokens ∧
    outline? (commentedStructTokens.map .token) none =
      .ok [.other ⟨.identifier, "mod", ⟨0, 3⟩⟩ ⟨0, 3⟩,
        .struct ⟨"S", [⟨"a", "Three.", ⟨33, 51⟩⟩], "One.Two.", ⟨4, 51⟩⟩] ∧
    (Node.struct commentedStruct).HasWholeRun (commentedStructTokens.take 1)
      (commentedStructTokens.drop 1) [] := by
  have horder : checkOrder (commentedStructTokens.map .token) none = .ok commentedStructTokens := rfl
  obtain ⟨entries, hc, _, _, hruns⟩ := outline_documentation horder
  obtain ⟨rfl, _⟩ := chain_commentedStructTokens.unique hc
  exact ⟨horder, outline?_of_chain horder chain_commentedStructTokens,
    hruns [(.other ⟨.identifier, "mod", ⟨0, 3⟩⟩ ⟨0, 3⟩, commentedStructTokens.take 1)] _ _ [] rfl⟩

end DocAudit
