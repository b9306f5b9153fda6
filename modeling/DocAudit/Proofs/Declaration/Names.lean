import DocAudit.Proofs.Declaration.Parts
import DocAudit.Proofs.Outline.Coverage

namespace DocAudit

/-!
# Names come from the tokens

Whatever an outline names stands among the tokens as a word.

* `Reader.Chain.exists_block` — each entry of a loop is read somewhere in the list;
* `IsNameIn` — a word of a token list;
* `isNameIn_of_parameter?`, `isNameIn_of_field?` — parameters and fields are named by words;
* `Node.MadeOf`, `madeOf_of_mem_outline` — so are the declarations of an outline.
-/

open Reader Header

variable {ts us rest block front comments : List Token} {node : Node} {name : String}

/-- Each entry of a chain is read from its block, which stands in the list. -/
theorem Reader.Chain.exists_block {α : Type} {read? : List Token → Option (α × List Token)}
    {entries : List (α × List Token)} {a : α} (h : Chain read? ts entries rest)
    (he : (a, block) ∈ entries) :
    ∃ before us, ts = before ++ (block ++ us) ∧ read? (block ++ us) = some (a, us) := by
  obtain ⟨before, after, rfl⟩ := List.append_of_mem he
  refine ⟨(before.map Prod.snd).flatten, (after.map Prod.snd).flatten ++ rest, ?_, h.read?_append.2⟩
  rw [← h.flatten_append]
  simp

/-! ### Words -/

/-- The name is a word of the token list. -/
def IsNameIn (ts : List Token) (name : String) : Prop :=
  ∃ t ∈ ts, t.isIdentifier = true ∧ t.text = name

theorem IsNameIn.mono (h : IsNameIn us name) (hs : us ⊆ ts) : IsNameIn ts name := by
  obtain ⟨t, ht, hn⟩ := h
  exact ⟨t, hs ht, hn⟩

theorem isNameIn_of_word? (h : word? ts = some (name, rest)) : IsNameIn ts name := by
  obtain ⟨t, ht, htext, rfl⟩ := word?_eq_some_iff.1 h
  exact ⟨t, List.mem_cons_self, ht, htext⟩

/-- A parameter is named by a word, unless it is a receiver. -/
theorem isNameIn_of_parameter? (h : parameter? ts = some (name, rest)) :
    name = receiverName ∨ IsNameIn ts name := by
  rw [parameter?] at h
  split at h
  · cases h
    exact .inl rfl
  · simp only [Option.bind_eq_bind, Option.bind_eq_some_iff, Option.pure_def, Option.some.injEq,
      Prod.mk.injEq, Prod.exists] at h
    obtain ⟨_, _, hw, _, _, _, _, rfl, _⟩ := h
    exact .inr ((isNameIn_of_word? hw).mono (skipWord_isSuffix "mut" ts).subset)

theorem isNameIn_of_field? {f : Field} (h : field? ts = some (f, rest)) : IsNameIn ts f.name := by
  simp only [field?, Option.bind_eq_bind, Option.bind_eq_some_iff, Option.pure_def,
    Option.some.injEq, Prod.mk.injEq, Prod.exists] at h
  obtain ⟨_, _, hw, _, _, _, _, rfl, _⟩ := h
  exact (isNameIn_of_word? hw).mono (skipOpening_isSuffix ts).subset

theorem SignatureStart.isNameIn (h : SignatureStart name comments front) : IsNameIn front name := by
  obtain @⟨_, qs, generics, k, n, o, _, _, _, hn, _, _⟩ := h
  exact ⟨n, by simp, hn, rfl⟩

theorem StructStart.isNameIn (h : StructStart name comments front) : IsNameIn front name := by
  obtain @⟨_, opening, generics, k, n, _, _, hn, _⟩ := h
  exact ⟨n, by simp, hn, rfl⟩

theorem NamedStart.isNameIn {kind : NamedKind} (h : NamedStart kind name comments front) :
    IsNameIn front name := by
  obtain @⟨_, as, v, k, n, _, _, _, _, _, hn⟩ := h
  exact ⟨n, by simp, hn, rfl⟩

/-! ### Declarations -/

/-- The node is made of the tokens: a declaration and its parts are named by words of the list, and a
    token that was passed through belongs to it. -/
def Node.MadeOf (ts : List Token) : Node → Prop
  | .other t _ => t ∈ ts
  | .function f => IsNameIn ts f.name ∧ ∀ a ∈ f.arguments, a = receiverName ∨ IsNameIn ts a
  | .struct s => IsNameIn ts s.name ∧ ∀ f ∈ s.fields, IsNameIn ts f.name
  | .named d => IsNameIn ts d.name
  | .field _ => False
  | .blank _ => False

theorem madeOf_of_function? {f : Function} (h : function? (block ++ us) = some (f, us)) :
    (Node.function f).MadeOf (block ++ us) := by
  obtain ⟨comments, front, members, closing, arrow, hstart, hc, hnames, _, _, _, _, rfl⟩ :=
    function?_parts h
  refine ⟨hstart.isNameIn.mono (by simp), fun a ha => ?_⟩
  rw [← hnames] at ha
  obtain ⟨⟨a, inside⟩, hmem, rfl⟩ := List.mem_map.1 ha
  obtain ⟨before, vs, heq, hread⟩ := hc.exists_block hmem
  refine (isNameIn_of_parameter? hread).imp_right fun hn => hn.mono ?_
  rw [List.append_assoc, List.append_assoc, List.append_assoc, heq]
  intro t ht
  simp only [List.mem_append] at ht ⊢
  exact .inr (.inr ht)

theorem madeOf_of_struct? {s : Struct} (h : struct? (block ++ us) = some (s, us)) :
    (Node.struct s).MadeOf (block ++ us) := by
  obtain ⟨comments, front, o, hstart, _, ⟨_, hfields, rfl, _⟩ | ⟨_, members, closing, hc, hfields, _, rfl⟩⟩ :=
    struct?_parts h
  · exact ⟨hstart.isNameIn.mono (by simp), by simp [hfields]⟩
  · refine ⟨hstart.isNameIn.mono (by simp), fun f hf => ?_⟩
    rw [← hfields] at hf
    obtain ⟨⟨f, inside⟩, hmem, rfl⟩ := List.mem_map.1 hf
    obtain ⟨before, vs, heq, hread⟩ := hc.exists_block hmem
    refine (isNameIn_of_field? hread).mono ?_
    rw [List.append_assoc, List.cons_append, List.append_assoc, heq]
    intro t ht
    simp only [List.mem_append, List.mem_cons] at ht ⊢
    exact .inr (.inr (.inr ht))

theorem madeOf_of_named? {kind : NamedKind} {d : Named}
    (h : named? kind (block ++ us) = some (d, us)) : (Node.named d).MadeOf (block ++ us) := by
  obtain ⟨name, comments, front, hstart, rfl, heq⟩ := named?_eq_some_iff.1 h
  rw [heq]
  exact hstart.isNameIn.mono (by simp)

/-- What a step of the walk yields is made of the tokens. -/
theorem madeOf_of_nextNode? (h : nextNode? (block ++ us) = some (node, us)) :
    node.MadeOf (block ++ us) := by
  rcases nextNode?_cases h with ⟨form, _, hread⟩ | ⟨t, rfl, heq, _⟩
  · cases Form.recognize?_eq_some_iff.1 hread with
    | function hf => exact madeOf_of_function? hf
    | struct hs => exact madeOf_of_struct? hs
    | named hd => exact madeOf_of_named? hd
  · rw [heq]
    exact List.mem_cons_self

theorem Node.MadeOf.mono (h : node.MadeOf us) (hs : us ⊆ ts) : node.MadeOf ts := by
  cases node with
  | other t span => exact hs h
  | function f => exact ⟨h.1.mono hs, fun a ha => (h.2 a ha).imp_right fun hn => hn.mono hs⟩
  | struct s => exact ⟨h.1.mono hs, fun f hf => (h.2 f hf).mono hs⟩
  | named d => exact IsNameIn.mono h hs
  | field f => exact h
  | blank span => exact h

/-- **The nodes of an outline are made of the tokens.** -/
theorem madeOf_of_mem_outline (h : node ∈ outline ts) : node.MadeOf ts := by
  obtain ⟨entries, hc, hnodes⟩ := outline_chain ts
  rw [← hnodes] at h
  obtain ⟨⟨node, block⟩, hmem, rfl⟩ := List.mem_map.1 h
  obtain ⟨before, us, rfl, hstep⟩ := hc.exists_block hmem
  exact (madeOf_of_nextNode? hstep).mono (List.subset_append_right before _)

end DocAudit
