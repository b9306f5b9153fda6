import DocAudit.Declaration.Outline
import DocAudit.Proofs.Token.Chain
import Mathlib.Data.List.Basic

namespace DocAudit

/-!
# An outline covers its tokens

Every node of an outline takes a block of consecutive tokens, and the blocks, one behind another, are
the token list: no token is lost, repeated or moved.

* `Occupies` — what a node has to do with its block: it spans it, and the fields of a struct have
  blocks of their own inside;
* `nextNode?`, `outline_chain` — the walk over the tokens, step by step;
* `occupies_of_nextNode?` — one step takes a block that its node occupies;
* `InOrder` — tokens in source order, and that just these pass the order check;
* `outline_partition` — hence the nodes of an accepted list partition it, in source order.
-/

open Reader Header

variable {ts us rest block : List Token} {node : Node}

/-! ### Blocks -/

/-- The span reaches from the start of the first token to the end of the last one. -/
def Span.Covers (s : Span) (block : List Token) : Prop :=
  ∃ first last, block.head? = some first ∧ block.getLast? = some last ∧
    s = ⟨first.span.start, last.span.stop⟩

/-- The node belongs to the block of tokens.  A token that was passed through is its own block.  A
    declaration spans its block, and the fields of a struct span consecutive blocks inside. -/
def Occupies : Node → List Token → Prop
  | .other t span, block => block = [t] ∧ span = t.span
  | .function f, block => f.span.Covers block
  | .named n, block => n.span.Covers block
  | .struct s, block => s.span.Covers block ∧
      ∃ (before after : List Token) (members : List (Field × List Token)),
        block = before ++ (members.map Prod.snd).flatten ++ after ∧
        members.map Prod.fst = s.fields ∧ ∀ m ∈ members, m.1.span.Covers m.2
  | .field _, _ => False
  | .blank _, _ => False

theorem covers_covering (h : block ≠ []) : (Span.covering block).Covers block := by
  refine ⟨block.head h, block.getLast h, List.head?_eq_some_head h, List.getLast?_eq_some_getLast h, ?_⟩
  simp [Span.covering, List.head?_eq_some_head h, List.getLast?_eq_some_getLast h]

theorem Occupies.covers (h : Occupies node block) : node.span.Covers block := by
  cases node with
  | other t span =>
    obtain ⟨rfl, rfl⟩ := h
    exact ⟨t, t, rfl, rfl, rfl⟩
  | function f => exact h
  | named n => exact h
  | struct s => exact h.1
  | field f => exact h.elim
  | blank span => exact h.elim

/-! ### One step of the walk -/

/-- What a form takes: its recognizer yields the declaration that is the node. -/
inductive Recognized (ts rest : List Token) : Form → Node → Prop where
  /-- A function signature. -/
  | function {f : Function} (h : function? ts = some (f, rest)) :
      Recognized ts rest .function (.function f)
  /-- A struct. -/
  | struct {s : Struct} (h : struct? ts = some (s, rest)) : Recognized ts rest .struct (.struct s)
  /-- An enumeration, a trait or a constant. -/
  | named {kind : NamedKind} {n : Named} (h : named? kind ts = some (n, rest)) :
      Recognized ts rest (.named kind) (.named n)

theorem Form.recognize?_eq_some_iff {form : Form} :
    form.recognize? ts = some (node, rest) ↔ Recognized ts rest form node := by
  constructor
  · intro h
    cases form with
    | function =>
      simp only [Form.recognize?, Option.map_eq_some_iff, Prod.mk.injEq, Prod.exists] at h
      obtain ⟨f, _, hf, rfl, rfl⟩ := h
      exact .function hf
    | struct =>
      simp only [Form.recognize?, Option.map_eq_some_iff, Prod.mk.injEq, Prod.exists] at h
      obtain ⟨s, _, hs, rfl, rfl⟩ := h
      exact .struct hs
    | named kind =>
      simp only [Form.recognize?, Option.map_eq_some_iff, Prod.mk.injEq, Prod.exists] at h
      obtain ⟨n, _, hn, rfl, rfl⟩ := h
      exact .named hn
  · rintro (h | h | h) <;> rw [Form.recognize?, h, Option.map_some]

theorem Recognized.isDeclaration {form : Form} (h : Recognized ts rest form node) :
    node.isDeclaration = true := by
  cases h <;> rfl

/-- The node at the front of a token list, and the tokens behind it: the first form of declaration
    that applies, or the first token. -/
def nextNode? : List Token → Option (Node × List Token)
  | [] => none
  | t :: more => some ((recognizeFirst? Form.order (t :: more)).getD (.other t t.span, more))

theorem behind_of_nextNode? (h : nextNode? ts = some (node, rest)) : Behind rest ts := by
  cases ts with
  | nil => cases h
  | cons t more =>
    rw [nextNode?, Option.some.injEq] at h
    cases hr : recognizeFirst? Form.order (t :: more) with
    | none =>
      rw [hr, Option.getD_none, Prod.mk.injEq] at h
      exact h.2 ▸ .tail t more
    | some found =>
      rw [hr, Option.getD_some] at h
      exact behind_of_recognizeFirst? (hr.trans (congrArg some h))

/-- A struct has the fields that a walk from behind its brace takes. -/
theorem struct?_of_chain {name : String} {o : Token} {inside last : List Token}
    {members : List (Field × List Token)} (hhead : structHead? ts = some (name, o :: inside))
    (ho : o.isControl "\x7b" = true) (hc : Chain field? inside members last) :
    struct? ts =
      some ({ name, fields := members.map Prod.fst, docs := docs ts,
              span := .covering (blockBefore ts (Reader.optional (control? "\x7d") last)) },
        Reader.optional (control? "\x7d") last) := by
  have hfields : fields inside = (members.map Prod.fst, last) := hc.many_eq behind_of_field?
  simp only [struct?, hhead, structBody, control?_cons, ho, hfields, if_true, Option.bind_eq_bind,
    Option.bind_some, Option.pure_def]

/-- A step of the walk takes the declaration of the first form that applies, or a token at which none
    does. -/
theorem nextNode?_eq_some_iff : nextNode? ts = some (node, rest) ↔
    recognizeFirst? Form.order ts = some (node, rest) ∨
      ∃ t, node = .other t t.span ∧ ts = t :: rest ∧ recognizeFirst? Form.order ts = none := by
  cases ts with
  | nil =>
    have hnone : recognizeFirst? Form.order [] = none := by
      cases hr : recognizeFirst? Form.order [] with
      | none => rfl
      | some found =>
        obtain ⟨front, hne, hnil⟩ := behind_of_recognizeFirst? hr
        exact absurd (List.append_eq_nil_iff.1 hnil.symm).1 hne
    simp [nextNode?, hnone]
  | cons t more =>
    rw [nextNode?, Option.some.injEq]
    cases recognizeFirst? Form.order (t :: more) with
    | none =>
      simp only [Option.getD_none, Prod.mk.injEq, reduceCtorEq, false_or, and_true]
      constructor
      · rintro ⟨rfl, rfl⟩
        exact ⟨t, rfl, rfl⟩
      · rintro ⟨u, rfl, heq⟩
        obtain ⟨rfl, rfl⟩ := List.cons.inj heq
        exact ⟨rfl, rfl⟩
    | some found => simp

/-- A struct is taken where there is no function: those are tried first. -/
theorem nextNode?_of_struct? {s : Struct} (hfunction : function? ts = none)
    (hstruct : struct? ts = some (s, rest)) : nextNode? ts = some (.struct s, rest) := by
  refine nextNode?_eq_some_iff.2 (.inl ?_)
  rw [recognizeFirst?, Form.order, List.findSome?_cons, Form.recognize?, hfunction,
    Option.map_none, List.findSome?_cons, Form.recognize?, hstruct]
  rfl

/-- A step of the walk takes a declaration of some form, or a token at which no form applies. -/
theorem nextNode?_cases (h : nextNode? ts = some (node, rest)) :
    (∃ form ∈ Form.order, form.recognize? ts = some (node, rest)) ∨
      ∃ t, node = .other t t.span ∧ ts = t :: rest ∧ recognizeFirst? Form.order ts = none :=
  (nextNode?_eq_some_iff.1 h).imp_left List.exists_of_findSome?_eq_some

@[simp] theorem outline_nil : outline [] = [] := by
  rw [outline, outlineInOrder]

theorem outline_of_nextNode? (h : nextNode? ts = some (node, rest)) :
    outline ts = node :: outline rest := by
  cases ts with
  | nil => cases h
  | cons t more =>
    rw [nextNode?, Option.some.injEq] at h
    rw [outline, outlineInOrder]
    split
    · rename_i hr
      rw [hr, Option.getD_some, Prod.mk.injEq] at h
      rw [h.1, h.2, outline]
    · rename_i hr
      rw [hr, Option.getD_none, Prod.mk.injEq] at h
      rw [h.1, ← h.2, outline]

/-- Where a form of declaration applies, its node comes first. -/
theorem outline_of_recognizeFirst? (h : recognizeFirst? Form.order ts = some (node, rest)) :
    outline ts = node :: outline rest := by
  obtain ⟨t, more, rfl⟩ : ∃ t more, ts = t :: more := by
    obtain ⟨front, hne, rfl⟩ := behind_of_recognizeFirst? h
    obtain ⟨t, more, rfl⟩ := List.exists_cons_of_ne_nil hne
    exact ⟨t, more ++ rest, rfl⟩
  exact outline_of_nextNode? (by rw [nextNode?, h, Option.getD_some])

/-- The walk ends at the end of the list and nowhere before. -/
theorem nextNode?_eq_none_iff : nextNode? ts = none ↔ ts = [] := by
  cases ts <;> simp [nextNode?]

/-- An outline is what the steps of the walk yield, one after another. -/
theorem outline_chain (ts : List Token) :
    ∃ entries, Chain nextNode? ts entries [] ∧ entries.map Prod.fst = outline ts := by
  induction hn : ts.length using Nat.strongRecOn generalizing ts with
  | ind n ih =>
    cases hs : nextNode? ts with
    | none =>
      obtain rfl := nextNode?_eq_none_iff.1 hs
      exact ⟨[], .done hs, by rw [outline_nil, List.map_nil]⟩
    | some found =>
      -- Every step takes a token, so the walk goes on over a shorter list.
      obtain ⟨node, us⟩ := found
      have hb : Behind us ts := behind_of_nextNode? hs
      obtain ⟨entries, hc, heq⟩ := ih us.length (hn ▸ hb.length_lt) us rfl
      rw [outline_of_nextNode? hs]
      obtain ⟨block, hne, rfl⟩ := hb
      exact ⟨(node, block) :: entries, .more hne hs hc, by rw [List.map_cons, heq]⟩

/-! ### Every step fills its block -/

theorem span_of_function? {f : Function} (h : function? (block ++ us) = some (f, us)) :
    f.span = .covering block := by
  simp only [function?, Option.bind_eq_bind, Option.bind_eq_some_iff, Option.pure_def,
    Option.some.injEq, Prod.mk.injEq, Prod.exists] at h
  obtain ⟨_, vs, _, rfl, hus⟩ := h
  rw [hus, blockBefore_append]

theorem span_of_named? {kind : NamedKind} {n : Named}
    (h : named? kind (block ++ us) = some (n, us)) : n.span = .covering block := by
  simp only [named?, Option.bind_eq_bind, Option.bind_eq_some_iff, Option.pure_def,
    Option.some.injEq, Prod.mk.injEq, Prod.exists] at h
  obtain ⟨vs, _, _, ws, _, rfl, rfl⟩ := h
  rw [blockBefore_append]

theorem span_of_field? {f : Field} (h : field? (block ++ us) = some (f, us)) :
    f.span = .covering block := by
  simp only [field?, Option.bind_eq_bind, Option.bind_eq_some_iff, Option.pure_def,
    Option.some.injEq, Prod.mk.injEq, Prod.exists] at h
  obtain ⟨_, vs, _, ws, _, xs, _, rfl, hus⟩ := h
  rw [hus, blockBefore_append]

/-- The fields in the body of a struct have consecutive blocks. -/
theorem structBody_members (ts : List Token) :
    ∃ (before after : List Token) (members : List (Field × List Token)),
      ts = before ++ (members.map Prod.snd).flatten ++ after ++ (structBody ts).2 ∧
      members.map Prod.fst = (structBody ts).1 ∧ ∀ m ∈ members, m.1.span.Covers m.2 := by
  unfold structBody
  split
  · exact ⟨[], [], [], rfl, rfl, by simp⟩
  · rename_i inside hb
    obtain ⟨brace, _, rfl⟩ := next?_eq_some_iff.1 hb
    obtain ⟨members, hc, heq⟩ := many_chain behind_of_field? inside
    have hspan : ∀ m ∈ members, m.1.span.Covers m.2 :=
      hc.forall_mem fun hne hr => span_of_field? hr ▸ covers_covering hne
    obtain ⟨after, hafter⟩ : optional (control? "\x7d") (fields inside).2 <:+ (fields inside).2 :=
      optional_isSuffix fun _ h => behind_of_next? h
    refine ⟨[brace], after, members, ?_, heq, hspan⟩
    show brace :: inside = [brace] ++ (members.map Prod.snd).flatten ++ after ++ _
    rw [List.append_assoc, hafter, List.append_assoc, fields, hc.flatten_append]
    rfl

theorem occupies_of_struct? {s : Struct} (hne : block ≠ [])
    (h : struct? (block ++ us) = some (s, us)) : Occupies (.struct s) block := by
  simp only [struct?, Option.bind_eq_bind, Option.bind_eq_some_iff, Option.pure_def,
    Option.some.injEq, Prod.mk.injEq, Prod.exists] at h
  obtain ⟨_, body, hh, rfl, hus⟩ := h
  rw [hus, blockBefore_append]
  refine ⟨covers_covering hne, ?_⟩
  obtain ⟨before, after, members, hbody, hfields, hspan⟩ := structBody_members body
  -- The head of the struct joins what stands in front of its fields.
  obtain ⟨front, _, hfront⟩ := behind_of_structHead? hh
  refine ⟨front ++ before, after, members, ?_, hfields, hspan⟩
  rw [hbody, hus, ← List.append_assoc, List.append_cancel_right_eq] at hfront
  rw [hfront]
  simp only [List.append_assoc]

theorem occupies_of_recognize? {form : Form} (hne : block ≠ [])
    (h : form.recognize? (block ++ us) = some (node, us)) : Occupies node block := by
  cases Form.recognize?_eq_some_iff.1 h with
  | @function f hf =>
    show f.span.Covers block
    rw [span_of_function? hf]
    exact covers_covering hne
  | struct hs => exact occupies_of_struct? hne hs
  | @named kind n hn =>
    show n.span.Covers block
    rw [span_of_named? hn]
    exact covers_covering hne

/-- **One step of the walk.** Whichever way the walk goes on, it takes a block that its node
    occupies. -/
theorem occupies_of_nextNode? (hne : block ≠ [])
    (h : nextNode? (block ++ us) = some (node, us)) : Occupies node block := by
  obtain ⟨t, more, rfl⟩ := List.exists_cons_of_ne_nil hne
  rw [List.cons_append, nextNode?, Option.some.injEq] at h
  cases hr : recognizeFirst? Form.order (t :: (more ++ us)) with
  | none =>
    -- No declaration starts here, so the block is the first token.
    rw [hr, Option.getD_none, Prod.mk.injEq] at h
    obtain ⟨rfl, hmore⟩ := h
    rw [List.append_left_eq_self] at hmore
    exact ⟨by rw [hmore], rfl⟩
  | some found =>
    rw [hr, Option.getD_some] at h
    rw [h] at hr
    obtain ⟨form, _, hf⟩ := List.exists_of_findSome?_eq_some hr
    exact occupies_of_recognize? hne hf

/-! ### Source order -/

/-- Each token ends where the next one starts or before, and none ends before it starts. -/
structure InOrder (ts : List Token) : Prop where
  /-- Tokens do not overlap. -/
  apart : ts.Pairwise fun t u => t.span.stop ≤ u.span.start
  /-- Tokens run forward. -/
  forward : ∀ t ∈ ts, t.span.start ≤ t.span.stop

/-- What passes the check is a list of tokens in source order. -/
theorem inOrder_of_checkOrderFrom {items : List Item} {previousEnd : Int}
    (h : checkOrderFrom previousEnd items = .ok ts) :
    items = ts.map Item.token ∧ (∀ t ∈ ts, previousEnd ≤ t.span.start) ∧ InOrder ts := by
  induction items generalizing previousEnd ts with
  | nil =>
    cases h
    exact ⟨rfl, by simp, .nil, by simp⟩
  | cons item items ih =>
    cases item with
    | foreign shape => cases h
    | token t =>
      rw [checkOrderFrom] at h
      split at h
      · cases h
      · rename_i hplace
        cases hr : checkOrderFrom t.span.stop items with
        | error fault =>
          rw [hr] at h
          cases h
        | ok us =>
          rw [hr] at h
          cases h
          obtain ⟨hitems, hstart, hus⟩ := ih hr
          refine ⟨by rw [hitems]; rfl, ?_, .cons hstart hus.apart, ?_⟩
          · intro u hu
            rcases List.mem_cons.1 hu with rfl | hu
            · omega
            · have := hstart u hu
              omega
          · intro u hu
            rcases List.mem_cons.1 hu with rfl | hu
            · omega
            · exact hus.forward u hu

theorem inOrder_of_checkOrder {items : List Item} {source : Option (List Char)}
    (h : checkOrder items source = .ok ts) : items = ts.map Item.token ∧ InOrder ts := by
  unfold checkOrder at h
  split at h
  · rename_i us hus
    cases h
    obtain ⟨hitems, _, horder⟩ := inOrder_of_checkOrderFrom hus
    exact ⟨hitems, horder⟩
  · split at h <;> cases h

theorem checkOrderFrom_of_inOrder {previousEnd : Int} (h : InOrder ts)
    (hstart : ∀ t ∈ ts, previousEnd ≤ t.span.start) :
    checkOrderFrom previousEnd (ts.map Item.token) = .ok ts := by
  induction ts generalizing previousEnd with
  | nil => rfl
  | cons t ts ih =>
    obtain ⟨hapart, hforward⟩ := h
    have hplace : ¬(t.span.start < previousEnd ∨ t.span.stop < t.span.start) := by
      have := hstart t (by simp)
      have := hforward t (by simp)
      omega
    have hrest : checkOrderFrom t.span.stop (ts.map Item.token) = .ok ts :=
      ih ⟨hapart.of_cons, fun u hu => hforward u (by simp [hu])⟩
        fun u hu => List.rel_of_pairwise_cons hapart hu
    rw [List.map_cons, checkOrderFrom, if_neg hplace, hrest]
    rfl

/-- Tokens in source order pass the check, if none starts in front of the text. -/
theorem checkOrder_of_inOrder (h : InOrder ts) (hstart : ∀ t ∈ ts, 0 ≤ t.span.start)
    (source : Option (List Char)) : checkOrder (ts.map Item.token) source = .ok ts := by
  rw [checkOrder, checkOrderFrom_of_inOrder h hstart]

/-- The nodes of an accepted list have consecutive blocks that make up the list, as the steps of the
    walk take them. -/
theorem outline_entries {items : List Item} {source : Option (List Char)}
    (h : checkOrder items source = .ok ts) :
    ∃ entries, Chain nextNode? ts entries [] ∧ outline? items source = .ok (entries.map Prod.fst) ∧
      items = (entries.map Prod.snd).flatten.map Item.token ∧
      (entries.map Prod.snd).flatten = ts := by
  obtain ⟨hitems, _⟩ := inOrder_of_checkOrder h
  obtain ⟨entries, hc, hnodes⟩ := outline_chain ts
  have hflat : (entries.map Prod.snd).flatten = ts := by
    rw [← hc.flatten_append, List.append_nil]
  exact ⟨entries, hc, by rw [outline?, h, hnodes]; rfl, by rw [hflat, hitems], hflat⟩

/-- The nodes of an accepted list are those of any walk over its tokens. -/
theorem outline?_of_chain {items : List Item} {source : Option (List Char)}
    {entries : List (Node × List Token)} (h : checkOrder items source = .ok ts)
    (hc : Chain nextNode? ts entries []) : outline? items source = .ok (entries.map Prod.fst) := by
  obtain ⟨found, hfound, hnodes, _⟩ := outline_entries h
  obtain ⟨rfl, _⟩ := hc.unique hfound
  exact hnodes

/-- Each node is what the step of the walk takes at its block. -/
theorem nextNode?_of_chain {before after : List (Node × List Token)}
    (h : Chain nextNode? ts (before ++ (node, block) :: after) []) :
    nextNode? (block ++ (after.map Prod.snd).flatten) =
      some (node, (after.map Prod.snd).flatten) := by
  have hstep := h.read?_append.2
  rwa [List.append_nil] at hstep

/-- A span over tokens in source order runs forward. -/
theorem Span.Covers.forward {s : Span} (h : s.Covers block) (horder : InOrder block) :
    s.start ≤ s.stop := by
  obtain ⟨first, last, hfirst, hlast, rfl⟩ := h
  show first.span.start ≤ last.span.stop
  cases block with
  | nil => cases hfirst
  | cons t more =>
    cases hfirst
    have ht := horder.forward first (by simp)
    rcases List.mem_cons.1 (List.mem_of_getLast? hlast) with rfl | hmem
    · exact ht
    · have hapart := List.rel_of_pairwise_cons horder.apart hmem
      have hl := horder.forward last (by simp [hmem])
      omega

/-- Spans over two blocks do not overlap if no tokens of the blocks do. -/
theorem Span.Covers.stop_le_start {s s' : Span} {block' : List Token} (h : s.Covers block)
    (h' : s'.Covers block') (hapart : ∀ t ∈ block, ∀ u ∈ block', t.span.stop ≤ u.span.start) :
    s.stop ≤ s'.start := by
  obtain ⟨_, last, _, hlast, rfl⟩ := h
  obtain ⟨first, _, hfirst, _, rfl⟩ := h'
  exact hapart last (List.mem_of_getLast? hlast) first (List.mem_of_head? hfirst)

/-- Cutting tokens in source order into blocks leaves each block in order, and earlier blocks in front
    of later ones. -/
theorem pairwise_blocks {entries : List (Node × List Token)}
    (h : InOrder (entries.map Prod.snd).flatten) :
    (∀ e ∈ entries, InOrder e.2) ∧
      entries.Pairwise fun d e => ∀ t ∈ d.2, ∀ u ∈ e.2, t.span.stop ≤ u.span.start := by
  obtain ⟨hapart, hforward⟩ := h
  rw [List.pairwise_flatten, List.pairwise_map] at hapart
  refine ⟨fun e he => ⟨hapart.1 e.2 (List.mem_map_of_mem he), fun t ht => ?_⟩, hapart.2⟩
  exact hforward t (List.mem_flatten_of_mem (List.mem_map_of_mem he) ht)

theorem Span.Covers.ne_nil {s : Span} (h : s.Covers block) : block ≠ [] := by
  rintro rfl
  obtain ⟨first, _, hfirst, _⟩ := h
  cases hfirst

/-- **An outline covers its tokens.** For every list that passes the order check the outline exists.
    Its nodes occupy blocks which, one behind another, are all tokens of the list.  Hence the spans of
    the nodes are in source order and do not overlap. -/
theorem outline_partition {items : List Item} {source : Option (List Char)} {ts : List Token}
    (h : checkOrder items source = .ok ts) :
    ∃ entries : List (Node × List Token),
      outline? items source = .ok (entries.map Prod.fst) ∧
      items = (entries.map Prod.snd).flatten.map Item.token ∧
      (∀ e ∈ entries, e.2 ≠ [] ∧ Occupies e.1 e.2) ∧
      entries.Pairwise (fun d e => d.1.span.stop ≤ e.1.span.start) ∧
      ∀ e ∈ entries, e.1.span.start ≤ e.1.span.stop := by
  obtain ⟨hitems, horder⟩ := inOrder_of_checkOrder h
  obtain ⟨entries, hc, hnodes⟩ := outline_chain ts
  have hflat : (entries.map Prod.snd).flatten = ts := by
    rw [← hc.flatten_append, List.append_nil]
  -- The order of the tokens carries over to the blocks, and from them to the spans.
  have hocc : ∀ e ∈ entries, Occupies e.1 e.2 := hc.forall_mem occupies_of_nextNode?
  obtain ⟨hblocks, hapart⟩ := pairwise_blocks (hflat ▸ horder)
  refine ⟨entries, ?_, by rw [hflat, hitems], ?_, ?_, ?_⟩
  · rw [outline?, h, hnodes]
    rfl
  · exact fun e he => ⟨(hocc e he).covers.ne_nil, hocc e he⟩
  · refine hapart.imp_of_mem fun hd he hde => ?_
    exact (hocc _ hd).covers.stop_le_start (hocc _ he).covers hde
  · exact fun e he => (hocc e he).covers.forward (hblocks e he)

/-- The tokens of `struct S { a: u8 } ;`, a struct with a field and a token behind it. -/
def structTokens : List Token :=
  [⟨.identifier, "struct", ⟨0, 6⟩⟩, ⟨.identifier, "S", ⟨7, 8⟩⟩, ⟨.control, "\x7b", ⟨9, 10⟩⟩,
    ⟨.identifier, "a", ⟨11, 12⟩⟩, ⟨.control, ":", ⟨12, 13⟩⟩, ⟨.identifier, "u8", ⟨14, 16⟩⟩,
    ⟨.control, "\x7d", ⟨17, 18⟩⟩, ⟨.other, ";", ⟨19, 20⟩⟩]

/-- The walk over these tokens takes the struct first, and then the semicolon. -/
theorem chain_structTokens :
    Chain nextNode? structTokens
      [(.struct ⟨"S", [⟨"a", "", ⟨11, 18⟩⟩], "", ⟨0, 18⟩⟩, structTokens.take 7),
        (.other ⟨.other, ";", ⟨19, 20⟩⟩ ⟨19, 20⟩, structTokens.drop 7)] [] := by
  have hhead : structHead? structTokens = some ("S", structTokens.drop 2) := by cbv
  have hfield : field? (structTokens.drop 3) = some (⟨"a", "", ⟨11, 18⟩⟩, structTokens.drop 7) := by
    cbv
  have hnone : field? (structTokens.drop 7) = none := by cbv
  have hfields : Chain field? (structTokens.drop 3)
      [(⟨"a", "", ⟨11, 18⟩⟩, (structTokens.take 7).drop 3)] (structTokens.drop 7) :=
    .cons hfield rfl (by decide) (.done hnone)
  have hstruct : struct? structTokens =
      some (⟨"S", [⟨"a", "", ⟨11, 18⟩⟩], "", ⟨0, 18⟩⟩, structTokens.drop 7) :=
    struct?_of_chain hhead rfl hfields
  have hfunction : function? structTokens = none := by cbv
  have hother : nextNode? (structTokens.drop 7) =
      some (.other ⟨.other, ";", ⟨19, 20⟩⟩ ⟨19, 20⟩, []) := by cbv
  exact .cons (nextNode?_of_struct? hfunction hstruct) rfl (by decide)
    (.cons hother rfl (by decide) (.done rfl))

/-- The struct takes the tokens through its brace, and the semicolon is a node of its own. -/
theorem outline_structTokens :
    checkOrder (structTokens.map .token) none = .ok structTokens ∧
    outline? (structTokens.map .token) none =
      .ok [.struct ⟨"S", [⟨"a", "", ⟨11, 18⟩⟩], "", ⟨0, 18⟩⟩, .other ⟨.other, ";", ⟨19, 20⟩⟩ ⟨19, 20⟩] ∧
    Occupies (.struct ⟨"S", [⟨"a", "", ⟨11, 18⟩⟩], "", ⟨0, 18⟩⟩) (structTokens.take 7) ∧
    Occupies (.other ⟨.other, ";", ⟨19, 20⟩⟩ ⟨19, 20⟩) (structTokens.drop 7) := by
  have horder : checkOrder (structTokens.map .token) none = .ok structTokens := rfl
  have houtline := outline?_of_chain horder chain_structTokens
  obtain ⟨entries, hnodes, hitems, hoccupies, _⟩ := outline_partition horder
  rw [houtline] at hnodes
  obtain ⟨⟨node, block⟩, entries, rfl, hnode, hentries⟩ :=
    List.map_eq_cons_iff.1 (Except.ok.inj hnodes).symm
  obtain ⟨⟨node', block'⟩, entries, rfl, hnode', hentries⟩ := List.map_eq_cons_iff.1 hentries
  obtain rfl := List.map_eq_nil_iff.1 hentries
  obtain rfl : node = _ := hnode
  obtain rfl : node' = _ := hnode'
  have hstruct := (hoccupies _ List.mem_cons_self).2
  have hother := (hoccupies _ (List.mem_cons_of_mem _ List.mem_cons_self)).2
  -- The semicolon is its own block, so the struct has all the tokens in front of it.
  obtain rfl : block' = structTokens.drop 7 := hother.1
  have htokens : structTokens = block ++ structTokens.drop 7 := by
    simpa using (List.map_inj_right fun _ _ => Item.token.inj).1 hitems
  obtain rfl : structTokens.take 7 = block :=
    List.append_cancel_right ((List.take_append_drop 7 _).trans htokens)
  exact ⟨horder, houtline, hstruct, hother⟩

end DocAudit
