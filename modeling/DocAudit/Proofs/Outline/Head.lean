import DocAudit.Proofs.Audit.Verdict
import DocAudit.Proofs.Declaration.Starts
import DocAudit.Proofs.Outline.Coverage
import DocAudit.Proofs.Token.Balanced

namespace DocAudit

/-!
# Where the head of a declaration ends

Between the name of a function and its arguments, or the name of a struct and its body, may stand generic
parameters and bounds.  The head ends at the first parenthesis, or at the first brace or semicolon,
behind the name, whatever brackets that one stands in.

* `Generics` — the generic parameters right behind a name, found by counting angle brackets;
* `FirstOutside` — the first token of a class that does not stand in them;
* `EndsHead` — the first token of a class behind a name, and how it lies to the generic parameters;
* `outline_head` — the heads of all functions and structs end that way, and what is recorded is read
  from there on.

So generic parameters are passed over only if no token that ends a head stands in them.  Where a bound
has a parenthesis, the arguments are read from behind that one.
-/

open Reader Header

variable {ts us vs between inside block : List Token} {o : Token} {p : Token → Bool} {node : Node}

/-! ### Generic parameters -/

/-- Generic parameters: an angle bracket and everything through the one that closes it. -/
inductive Generics : List Token → Prop where
  /-- The bracket, what stands inside, and the bracket that matches. -/
  | mk {a c : Token} {within : List Token} (ha : a.isControl "<" = true)
      (hc : Encloses "<" ">" within c) : Generics (a :: (within ++ [c]))

/-- At one place there is at most one list of generic parameters. -/
theorem Generics.unique (h : Generics us) (h' : Generics vs) (hus : us <+: ts) (hvs : vs <+: ts) :
    us = vs := by
  obtain @⟨a, c, within, _, hc⟩ := h
  obtain @⟨a', c', within', _, hc'⟩ := h'
  obtain ⟨rest, rfl⟩ := hus
  obtain ⟨rest', heq⟩ := hvs
  simp only [List.cons_append, List.append_assoc, List.nil_append, List.cons.injEq] at heq
  obtain ⟨rfl, heq⟩ := heq
  obtain ⟨rfl, rfl, _⟩ := hc.unique hc' (by decide) heq
  rfl

/-- No token of the class stands in generic parameters at the front of the list. -/
def GenericsWithout (p : Token → Bool) (ts : List Token) : Prop :=
  ∀ generics, Generics generics → generics <+: ts → ∀ t ∈ generics, p t = false

/-- Of the tokens behind a name, `o` is the first one of the class that lies outside of the generic
    parameters right behind the name, if there are any. -/
def FirstOutside (p : Token → Bool) (between : List Token) (o : Token) (inside : List Token) : Prop :=
  p o = true ∧ ∃ generics more, between = generics ++ more ∧ (∀ t ∈ more, p t = false) ∧
    (Generics generics ∨
      generics = [] ∧ ∀ front, front <+: between ++ o :: inside → ¬ Generics front)

/-! ### The end of a head -/

/-- The token `o` is the first one of the class behind a name. -/
structure EndsHead (p : Token → Bool) (between : List Token) (o : Token) (inside : List Token) :
    Prop where
  /-- In front of it there is none. -/
  before : ∀ t ∈ between, p t = false
  /-- It belongs to the class. -/
  stop : p o = true
  /-- It is the first one outside of the generic parameters just where these hold none. -/
  outside_iff : FirstOutside p between o inside ↔ GenericsWithout p (between ++ o :: inside)
  /-- Where they hold one, it stands in them. -/
  within : ∀ generics, Generics generics → generics <+: between ++ o :: inside →
    (∃ t ∈ generics, p t = true) → between ++ [o] <+: generics

/-- A front of the tokens behind a name stops in front of the end of the head, or goes through it. -/
theorem prefix_or_concat_prefix (hus : us <+: between ++ o :: inside) :
    us <+: between ∨ between ++ [o] <+: us := by
  have hfront : between ++ [o] <+: between ++ o :: inside := ⟨inside, by simp⟩
  rcases List.prefix_or_prefix_of_prefix hfront hus with hpre | hpre
  · exact .inr hpre
  · rcases List.prefix_concat_iff.1 hpre with rfl | hpre
    · exact .inr (List.prefix_refl _)
    · exact .inl hpre

/-- **The head ends outside of the generic parameters just where these hold no token of the class.** -/
theorem firstOutside_iff (hbefore : ∀ t ∈ between, p t = false) (hstop : p o = true) :
    FirstOutside p between o inside ↔ GenericsWithout p (between ++ o :: inside) := by
  constructor
  · rintro ⟨_, generics, more, rfl, _, hgenerics | ⟨_, hnone⟩⟩ us hus hpre t ht
    · have hfront : generics <+: generics ++ more ++ o :: inside := ⟨more ++ o :: inside, by simp⟩
      obtain rfl : us = generics := hus.unique hgenerics hpre hfront
      exact hbefore t (List.mem_append_left more ht)
    · exact absurd hus (hnone us hpre)
  · intro hwithout
    by_cases hex : ∃ generics, Generics generics ∧ generics <+: between ++ o :: inside
    · obtain ⟨generics, hgenerics, hpre⟩ := hex
      rcases prefix_or_concat_prefix hpre with ⟨more, rfl⟩ | hthrough
      · exact ⟨hstop, generics, more, rfl, fun t ht => hbefore t (List.mem_append_right _ ht),
          .inl hgenerics⟩
      · -- They do not go through the end of the head, which is in the class.
        have hnot := hwithout generics hgenerics hpre o (hthrough.subset (by simp))
        rw [hstop] at hnot
        cases hnot
    · refine ⟨hstop, [], between, rfl, hbefore, .inr ⟨rfl, fun front hfront hgenerics => ?_⟩⟩
      exact hex ⟨front, hgenerics, hfront⟩

theorem endsHead_of_forall (hbefore : ∀ t ∈ between, p t = false) (hstop : p o = true) :
    EndsHead p between o inside where
  before := hbefore
  stop := hstop
  outside_iff := firstOutside_iff hbefore hstop
  within generics _ hpre hmem := by
    rcases prefix_or_concat_prefix hpre with hfront | hthrough
    · obtain ⟨t, ht, hp⟩ := hmem
      rw [hbefore t (hfront.subset ht)] at hp
      cases hp
    · exact hthrough

/-! ### Functions and structs -/

/-- The head of the function: comments, qualifiers, `fn`, the name and everything up to the first
    parenthesis.  The arguments are the ones that are read from behind that parenthesis. -/
def Function.HasHead (f : Function) (ts : List Token) : Prop :=
  ∃ comments qualifiers k n between o inside,
    ts = comments ++ (qualifiers ++ k :: n :: (between ++ o :: inside)) ∧
    (∀ t ∈ comments, t.isComment = true) ∧ Qualifiers qualifiers ∧ k.isKeyword "fn" = true ∧
    n.isIdentifier = true ∧ n.text = f.name ∧ EndsHead (·.isControl "(") between o inside ∧
    f.arguments = (parameters inside).1

/-- The head of the struct: an opening, `struct`, the name and everything up to the first brace or
    semicolon.  The fields are the ones that are read from behind the brace. -/
def Struct.HasHead (s : Struct) (ts : List Token) : Prop :=
  ∃ comments opening k n between o inside,
    ts = opening ++ k :: n :: (between ++ o :: inside) ∧ Opening comments opening ∧
    k.isKeyword "struct" = true ∧ n.isIdentifier = true ∧ n.text = s.name ∧
    EndsHead endsStructHead between o inside ∧
    (o.isControl "\x7b" = true → s.fields = (DocAudit.fields inside).1) ∧
    (o.isOther ";" = true → s.fields = [])

/-- A function or a struct has its head at the front of the list. -/
def Node.HasHead : Node → List Token → Prop
  | .function f, ts => f.HasHead ts
  | .struct s, ts => s.HasHead ts
  | _, _ => True

theorem hasHead_of_function? {f : Function} (h : function? ts = some (f, us)) : f.HasHead ts := by
  simp only [function?, Option.bind_eq_bind, Option.bind_eq_some_iff, Option.pure_def,
    Option.some.injEq, Prod.mk.injEq, Prod.exists] at h
  obtain ⟨_, inside, hsignature, rfl, _⟩ := h
  obtain ⟨comments, _, hstart, rfl⟩ := signature?_eq_some_iff.1 hsignature
  obtain @⟨_, qualifiers, between, k, n, o, hcomments, hqualifiers, hk, hn, hbetween, ho⟩ := hstart
  exact ⟨comments, qualifiers, k, n, between, o, inside, by simp, hcomments, hqualifiers, hk, hn, rfl,
    endsHead_of_forall hbetween ho, rfl⟩

theorem hasHead_of_struct? {s : Struct} (h : struct? ts = some (s, us)) : s.HasHead ts := by
  simp only [struct?, Option.bind_eq_bind, Option.bind_eq_some_iff, Option.pure_def,
    Option.some.injEq, Prod.mk.injEq, Prod.exists] at h
  obtain ⟨_, _, hhead, rfl, _⟩ := h
  obtain ⟨comments, _, o, inside, hstart, ho, rfl, rfl⟩ := structHead?_eq_some_iff.1 hhead
  obtain @⟨_, opening, between, k, n, hopening, hk, hn, hbetween⟩ := hstart
  refine ⟨comments, opening, k, n, between, o, inside, by simp, hopening, hk, hn, rfl,
    endsHead_of_forall hbetween ho, fun hbrace => ?_, fun hsemicolon => ?_⟩
  · show (structBody (o :: inside)).1 = _
    rw [structBody, control?_cons, if_pos hbrace]
  · have hbrace : ¬ o.isControl "\x7b" = true := by grind
    show (structBody (o :: inside)).1 = _
    rw [structBody, control?_cons, if_neg hbrace]

/-! ### Outlines -/

theorem hasHead_of_nextNode? (h : nextNode? ts = some (node, us)) : node.HasHead ts := by
  rcases nextNode?_cases h with ⟨form, _, hread⟩ | ⟨t, rfl, _, _⟩
  · cases Form.recognize?_eq_some_iff.1 hread with
    | function hf => exact hasHead_of_function? hf
    | struct hs => exact hasHead_of_struct? hs
    | named _ => trivial
  · trivial

/-- **A head ends at the first token that may end one.** The nodes of an accepted list have consecutive
    blocks that make up the list, and each function and each struct has its head at the start of its
    block.  That token is the first one outside of the generic parameters behind the name just where
    these hold none; else it stands in them. -/
theorem outline_head {items : List Item} {source : Option (List Char)}
    (h : checkOrder items source = .ok ts) :
    ∃ entries : List (Node × List Token),
      Chain nextNode? ts entries [] ∧
      outline? items source = .ok (entries.map Prod.fst) ∧
      items = (entries.map Prod.snd).flatten.map Item.token ∧
      ∀ before node block after, entries = before ++ (node, block) :: after →
        node.HasHead (block ++ (after.map Prod.snd).flatten) := by
  obtain ⟨entries, hc, hnodes, hitems, _⟩ := outline_entries h
  refine ⟨entries, hc, hnodes, hitems, ?_⟩
  rintro before node block after rfl
  exact hasHead_of_nextNode? (nextNode?_of_chain hc)

/-! ### A parenthesis in a bound -/

/-- The text of a function whose generic parameter is bounded by a function type. -/
def boundText : List Char :=
  "fn f<F: Fn() -> u8>(g: F)".toList

/-- Its tokens. -/
def boundTokens : List Token :=
  [⟨.identifier, "fn", ⟨0, 2⟩⟩, ⟨.identifier, "f", ⟨3, 4⟩⟩, ⟨.control, "<", ⟨4, 5⟩⟩,
    ⟨.identifier, "F", ⟨5, 6⟩⟩, ⟨.control, ":", ⟨6, 7⟩⟩, ⟨.identifier, "Fn", ⟨8, 10⟩⟩,
    ⟨.control, "(", ⟨10, 11⟩⟩, ⟨.control, ")", ⟨11, 12⟩⟩, ⟨.operator, "->", ⟨13, 15⟩⟩,
    ⟨.identifier, "u8", ⟨16, 18⟩⟩, ⟨.control, ">", ⟨18, 19⟩⟩, ⟨.control, "(", ⟨19, 20⟩⟩,
    ⟨.identifier, "g", ⟨20, 21⟩⟩, ⟨.control, ":", ⟨21, 22⟩⟩, ⟨.identifier, "F", ⟨23, 24⟩⟩,
    ⟨.control, ")", ⟨24, 25⟩⟩]

/-- What is taken for the function: no argument, and a return type. -/
def boundFunction : Function where
  name := "f"
  arguments := []
  returnsNothing := false
  docs := ""
  span := ⟨0, 15⟩

theorem nextNode?_boundTokens :
    nextNode? boundTokens = some (.function boundFunction, boundTokens.drop 9) := by
  cbv

/-- The function that is taken has its head at the front of these tokens, and its block goes through the
    arrow. -/
theorem outline_boundTokens :
    checkOrder (boundTokens.map .token) none = .ok boundTokens ∧
    (∃ nodes, outline? (boundTokens.map .token) none = .ok (.function boundFunction :: nodes)) ∧
    (∃ entries, Chain nextNode? boundTokens
      ((.function boundFunction, boundTokens.take 9) :: entries) []) ∧
    boundFunction.HasHead boundTokens := by
  have horder : checkOrder (boundTokens.map .token) none = .ok boundTokens := rfl
  obtain ⟨entries, hc, hnodes, _, hheads⟩ := outline_head horder
  obtain ⟨block, more, rfl, hblock, hmore⟩ := hc.of_eq_some nextNode?_boundTokens
  obtain rfl : boundTokens.take 9 = block :=
    List.append_cancel_right ((List.take_append_drop 9 _).trans hblock)
  have hhead := hheads [] _ _ more rfl
  have hbehind := hmore.flatten_append
  rw [List.append_nil] at hbehind
  rw [hbehind, ← hblock] at hhead
  exact ⟨horder, ⟨_, hnodes⟩, ⟨more, hc⟩, hhead⟩

/-- The generic parameters `<F: Fn() -> u8>`. -/
theorem generics_boundTokens : Generics ((boundTokens.drop 2).take 9) := by
  have hcloses : Encloses "<" ">" ((boundTokens.drop 3).take 7) ⟨.control, ">", ⟨18, 19⟩⟩ :=
    ⟨balanced_of_forall (by decide), rfl⟩
  exact .mk (a := ⟨.control, "<", ⟨4, 5⟩⟩) rfl hcloses

/-- The head of that function ends at the parenthesis in the bound: from there no argument is read, and
    the arrow of the bound counts as that of the function.  The first parenthesis outside of the generic
    parameters is another one, and behind that stands the argument `g`. -/
theorem parenthesis_in_bound_ends_head :
    tokenize true boundText = .ok boundTokens ∧
    ∃ (k n o o' : Token) (between between' inside inside' : List Token) (f : Function)
      (nodes : List Node),
      boundTokens = k :: n :: (between ++ o :: inside) ∧
      boundTokens = k :: n :: (between' ++ o' :: inside') ∧
      outlineOfSource? boundText = .ok (.function f :: nodes) ∧
      signature? boundTokens = some (f.name, inside) ∧
      f.arguments = [] ∧ f.returnsNothing = false ∧
      ¬ FirstOutside (·.isControl "(") between o inside ∧
      FirstOutside (·.isControl "(") between' o' inside' ∧
      (parameters inside').1 = ["g"] := by
  have htokens : tokenize true boundText = .ok boundTokens := by cbv
  have houtline := outlineOfSource?_of_tokenize htokens
  rw [outline_of_nextNode? nextNode?_boundTokens] at houtline
  have hbefore : ∀ t ∈ (boundTokens.drop 2).take 4, t.isControl "(" = false := by decide
  have harguments : (parameters (boundTokens.drop 12)).1 = ["g"] := by
    have hargument : parameter? (boundTokens.drop 12) = some ("g", []) := by cbv
    have hend : parameter? [] = none := by cbv
    rw [parameters, many_of_some hargument, many_of_none hend]
  refine ⟨htokens, ⟨.identifier, "fn", ⟨0, 2⟩⟩, ⟨.identifier, "f", ⟨3, 4⟩⟩,
    ⟨.control, "(", ⟨10, 11⟩⟩, ⟨.control, "(", ⟨19, 20⟩⟩, (boundTokens.drop 2).take 4,
    (boundTokens.drop 2).take 9, boundTokens.drop 7, boundTokens.drop 12, _, _, rfl, rfl, houtline,
    by cbv, rfl, rfl, ?_, ?_, harguments⟩
  · -- The generic parameters hold the parenthesis of the bound.
    rw [firstOutside_iff hbefore rfl]
    intro hwithout
    exact absurd (hwithout _ generics_boundTokens ⟨boundTokens.drop 11, rfl⟩
      ⟨.control, "(", ⟨10, 11⟩⟩ (by decide)) (by decide)
  · exact ⟨rfl, _, [], (List.append_nil _).symm, by simp, .inl generics_boundTokens⟩

end DocAudit
