import DocAudit.Proofs.Declaration.Signature
import DocAudit.Proofs.Declaration.Struct
import DocAudit.Proofs.TypeExpr.Nesting
import Mathlib.Data.List.Basic

namespace DocAudit

/-!
# Entries inside their brackets

A loop that reads the entries of a bracketed list, from behind the opener, need not stop at the
matching closer: the last entry may take it along and the loop goes on.

* `EntryBlock` — what an entry takes: balanced tokens, and perhaps the delimiter that ends it;
* `parameter?_block`, `field?_block` — the tokens that a parameter and a field take;
* `parameter?_entryBlock`, `field?_entryBlock` — parameters and fields are such entries, a field if
  the braces in front of its name are balanced;
* `Chain.balanced_or_closed` — the loop ends with balanced brackets or right behind the matching closer,
  unless an entry takes that closer and another one is read behind it;
* `Chain.entries_inside`, `Chain.closed_inside` — so neither the entries reach beyond that closer nor,
  with the closer that may be taken behind them, the list.
-/

open Reader Header

variable {opener closer : String} {block ts us : List Token}

/-! ### One entry -/

/-- Balanced tokens, and perhaps the delimiter that ends the entry. -/
inductive EntryBlock (opener closer : String) : List Token → Prop where
  /-- An entry without its end. -/
  | unended {ts : List Token} (h : Balanced opener closer ts) : EntryBlock opener closer ts
  /-- An entry through its end. -/
  | ended {ts : List Token} {t : Token} (h : Balanced opener closer ts) (ht : EndsEntry closer t) :
      EntryBlock opener closer (ts ++ [t])

/-- The end of an entry is nothing, or the delimiter that ends it. -/
theorem skipEntryEnd_sound (closer : String) (ts : List Token) :
    ∃ ending, (ending = [] ∨ ∃ t, EndsEntry closer t ∧ ending = [t]) ∧
      ts = ending ++ skipEntryEnd closer ts := by
  unfold skipEntryEnd
  split
  · rename_i rest h
    obtain ⟨t, ht, rfl⟩ := next?_eq_some_iff.1 h
    exact ⟨[t], .inr ⟨t, .inl ht, rfl⟩, rfl⟩
  · obtain ⟨ending, he, hts⟩ := (Takes.next (·.isControl closer)).optional_sound ts
    refine ⟨ending, ?_, hts⟩
    rcases he with ⟨rfl, _⟩ | ⟨t, ht, rfl⟩
    · exact .inl rfl
    · exact .inr ⟨t, .inr ht, rfl⟩

theorem entryBlock_append {ending : List Token} (h : Balanced opener closer ts)
    (he : ending = [] ∨ ∃ t, EndsEntry closer t ∧ ending = [t]) :
    EntryBlock opener closer (ts ++ ending) := by
  rcases he with rfl | ⟨t, ht, rfl⟩
  · rw [List.append_nil]
    exact .unended h
  · exact .ended h ht

/-! ### Parameters and fields -/

/-- A name with its type, as parameters and fields have it: the name, a colon, the type, and the end of
    the entry. -/
theorem typed_sound {name : String} {rest rest' rest'' : List Token}
    (rn : word? ts = some (name, rest)) (rc : control? ":" rest = some rest')
    (rt : TypeExpr.type? rest' = some rest'') (hus : skipEntryEnd closer rest'' = us) :
    ∃ n c ty ending, n.isIdentifier = true ∧ c.isControl ":" = true ∧ TypeExpr.Derives .type ty ∧
      (ending = [] ∨ ∃ t, EndsEntry closer t ∧ ending = [t]) ∧
      ts = n :: c :: ty ++ ending ++ us := by
  obtain ⟨n, hn, _, rfl⟩ := word?_eq_some_iff.1 rn
  obtain ⟨c, hc, rfl⟩ := next?_eq_some_iff.1 rc
  have hread : TypeExpr.Part.type.read? rest' = some rest'' := rt
  obtain ⟨ty, hty, rfl⟩ := TypeExpr.read?_sound hread
  obtain ⟨ending, he, heq⟩ := skipEntryEnd_sound closer rest''
  refine ⟨n, c, ty, ending, hn, hc, hty, he, ?_⟩
  rw [← hus, List.append_assoc, ← heq]
  rfl

theorem Receiver.ne_control (h : Receiver ts) : ∀ t ∈ ts, t.kind ≠ .control := by
  cases h with
  | value hs => grind
  | reference ha hm hs => grind [Word]

/-- A parameter takes a receiver through its end, or a name with its type and perhaps the end. -/
theorem parameter?_block {name : String} (h : parameter? (block ++ us) = some (name, us)) :
    (∃ front d, Receiver front ∧ EndsEntry ")" d ∧ block = front ++ [d]) ∨
    ∃ m n c ty ending, (m = [] ∨ Word "mut" m) ∧ n.isIdentifier = true ∧ c.isControl ":" = true ∧
      TypeExpr.Derives .type ty ∧ (ending = [] ∨ ∃ t, EndsEntry ")" t ∧ ending = [t]) ∧
      block = m ++ n :: c :: ty ++ ending := by
  rw [parameter?] at h
  split at h
  · rename_i vs hr
    obtain ⟨_, rfl⟩ := Prod.mk.inj (Option.some.inj h)
    obtain ⟨front, d, hf, hd, heq⟩ := receiver?_sound hr
    rw [List.append_cons, List.append_cancel_right_eq] at heq
    exact .inl ⟨front, d, hf, hd, heq⟩
  · simp only [Option.bind_eq_bind, Option.bind_eq_some_iff, Option.pure_def, Option.some.injEq,
      Prod.mk.injEq, Prod.exists] at h
    obtain ⟨_, vs, rn, ws, rc, xs, rt, _, hus⟩ := h
    obtain ⟨n, c, ty, ending, hn, hc, hty, he, hskip⟩ := typed_sound rn rc rt hus
    obtain ⟨m, hm, hts⟩ := (Takes.keyword "mut").optional_sound (block ++ us)
    rw [show Reader.optional (keyword? "mut") (block ++ us) = _ from hskip] at hts
    refine .inr ⟨m, n, c, ty, ending, hm.imp_left And.left, hn, hc, hty, he, ?_⟩
    refine List.append_cancel_right (hts.trans ?_)
    simp

/-- A field takes what opens it, a name with its type, and perhaps the end. -/
theorem field?_block {f : Field} (h : field? (block ++ us) = some (f, us)) :
    ∃ opening n c ty ending, n.isIdentifier = true ∧ c.isControl ":" = true ∧
      TypeExpr.Derives .type ty ∧ (ending = [] ∨ ∃ t, EndsEntry "\x7d" t ∧ ending = [t]) ∧
      block = opening ++ n :: c :: ty ++ ending := by
  simp only [field?, Option.bind_eq_bind, Option.bind_eq_some_iff, Option.pure_def,
    Option.some.injEq, Prod.mk.injEq, Prod.exists] at h
  obtain ⟨_, vs, rn, ws, rc, xs, rt, _, hus⟩ := h
  obtain ⟨n, c, ty, ending, hn, hc, hty, he, hskip⟩ := typed_sound rn rc rt hus
  obtain ⟨_, opening, _, hts⟩ := skipOpening_sound (block ++ us)
  rw [hskip] at hts
  refine ⟨opening, n, c, ty, ending, hn, hc, hty, he, ?_⟩
  refine List.append_cancel_right (hts.trans ?_)
  simp

/-- A parameter takes balanced tokens: its type nests its parentheses, and it has no others. -/
theorem parameter?_entryBlock {name : String} (h : parameter? (block ++ us) = some (name, us)) :
    EntryBlock "(" ")" block := by
  rcases parameter?_block h with
    ⟨front, d, hf, hd, rfl⟩ | ⟨m, n, c, ty, ending, hm, hn, hc, hty, he, rfl⟩
  · exact .ended (TypeExpr.balanced_of_ne_control hf.ne_control) hd
  · -- The name and what stands around it are no parentheses.
    have hmark : Balanced "(" ")" m := balanced_of_forall (by grind [Word])
    have hname : Balanced "(" ")" [n, c] := balanced_of_forall (by grind)
    exact entryBlock_append (hmark.append (hname.append (hty.balanced (by decide)))) he

/-- A field takes balanced tokens, if the braces in it are balanced up to its last token.  Braces that
    are not may stand in its attributes and its visibility. -/
theorem field?_entryBlock {f : Field} (h : field? (block ++ us) = some (f, us))
    (hb : Balanced "\x7b" "\x7d" block.dropLast) : EntryBlock "\x7b" "\x7d" block := by
  obtain ⟨opening, n, c, ty, ending, hn, hc, hty, he, rfl⟩ := field?_block h
  rcases he with rfl | ⟨t, ht, rfl⟩
  · -- The last token belongs to the type, so it is no brace either.
    rw [List.append_nil] at hb ⊢
    rcases List.eq_nil_or_concat' ty with rfl | ⟨init, u, rfl⟩
    · obtain ⟨_, _, _, hnil⟩ := hty.exists_cons
      cases hnil
    · have hu := hty.mem_kinds u (by simp)
      have hlast : Balanced "\x7b" "\x7d" [u] := balanced_of_forall (by grind)
      have hts : opening ++ n :: c :: (init ++ [u]) = opening ++ n :: c :: init ++ [u] := by simp
      rw [hts, List.dropLast_concat] at hb
      rw [hts]
      exact .unended (hb.append hlast)
  · rw [List.dropLast_concat] at hb
    exact .ended hb ht

/-! ### The loop over the entries -/

variable {α : Type} {read? : List Token → Option (α × List Token)}
  {members : List (α × List Token)} {front inside within last rest : List Token} {d : Token}

/-- **How a loop over entries ends.** It goes from behind an opener on, with `front` already read.  If no
    entry is read behind the matching closer, the loop ends with all brackets balanced, or an entry took
    the matching closer and the loop ends right behind it. -/
theorem Reader.Chain.balanced_or_closed (hc : Chain read? inside members last)
    (hentry : ∀ m ∈ members, EntryBlock opener closer m.2)
    (hp : (opener, closer) ∈ TypeExpr.bracketPairs) (hfront : Balanced opener closer front)
    (h : Encloses opener closer within d) (heq : front ++ inside = within ++ d :: rest)
    (hends : ∀ first, first <+: members → front ++ (first.map Prod.snd).flatten = within ++ [d] →
      read? rest = none) :
    Balanced opener closer (front ++ (members.map Prod.snd).flatten) ∨
      front ++ (members.map Prod.snd).flatten = within ++ [d] ∧ last = rest := by
  have hne : opener ≠ closer := by grind [TypeExpr.bracketPairs]
  induction hc generalizing front with
  | done hr =>
    left
    simpa using hfront
  | @more a block us last entries hblock hr hc ih =>
    -- Behind an entry that leaves the brackets balanced, the loop goes on inside.
    have hinside (hb : Balanced opener closer block) :
        Balanced opener closer (front ++ (((a, block) :: entries).map Prod.snd).flatten) ∨
          front ++ (((a, block) :: entries).map Prod.snd).flatten = within ++ [d] ∧ last = rest := by
      have heq' : (front ++ block) ++ us = within ++ d :: rest := by rw [List.append_assoc, heq]
      rw [List.map_cons, List.flatten_cons, ← List.append_assoc]
      refine ih (fun m hm => hentry m (List.mem_cons_of_mem _ hm)) (hfront.append hb) heq' ?_
      intro first hfirst hflat
      exact hends ((a, block) :: first) (List.cons_prefix_cons.2 ⟨rfl, hfirst⟩) (by simpa using hflat)
    cases hentry (a, block) List.mem_cons_self with
    | unended hb => exact hinside hb
    | @ended ts t hb ht =>
      rcases ht with ht | ht
      · exact hinside (hb.append (TypeExpr.balanced_comma ht hp))
      · -- The entry takes the matching closer, and the loop ends because nothing follows.
        have heq' : (front ++ ts) ++ t :: us = within ++ d :: rest := by rw [← heq]; simp
        obtain ⟨hwithin, rfl, rfl⟩ := h.unique ⟨hfront.append hb, ht⟩ hne heq'
        have hall : front ++ (ts ++ [t]) = within ++ [t] := by
          rw [← List.append_assoc, hwithin]
        have hread := hends [(a, ts ++ [t])] (by simp) (by simpa using hall)
        obtain ⟨rfl, rfl⟩ := hc.of_eq_none hread
        exact .inr ⟨by simpa using hall, rfl⟩

/-- **Entries stay inside their brackets**, unless an entry takes the matching closer and another one can
    be read right behind. -/
theorem Reader.Chain.entries_inside (hc : Chain read? inside members last)
    (hentry : ∀ m ∈ members, EntryBlock opener closer m.2)
    (hp : (opener, closer) ∈ TypeExpr.bracketPairs) (h : Encloses opener closer within d)
    (heq : inside = within ++ d :: rest)
    (hends : ∀ first, first <+: members → (first.map Prod.snd).flatten = within ++ [d] →
      read? rest = none) :
    (members.map Prod.snd).flatten <+: within ++ [d] := by
  have hne : opener ≠ closer := by grind [TypeExpr.bracketPairs]
  rcases hc.balanced_or_closed hentry hp balanced_nil h heq hends with hb | ⟨hclosed, _⟩
  · have hwithin := h.isPrefix hne (hc.flatten_append.trans heq) hb.front
    exact hwithin.trans (List.prefix_append within [d])
  · exact hclosed ▸ List.prefix_rfl

/-- **A list stays inside its brackets.** With the closer that may be taken behind it, the loop takes
    nothing beyond the matching closer, unless an entry takes that closer and another entry or one more
    closer can be read right behind. -/
theorem Reader.Chain.closed_inside (hc : Chain read? inside members last)
    (hentry : ∀ m ∈ members, EntryBlock opener closer m.2)
    (hp : (opener, closer) ∈ TypeExpr.bracketPairs) (h : Encloses opener closer within d)
    (heq : inside = within ++ d :: rest)
    (hends : ∀ first, first <+: members → (first.map Prod.snd).flatten = within ++ [d] →
      read? rest = none)
    (hcloser : (members.map Prod.snd).flatten = within ++ [d] → control? closer rest = none) :
    ∃ taken, inside = taken ++ Reader.optional (control? closer) last ∧ taken <+: within ++ [d] := by
  have hne : opener ≠ closer := by grind [TypeExpr.bracketPairs]
  have hinside := hc.entries_inside hentry hp h heq hends
  rcases hc.balanced_or_closed hentry hp balanced_nil h heq hends with hb | ⟨hclosed, rfl⟩
  · cases ho : control? closer last with
    | none => exact ⟨_, by rw [optional_of_none ho, hc.flatten_append], hinside⟩
    | some us =>
      -- The closer behind balanced entries is the matching one.
      obtain ⟨c, hc', rfl⟩ := next?_eq_some_iff.1 ho
      obtain ⟨hwithin, rfl, rfl⟩ := h.unique ⟨hb, hc'⟩ hne (hc.flatten_append.trans heq)
      refine ⟨within ++ [c], ?_, List.prefix_rfl⟩
      rw [optional_of_some ho, heq, List.append_assoc]
      rfl
  · exact ⟨_, by rw [optional_of_none (hcloser hclosed), hc.flatten_append], hinside⟩

end DocAudit
