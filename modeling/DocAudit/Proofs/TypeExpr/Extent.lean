import DocAudit.Proofs.TypeExpr.Simple
import Mathlib.Order.Bounds.Basic

namespace DocAudit.TypeExpr

/-!
# The reader of types takes the longest type

* `read?_sound` — what a reader takes, the grammar derives;
* `read?_append_of_stops` — what the grammar derives, the reader takes, and no more of it, if the next
  token cannot continue it.  Entries of a list are always followed by a comma or a closing bracket,
  so inside brackets this settles everything;
* `type?_append` — behind any other token the reader takes a type that is at least as long;
* `type_end_isGreatest` — hence the reader finds the longest type that starts at an index, and fails
  only where none starts.
-/

open Reader

variable {ts us front rest : List Token} {part : Part}

/-! ### What is taken is derived -/

/-- What the reader of the part takes from the list, the grammar derives. -/
def Sound (part : Part) (ts : List Token) : Prop :=
  ∀ rest, part.read? ts = some rest → ∃ front, Derives part front ∧ ts = front ++ rest

theorem sound_head (hi : ∀ us, us.length < ts.length → Sound (.items .round) us) :
    Sound .head ts := by
  intro rest (h : head? ts = some rest)
  rw [head?_eq] at h
  split at h
  · obtain ⟨front, hf, rfl⟩ := simple?_sound h
    exact ⟨front, .simple hf, rfl⟩
  · rename_i opened ro
    obtain ⟨o, ho, rfl⟩ := next?_eq_some_iff.1 ro
    rcases Option.or_eq_some_iff.1 h with rc | ⟨_, h⟩
    · obtain ⟨c, hc, rfl⟩ := next?_eq_some_iff.1 rc
      exact ⟨[o, c], .unit ho hc, rfl⟩
    · obtain ⟨us, hu, rfl⟩ := hi opened (by simp) rest h
      exact ⟨o :: us, .tuple ho hu, rfl⟩

theorem sound_type (hi : ∀ b us, us.length < ts.length → Sound (.items b) us) :
    Sound .type ts := by
  intro rest (h : type? ts = some rest)
  rw [type?_eq, Option.map_eq_some_iff] at h
  obtain ⟨behind, hh, h⟩ := h
  obtain ⟨front, hf, rfl⟩ := sound_head (hi .round) behind hh
  cases ha : arguments? behind with
  | none =>
    rw [ha, Option.getD_none] at h
    exact ⟨front, .plain hf, by rw [h]⟩
  | some r =>
    rw [ha, Option.getD_some] at h
    subst h
    rw [arguments?_eq, Option.bind_eq_some_iff] at ha
    obtain ⟨vs, ro, ha⟩ := ha
    obtain ⟨o, ho, rfl⟩ := next?_eq_some_iff.1 ro
    obtain ⟨us, hu, rfl⟩ := hi .angle vs (by simp; omega) r ha
    exact ⟨front ++ o :: us, .generic hf ho hu, by simp⟩

theorem sound_item (b : Bracket) (hi : ∀ b us, us.length < ts.length → Sound (.items b) us) :
    Sound (.item b) ts := by
  intro rest (h : item? b ts = some rest)
  cases b with
  | round =>
    rw [item?_round] at h
    obtain ⟨front, hf, rfl⟩ := sound_type hi rest h
    exact ⟨front, .entry hf, rfl⟩
  | angle =>
    rw [item?_angle, Option.or_eq_some_iff] at h
    rcases h with hl | ⟨_, h⟩
    · obtain ⟨front, hf, rfl⟩ := takes_lifetime.sound hl
      exact ⟨front, .lifetime hf, rfl⟩
    · cases hb : binding? ts with
      | none =>
        rw [hb, Option.getD_none] at h
        obtain ⟨front, hf, rfl⟩ := sound_type hi rest h
        exact ⟨front, .entry hf, rfl⟩
      | some vs =>
        rw [hb, Option.getD_some] at h
        obtain ⟨_, ⟨n, e, hn, he, rfl⟩, rfl⟩ := takes_binding.sound hb
        have hvs : Sound .type vs := sound_type fun b us hu => hi b us (by simp; omega)
        obtain ⟨front, hf, rfl⟩ := hvs rest h
        exact ⟨n :: e :: front, .binding hn he hf, rfl⟩

/-- The induction is on the length of the list: the entries inside a bracket start behind the bracket
    or behind a comma. -/
theorem sound_items (b : Bracket) (ts : List Token) : Sound (.items b) ts := by
  induction hn : ts.length using Nat.strongRecOn generalizing b ts with
  | ind n ih =>
    -- Every list of entries inside is read from a shorter list.
    have hi : ∀ b us, us.length < ts.length → Sound (.items b) us :=
      fun b us hu => ih us.length (hn ▸ hu) b us rfl
    intro rest (h : items? b ts = some rest)
    rw [items?_eq, Option.bind_eq_some_iff] at h
    obtain ⟨behind, hr, h⟩ := h
    obtain ⟨front, hf, rfl⟩ := sound_item b hi behind hr
    split at h
    · obtain ⟨c, hc, rfl⟩ := next?_eq_some_iff.1 h
      exact ⟨front ++ [c], .last hf hc, by simp⟩
    · rename_i comma rd
      obtain ⟨d, hd, rfl⟩ := next?_eq_some_iff.1 rd
      rcases Option.or_eq_some_iff.1 h with rc | ⟨_, h⟩
      · obtain ⟨c, hc, rfl⟩ := next?_eq_some_iff.1 rc
        exact ⟨front ++ [d, c], .trailing hf hd hc, by simp⟩
      · obtain ⟨us, hu, rfl⟩ := hi b comma (by simp; omega) rest h
        exact ⟨front ++ d :: us, .more hf hd hu, by simp⟩

/-- **Soundness.** What the reader of a part takes, the grammar derives from it. -/
theorem read?_sound (h : part.read? ts = some rest) :
    ∃ front, Derives part front ∧ ts = front ++ rest := by
  have hi : ∀ b us, us.length < ts.length → Sound (.items b) us := fun b us _ => sound_items b us
  cases part with
  | head => exact sound_head (hi .round) rest h
  | type => exact sound_type hi rest h
  | item b => exact sound_item b hi rest h
  | items b => exact sound_items b ts rest h

/-! ### What is derived is taken -/

/-- The first token of the rest, if there is one, cannot continue the part. -/
def Stops (part : Part) (rest : List Token) : Prop :=
  Heads (fun t => part.mayContinue t = false) rest

@[simp] theorem stops_cons {t : Token} : Stops part (t :: rest) ↔ part.mayContinue t = false :=
  Heads.cons_iff

theorem stops_items {b : Bracket} : Stops (.items b) rest :=
  fun _ _ => rfl

theorem Stops.head_of_type (h : Stops .type rest) : Stops .head rest :=
  Heads.imp h fun t ht => by grind [Part.mayContinue]

theorem Stops.type_of_item {b : Bracket} (h : Stops (.item b) rest) : Stops .type rest :=
  Heads.imp h fun t ht => by grind [Part.mayContinue]

/-- Every delimiter but an opening angle bracket stops a part: a comma and the closing brackets do. -/
theorem stops_cons_of_isControl {t : Token} {delimiter : String}
    (h : t.isControl delimiter = true) (hne : delimiter ≠ "<") : Stops part (t :: rest) := by
  rw [stops_cons]
  cases part <;> grind [Part.mayContinue]

theorem stops_head_of_isControl {t : Token} {delimiter : String}
    (h : t.isControl delimiter = true) : Stops .head (t :: rest) := by
  rw [stops_cons]
  grind [Part.mayContinue]

/-- Whether the part may start with the token. -/
def Part.mayStart : Part → Token → Bool
  | .head, t => t.isIdentifier || t.isOther "&" || t.isOther "[" || t.isControl "("
  | .type, t => t.isIdentifier || t.isOther "&" || t.isOther "[" || t.isControl "("
  | _, t => t.isIdentifier || t.isOther "&" || t.isOther "[" || t.isControl "(" || t.isOther "'"

theorem Bare.exists_cons (h : Bare ts) :
    ∃ t us, (t.isIdentifier = true ∨ t.isOther "[" = true) ∧ ts = t :: us := by
  cases h with
  | name hn => exact ⟨_, _, .inl hn, rfl⟩
  | bracketed ho _ _ => exact ⟨_, _, .inr ho, rfl⟩

theorem Simple.exists_cons (h : Simple ts) :
    ∃ t us, (t.isIdentifier = true ∨ t.isOther "&" = true ∨ t.isOther "[" = true) ∧
      ts = t :: us := by
  cases h with
  | traitObject hd _ => exact ⟨_, _, .inl (by grind), rfl⟩
  | implReference ha _ _ => exact ⟨_, _, .inr (.inl ha), rfl⟩
  | changeable hm _ => exact ⟨_, _, .inl (by grind), rfl⟩
  | reference h =>
    obtain ⟨a, us, ha, rfl⟩ := h.exists_cons
    exact ⟨a, us, .inr (.inl ha), rfl⟩
  | bare hb =>
    obtain ⟨t, us, ht, rfl⟩ := hb.exists_cons
    exact ⟨t, us, ht.imp_right .inr, rfl⟩

theorem Derives.exists_cons (h : Derives part ts) :
    ∃ t us, part.mayStart t = true ∧ ts = t :: us := by
  induction h with
  | simple h =>
    obtain ⟨t, us, ht, rfl⟩ := h.exists_cons
    exact ⟨t, us, by grind [Part.mayStart], rfl⟩
  | unit ho _ => exact ⟨_, _, by simp [Part.mayStart, ho], rfl⟩
  | tuple ho _ _ => exact ⟨_, _, by simp [Part.mayStart, ho], rfl⟩
  | plain _ ih => exact ih
  | generic _ _ _ ih _ =>
    obtain ⟨t, us, ht, rfl⟩ := ih
    exact ⟨t, _, ht, rfl⟩
  | entry _ ih =>
    obtain ⟨t, us, ht, rfl⟩ := ih
    exact ⟨t, us, by grind [Part.mayStart], rfl⟩
  | lifetime h =>
    obtain ⟨hq, _⟩ := h
    exact ⟨_, _, by simp [Part.mayStart, hq], rfl⟩
  | binding hn _ _ _ => exact ⟨_, _, by simp [Part.mayStart, hn], rfl⟩
  | last _ _ ih =>
    obtain ⟨t, us, ht, rfl⟩ := ih
    exact ⟨t, _, ht, rfl⟩
  | trailing _ _ _ ih =>
    obtain ⟨t, us, ht, rfl⟩ := ih
    exact ⟨t, _, ht, rfl⟩
  | more _ _ _ ih _ =>
    obtain ⟨t, us, ht, rfl⟩ := ih
    exact ⟨t, _, ht, rfl⟩

/-- No part starts with a closing bracket, so none is taken for the end of its list. -/
theorem control?_closer_append (b : Bracket) (h : Derives part ts) (rest : List Token) :
    control? b.closer (ts ++ rest) = none := by
  obtain ⟨t, us, ht, rfl⟩ := h.exists_cons
  have hc : t.isControl b.closer = false := by
    cases b <;> cases part <;> grind [Part.mayStart, Bracket.closer]
  simp [hc]

section Steps

variable {o c d : Token} {b : Bracket}

/-! Each rule of the grammar, for readers that take its parts. -/

theorem head?_of_simple? (h : Simple front) (hr : simple? (front ++ rest) = some us) :
    head? (front ++ rest) = some us := by
  obtain ⟨t, vs, ht, rfl⟩ := h.exists_cons
  have ho : t.isControl "(" = false := by grind
  rw [head?_eq]
  simpa [ho] using hr

theorem head?_unit (ho : o.isControl "(" = true) (hc : c.isControl ")" = true) :
    head? (o :: c :: rest) = some rest := by
  rw [head?_eq]
  simp [ho, hc]

theorem head?_tuple (ho : o.isControl "(" = true) (hu : Derives (.items .round) us)
    (hr : items? .round (us ++ rest) = some rest) : head? (o :: us ++ rest) = some rest := by
  have hc : control? ")" (us ++ rest) = none := control?_closer_append .round hu rest
  rw [head?_eq]
  simp [ho, hc, hr]

theorem type?_plain (hr : head? ts = some rest) (hs : Stops .type rest) :
    type? ts = some rest := by
  have hopener : control? "<" rest = none := by
    refine (Heads.imp hs fun t ht => ?_).next?_eq_none
    simp only [Part.mayContinue, Bool.or_eq_false_iff] at ht
    exact ht.2
  have ha : arguments? rest = none := by
    rw [arguments?_eq, hopener]
    rfl
  rw [type?_eq, hr, Option.map_some, ha, Option.getD_none]

theorem type?_generic (hr : head? ts = some (o :: us)) (ho : o.isControl "<" = true)
    (hu : items? .angle us = some rest) : type? ts = some rest := by
  have ha : arguments? (o :: us) = some rest := by
    rw [arguments?_eq]
    simp [ho, hu]
  rw [type?_eq, hr, Option.map_some, ha, Option.getD_some]

theorem items?_last (hr : item? b ts = some (c :: rest)) (hc : c.isControl b.closer = true) :
    items? b ts = some rest := by
  have hd : c.isControl "," = false := by cases b <;> grind [Bracket.closer]
  rw [items?_eq, hr, Option.bind_some]
  simp [hd, hc]

theorem items?_trailing (hr : item? b ts = some (d :: c :: rest)) (hd : d.isControl "," = true)
    (hc : c.isControl b.closer = true) : items? b ts = some rest := by
  rw [items?_eq, hr, Option.bind_some]
  simp [hd, hc]

theorem items?_more (hr : item? b ts = some (d :: us)) (hd : d.isControl "," = true)
    (hc : control? b.closer us = none) (hu : items? b us = some rest) :
    items? b ts = some rest := by
  rw [items?_eq, hr, Option.bind_some]
  simp [hd, hc, hu]

end Steps

theorem head?_of_simple (h : Simple front) (hs : Stops .head rest) :
    head? (front ++ rest) = some rest := by
  obtain ⟨r, hr, rfl | ⟨_, hb, rfl⟩⟩ := simple?_append h rest
  · exact head?_of_simple? h hr
  · obtain ⟨t, us, ht, rfl⟩ := hb.exists_cons
    have : Part.mayContinue .head t = true := by
      rcases ht with ht | ht <;> simp [Part.mayContinue, ht]
    rw [List.cons_append, stops_cons, this] at hs
    cases hs

/-- A type that could be the name in front of a binding is not: the sign behind it would stop it. -/
theorem binding?_append (hs : Stops (.item .angle) rest) (hr : type? (front ++ rest) = some rest) :
    binding? (front ++ rest) = none := by
  cases hb : binding? (front ++ rest) with
  | none => rfl
  | some vs =>
    obtain ⟨_, ⟨n, e, hn, he, rfl⟩, heq⟩ := takes_binding.sound hb
    -- The name alone would be the type, and the sign behind it the start of the rest.
    have hse : Stops .type (e :: vs) := by
      simp only [stops_cons, Part.mayContinue]
      grind
    have hh : head? ([n] ++ e :: vs) = some (e :: vs) :=
      head?_of_simple (.bare (.name hn)) hse.head_of_type
    rw [heq, List.cons_append, List.cons_append, List.nil_append] at hr
    rw [List.singleton_append] at hh
    rw [type?_plain hh hse, Option.some.injEq] at hr
    subst hr
    simp [Part.mayContinue, he] at hs

/-- **Exactness.** The reader of a part takes what the grammar derives from it, and no more, if the
    next token cannot continue it. -/
theorem read?_append_of_stops (h : Derives part front) (hs : Stops part rest) :
    part.read? (front ++ rest) = some rest := by
  induction h generalizing rest with
  | simple h => exact head?_of_simple h hs
  | unit ho hc => exact head?_unit ho hc
  | tuple ho hu ih => exact head?_tuple ho hu (ih stops_items)
  | plain h ih => exact type?_plain (ih hs.head_of_type) hs
  | @generic ts us o h ho hu ih ihu =>
    rw [List.append_assoc]
    exact type?_generic (ih (stops_head_of_isControl ho)) ho (ihu stops_items)
  | @entry b ts h ih =>
    have hr : type? (ts ++ rest) = some rest := ih hs.type_of_item
    cases b with
    | round => exact (item?_round _).trans hr
    | angle =>
      -- Among arguments, the readers of lifetimes and bindings come before that of types.
      obtain ⟨t, us, ht, rfl⟩ := h.exists_cons
      have hl : lifetime? (t :: us ++ rest) = none :=
        lifetime?_cons_eq_none (by grind [Part.mayStart])
      show item? .angle (t :: us ++ rest) = some rest
      rw [item?_angle, hl, Option.none_or, binding?_append hs hr, Option.getD_none, hr]
  | @lifetime ts h =>
    show item? .angle (ts ++ rest) = some rest
    rw [item?_angle, takes_lifetime.append h, Option.some_or]
  | @binding n e ts hn he h ih =>
    have hl : lifetime? (n :: e :: ts ++ rest) = none := lifetime?_cons_eq_none (by grind)
    have hb : binding? (n :: e :: ts ++ rest) = some (ts ++ rest) :=
      takes_binding.append ⟨n, e, hn, he, rfl⟩ (ts ++ rest)
    have hr : type? (ts ++ rest) = some rest := ih hs.type_of_item
    show item? .angle (n :: e :: ts ++ rest) = some rest
    rw [item?_angle, hl, Option.none_or, hb, Option.getD_some, hr]
  -- A comma or a closing bracket stands behind every entry, and either one stops it.
  | @last b ts c h hc ih =>
    have hsc : Stops (.item b) (c :: rest) := stops_cons_of_isControl hc (by cases b <;> decide)
    rw [List.append_assoc]
    exact items?_last (ih hsc) hc
  | @trailing b ts d c h hd hc ih =>
    have hsd : Stops (.item b) (d :: c :: rest) := stops_cons_of_isControl hd (by decide)
    rw [List.append_assoc]
    exact items?_trailing (ih hsd) hd hc
  | @more b ts us d h hd hu ih ihu =>
    have hsd : Stops (.item b) (d :: us ++ rest) := stops_cons_of_isControl hd (by decide)
    rw [List.append_assoc]
    exact items?_more (ih hsd) hd (control?_closer_append b hu rest) (ihu stops_items)

/-! ### The longest type -/

theorem head?_append (h : Derives .head front) (rest : List Token) :
    ∃ r, head? (front ++ rest) = some r ∧ r <:+ rest := by
  cases h with
  | simple h =>
    obtain ⟨r, hr, rfl | ⟨b, _, rfl⟩⟩ := simple?_append h rest
    · exact ⟨r, head?_of_simple? h hr, List.suffix_refl r⟩
    · exact ⟨r, head?_of_simple? h hr, List.suffix_append b r⟩
  | unit ho hc => exact ⟨rest, head?_unit ho hc, List.suffix_refl rest⟩
  | tuple ho hu =>
    exact ⟨rest, head?_tuple ho hu (read?_append_of_stops hu stops_items), List.suffix_refl rest⟩

theorem arguments?_isSuffix (h : arguments? ts = some rest) : rest <:+ ts := by
  rw [arguments?_eq, Option.bind_eq_some_iff] at h
  obtain ⟨us, ro, hu⟩ := h
  obtain ⟨o, _, rfl⟩ := next?_eq_some_iff.1 ro
  obtain ⟨front, _, rfl⟩ := sound_items .angle us rest hu
  exact List.suffix_append (o :: front) rest

/-- **Maximality.** Where a type stands at the front, the reader takes a type that is at least as
    long. -/
theorem type?_append (h : Derives .type front) (rest : List Token) :
    ∃ r, type? (front ++ rest) = some r ∧ r <:+ rest := by
  cases h with
  | plain h =>
    -- The head may reach further than the derivation says, and arguments may follow it.
    obtain ⟨behind, hr, hsuffix⟩ := head?_append h rest
    rw [type?_eq, hr, Option.map_some]
    cases ha : arguments? behind with
    | none => exact ⟨behind, rfl, hsuffix⟩
    | some r => exact ⟨r, rfl, (arguments?_isSuffix ha).trans hsuffix⟩
  | @generic ts us o h ho hu =>
    have hh : head? (ts ++ o :: us ++ rest) = some (o :: us ++ rest) := by
      rw [List.append_assoc]
      exact read?_append_of_stops h (stops_head_of_isControl ho)
    exact ⟨rest, type?_generic hh ho (read?_append_of_stops hu stops_items), List.suffix_refl rest⟩

/-- Where a type reaches up to an index, the reader finds an end, and not before that index. -/
theorem exists_end_of_derives {i k : Nat} (h : Derives .type (slice ts i k)) :
    ∃ j, endIndex? type? ts i = some j ∧ (k ≤ ts.length → k ≤ j) := by
  rcases Nat.lt_or_ge i k with hik | hik
  · obtain ⟨r, hr, hsuffix⟩ := type?_append h (ts.drop k)
    rw [slice_append_drop (Nat.le_of_lt hik)] at hr
    refine ⟨ts.length - r.length, by rw [endIndex?, hr, Option.map_some], fun hk => ?_⟩
    have hlen := hsuffix.length_le
    rw [List.length_drop] at hlen
    omega
  · -- The slice is empty, but no type is.
    obtain ⟨t, us, _, heq⟩ := h.exists_cons
    rw [slice_eq_nil hik] at heq
    cases heq

/-- Up to the end that the reader finds, there is a type. -/
theorem derives_of_end {i j : Nat} (h : endIndex? type? ts i = some j) :
    i < j ∧ j ≤ ts.length ∧ Derives .type (slice ts i j) := by
  rw [endIndex?, Option.map_eq_some_iff] at h
  obtain ⟨r, hr, rfl⟩ := h
  have hr : Part.type.read? (ts.drop i) = some r := hr
  obtain ⟨front, hf, heq⟩ := read?_sound hr
  have hlen := congrArg List.length heq
  rw [List.length_drop, List.length_append] at hlen
  have hpos : 0 < front.length := by
    obtain ⟨t, us, _, rfl⟩ := hf.exists_cons
    exact Nat.succ_pos us.length
  have hslice : slice ts i (ts.length - r.length) = front := by
    rw [slice, List.drop_take, heq, show ts.length - r.length - i = front.length by omega,
      List.take_left]
  rw [hslice]
  exact ⟨by omega, by omega, hf⟩

/-- **The reader takes the longest type.** The end that it finds is the greatest index up to which a
    type reaches from the given index.  It finds none exactly where no type starts, which includes
    every index past the end of the list. -/
theorem type_end_isGreatest (ts : List Token) (i : Nat) :
    (∀ j, endIndex? type? ts i = some j ↔
      IsGreatest {k | i < k ∧ k ≤ ts.length ∧ Derives .type (slice ts i k)} j) ∧
    (endIndex? type? ts i = none ↔ ∀ k, ¬ Derives .type (slice ts i k)) := by
  have hgreatest : ∀ j, endIndex? type? ts i = some j →
      IsGreatest {k | i < k ∧ k ≤ ts.length ∧ Derives .type (slice ts i k)} j := by
    intro j hj
    refine ⟨derives_of_end hj, ?_⟩
    rintro k ⟨_, hk, hd⟩
    obtain ⟨j', hj', hkj⟩ := exists_end_of_derives hd
    rw [hj, Option.some.injEq] at hj'
    exact hj' ▸ hkj hk
  refine ⟨fun j => ⟨hgreatest j, fun hj => ?_⟩, ?_, ?_⟩
  · -- The reader finds some end, which is greatest too, and there is only one greatest.
    obtain ⟨j', hj', _⟩ := exists_end_of_derives hj.1.2.2
    rw [hj', (hgreatest j' hj').unique hj]
  · intro hnone k hd
    obtain ⟨j, hj, _⟩ := exists_end_of_derives hd
    rw [hnone] at hj
    cases hj
  · intro hno
    cases hj : endIndex? type? ts i with
    | none => rfl
    | some j => exact absurd (derives_of_end hj).2.2 (hno j)

end DocAudit.TypeExpr
