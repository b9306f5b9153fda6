import DocAudit.Proofs.Token.Takes
import DocAudit.Proofs.TypeExpr.Grammar
import Mathlib.Tactic.ByContra

namespace DocAudit.TypeExpr

/-!
# Reading types without nesting

The readers of the shapes without nesting take just what the grammar describes:

* `takes_bare`, `takes_lifetime`, `takes_binding`, `takes_implReference`, `takes_reference` — each of
  these is taken exactly, whatever follows;
* `simple?_sound` — what the reader of simple types takes is one;
* `simple?_append` — it takes every simple type, and more only where a bare type follows a word that
  could be a marker.
-/

open Reader

variable {ts us front rest : List Token}

/-! ### Shapes of one form -/

theorem takes_bare : Takes bare? Bare where
  sound h := by
    simp only [bare?, Option.orElse_eq_orElse, Option.orElse_eq_or, Option.or_eq_some_iff,
      Option.bind_eq_bind, Option.bind_eq_some_iff] at h
    rcases h with rn | ⟨_, us, ro, vs, rn, rc⟩
    · obtain ⟨n, hn, rfl⟩ := next?_eq_some_iff.1 rn
      exact ⟨[n], .name hn, rfl⟩
    · obtain ⟨o, ho, rfl⟩ := next?_eq_some_iff.1 ro
      obtain ⟨n, hn, rfl⟩ := next?_eq_some_iff.1 rn
      obtain ⟨c, hc, rfl⟩ := next?_eq_some_iff.1 rc
      exact ⟨[o, n, c], .bracketed ho hn hc, rfl⟩
  append hb rest := by
    cases hb with
    | name hn => simp [bare?, hn]
    | @bracketed o n c ho hn hc =>
      have hno : o.isIdentifier = false := by grind
      simp [bare?, hno, ho, hn, hc]

theorem takes_lifetime : Takes lifetime? Lifetime := by
  refine ((Takes.next (·.isOther "'")).bind (.next Token.isIdentifier)).congr fun front => ?_
  constructor
  · rintro ⟨_, _, ⟨q, hq, rfl⟩, ⟨n, hn, rfl⟩, rfl⟩
    exact .named hq hn
  · rintro ⟨hq, hn⟩
    exact ⟨_, _, ⟨_, hq, rfl⟩, ⟨_, hn, rfl⟩, rfl⟩

theorem takes_binding :
    Takes binding? fun front =>
      ∃ n e, n.isIdentifier = true ∧ e.isOther "=" = true ∧ front = [n, e] := by
  refine ((Takes.next Token.isIdentifier).bind (.next (·.isOther "="))).congr fun front => ?_
  constructor
  · rintro ⟨_, _, ⟨n, hn, rfl⟩, ⟨e, he, rfl⟩, rfl⟩
    exact ⟨n, e, hn, he, rfl⟩
  · rintro ⟨n, e, hn, he, rfl⟩
    exact ⟨_, _, ⟨_, hn, rfl⟩, ⟨_, he, rfl⟩, rfl⟩

/-- A word in front of a bare type. -/
theorem takes_markedBare (word : String) :
    Takes (fun ts => (keyword? word ts).bind bare?) fun front =>
      ∃ m b, m.isKeyword word = true ∧ Bare b ∧ front = m :: b := by
  refine ((Takes.next (·.isKeyword word)).bind takes_bare).congr fun front => ?_
  constructor
  · rintro ⟨_, b, ⟨m, hm, rfl⟩, hb, rfl⟩
    exact ⟨m, b, hm, hb, rfl⟩
  · rintro ⟨m, b, hm, hb, rfl⟩
    exact ⟨_, b, ⟨m, hm, rfl⟩, hb, rfl⟩

theorem takes_implReference :
    Takes implReference? fun front =>
      ∃ a i b, a.isOther "&" = true ∧ i.isKeyword "impl" = true ∧ Bare b ∧ front = a :: i :: b := by
  refine ((Takes.next (·.isOther "&")).bind (takes_markedBare "impl")).congr fun front => ?_
  constructor
  · rintro ⟨_, _, ⟨a, ha, rfl⟩, ⟨i, b, hi, hb, rfl⟩, rfl⟩
    exact ⟨a, i, b, ha, hi, hb, rfl⟩
  · rintro ⟨a, i, b, ha, hi, hb, rfl⟩
    exact ⟨_, _, ⟨a, ha, rfl⟩, ⟨i, b, hi, hb, rfl⟩, rfl⟩

theorem lifetime?_cons_eq_none {t : Token} (h : t.isOther "'" = false) :
    lifetime? (t :: rest) = none := by
  simp [lifetime?, h]

/-- What may follow a reference sign and its lifetime starts with no lifetime of its own. -/
theorem lifetime?_bare_append {b : List Token} (hb : Bare b) : lifetime? (b ++ rest) = none := by
  cases hb with
  | name hn => exact lifetime?_cons_eq_none (by grind)
  | bracketed ho _ _ => exact lifetime?_cons_eq_none (by grind)

theorem reference?_cons {a : Token} (ha : a.isOther "&" = true) :
    reference? (a :: ts) = bare? (Reader.optional (keyword? "mut") (Reader.optional lifetime? ts)) := by
  simp [reference?, ha]

theorem takes_reference : Takes reference? Reference where
  sound {ts rest} h := by
    simp only [reference?, Option.bind_eq_bind, Option.bind_eq_some_iff] at h
    obtain ⟨us, ra, rb⟩ := h
    obtain ⟨a, ha, rfl⟩ := next?_eq_some_iff.1 ra
    obtain ⟨l, hl, hus⟩ := takes_lifetime.optional_sound us
    obtain ⟨m, hm, hvs⟩ := (Takes.keyword "mut").optional_sound (Reader.optional lifetime? us)
    obtain ⟨b, hb, hws⟩ := takes_bare.sound rb
    rw [hws] at hvs
    rw [hvs] at hus
    have hl' : l = [] ∨ Lifetime l := hl.imp_left And.left
    rcases hm with ⟨rfl, hm⟩ | ⟨m, hm, rfl⟩
    · -- No marker was taken, so what follows is not the lone word `mut`.
      refine ⟨a :: l ++ b, .plain ha hl' hb ?_, by rw [hus]; simp⟩
      rintro m rfl
      rw [hvs] at hm
      by_contra hmut
      rw [Bool.not_eq_false] at hmut
      simp [hmut] at hm
    · exact ⟨a :: l ++ m :: b, .changeable ha hl' hm hb, by rw [hus]; simp⟩
  append h rest := by
    cases h with
    | @changeable a m l b ha hl hm hb =>
      have hnl : lifetime? (m :: b ++ rest) = none := lifetime?_cons_eq_none (by grind)
      have hlm : Reader.optional lifetime? (l ++ (m :: b ++ rest)) = m :: b ++ rest :=
        takes_lifetime.optional_append hl hnl
      have hmb : Reader.optional (keyword? "mut") (m :: b ++ rest) = b ++ rest := by
        simp [Reader.optional, hm]
      rw [List.append_assoc, List.cons_append, reference?_cons ha, hlm, hmb, takes_bare.append hb]
    | @plain a l b ha hl hb hne =>
      have hlb : Reader.optional lifetime? (l ++ (b ++ rest)) = b ++ rest :=
        takes_lifetime.optional_append hl (lifetime?_bare_append hb)
      have hmb : Reader.optional (keyword? "mut") (b ++ rest) = b ++ rest := by
        cases hb with
        | @name n hn => simp [Reader.optional, hne n rfl]
        | @bracketed o n c ho hn hc =>
          have hno : o.isKeyword "mut" = false := by grind
          simp [Reader.optional, hno]
      rw [List.append_assoc, List.cons_append, reference?_cons ha, hlb, hmb, takes_bare.append hb]

/-! ### Simple types -/

theorem simple?_eq (ts : List Token) :
    simple? ts = (traitObject? ts).or ((implReference? ts).or ((changeable? ts).or
      ((reference? ts).or (bare? ts)))) := by
  simp only [simple?, Option.orElse_eq_orElse, Option.orElse_eq_or]

theorem simple?_sound (h : simple? ts = some rest) : ∃ front, Simple front ∧ ts = front ++ rest := by
  simp only [simple?_eq, Option.or_eq_some_iff] at h
  rcases h with h | ⟨_, h | ⟨_, h | ⟨_, h | ⟨_, h⟩⟩⟩⟩
  · obtain ⟨_, ⟨d, b, hd, hb, rfl⟩, rfl⟩ := (takes_markedBare "dyn").sound h
    exact ⟨_, .traitObject hd hb, rfl⟩
  · obtain ⟨_, ⟨a, i, b, ha, hi, hb, rfl⟩, rfl⟩ := takes_implReference.sound h
    exact ⟨_, .implReference ha hi hb, rfl⟩
  · obtain ⟨_, ⟨m, b, hm, hb, rfl⟩, rfl⟩ := (takes_markedBare "mut").sound h
    exact ⟨_, .changeable hm hb, rfl⟩
  · obtain ⟨_, hr, rfl⟩ := takes_reference.sound h
    exact ⟨_, .reference hr, rfl⟩
  · obtain ⟨_, hb, rfl⟩ := takes_bare.sound h
    exact ⟨_, .bare hb, rfl⟩

section FirstToken

variable {t : Token}

theorem traitObject?_cons_eq_none (h : t.isKeyword "dyn" = false) :
    traitObject? (t :: ts) = none := by
  simp [traitObject?, h]

theorem implReference?_cons_eq_none (h : t.isOther "&" = false) :
    implReference? (t :: ts) = none := by
  simp [implReference?, h]

theorem changeable?_cons_eq_none (h : t.isKeyword "mut" = false) :
    changeable? (t :: ts) = none := by
  simp [changeable?, h]

theorem reference?_cons_eq_none (h : t.isOther "&" = false) : reference? (t :: ts) = none := by
  simp [reference?, h]

end FirstToken

/-- A reference to the name `impl` is read as a reference to an implementation if a bare type
    follows. -/
theorem surplus_of_implReference? (h : Reference front)
    (hr : implReference? (front ++ rest) = some us) : ∃ b, Bare b ∧ rest = b ++ us := by
  obtain ⟨_, ⟨a', i, b', _, hi, hb', rfl⟩, heq⟩ := takes_implReference.sound hr
  -- The word `impl` stands right behind the reference sign: neither a lifetime nor `mut` does.
  have hl {q : Token} (hq : q.isOther "'" = true) : q ≠ i := by grind
  cases h with
  | @changeable a m l b ha hl' hm hb =>
    have hmi : m ≠ i := by grind
    rcases hl' with rfl | ⟨hq, _⟩
    · exact absurd (List.cons.inj (List.cons.inj heq).2).1 hmi
    · exact absurd (List.cons.inj (List.cons.inj heq).2).1 (hl hq)
  | @plain a l b ha hl' hb hne =>
    rcases hl' with rfl | ⟨hq, _⟩
    · cases hb with
      | name hn => exact ⟨b', hb', (List.cons.inj (List.cons.inj heq).2).2⟩
      | @bracketed o n c ho hn hc =>
        have hoi : o ≠ i := by grind
        exact absurd (List.cons.inj (List.cons.inj heq).2).1 hoi
    · exact absurd (List.cons.inj (List.cons.inj heq).2).1 (hl hq)

/-- A name that is a marker is read as one if a bare type follows. -/
theorem surplus_of_marked {n : Token} {word : String}
    (hr : (keyword? word (n :: rest)).bind bare? = some us) : ∃ b, Bare b ∧ rest = b ++ us := by
  obtain ⟨_, ⟨m, b, _, hb, rfl⟩, heq⟩ := (takes_markedBare word).sound hr
  exact ⟨b, hb, (List.cons.inj heq).2⟩

/-- A word that could be a marker is one if a bare type follows.  Nothing else lets the reader go on
    behind a simple type. -/
theorem simple?_append (h : Simple front) (rest : List Token) :
    ∃ r, simple? (front ++ rest) = some r ∧ (r = rest ∨ ∃ b, Bare b ∧ rest = b ++ r) := by
  cases h with
  | @traitObject d b hd hb =>
    have hd : traitObject? (d :: b ++ rest) = some rest :=
      (takes_markedBare "dyn").append ⟨d, b, hd, hb, rfl⟩ rest
    exact ⟨rest, by simp only [simple?_eq, hd, Option.some_or], .inl rfl⟩
  | @implReference a i b ha hi hb =>
    have hd : traitObject? (a :: i :: b ++ rest) = none := traitObject?_cons_eq_none (by grind)
    have hr : implReference? (a :: i :: b ++ rest) = some rest :=
      takes_implReference.append ⟨a, i, b, ha, hi, hb, rfl⟩ rest
    exact ⟨rest, by simp only [simple?_eq, hd, hr, Option.none_or, Option.some_or], .inl rfl⟩
  | @changeable m b hm hb =>
    have hd : traitObject? (m :: b ++ rest) = none := traitObject?_cons_eq_none (by grind)
    have hr : implReference? (m :: b ++ rest) = none := implReference?_cons_eq_none (by grind)
    have hc : changeable? (m :: b ++ rest) = some rest :=
      (takes_markedBare "mut").append ⟨m, b, hm, hb, rfl⟩ rest
    exact ⟨rest, by simp only [simple?_eq, hd, hr, hc, Option.none_or, Option.some_or],
      .inl rfl⟩
  | reference h =>
    have hf : reference? (front ++ rest) = some rest := takes_reference.append h rest
    obtain ⟨a, vs, ha, rfl⟩ := h.exists_cons
    have hd : traitObject? (a :: vs ++ rest) = none := traitObject?_cons_eq_none (by grind)
    have hc : changeable? (a :: vs ++ rest) = none := changeable?_cons_eq_none (by grind)
    -- The reader of implementations comes first: it may take the name `impl` for its marker.
    cases hr : implReference? (a :: vs ++ rest) with
    | none => exact ⟨rest, by simp only [simple?_eq, hd, hr, hc, hf, Option.none_or, Option.some_or],
        .inl rfl⟩
    | some r =>
      exact ⟨r, by simp only [simple?_eq, hd, hr, Option.none_or, Option.some_or],
        .inr (surplus_of_implReference? h hr)⟩
  | bare hb =>
    have hf : bare? (front ++ rest) = some rest := takes_bare.append hb rest
    cases hb with
    | @name n hn =>
      -- A lone name may be the word `dyn` or `mut`, whose readers come before that of names.
      have hi : implReference? (n :: rest) = none := implReference?_cons_eq_none (by grind)
      have hr : reference? (n :: rest) = none := reference?_cons_eq_none (by grind)
      cases hd : traitObject? (n :: rest) with
      | some r => exact ⟨r, by simp [simple?_eq, hd], .inr (surplus_of_marked hd)⟩
      | none =>
        cases hc : changeable? (n :: rest) with
        | some r => exact ⟨r, by simp [simple?_eq, hd, hi, hc], .inr (surplus_of_marked hc)⟩
        | none => exact ⟨rest, by simp_all [simple?_eq], .inl rfl⟩
    | @bracketed o n c ho hn hc =>
      have hd : traitObject? (o :: n :: c :: rest) = none := traitObject?_cons_eq_none (by grind)
      have hi : implReference? (o :: n :: c :: rest) = none :=
        implReference?_cons_eq_none (by grind)
      have hm : changeable? (o :: n :: c :: rest) = none := changeable?_cons_eq_none (by grind)
      have hr : reference? (o :: n :: c :: rest) = none := reference?_cons_eq_none (by grind)
      exact ⟨rest, by simp_all [simple?_eq], .inl rfl⟩

end DocAudit.TypeExpr
