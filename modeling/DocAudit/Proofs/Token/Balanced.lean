import DocAudit.Token.Basic

namespace DocAudit

/-!
# Balanced delimiters

Nested pairs of delimiters, found by counting.

* `Balanced` — every closing delimiter of a token list answers an opening one in front of it, and
  all are answered;
* `Encloses` — the matching closer of an opener stands behind a balanced list;
* `Encloses.isPrefix` — what never closes more than it opens does not reach the matching closer;
* `Encloses.unique` — there is one matching closer.
-/

variable {opener closer : String} {ts us within rest rest' : List Token} {o c d : Token}

/-- The delimiters are nested in pairs, and none is left open. -/
structure Balanced (opener closer : String) (ts : List Token) : Prop where
  /-- No front of the list closes more than it opens. -/
  front : ∀ us, us <+: ts → us.countP (·.isControl closer) ≤ us.countP (·.isControl opener)
  /-- The list closes what it opens. -/
  total : ts.countP (·.isControl opener) = ts.countP (·.isControl closer)

/-- Behind an opener and the tokens inside stands the delimiter that closes it. -/
structure Encloses (opener closer : String) (within : List Token) (d : Token) : Prop where
  /-- The tokens inside close what they open. -/
  balanced : Balanced opener closer within
  /-- Behind them stands a closer. -/
  isControl : d.isControl closer = true

/-! ### Balanced lists -/

/-- A list without the delimiters is balanced. -/
theorem balanced_of_forall
    (h : ∀ t ∈ ts, t.isControl opener = false ∧ t.isControl closer = false) :
    Balanced opener closer ts where
  front us hus := by
    have hc : us.countP (·.isControl closer) = 0 :=
      List.countP_eq_zero.2 fun t ht => by simp [(h t (hus.subset ht)).2]
    omega
  total := by
    rw [List.countP_eq_zero.2 fun t ht => by simp [(h t ht).1],
      List.countP_eq_zero.2 fun t ht => by simp [(h t ht).2]]

theorem balanced_nil : Balanced opener closer [] :=
  balanced_of_forall (by simp)

/-- One balanced list behind another is balanced. -/
theorem Balanced.append (h : Balanced opener closer ts) (g : Balanced opener closer us) :
    Balanced opener closer (ts ++ us) where
  front vs hvs := by
    rcases List.prefix_or_prefix_of_prefix hvs (List.prefix_append ts us) with hts | ⟨ws, rfl⟩
    · exact h.front vs hts
    · -- The front reaches into the second list, and the first one is closed by then.
      have hws := g.front ws ((List.prefix_append_right_inj ts).1 hvs)
      have := h.total
      simp only [List.countP_append]
      omega
  total := by
    rw [List.countP_append, List.countP_append, h.total, g.total]

/-- A pair of delimiters around a balanced list is balanced. -/
theorem Balanced.enclosed (h : Balanced opener closer ts) (ho : o.isControl opener = true)
    (hc : c.isControl closer = true) (hne : opener ≠ closer) :
    Balanced opener closer (o :: ts ++ [c]) where
  front us hus := by
    have hoc : o.isControl closer = false := by grind
    rw [List.cons_append, List.prefix_cons_iff] at hus
    rcases hus with rfl | ⟨vs, rfl, hvs⟩
    · simp
    · rcases List.prefix_concat_iff.1 hvs with rfl | hvs
      · have htotal := h.total
        simp only [List.countP_cons, List.countP_append, ho, hoc, hc, List.countP_nil, if_true,
          Bool.false_eq_true, if_false]
        omega
      · have hfront := h.front vs hvs
        simp only [List.countP_cons, ho, hoc, if_true, Bool.false_eq_true, if_false]
        omega
  total := by
    have hoc : o.isControl closer = false := by grind
    have hco : c.isControl opener = false := by grind
    simp [List.countP_append, ho, hoc, hc, hco, h.total]

/-! ### The matching closer -/

/-- A list that never closes more than it opens ends in front of the matching closer. -/
theorem Encloses.isPrefix (h : Encloses opener closer within d) (hne : opener ≠ closer)
    (heq : us ++ rest' = within ++ d :: rest)
    (hus : ∀ vs, vs <+: us → vs.countP (·.isControl closer) ≤ vs.countP (·.isControl opener)) :
    us <+: within := by
  have hpre : us <+: within ++ d :: rest := ⟨rest', heq⟩
  rcases List.prefix_or_prefix_of_prefix hpre (List.prefix_append within (d :: rest)) with hu | hw
  · exact hu
  · obtain ⟨vs, rfl⟩ := hw
    cases vs with
    | nil => simp
    | cons v vs =>
      -- Through the matching closer, one more is closed than opened.
      rw [List.append_assoc, List.append_cancel_left_eq, List.cons_append] at heq
      obtain rfl : v = d := (List.cons.inj heq).1
      have hcount := hus (within ++ [v]) ⟨vs, by simp⟩
      have hopen : v.isControl opener = false := by grind [h.isControl]
      have htotal := h.balanced.total
      simp only [List.countP_append, List.countP_singleton, h.isControl, hopen] at hcount
      simp only [if_true, Bool.false_eq_true, if_false] at hcount
      omega

/-- There is one closer that matches. -/
theorem Encloses.unique (h : Encloses opener closer within d) (g : Encloses opener closer us c)
    (hne : opener ≠ closer) (heq : us ++ c :: rest' = within ++ d :: rest) :
    us = within ∧ c = d ∧ rest' = rest := by
  have huw : us <+: within := h.isPrefix hne heq g.balanced.front
  have hwu : within <+: us := g.isPrefix hne heq.symm h.balanced.front
  obtain rfl : us = within := huw.eq_of_length_le hwu.length_le
  rw [List.append_cancel_left_eq, List.cons.injEq] at heq
  exact ⟨rfl, heq⟩

end DocAudit
