import DocAudit.Token.Reader

namespace DocAudit.Reader

/-!
# Readers that take one shape

`Takes read? P` says that a reader takes from the front of a list just what `P` describes, whatever
stands behind it: what it takes has the shape (`sound`), and it takes each front of the shape to its
end and no more (`append`).  A reader with this property does not look behind what it takes.

* `Takes.next`, `Takes.past` — one token of a class, and everything through the first one;
* `Takes.bind` — one shape behind another;
* `Takes.cut`, `Takes.extend` — tokens behind what is taken make no difference;
* `Takes.optional_sound`, `Takes.optional_append` — a shape that may be missing.

`Heads p ts` says that the first token of a list, if there is one, satisfies `p`.  With it a part that
was read tells that what follows does not belong to it.
-/

variable {rest front : List Token}
variable {read? second? : List Token → Option (List Token)} {P Q : List Token → Prop}

/-- The reader takes just the fronts that `P` describes, whatever stands behind them. -/
structure Takes (read? : List Token → Option (List Token)) (P : List Token → Prop) : Prop where
  /-- What it takes has the shape. -/
  sound : ∀ {ts rest}, read? ts = some rest → ∃ front, P front ∧ ts = front ++ rest
  /-- It takes a front of the shape to its end and no more. -/
  append : ∀ {front}, P front → ∀ rest, read? (front ++ rest) = some rest

namespace Takes

theorem congr (h : Takes read? P) (hPQ : ∀ front, P front ↔ Q front) : Takes read? Q where
  sound hr := by
    obtain ⟨front, hp, rfl⟩ := h.sound hr
    exact ⟨front, (hPQ front).1 hp, rfl⟩
  append hq rest := h.append ((hPQ _).2 hq) rest

/-- What is taken does not depend on what is cut off behind it. -/
theorem cut {ts : List Token} (h : Takes read? P) (us : List Token)
    (hr : read? (ts ++ us) = some (rest ++ us)) : read? ts = some rest := by
  obtain ⟨front, hp, heq⟩ := h.sound hr
  rw [← List.append_assoc, List.append_cancel_right_eq] at heq
  rw [heq, h.append hp]

/-- More tokens at the end are left with the rest. -/
theorem extend {ts : List Token} (h : Takes read? P) (us : List Token) (hr : read? ts = some rest) :
    read? (ts ++ us) = some (rest ++ us) := by
  obtain ⟨front, hp, rfl⟩ := h.sound hr
  rw [List.append_assoc, h.append hp]

/-- One token of a class. -/
theorem next (p : Token → Bool) : Takes (next? p) (fun front => ∃ t, p t = true ∧ front = [t]) where
  sound hr := by
    obtain ⟨t, ht, rfl⟩ := next?_eq_some_iff.1 hr
    exact ⟨[t], ⟨t, ht, rfl⟩, rfl⟩
  append hp rest := by
    obtain ⟨t, ht, rfl⟩ := hp
    exact if_pos ht

theorem keyword (word : String) :
    Takes (keyword? word) (fun front => ∃ t, t.isKeyword word = true ∧ front = [t]) :=
  next (·.isKeyword word)

/-- One shape behind another. -/
theorem bind (h : Takes read? P) (g : Takes second? Q) :
    Takes (fun ts => (read? ts).bind second?)
      (fun front => ∃ a b, P a ∧ Q b ∧ front = a ++ b) where
  sound hr := by
    obtain ⟨us, ha, hb⟩ := Option.bind_eq_some_iff.1 hr
    obtain ⟨a, pa, rfl⟩ := h.sound ha
    obtain ⟨b, qb, rfl⟩ := g.sound hb
    exact ⟨a ++ b, ⟨a, b, pa, qb, rfl⟩, (List.append_assoc a b _).symm⟩
  append hp rest := by
    obtain ⟨a, b, pa, qb, rfl⟩ := hp
    rw [List.append_assoc, h.append pa, Option.bind_some, g.append qb]

/-- Everything through the first token of a class. -/
theorem past (p : Token → Bool) :
    Takes (past? p)
      (fun front => ∃ body c, (∀ t ∈ body, p t = false) ∧ p c = true ∧ front = body ++ [c]) where
  sound {ts rest} hr := by
    induction ts with
    | nil => cases hr
    | cons t ts ih =>
      -- A token outside the class joins the body of what the rest of the list yields.
      rw [past?] at hr
      by_cases ht : p t = true
      · rw [if_pos ht, Option.some.injEq] at hr
        exact ⟨[t], ⟨[], t, by simp, ht, rfl⟩, by rw [hr]; rfl⟩
      · rw [if_neg ht] at hr
        obtain ⟨_, ⟨body, c, hbody, hc, rfl⟩, rfl⟩ := ih hr
        refine ⟨t :: body ++ [c], ⟨t :: body, c, ?_, hc, rfl⟩, rfl⟩
        intro u hu
        rcases List.mem_cons.1 hu with rfl | hu
        · simpa using ht
        · exact hbody u hu
  append hp rest := by
    obtain ⟨body, c, hbody, hc, rfl⟩ := hp
    induction body with
    | nil => exact if_pos hc
    | cons t body ih =>
      have ht : ¬ p t = true := by simp [hbody t (by simp)]
      rw [List.cons_append, List.cons_append, past?, if_neg ht]
      exact ih fun u hu => hbody u (by simp [hu])

/-- What an optional reader passes over has the shape, or is nothing because the reader fails. -/
theorem optional_sound (h : Takes read? P) (ts : List Token) :
    ∃ front, (front = [] ∧ read? ts = none ∨ P front) ∧ ts = front ++ optional read? ts := by
  cases hr : read? ts with
  | none => exact ⟨[], .inl ⟨rfl, rfl⟩, (optional_of_none hr).symm⟩
  | some rest =>
    rw [optional_of_some hr]
    obtain ⟨front, hp, rfl⟩ := h.sound hr
    exact ⟨front, .inr hp, rfl⟩

/-- An optional reader passes over a front of the shape, and over nothing where it is missing. -/
theorem optional_append (h : Takes read? P) (hp : front = [] ∨ P front)
    (hn : read? rest = none) : optional read? (front ++ rest) = rest := by
  rcases hp with rfl | hp
  · exact optional_of_none hn
  · exact optional_of_some (h.append hp rest)

end Takes

/-! ### The first token -/

/-- The first token of the list, if there is one, satisfies the test. -/
def Heads (p : Token → Prop) (ts : List Token) : Prop :=
  ∀ t ∈ ts.head?, p t

namespace Heads

variable {p q : Token → Prop} {ts us : List Token} {t : Token}

@[simp] theorem nil : Heads p [] := by
  simp [Heads]

@[simp] theorem cons_iff : Heads p (t :: ts) ↔ p t := by
  simp [Heads]

theorem imp (h : Heads p ts) (hpq : ∀ t, p t → q t) : Heads q ts :=
  fun t ht => hpq t (h t ht)

theorem append (h : Heads p ts) (g : Heads p us) : Heads p (ts ++ us) := by
  cases ts with
  | nil => exact g
  | cons t ts => exact h

theorem append_of_ne_nil (h : Heads p ts) (hne : ts ≠ []) (us : List Token) :
    Heads p (ts ++ us) := by
  obtain ⟨t, more, rfl⟩ := List.exists_cons_of_ne_nil hne
  exact h

/-- A token of the class does not stand in front, so none is taken. -/
theorem next?_eq_none {p : Token → Bool} (h : Heads (fun t => p t = false) ts) :
    next? p ts = none := by
  cases ts with
  | nil => rfl
  | cons t ts =>
    have ht : p t = false := h t rfl
    simp [ht]

end Heads

end DocAudit.Reader
