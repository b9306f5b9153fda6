import DocAudit.TypeExpr

namespace DocAudit

/-!
# Readers do not look at places

A reader decides by the kinds and the texts of tokens.  Where these stand in a source text makes no
difference: with the places taken away, the same tokens are taken.

* `Token.unplaced` — a token with its place taken away;
* `IgnoresPlace` — a reader that takes the same tokens without their places, closed under sequencing,
  alternatives and optional parts;
* `Unplaces`, `many_unplaced` — readers that yield a value, and a loop over one;
* `TypeExpr.ignoresPlace_type` — the reader of types is one.
-/

/-- The token with its place taken away. -/
def Token.unplaced (t : Token) : Token :=
  { t with span := {} }

namespace Token

variable (t : Token) (s : String)

@[simp] theorem isControl_unplaced : t.unplaced.isControl s = t.isControl s := rfl

@[simp] theorem isKeyword_unplaced : t.unplaced.isKeyword s = t.isKeyword s := rfl

@[simp] theorem isOther_unplaced : t.unplaced.isOther s = t.isOther s := rfl

@[simp] theorem isOperator_unplaced : t.unplaced.isOperator s = t.isOperator s := rfl

@[simp] theorem isIdentifier_unplaced : t.unplaced.isIdentifier = t.isIdentifier := rfl

end Token

namespace Reader

variable {read? second? : List Token → Option (List Token)} {ts : List Token}

/-- On this list, the reader takes the same tokens without their places. -/
def IgnoresPlaceAt (read? : List Token → Option (List Token)) (ts : List Token) : Prop :=
  read? (ts.map Token.unplaced) = (read? ts).map (List.map Token.unplaced)

/-- The reader takes the same tokens without their places. -/
def IgnoresPlace (read? : List Token → Option (List Token)) : Prop :=
  ∀ ts, IgnoresPlaceAt read? ts

/-- One token of a class. -/
theorem ignoresPlace_next {p : Token → Bool} (hp : ∀ t, p t.unplaced = p t) :
    IgnoresPlace (next? p) := by
  intro ts
  cases ts with
  | nil => rfl
  | cons t ts =>
    show next? p (t.unplaced :: ts.map Token.unplaced) = _
    rw [next?_cons, next?_cons, hp]
    by_cases ht : p t = true
    · rw [if_pos ht, if_pos ht, Option.map_some]
    · rw [if_neg ht, if_neg ht, Option.map_none]

theorem ignoresPlace_control (delimiter : String) : IgnoresPlace (control? delimiter) :=
  ignoresPlace_next (·.isControl_unplaced delimiter)

theorem ignoresPlace_other (character : String) : IgnoresPlace (other? character) :=
  ignoresPlace_next (·.isOther_unplaced character)

theorem ignoresPlace_keyword (word : String) : IgnoresPlace (keyword? word) :=
  ignoresPlace_next (·.isKeyword_unplaced word)

theorem ignoresPlace_name : IgnoresPlace name? :=
  ignoresPlace_next Token.isIdentifier_unplaced

/-- Everything through the first token of a class. -/
theorem ignoresPlace_past {p : Token → Bool} (hp : ∀ t, p t.unplaced = p t) :
    IgnoresPlace (past? p) := by
  intro ts
  induction ts with
  | nil => rfl
  | cons t ts ih =>
    show past? p (t.unplaced :: ts.map Token.unplaced) = _
    rw [past?, past?, hp]
    by_cases ht : p t = true
    · rw [if_pos ht, if_pos ht, Option.map_some]
    · rw [if_neg ht, if_neg ht, ih]

/-- Without places, the reader takes the same tokens and yields its value, changed by `f`. -/
def Unplaces {α : Type} (f : α → α) (read? : List Token → Option (α × List Token)) : Prop :=
  ∀ ts, read? (ts.map Token.unplaced) = (read? ts).map (Prod.map f (List.map Token.unplaced))

theorem unplaces_word : Unplaces id word? := by
  intro ts
  cases ts with
  | nil => rfl
  | cons t ts =>
    show word? (t.unplaced :: ts.map Token.unplaced) = _
    rw [word?_cons, word?_cons, t.isIdentifier_unplaced]
    by_cases ht : t.isIdentifier = true
    · rw [if_pos ht, if_pos ht]
      rfl
    · rw [if_neg ht, if_neg ht]
      rfl

/-- One reader behind another. -/
theorem IgnoresPlace.bind (h : IgnoresPlace read?) (g : IgnoresPlace second?) :
    IgnoresPlace fun ts => (read? ts).bind second? := by
  intro ts
  show (read? (ts.map Token.unplaced)).bind second? = ((read? ts).bind second?).map _
  rw [h ts]
  cases read? ts with
  | none => rfl
  | some rest => exact g rest

/-- One reader, or another one where it fails. -/
theorem IgnoresPlaceAt.or (h : IgnoresPlaceAt read? ts) (g : IgnoresPlaceAt second? ts) :
    IgnoresPlaceAt (fun ts => (read? ts).or (second? ts)) ts := by
  show (read? (ts.map Token.unplaced)).or (second? (ts.map Token.unplaced)) =
    ((read? ts).or (second? ts)).map _
  rw [h, g]
  cases read? ts <;> rfl

theorem IgnoresPlace.or (h : IgnoresPlace read?) (g : IgnoresPlace second?) :
    IgnoresPlace fun ts => (read? ts).or (second? ts) :=
  fun ts => (h ts).or (g ts)

/-- A part that may be missing. -/
theorem IgnoresPlace.optional (h : IgnoresPlace read?) (ts : List Token) :
    optional read? (ts.map Token.unplaced) = (optional read? ts).map Token.unplaced := by
  rw [Reader.optional, Reader.optional, h ts]
  cases read? ts <;> rfl

/-- A reader behind something that is passed over. -/
theorem IgnoresPlace.comp {skip : List Token → List Token} (h : IgnoresPlace read?)
    (hskip : ∀ ts, skip (ts.map Token.unplaced) = (skip ts).map Token.unplaced) :
    IgnoresPlace fun ts => read? (skip ts) := by
  intro ts
  show read? (skip (ts.map Token.unplaced)) = _
  rw [hskip, h]

/-- A loop over a reader of entries. -/
theorem many_unplaced {α : Type} {read? : List Token → Option (α × List Token)}
    {behind : ∀ {ts rest a}, read? ts = some (a, rest) → Behind rest ts} {f : α → α}
    (h : Unplaces f read?) (ts : List Token) :
    many read? behind (ts.map Token.unplaced) =
      Prod.map (List.map f) (List.map Token.unplaced) (many read? behind ts) := by
  fun_induction many read? behind ts with
  | case1 ts hn => exact many_of_none (by rw [h, hn, Option.map_none])
  | case2 ts a rest hs _ more last hm ih =>
    have hread : read? (ts.map Token.unplaced) = some (f a, rest.map Token.unplaced) := by
      rw [h, hs]
      rfl
    rw [many_of_some hread, ih, hm]
    rfl

end Reader

/-! ### Types -/

namespace TypeExpr

open Reader

theorem ignoresPlace_lifetime : IgnoresPlace lifetime? :=
  (ignoresPlace_other "'").bind ignoresPlace_name

theorem ignoresPlace_binding : IgnoresPlace binding? :=
  ignoresPlace_name.bind (ignoresPlace_other "=")

theorem ignoresPlace_bare : IgnoresPlace bare? := by
  have heq : bare? = fun ts =>
      (name? ts).or ((other? "[" ts).bind fun us => (name? us).bind (other? "]")) := by
    funext ts
    rw [bare?, Option.orElse_eq_orElse, Option.orElse_eq_or]
    rfl
  rw [heq]
  exact ignoresPlace_name.or <|
    (ignoresPlace_other "[").bind (ignoresPlace_name.bind (ignoresPlace_other "]"))

theorem ignoresPlace_reference : IgnoresPlace reference? :=
  (ignoresPlace_other "&").bind <|
    (ignoresPlace_bare.comp (ignoresPlace_keyword "mut").optional).comp ignoresPlace_lifetime.optional

theorem ignoresPlace_simple : IgnoresPlace simple? := by
  have htrait : IgnoresPlace traitObject? := (ignoresPlace_keyword "dyn").bind ignoresPlace_bare
  have himpl : IgnoresPlace implReference? :=
    (ignoresPlace_other "&").bind ((ignoresPlace_keyword "impl").bind ignoresPlace_bare)
  have hmut : IgnoresPlace changeable? := (ignoresPlace_keyword "mut").bind ignoresPlace_bare
  have heq : simple? = fun ts => (traitObject? ts).or <| (implReference? ts).or <|
      (changeable? ts).or <| (reference? ts).or (bare? ts) := by
    funext ts
    simp only [simple?, Option.orElse_eq_orElse, Option.orElse_eq_or]
  rw [heq]
  exact htrait.or (himpl.or (hmut.or (ignoresPlace_reference.or ignoresPlace_bare)))

section Nested

variable {ts : List Token}

/-! The nested shapes are read alike if the entries of shorter lists are. -/

theorem ignoresPlaceAt_head
    (hi : ∀ us, us.length < ts.length → IgnoresPlaceAt (items? .round) us) :
    IgnoresPlaceAt head? ts := by
  rw [IgnoresPlaceAt, head?_eq, head?_eq, ignoresPlace_control]
  cases ho : control? "(" ts with
  | none => exact ignoresPlace_simple ts
  | some opened =>
    exact (ignoresPlace_control ")" opened).or (hi opened (behind_of_next? ho).length_lt)

theorem ignoresPlaceAt_arguments
    (hi : ∀ us, us.length < ts.length → IgnoresPlaceAt (items? .angle) us) :
    IgnoresPlaceAt arguments? ts := by
  rw [IgnoresPlaceAt, arguments?_eq, arguments?_eq, ignoresPlace_control]
  cases ho : control? "<" ts with
  | none => rfl
  | some opened => exact hi opened (behind_of_next? ho).length_lt

theorem behind_of_head? {rest : List Token} (h : head? ts = some rest) : Behind rest ts := by
  obtain ⟨r, _, rfl⟩ := Option.map_eq_some_iff.1 h
  exact r.behind

theorem ignoresPlaceAt_type (hi : ∀ b us, us.length < ts.length → IgnoresPlaceAt (items? b) us) :
    IgnoresPlaceAt type? ts := by
  rw [IgnoresPlaceAt, type?_eq, type?_eq, ignoresPlaceAt_head (hi .round)]
  cases hh : head? ts with
  | none => rfl
  | some rest =>
    have hlength := (behind_of_head? hh).length_lt
    have harguments : IgnoresPlaceAt arguments? rest :=
      ignoresPlaceAt_arguments fun us hus => hi .angle us (Nat.lt_trans hus hlength)
    simp only [Option.map_some]
    rw [harguments]
    cases arguments? rest <;> rfl

theorem ignoresPlaceAt_item (b : Bracket)
    (hi : ∀ b us, us.length < ts.length → IgnoresPlaceAt (items? b) us) :
    IgnoresPlaceAt (item? b) ts := by
  cases b with
  | round =>
    rw [IgnoresPlaceAt, item?_round, item?_round]
    exact ignoresPlaceAt_type hi
  | angle =>
    rw [IgnoresPlaceAt, item?_angle, item?_angle, ignoresPlace_lifetime]
    have htype : IgnoresPlaceAt type? ((binding? ts).getD ts) := by
      cases hb : binding? ts with
      | none => exact ignoresPlaceAt_type hi
      | some bound =>
        have hlength := (behind_of_binding? hb).length_lt
        exact ignoresPlaceAt_type fun b us hus => hi b us (Nat.lt_trans hus hlength)
    have hbound : (binding? (ts.map Token.unplaced)).getD (ts.map Token.unplaced) =
        ((binding? ts).getD ts).map Token.unplaced := ignoresPlace_binding.optional ts
    rw [hbound, htype]
    cases lifetime? ts <;> rfl

theorem behind_of_item? {rest : List Token} {b : Bracket} (h : item? b ts = some rest) :
    Behind rest ts := by
  obtain ⟨r, _, rfl⟩ := Option.map_eq_some_iff.1 h
  exact r.behind

/-- The induction is on the length of the list, as with the entries inside a bracket. -/
theorem ignoresPlace_items (b : Bracket) : IgnoresPlace (items? b) := by
  intro ts
  induction hn : ts.length using Nat.strongRecOn generalizing b ts with
  | ind n ih =>
    have hi : ∀ b us, us.length < ts.length → IgnoresPlaceAt (items? b) us :=
      fun b us hus => ih us.length (hn ▸ hus) b us rfl
    rw [IgnoresPlaceAt, items?_eq, items?_eq, ignoresPlaceAt_item b hi]
    cases hr : item? b ts with
    | none => rfl
    | some rest =>
      have hrest := (behind_of_item? hr).length_lt
      simp only [Option.map_some, Option.bind_some]
      rw [ignoresPlace_control]
      cases hc : control? "," rest with
      | none => exact ignoresPlace_control b.closer rest
      | some comma =>
        have hcomma := (behind_of_next? hc).length_lt
        exact (ignoresPlace_control b.closer comma).or (hi b comma (Nat.lt_trans hcomma hrest))

end Nested

theorem ignoresPlace_type : IgnoresPlace type? :=
  fun _ => ignoresPlaceAt_type fun b us _ => ignoresPlace_items b us

end TypeExpr

end DocAudit
