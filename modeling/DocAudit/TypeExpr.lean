import DocAudit.Token.Reader

namespace DocAudit.TypeExpr

/-!
# The extent of a type expression

A declaration names the types of its arguments and fields.  Their structure does not matter here,
only where each one ends, so the readers below take one type from the front of a token list:

* `lifetime?`, `bare?`, `simple?` — a lifetime, an identifier or bracketed identifier, and such a
  type with its marker (`dyn`, `impl`, `mut` or a reference);
* `head?` — a simple type, or types in parentheses;
* `generic?` — a head with arguments between angle brackets;
* `type?` — either of the two.

The shapes are tried in order and the first that applies decides.  Within a shape an optional part
is taken whenever it is there, and never given back.  Angle brackets that do not close leave the
head.
-/

open Reader

/-! ### Shapes without nesting -/

/-- A named lifetime: an apostrophe and a name. -/
def lifetime? (ts : List Token) : Option (List Token) := do
  name? (← other? "'" ts)

/-- A name, or a name between square brackets. -/
def bare? (ts : List Token) : Option (List Token) :=
  name? ts <|> do
    let rest ← other? "[" ts
    let rest ← name? rest
    other? "]" rest

/-- The name of an associated type and the sign that binds it: a name and `=`. -/
def binding? (ts : List Token) : Option (List Token) := do
  other? "=" (← name? ts)

/-- A trait object: `dyn` and a bare type. -/
def traitObject? (ts : List Token) : Option (List Token) := do
  bare? (← keyword? "dyn" ts)

/-- A reference to an implementation: `& impl` and a bare type. -/
def implReference? (ts : List Token) : Option (List Token) := do
  let rest ← other? "&" ts
  bare? (← keyword? "impl" rest)

/-- A changeable type: `mut` and a bare type. -/
def changeable? (ts : List Token) : Option (List Token) := do
  bare? (← keyword? "mut" ts)

/-- A reference: `&`, a lifetime if there is one, `mut` if it is there, and a bare type. -/
def reference? (ts : List Token) : Option (List Token) := do
  let rest ← other? "&" ts
  bare? (optional (keyword? "mut") (optional lifetime? rest))

/-- A bare type with its marker, if it has one. -/
def simple? (ts : List Token) : Option (List Token) :=
  traitObject? ts <|> implReference? ts <|> changeable? ts <|> reference? ts <|> bare? ts

section

variable {ts rest : List Token}

theorem behind_of_lifetime? (h : lifetime? ts = some rest) : Behind rest ts := by
  simp only [lifetime?, Option.bind_eq_bind, Option.bind_eq_some_iff] at h
  obtain ⟨us, hq, hn⟩ := h
  exact (behind_of_next? hn).trans (behind_of_next? hq)

theorem behind_of_binding? (h : binding? ts = some rest) : Behind rest ts := by
  simp only [binding?, Option.bind_eq_bind, Option.bind_eq_some_iff] at h
  obtain ⟨us, hn, he⟩ := h
  exact (behind_of_next? he).trans (behind_of_next? hn)

theorem behind_of_bare? (h : bare? ts = some rest) : Behind rest ts := by
  simp only [bare?, Option.orElse_eq_orElse, Option.orElse_eq_or, Option.or_eq_some_iff,
    Option.bind_eq_bind, Option.bind_eq_some_iff] at h
  rcases h with h | ⟨_, us, hs, vs, hn, h⟩
  · exact behind_of_next? h
  · exact (behind_of_next? h).trans ((behind_of_next? hn).trans (behind_of_next? hs))

theorem behind_of_simple? (h : simple? ts = some rest) : Behind rest ts := by
  simp only [simple?, traitObject?, implReference?, changeable?, reference?,
    Option.orElse_eq_orElse, Option.orElse_eq_or, Option.or_eq_some_iff, Option.bind_eq_bind,
    Option.bind_eq_some_iff] at h
  rcases h with ⟨us, hm, h⟩ | ⟨_, ⟨us, hm, vs, hk, h⟩ | ⟨_, ⟨us, hm, h⟩ | ⟨_, ⟨us, hm, h⟩ | ⟨_, h⟩⟩⟩⟩
  · exact (behind_of_bare? h).trans (behind_of_next? hm)
  · exact (behind_of_bare? h).trans ((behind_of_next? hk).trans (behind_of_next? hm))
  · exact (behind_of_bare? h).trans (behind_of_next? hm)
  · have hl : optional lifetime? us <:+ us :=
      optional_isSuffix fun _ hl => behind_of_lifetime? hl
    have hk : optional (keyword? "mut") (optional lifetime? us) <:+ us :=
      (optional_isSuffix fun _ hk => behind_of_next? hk).trans hl
    exact ((behind_of_bare? h).suffix_left hk).trans (behind_of_next? hm)
  · exact behind_of_bare? h

end

/-! ### Nested shapes -/

/-- The two kinds of brackets around lists of types. -/
inductive Bracket where
  /-- Parentheses around the members of a tuple. -/
  | round
  /-- Angle brackets around the arguments of a generic type. -/
  | angle
deriving DecidableEq, Repr

/-- The delimiter that opens the list. -/
def Bracket.opener : Bracket → String
  | .round => "("
  | .angle => "<"

/-- The delimiter that closes the list. -/
def Bracket.closer : Bracket → String
  | .round => ")"
  | .angle => ">"

/-- What is left of `ts` behind a type or a part of one, with the reason why reading goes on to an
    end. -/
structure Rest (ts : List Token) where
  /-- The tokens that are left. -/
  tokens : List Token
  /-- At least one token was taken. -/
  behind : Behind tokens ts

namespace Rest

/-- What a reader of plain lists leaves, with the fact that it took a token. -/
def of? (read? : List Token → Option (List Token))
    (behind : ∀ {ts rest}, read? ts = some rest → Behind rest ts) (ts : List Token) :
    Option (Rest ts) :=
  match h : read? ts with
  | none => none
  | some rest => some ⟨rest, behind h⟩

/-- What is left behind a second part that follows a first one. -/
def append {ts : List Token} (r : Rest ts) (s : Rest r.tokens) : Rest ts :=
  ⟨s.tokens, s.behind.trans r.behind⟩

theorem length_lt {ts : List Token} (r : Rest ts) : r.tokens.length < ts.length :=
  r.behind.length_lt

end Rest

mutual

/-- Types in parentheses, possibly none, or a simple type. -/
def headRest? (ts : List Token) : Option (Rest ts) :=
  match Rest.of? (control? Bracket.round.opener) behind_of_next? ts with
  | none => Rest.of? simple? behind_of_simple? ts
  | some opened =>
    have := opened.length_lt
    match Rest.of? (control? Bracket.round.closer) behind_of_next? opened.tokens with
    | some closed => some (opened.append closed)
    | none => (itemsRest? .round opened.tokens).map opened.append
termination_by (ts.length, 1)

/-- A head, with its arguments between angle brackets if they close. -/
def typeRest? (ts : List Token) : Option (Rest ts) :=
  (headRest? ts).map fun head =>
    have := head.length_lt
    match argumentsRest? head.tokens with
    | some arguments => head.append arguments
    | none => head
termination_by (ts.length, 2)

/-- Arguments between angle brackets. -/
def argumentsRest? (ts : List Token) : Option (Rest ts) :=
  match Rest.of? (control? Bracket.angle.opener) behind_of_next? ts with
  | none => none
  | some opened =>
    have := opened.length_lt
    (itemsRest? .angle opened.tokens).map opened.append
termination_by (ts.length, 0)

/-- One entry of a bracketed list: a type, and between angle brackets also a lifetime or a name that
    is bound to a type. -/
def itemRest? (b : Bracket) (ts : List Token) : Option (Rest ts) :=
  match b with
  | .round => typeRest? ts
  | .angle =>
    match Rest.of? lifetime? behind_of_lifetime? ts with
    | some lifetime => some lifetime
    | none =>
      match Rest.of? binding? behind_of_binding? ts with
      | some bound =>
        have := bound.length_lt
        (typeRest? bound.tokens).map bound.append
      | none => typeRest? ts
termination_by (ts.length, 3)

/-- The entries of a bracketed list, at least one, through its closer. -/
def itemsRest? (b : Bracket) (ts : List Token) : Option (Rest ts) :=
  (itemRest? b ts).bind fun item =>
    have := item.length_lt
    match Rest.of? (control? ",") behind_of_next? item.tokens with
    | none => (Rest.of? (control? b.closer) behind_of_next? item.tokens).map item.append
    | some comma =>
      have := comma.length_lt
      match Rest.of? (control? b.closer) behind_of_next? comma.tokens with
      | some closed => some (item.append (comma.append closed))
      | none => (itemsRest? b comma.tokens).map fun more => item.append (comma.append more)
termination_by (ts.length, 4)

end

/-! ### Types from the front of a list -/

/-- Takes types in parentheses, possibly none, or a simple type. -/
def head? (ts : List Token) : Option (List Token) :=
  (headRest? ts).map Rest.tokens

/-- Takes the arguments of a generic type, from the opening angle bracket to the closing one. -/
def arguments? (ts : List Token) : Option (List Token) :=
  (argumentsRest? ts).map Rest.tokens

/-- Takes one entry of a bracketed list. -/
def item? (b : Bracket) (ts : List Token) : Option (List Token) :=
  (itemRest? b ts).map Rest.tokens

/-- Takes the entries of a bracketed list through its closer. -/
def items? (b : Bracket) (ts : List Token) : Option (List Token) :=
  (itemsRest? b ts).map Rest.tokens

/-- Takes a head with its arguments. -/
def generic? (ts : List Token) : Option (List Token) := do
  arguments? (← head? ts)

/-- Takes one type, as much of it as there is. -/
def type? (ts : List Token) : Option (List Token) :=
  (typeRest? ts).map Rest.tokens

/-! ### The grammar as equations between plain readers -/

theorem Rest.of?_eq_none_iff {read? : List Token → Option (List Token)}
    {behind : ∀ {ts rest}, read? ts = some rest → Behind rest ts} {ts : List Token} :
    Rest.of? read? behind ts = none ↔ read? ts = none := by
  unfold Rest.of?
  split <;> simp_all

theorem Rest.tokens_of_of? {read? : List Token → Option (List Token)}
    {behind : ∀ {ts rest}, read? ts = some rest → Behind rest ts} {ts : List Token} {r : Rest ts}
    (h : Rest.of? read? behind ts = some r) : read? ts = some r.tokens := by
  unfold Rest.of? at h
  split at h
  · cases h
  · cases h; assumption

theorem Rest.map_of? (read? : List Token → Option (List Token))
    (behind : ∀ {ts rest}, read? ts = some rest → Behind rest ts) (ts : List Token) :
    (Rest.of? read? behind ts).map Rest.tokens = read? ts := by
  cases h : Rest.of? read? behind ts with
  | none => rw [Rest.of?_eq_none_iff.1 h]; rfl
  | some r => rw [Rest.tokens_of_of? h]; rfl

theorem head?_eq (ts : List Token) :
    head? ts = match control? "(" ts with
      | none => simple? ts
      | some opened => (control? ")" opened).or (items? .round opened) := by
  rw [head?, headRest?]
  cases ho : Rest.of? (control? Bracket.round.opener) behind_of_next? ts with
  | none =>
    rw [show control? "(" ts = none from Rest.of?_eq_none_iff.1 ho]
    exact Rest.map_of? simple? behind_of_simple? ts
  | some opened =>
    rw [show control? "(" ts = some opened.tokens from Rest.tokens_of_of? ho]
    cases hc : Rest.of? (control? Bracket.round.closer) behind_of_next? opened.tokens with
    | none =>
      have hn : control? ")" opened.tokens = none := Rest.of?_eq_none_iff.1 hc
      simp only [hc, hn, Option.none_or, items?, Option.map_map]
      rfl
    | some closed =>
      have hs : control? ")" opened.tokens = some closed.tokens := Rest.tokens_of_of? hc
      simp only [hc, hs, Option.some_or]
      rfl

theorem type?_eq (ts : List Token) :
    type? ts = (head? ts).map fun head => (arguments? head).getD head := by
  rw [type?, typeRest?, head?, Option.map_map, Option.map_map]
  congr 1
  funext head
  simp only [Function.comp_apply, arguments?]
  cases argumentsRest? head.tokens <;> rfl

theorem arguments?_eq (ts : List Token) :
    arguments? ts = (control? "<" ts).bind (items? .angle) := by
  rw [arguments?, argumentsRest?]
  cases ho : Rest.of? (control? Bracket.angle.opener) behind_of_next? ts with
  | none =>
    rw [show control? "<" ts = none from Rest.of?_eq_none_iff.1 ho]
    rfl
  | some opened =>
    rw [show control? "<" ts = some opened.tokens from Rest.tokens_of_of? ho]
    simp only [Option.bind_some, items?, Option.map_map]
    rfl

theorem item?_round (ts : List Token) : item? .round ts = type? ts := by
  rw [item?, itemRest?, type?]

theorem item?_angle (ts : List Token) :
    item? .angle ts = (lifetime? ts).or (type? ((binding? ts).getD ts)) := by
  rw [item?, itemRest?]
  cases hl : Rest.of? lifetime? behind_of_lifetime? ts with
  | some r => rw [Rest.tokens_of_of? hl]; rfl
  | none =>
    rw [Rest.of?_eq_none_iff.1 hl, Option.none_or]
    cases hb : Rest.of? binding? behind_of_binding? ts with
    | none =>
      have hn : binding? ts = none := Rest.of?_eq_none_iff.1 hb
      rw [hn]
      rfl
    | some bound =>
      have hs : binding? ts = some bound.tokens := Rest.tokens_of_of? hb
      rw [hs]
      simp only [Option.map_map]
      rfl

theorem items?_eq (b : Bracket) (ts : List Token) :
    items? b ts = (item? b ts).bind fun item =>
      match control? "," item with
      | none => control? b.closer item
      | some comma => (control? b.closer comma).or (items? b comma) := by
  rw [items?, itemsRest?, item?]
  cases itemRest? b ts with
  | none => rfl
  | some item =>
    simp only [Option.bind_some, Option.map_some]
    cases hc : Rest.of? (control? ",") behind_of_next? item.tokens with
    | none =>
      have hn : control? "," item.tokens = none := Rest.of?_eq_none_iff.1 hc
      simp only [hn, ← Rest.map_of? (control? b.closer) behind_of_next? item.tokens,
        Option.map_map]
      rfl
    | some comma =>
      have hs : control? "," item.tokens = some comma.tokens := Rest.tokens_of_of? hc
      simp only [hs]
      cases hd : Rest.of? (control? b.closer) behind_of_next? comma.tokens with
      | none =>
        have hn : control? b.closer comma.tokens = none := Rest.of?_eq_none_iff.1 hd
        simp only [hn, Option.none_or, items?, Option.map_map]
        rfl
      | some closed =>
        have he : control? b.closer comma.tokens = some closed.tokens := Rest.tokens_of_of? hd
        simp only [he, Option.some_or]
        rfl

theorem behind_of_type? {ts rest : List Token} (h : type? ts = some rest) : Behind rest ts := by
  obtain ⟨r, _, rfl⟩ := Option.map_eq_some_iff.1 h
  exact r.behind

/-- Where a reader that starts at an index of a token list ends, if it applies there. -/
def endIndex? (read? : List Token → Option (List Token)) (ts : List Token) (index : Nat) :
    Option Nat :=
  (read? (ts.drop index)).map fun rest => ts.length - rest.length

end DocAudit.TypeExpr
