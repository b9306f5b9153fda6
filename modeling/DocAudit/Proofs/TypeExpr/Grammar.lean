import DocAudit.TypeExpr

namespace DocAudit.TypeExpr

/-!
# The grammar of type expressions

What a type is, said without reading one.  With brackets around what may be missing and braces around
what may be repeated,

    type     := head | head '<' arg {',' arg} [','] '>'
    head     := '(' ')' | '(' type {',' type} [','] ')' | simple
    simple   := dyn bare | '&' impl bare | mut bare
              | '&' [lifetime] mut bare | '&' [lifetime] bare | bare
    bare     := name | '[' name ']'
    lifetime := ''' name
    arg      := lifetime | name '=' type | type

where the bare type behind `'&' [lifetime]` is not the lone word `mut`.

* `Bare`, `Lifetime`, `Reference`, `Simple` — the shapes without nesting;
* `Part`, `Derives` — the nested parts, and which token lists each of them derives;
* `slice` — the tokens between two indexes.
-/

/-! ### Shapes without nesting -/

/-- A name, or a name between square brackets. -/
inductive Bare : List Token → Prop where
  /-- A name. -/
  | name {n : Token} (hn : n.isIdentifier = true) : Bare [n]
  /-- A name between square brackets. -/
  | bracketed {o n c : Token} (ho : o.isOther "[" = true) (hn : n.isIdentifier = true)
      (hc : c.isOther "]" = true) : Bare [o, n, c]

/-- An apostrophe and a name. -/
inductive Lifetime : List Token → Prop where
  /-- An apostrophe and a name. -/
  | named {q n : Token} (hq : q.isOther "'" = true) (hn : n.isIdentifier = true) : Lifetime [q, n]

/-- A reference to a bare type. -/
inductive Reference : List Token → Prop where
  /-- A reference through which the value may change. -/
  | changeable {a m : Token} {l b : List Token} (ha : a.isOther "&" = true)
      (hl : l = [] ∨ Lifetime l) (hm : m.isKeyword "mut" = true) (hb : Bare b) :
      Reference (a :: l ++ m :: b)
  /-- A reference without a marker: the lone word `mut` would be one. -/
  | plain {a : Token} {l b : List Token} (ha : a.isOther "&" = true) (hl : l = [] ∨ Lifetime l)
      (hb : Bare b) (hne : ∀ m, b = [m] → m.isKeyword "mut" = false) : Reference (a :: l ++ b)

theorem Reference.exists_cons {ts : List Token} (h : Reference ts) :
    ∃ a us, a.isOther "&" = true ∧ ts = a :: us := by
  cases h with
  | changeable ha _ _ _ => exact ⟨_, _, ha, rfl⟩
  | plain ha _ _ _ => exact ⟨_, _, ha, rfl⟩

/-- A bare type with or without a marker. -/
inductive Simple : List Token → Prop where
  /-- A trait object. -/
  | traitObject {d : Token} {b : List Token} (hd : d.isKeyword "dyn" = true) (hb : Bare b) :
      Simple (d :: b)
  /-- A reference to an implementation. -/
  | implReference {a i : Token} {b : List Token} (ha : a.isOther "&" = true)
      (hi : i.isKeyword "impl" = true) (hb : Bare b) : Simple (a :: i :: b)
  /-- A changeable type. -/
  | changeable {m : Token} {b : List Token} (hm : m.isKeyword "mut" = true) (hb : Bare b) :
      Simple (m :: b)
  /-- A reference. -/
  | reference {ts : List Token} (h : Reference ts) : Simple ts
  /-- A bare type. -/
  | bare {b : List Token} (hb : Bare b) : Simple b

/-! ### Nested shapes -/

/-- The parts of the grammar that nest. -/
inductive Part where
  /-- What may stand in front of arguments. -/
  | head
  /-- A type. -/
  | type
  /-- One entry of a bracketed list: a member of a tuple, or an argument. -/
  | item (b : Bracket)
  /-- The entries of a bracketed list, at least one, with commas between them, perhaps one behind the
      last, and the closing bracket. -/
  | items (b : Bracket)
deriving DecidableEq, Repr

/-- `Derives part ts`: the grammar derives the token list `ts` from the part. -/
inductive Derives : Part → List Token → Prop where
  /-- A simple type. -/
  | simple {ts : List Token} (h : Simple ts) : Derives .head ts
  /-- The empty tuple. -/
  | unit {o c : Token} (ho : o.isControl "(" = true) (hc : c.isControl ")" = true) :
      Derives .head [o, c]
  /-- A tuple with members. -/
  | tuple {o : Token} {us : List Token} (ho : o.isControl "(" = true)
      (hu : Derives (.items .round) us) : Derives .head (o :: us)
  /-- A type without arguments. -/
  | plain {ts : List Token} (h : Derives .head ts) : Derives .type ts
  /-- A type with arguments. -/
  | generic {ts us : List Token} {o : Token} (h : Derives .head ts) (ho : o.isControl "<" = true)
      (hu : Derives (.items .angle) us) : Derives .type (ts ++ o :: us)
  /-- A type among members or arguments. -/
  | entry {b : Bracket} {ts : List Token} (h : Derives .type ts) : Derives (.item b) ts
  /-- A lifetime among arguments. -/
  | lifetime {ts : List Token} (h : Lifetime ts) : Derives (.item .angle) ts
  /-- A name that is bound to a type, among arguments. -/
  | binding {n e : Token} {ts : List Token} (hn : n.isIdentifier = true)
      (he : e.isOther "=" = true) (h : Derives .type ts) : Derives (.item .angle) (n :: e :: ts)
  /-- The last entry, right before the closing bracket. -/
  | last {b : Bracket} {ts : List Token} {c : Token} (h : Derives (.item b) ts)
      (hc : c.isControl b.closer = true) : Derives (.items b) (ts ++ [c])
  /-- The last entry, with a comma before the closing bracket. -/
  | trailing {b : Bracket} {ts : List Token} {d c : Token} (h : Derives (.item b) ts)
      (hd : d.isControl "," = true) (hc : c.isControl b.closer = true) :
      Derives (.items b) (ts ++ [d, c])
  /-- An entry that is followed by more. -/
  | more {b : Bracket} {ts us : List Token} {d : Token} (h : Derives (.item b) ts)
      (hd : d.isControl "," = true) (hu : Derives (.items b) us) : Derives (.items b) (ts ++ d :: us)

/-- The reader of the part. -/
def Part.read? : Part → List Token → Option (List Token)
  | .head => head?
  | .type => type?
  | .item b => item? b
  | .items b => items? b

/-- Whether the part may go on with the token.  Behind any other token that follows it, the part is at
    its end. -/
def Part.mayContinue : Part → Token → Bool
  | .head, t => t.isIdentifier || t.isOther "["
  | .type, t => t.isIdentifier || t.isOther "[" || t.isControl "<"
  | .item _, t => t.isIdentifier || t.isOther "[" || t.isControl "<" || t.isOther "="
  | .items _, _ => false

/-! ### Slices -/

/-- The tokens from index `i` up to index `k`. -/
def slice (ts : List Token) (i k : Nat) : List Token :=
  (ts.take k).drop i

theorem slice_append_drop {ts : List Token} {i k : Nat} (h : i ≤ k) :
    slice ts i k ++ ts.drop k = ts.drop i := by
  unfold slice
  rw [List.drop_take]
  have hk : ts.drop k = (ts.drop i).drop (k - i) := by
    rw [List.drop_drop, Nat.add_sub_cancel' h]
  rw [hk, List.take_append_drop]

theorem slice_eq_nil {ts : List Token} {i k : Nat} (h : k ≤ i) : slice ts i k = [] := by
  unfold slice
  rw [List.drop_eq_nil_iff, List.length_take]
  omega

end DocAudit.TypeExpr
