import DocAudit.Proofs.Token.Balanced
import DocAudit.Proofs.TypeExpr.Grammar

namespace DocAudit.TypeExpr

/-!
# Types nest their brackets

* `Derives.mem_kinds` — which tokens a type consists of: among the delimiters, commas, parentheses and
  angle brackets;
* `Derives.balanced` — each pair of brackets is balanced in a type.

So a type that is read inside a bracketed list does not end that list.
-/

variable {opener closer : String} {part : Part} {b : Bracket} {ts : List Token} {o c : Token}

/-- The pairs of brackets among the delimiters. -/
def bracketPairs : List (String × String) :=
  [("(", ")"), ("<", ">"), ("\x7b", "\x7d")]

/-- A token of no delimiter class is balanced, whichever brackets are counted. -/
theorem balanced_of_ne_control (h : ∀ t ∈ ts, t.kind ≠ .control) : Balanced opener closer ts :=
  balanced_of_forall fun t ht => by grind [h t ht]

/-- A comma is no bracket. -/
theorem balanced_comma {d : Token} (hd : d.isControl "," = true)
    (hp : (opener, closer) ∈ bracketPairs) : Balanced opener closer [d] := by
  refine balanced_of_forall fun t ht => ?_
  obtain rfl := List.mem_singleton.1 ht
  grind [bracketPairs]

/-- A bracketed list around balanced tokens is balanced, whichever brackets are counted. -/
theorem balanced_bracketed (h : Balanced opener closer ts) (ho : o.isControl b.opener = true)
    (hc : c.isControl b.closer = true) (hp : (opener, closer) ∈ bracketPairs) :
    Balanced opener closer (o :: ts ++ [c]) := by
  by_cases hb : opener = b.opener
  · have hcloser : closer = b.closer := by
      cases b <;> grind [bracketPairs, Bracket.opener, Bracket.closer]
    subst hb hcloser
    exact h.enclosed ho hc (by cases b <;> decide)
  · -- Brackets of another pair are not counted.
    have hopen : Balanced opener closer [o] := balanced_of_forall fun t ht => by
      obtain rfl := List.mem_singleton.1 ht
      cases b <;> grind [bracketPairs, Bracket.opener]
    have hclose : Balanced opener closer [c] := balanced_of_forall fun t ht => by
      obtain rfl := List.mem_singleton.1 ht
      cases b <;> grind [bracketPairs, Bracket.opener, Bracket.closer]
    exact (hopen.append h).append hclose

/-- The tokens of a type without nesting are words and characters outside the named classes. -/
def Flat (ts : List Token) : Prop :=
  ∀ t ∈ ts, t.kind = .identifier ∨ t.kind = .other

theorem Flat.ne_control (h : Flat ts) : ∀ t ∈ ts, t.kind ≠ .control :=
  fun t ht => by grind [h t ht]

theorem flat_nil : Flat [] :=
  List.forall_mem_nil _

theorem Flat.cons {t : Token} (ht : t.kind = .identifier ∨ t.kind = .other) (h : Flat ts) :
    Flat (t :: ts) :=
  List.forall_mem_cons.2 ⟨ht, h⟩

theorem Flat.append {us : List Token} (h : Flat ts) (g : Flat us) : Flat (ts ++ us) :=
  List.forall_mem_append.2 ⟨h, g⟩

theorem Bare.flat (h : Bare ts) : Flat ts := by
  cases h with
  | name hn => exact flat_nil.cons (by grind)
  | bracketed ho hn hc => exact ((flat_nil.cons (by grind)).cons (by grind)).cons (by grind)

theorem Lifetime.flat (h : Lifetime ts) : Flat ts := by
  obtain ⟨hq, hn⟩ := h
  exact (flat_nil.cons (by grind)).cons (by grind)

theorem Reference.flat (h : Reference ts) : Flat ts := by
  have hlifetime {l : List Token} (hl : l = [] ∨ Lifetime l) : Flat l := by
    rcases hl with rfl | hl
    · exact flat_nil
    · exact hl.flat
  cases h with
  | changeable ha hl hm hb =>
    exact ((hlifetime hl).cons (by grind)).append (hb.flat.cons (by grind))
  | plain ha hl hb _ => exact ((hlifetime hl).cons (by grind)).append hb.flat

theorem Simple.flat (h : Simple ts) : Flat ts := by
  cases h with
  | traitObject hd hb => exact hb.flat.cons (by grind)
  | implReference ha hi hb => exact (hb.flat.cons (by grind)).cons (by grind)
  | changeable hm hb => exact hb.flat.cons (by grind)
  | reference h => exact h.flat
  | bare hb => exact hb.flat

/-- A type has no comments and no arrow, and its delimiters are commas, parentheses and angle
    brackets: there are no braces. -/
theorem Derives.mem_kinds (h : Derives part ts) :
    ∀ t ∈ ts, t.kind = .identifier ∨ t.kind = .other ∨
      t.kind = .control ∧ t.text ∈ ["(", ")", ",", "<", ">"] := by
  induction h with
  | simple h => grind [Flat, h.flat]
  | lifetime h => grind [Flat, h.flat]
  | @last b _ _ _ hc => cases b <;> grind [Bracket.closer]
  | @trailing b _ _ _ _ hd hc => cases b <;> grind [Bracket.closer]
  | _ => grind

/-- How brackets stand in a part of the grammar: entries have one closer too many, at their end, for
    the opener in front of them is not theirs. -/
def Part.Nests (opener closer : String) : Part → List Token → Prop
  | .items b, ts =>
    ∃ inside c, Balanced opener closer inside ∧ c.isControl b.closer = true ∧ ts = inside ++ [c]
  | _, ts => Balanced opener closer ts

/-- The induction is on the derivation. -/
theorem Derives.nests (h : Derives part ts) (hp : (opener, closer) ∈ bracketPairs) :
    part.Nests opener closer ts := by
  induction h with
  | simple h => exact balanced_of_ne_control h.flat.ne_control
  | unit ho hc => exact balanced_bracketed (b := .round) balanced_nil ho hc hp
  | tuple ho _ ih =>
    obtain ⟨inside, c, hi, hc, rfl⟩ := ih
    exact balanced_bracketed (b := .round) hi ho hc hp
  | plain _ ih => exact ih
  | generic _ ho _ ih ihu =>
    obtain ⟨inside, c, hi, hc, rfl⟩ := ihu
    exact Balanced.append ih (balanced_bracketed (b := .angle) hi ho hc hp)
  | entry _ ih => exact ih
  | lifetime h => exact balanced_of_ne_control h.flat.ne_control
  | @binding n e _ hn he _ ih =>
    have hfront : Balanced opener closer [n, e] := balanced_of_ne_control (by grind)
    exact hfront.append ih
  | last _ hc ih => exact ⟨_, _, ih, hc, rfl⟩
  | trailing _ hd hc ih =>
    exact ⟨_, _, Balanced.append ih (balanced_comma hd hp), hc, by simp⟩
  | more _ hd _ ih ihu =>
    obtain ⟨inside, c, hi, hc, rfl⟩ := ihu
    exact ⟨_, c, (Balanced.append ih (balanced_comma hd hp)).append hi, hc, by simp⟩

/-- **Types nest their brackets.** In a type, each pair of brackets is balanced. -/
theorem Derives.balanced (h : Derives .type ts) (hp : (opener, closer) ∈ bracketPairs) :
    Balanced opener closer ts :=
  h.nests hp

end DocAudit.TypeExpr
