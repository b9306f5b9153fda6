import DocAudit.Proofs.Declaration.Starts
import DocAudit.Proofs.Token.Chain

namespace DocAudit

/-!
# The parts of a declaration

The block of a declaration is its start and what was read behind it, one part behind another.

* `Perhaps` — a token that may be missing;
* `function?_parts` — the start of a signature, its parameters, the closing parenthesis and the arrow;
* `struct?_parts` — the start of a struct, which ends in front of a semicolon, or goes on with a brace,
  the fields and the closing brace.
-/

open Reader Header

variable {ts us block : List Token}

/-- A token of a class, or nothing. -/
def Perhaps (p : Token → Bool) (ts : List Token) : Prop :=
  ts = [] ∨ ∃ t, p t = true ∧ ts = [t]

theorem Perhaps.forall_mem {p : Token → Bool} (h : Perhaps p ts) : ∀ t ∈ ts, p t = true := by
  rcases h with rfl | ⟨t, ht, rfl⟩
  · exact List.forall_mem_nil _
  · exact List.forall_mem_singleton.2 ht

theorem exists_perhaps (p : Token → Bool) (ts : List Token) :
    ∃ front, Perhaps p front ∧ (next? p ts).isNone = front.isEmpty ∧
      ts = front ++ Reader.optional (next? p) ts := by
  cases h : next? p ts with
  | none => exact ⟨[], .inl rfl, rfl, (optional_of_none h).symm⟩
  | some rest =>
    rw [optional_of_some h]
    obtain ⟨t, ht, rfl⟩ := next?_eq_some_iff.1 h
    exact ⟨[t], .inr ⟨t, ht, rfl⟩, rfl, rfl⟩

theorem function?_parts {f : Function} (h : function? (block ++ us) = some (f, us)) :
    ∃ comments front members closing arrow,
      SignatureStart f.name comments front ∧
      Chain parameter? ((members.map Prod.snd).flatten ++ (closing ++ (arrow ++ us))) members
        (closing ++ (arrow ++ us)) ∧
      members.map Prod.fst = f.arguments ∧ Perhaps (·.isControl ")") closing ∧
      Perhaps (·.isOperator "->") arrow ∧ f.returnsNothing = arrow.isEmpty ∧
      f.docs = String.join (comments.map Token.text) ∧
      block = front ++ ((members.map Prod.snd).flatten ++ (closing ++ arrow)) := by
  simp only [function?, Option.bind_eq_bind, Option.bind_eq_some_iff, Option.pure_def,
    Option.some.injEq, Prod.mk.injEq, Prod.exists] at h
  obtain ⟨name, inside, hsignature, rfl, hus⟩ := h
  obtain ⟨comments, front, hstart, hfront⟩ := signature?_eq_some_iff.1 hsignature
  obtain ⟨members, hc, hnames⟩ := many_chain behind_of_parameter? inside
  obtain ⟨closing, hclosing, _, hcloser⟩ := exists_perhaps (·.isControl ")") (parameters inside).2
  obtain ⟨arrow, harrow, hnothing, hoperator⟩ := exists_perhaps (·.isOperator "->")
    (Reader.optional (control? ")") (parameters inside).2)
  have hlast : Reader.optional (next? (·.isOperator "->"))
      (Reader.optional (control? ")") (parameters inside).2) = us := hus
  rw [hlast] at hoperator
  -- From the back: the arrow in front of what follows, and the parenthesis in front of the arrow.
  have hrest : (parameters inside).2 = closing ++ (arrow ++ us) := by
    rw [← hoperator]
    exact hcloser
  have hinside := hc.flatten_append
  rw [show (many parameter? behind_of_parameter? inside).2 = _ from hrest] at hc hinside
  refine ⟨comments, front, members, closing, arrow, hstart, hinside ▸ hc, hnames, hclosing, harrow,
    hnothing, hfront ▸ hstart.docs_append inside, ?_⟩
  refine List.append_cancel_right (hfront.trans ?_)
  rw [← hinside]
  simp only [List.append_assoc]

theorem struct?_parts {s : Struct} (h : struct? (block ++ us) = some (s, us)) :
    ∃ comments front o, StructStart s.name comments front ∧
      s.docs = String.join (comments.map Token.text) ∧
      (o.isOther ";" = true ∧ s.fields = [] ∧ block = front ∧ (∃ more, us = o :: more) ∨
      o.isControl "\x7b" = true ∧ ∃ members closing,
        Chain field? ((members.map Prod.snd).flatten ++ (closing ++ us)) members (closing ++ us) ∧
        members.map Prod.fst = s.fields ∧ Perhaps (·.isControl "\x7d") closing ∧
        block = front ++ o :: ((members.map Prod.snd).flatten ++ closing)) := by
  simp only [struct?, Option.bind_eq_bind, Option.bind_eq_some_iff, Option.pure_def,
    Option.some.injEq, Prod.mk.injEq, Prod.exists] at h
  obtain ⟨name, body, hhead, rfl, hus⟩ := h
  obtain ⟨comments, front, o, inside, hstart, ho, rfl, hfront⟩ := structHead?_eq_some_iff.1 hhead
  refine ⟨comments, front, o, hstart, hfront ▸ hstart.docs_append _, ?_⟩
  by_cases hbrace : o.isControl "\x7b" = true
  · -- The fields are read from behind the brace.
    have hbody : structBody (o :: inside) =
        ((fields inside).1, Reader.optional (control? "\x7d") (fields inside).2) := by
      simp [structBody, hbrace]
    rw [hbody] at hus ⊢
    obtain ⟨members, hc, hfields⟩ := many_chain behind_of_field? inside
    obtain ⟨closing, hclosing, _, hcloser⟩ := exists_perhaps (·.isControl "\x7d") (fields inside).2
    have hrest : (many field? behind_of_field? inside).2 = closing ++ us := by
      rw [← hus]
      exact hcloser
    have hinside := hc.flatten_append
    rw [hrest] at hc hinside
    refine .inr ⟨hbrace, members, closing, hinside ▸ hc, hfields, hclosing, ?_⟩
    refine List.append_cancel_right (hfront.trans ?_)
    rw [← hinside]
    simp
  · -- Without a brace, the token is the semicolon and stays in place.
    have hbody : structBody (o :: inside) = ([], o :: inside) := by
      simp [structBody, hbrace]
    rw [hbody] at hus ⊢
    have hsemicolon : o.isOther ";" = true := by
      rw [endsStructHead, Bool.or_eq_true] at ho
      exact ho.resolve_left hbrace
    have hblock : block = front := by
      rw [← hus] at hfront
      exact List.append_cancel_right hfront
    exact .inl ⟨hsemicolon, rfl, hblock, inside, hus.symm⟩

end DocAudit
