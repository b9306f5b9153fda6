import DocAudit.Declaration.Recognizer
import DocAudit.Proofs.TypeExpr.Extent

namespace DocAudit.Reader

/-!
# Lists of entries between brackets

`Entries entry closer as ts` says that `ts` is a written list: entries with commas between them,
perhaps one behind the last, and the closing delimiter.  It may have no entry.  An entry may depend on
the delimiter that ends it, for the span of what was read reaches through that delimiter.

* `many_append` — a loop that reads single entries, each with the delimiter behind it, reads the
  written list back;
* `EndsEntry`, `skipEntryEnd_cons` — the delimiters that end an entry;
* `type?_append_of_endsEntry` — in front of such a delimiter a type is read to its end.

The last entry takes the closing delimiter with it where no comma precedes it.  The loop then goes on
behind the list, so what stands there must not look like one more entry.
-/

variable {α : Type} {closer : String} {entry : α → List Token → Token → Prop} {as : List α}
  {ts us rest : List Token}

/-- The token ends an entry: it is a comma or the closing delimiter. -/
def EndsEntry (closer : String) (t : Token) : Prop :=
  t.isControl "," = true ∨ t.isControl closer = true

/-- A written list of entries, through its closing delimiter. -/
inductive Entries (entry : α → List Token → Token → Prop) (closer : String) :
    List α → List Token → Prop where
  /-- The end of the list: no entry, or none behind the last comma. -/
  | close {c : Token} (hc : c.isControl closer = true) : Entries entry closer [] [c]
  /-- The last entry, with no comma behind it. -/
  | last {a : α} {ts : List Token} {c : Token} (h : entry a ts c) (hc : c.isControl closer = true) :
      Entries entry closer [a] (ts ++ [c])
  /-- An entry with a comma behind it. -/
  | more {a : α} {as : List α} {ts us : List Token} {d : Token} (h : entry a ts d)
      (hd : d.isControl "," = true) (hu : Entries entry closer as us) :
      Entries entry closer (a :: as) (ts ++ d :: us)

theorem skipEntryEnd_cons {t : Token} (h : EndsEntry closer t) :
    skipEntryEnd closer (t :: rest) = rest := by
  unfold skipEntryEnd
  by_cases hd : t.isControl "," = true
  · simp [hd]
  · have hc : t.isControl closer = true := h.resolve_left hd
    simp [hd, hc, optional]

/-- A type at the end of an entry is read to its end. -/
theorem type?_append_of_endsEntry {t : Token} (h : TypeExpr.Derives .type ts)
    (ht : EndsEntry closer t) (hne : closer ≠ "<") :
    TypeExpr.type? (ts ++ t :: rest) = some (t :: rest) := by
  have hstops : TypeExpr.Stops .type (t :: rest) := by
    rcases ht with ht | ht
    · exact TypeExpr.stops_cons_of_isControl ht (by decide)
    · exact TypeExpr.stops_cons_of_isControl ht hne
  exact TypeExpr.read?_append_of_stops h hstops

section Many

variable {read? : List Token → Option (α × List Token)}
  {behind : ∀ {ts rest a}, read? ts = some (a, rest) → Behind rest ts}

/-- A loop that reads single entries reads a written list back. -/
theorem many_append (h : Entries entry closer as us)
    (hread : ∀ {a ts d} rest, entry a ts d → EndsEntry closer d →
      read? (ts ++ d :: rest) = some (a, rest))
    (hclose : ∀ {c} rest, c.isControl closer = true → read? (c :: rest) = none)
    (hrest : read? rest = none) (hnot : control? closer rest = none) :
    (many read? behind (us ++ rest)).1 = as ∧
      Reader.optional (control? closer) (many read? behind (us ++ rest)).2 = rest := by
  induction h with
  | @close c hc =>
    rw [List.singleton_append, many_of_none (hclose rest hc)]
    exact ⟨rfl, by simp [Reader.optional, hc]⟩
  | @last a ts c ha hc =>
    -- the entry takes the closing delimiter with it, so the loop goes on behind the list
    have ha := hread rest ha (.inr hc)
    rw [List.append_assoc, List.singleton_append, many_of_some ha, many_of_none hrest]
    exact ⟨rfl, optional_of_none hnot⟩
  | @more a as ts us d ha hd _ ih =>
    have ha := hread (us ++ rest) ha (.inl hd)
    rw [List.append_assoc, List.cons_append, many_of_some ha]
    exact ⟨by rw [ih.1], ih.2⟩

end Many

end DocAudit.Reader
