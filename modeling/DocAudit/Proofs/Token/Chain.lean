import DocAudit.Token.Reader

namespace DocAudit.Reader

/-!
# Reading entries one after another

`Chain read? ts entries rest` says that a reader of entries, applied again and again to `ts`, reads
`entries`, each with the block of tokens that it takes, and fails in front of `rest`.  This is what a
loop over a token list does, step by step:

* `many_chain` — the loop `many` follows such a chain;
* `Chain.flatten_append` — the blocks, one behind another, are the tokens in front of `rest`;
* `Chain.forall_mem` — what one step establishes of its entry and block holds of all of them;
* `Chain.of_eq_none`, `Chain.of_eq_some` — how a chain starts;
* `Chain.unique` — there is one chain at a place;
* `Chain.read?_append` — each entry is read from the tokens from its block on;
* `Chain.many_eq` — the loop reads what a chain says;
* `Steady`, `Chain.cut` — cutting off tokens behind what a loop leaves does not change what it reads.
-/

variable {α : Type} {read? : List Token → Option (α × List Token)}
  {ts rest : List Token} {entries : List (α × List Token)}

/-- The reader, applied again and again, reads the entries and their blocks and fails in front of the
    rest. -/
inductive Chain (read? : List Token → Option (α × List Token)) :
    List Token → List (α × List Token) → List Token → Prop where
  /-- The reader fails. -/
  | done {ts : List Token} (h : read? ts = none) : Chain read? ts [] ts
  /-- The reader takes a block and goes on behind it. -/
  | more {a : α} {block us rest : List Token} {entries : List (α × List Token)}
      (hne : block ≠ []) (h : read? (block ++ us) = some (a, us)) (hc : Chain read? us entries rest) :
      Chain read? (block ++ us) ((a, block) :: entries) rest

/-- A chain starts with what is read first. -/
theorem Chain.cons {a : α} {block us : List Token} (hr : read? ts = some (a, us))
    (hblock : block ++ us = ts) (hne : block ≠ []) (hc : Chain read? us entries rest) :
    Chain read? ts ((a, block) :: entries) rest := by
  subst hblock
  exact .more hne hr hc

theorem Chain.flatten_append (h : Chain read? ts entries rest) :
    (entries.map Prod.snd).flatten ++ rest = ts := by
  induction h with
  | done _ => rfl
  | more _ _ _ ih => rw [List.map_cons, List.flatten_cons, List.append_assoc, ih]

theorem Chain.forall_mem {P : α → List Token → Prop} (h : Chain read? ts entries rest)
    (hstep : ∀ {a block us}, block ≠ [] → read? (block ++ us) = some (a, us) → P a block) :
    ∀ e ∈ entries, P e.1 e.2 := by
  induction h with
  | done _ => intro e he; cases he
  | more hne hr _ ih =>
    intro e he
    rcases List.mem_cons.1 he with rfl | he
    · exact hstep hne hr
    · exact ih e he

/-- Each entry is read from its block, with the later blocks and the rest behind it. -/
theorem Chain.read?_append {before after : List (α × List Token)} {a : α} {block : List Token}
    (h : Chain read? ts (before ++ (a, block) :: after) rest) :
    block ≠ [] ∧ read? (block ++ ((after.map Prod.snd).flatten ++ rest)) =
      some (a, (after.map Prod.snd).flatten ++ rest) := by
  induction before generalizing ts with
  | nil =>
    cases h with
    | more hne hr hc => exact ⟨hne, by rwa [hc.flatten_append]⟩
  | cons _ before ih =>
    cases h with
    | more _ _ hc => exact ih hc

/-- A reader that fails at once reads no entry. -/
theorem Chain.of_eq_none (h : Chain read? ts entries rest) (hn : read? ts = none) :
    entries = [] ∧ rest = ts := by
  cases h with
  | done _ => exact ⟨rfl, rfl⟩
  | more _ hr _ =>
    rw [hn] at hr
    cases hr

/-- A reader that succeeds reads the first entry. -/
theorem Chain.of_eq_some {a : α} {us : List Token} (h : Chain read? ts entries rest)
    (hr : read? ts = some (a, us)) :
    ∃ block more, entries = (a, block) :: more ∧ ts = block ++ us ∧ Chain read? us more rest := by
  cases h with
  | done hn =>
    rw [hn] at hr
    cases hr
  | @more b block vs _ more _ hs hc =>
    rw [hs, Option.some.injEq, Prod.mk.injEq] at hr
    obtain ⟨rfl, rfl⟩ := hr
    exact ⟨block, more, rfl, rfl, hc⟩

/-- There is one chain at a place. -/
theorem Chain.unique {entries' : List (α × List Token)} {rest' : List Token}
    (h : Chain read? ts entries rest) (h' : Chain read? ts entries' rest') :
    entries' = entries ∧ rest' = rest := by
  induction h generalizing entries' with
  | done hn => exact h'.of_eq_none hn
  | more hne hr hc ih =>
    obtain ⟨block', more, rfl, hblock, hc'⟩ := h'.of_eq_some hr
    obtain rfl := List.append_cancel_right hblock
    obtain ⟨rfl, rfl⟩ := ih hc'
    exact ⟨rfl, rfl⟩

theorem many_chain (behind : ∀ {ts rest a}, read? ts = some (a, rest) → Behind rest ts)
    (ts : List Token) :
    ∃ entries, Chain read? ts entries (many read? behind ts).2 ∧
      entries.map Prod.fst = (many read? behind ts).1 := by
  fun_induction many read? behind ts with
  | case1 ts h => exact ⟨[], .done h, rfl⟩
  | case2 ts a us h _ more last hm ih =>
    -- The block is what the reader has taken from the list.
    rw [hm] at ih
    obtain ⟨entries, hc, heq⟩ := ih
    obtain ⟨block, hne, rfl⟩ := behind h
    exact ⟨(a, block) :: entries, .more hne h hc, by rw [List.map_cons, heq]⟩

/-- The loop reads what a chain says. -/
theorem Chain.many_eq (h : Chain read? ts entries rest)
    (behind : ∀ {ts rest a}, read? ts = some (a, rest) → Behind rest ts) :
    many read? behind ts = (entries.map Prod.fst, rest) := by
  induction h with
  | done hn => exact many_of_none hn
  | more _ hr _ ih => rw [many_of_some hr, ih, List.map_cons]

/-! ### Cutting off what stands behind -/

/-- What the reader takes does not depend on what is cut off behind it.  It may look at those tokens, but
    where it fails they did not matter either. -/
structure Steady (read? : List Token → Option (α × List Token)) : Prop where
  /-- Cutting off tokens that are left does not change what is read. -/
  cut : ∀ {ts rest : List Token} (us : List Token) {a : α},
    read? (ts ++ us) = some (a, rest ++ us) → read? ts = some (a, rest)
  /-- More tokens at the end do not make the reader fail. -/
  extend : ∀ {ts : List Token} (us : List Token), read? ts ≠ none → read? (ts ++ us) ≠ none

/-- What a loop reads does not depend on what is cut off behind it. -/
theorem Chain.cut {us : List Token} (hsteady : Steady read?)
    (h : Chain read? (ts ++ us) entries (rest ++ us)) : Chain read? ts entries rest := by
  generalize hvs : ts ++ us = vs at h
  generalize hws : rest ++ us = ws at h
  induction h generalizing ts with
  | done hn =>
    -- Where the reader fails, it fails with the tokens cut off, too.
    obtain rfl : ts = rest := List.append_cancel_right (hvs.trans hws.symm)
    cases hread : read? ts with
    | none => exact .done hread
    | some found =>
      rw [← hvs] at hn
      exact absurd hn (hsteady.extend us (by rw [hread]; exact Option.some_ne_none _))
  | @more a block vs _ entries hne hread hc ih =>
    subst hws
    have hvs' : (entries.map Prod.snd).flatten ++ (rest ++ us) = vs := hc.flatten_append
    rw [← List.append_assoc] at hvs'
    rw [← hvs', ← List.append_assoc] at hvs hread
    obtain rfl := List.append_cancel_right hvs
    exact .more hne (hsteady.cut us hread) (ih hvs' rfl)

end DocAudit.Reader
