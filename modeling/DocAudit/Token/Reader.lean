import DocAudit.Token.Basic

namespace DocAudit

/-!
# Reading from a token list

A reader takes tokens from the front of a list and hands back what stands behind them, or `none` if
the list does not start as it asks:

* `next?` and its cases `control?`, `other?`, `keyword?`, `name?` — one token;
* `word?` — one name, with its text;
* `past?` — everything through the first token of a class;
* `optional` — a reader that leaves the list as it is where it does not apply;
* `many` — a reader of entries, as often as it applies.

`Behind rest ts` says that `rest` stands in `ts` behind at least one token.  Every reader that
succeeds yields such a rest, which is why the repetitions of the grammar end.
-/

/-- What remains of `ts` behind a non-empty front. -/
def Behind (rest ts : List Token) : Prop :=
  ∃ front, front ≠ [] ∧ ts = front ++ rest

namespace Behind

variable {ts us vs : List Token}

theorem tail (t : Token) (ts : List Token) : Behind ts (t :: ts) :=
  ⟨[t], by simp, rfl⟩

theorem trans (h : Behind vs us) (g : Behind us ts) : Behind vs ts := by
  obtain ⟨front, _, rfl⟩ := h
  obtain ⟨first, hf, rfl⟩ := g
  exact ⟨first ++ front, by simp [hf], by simp⟩

theorem of_suffix (h : vs <:+ us) (g : Behind us ts) : Behind vs ts := by
  obtain ⟨front, rfl⟩ := h
  obtain ⟨first, hf, rfl⟩ := g
  exact ⟨first ++ front, by simp [hf], by simp⟩

theorem suffix_left (h : Behind vs us) (g : us <:+ ts) : Behind vs ts := by
  obtain ⟨front, hf, rfl⟩ := h
  obtain ⟨first, rfl⟩ := g
  exact ⟨first ++ front, by simp [hf], by simp⟩

theorem isSuffix (h : Behind us ts) : us <:+ ts := by
  obtain ⟨front, _, rfl⟩ := h
  exact ⟨front, rfl⟩

theorem length_lt (h : Behind us ts) : us.length < ts.length := by
  obtain ⟨front, hf, rfl⟩ := h
  have := List.length_pos_iff.2 hf
  rw [List.length_append]
  omega

end Behind

namespace Reader

variable {α : Type} {p : Token → Bool} {t : Token} {ts rest : List Token}

/-! ### One token -/

/-- Takes the first token if it satisfies the test. -/
def next? (p : Token → Bool) : List Token → Option (List Token)
  | [] => none
  | t :: rest => if p t then some rest else none

/-- Takes the given delimiter. -/
def control? (delimiter : String) : List Token → Option (List Token) :=
  next? (·.isControl delimiter)

/-- Takes the given character outside the named classes. -/
def other? (character : String) : List Token → Option (List Token) :=
  next? (·.isOther character)

/-- Takes the given word. -/
def keyword? (word : String) : List Token → Option (List Token) :=
  next? (·.isKeyword word)

/-- Takes a name or keyword, whichever. -/
def name? : List Token → Option (List Token) :=
  next? Token.isIdentifier

/-- Takes a name or keyword and yields its text. -/
def word? : List Token → Option (String × List Token)
  | [] => none
  | t :: rest => if t.isIdentifier then some (t.text, rest) else none

@[simp] theorem next?_cons : next? p (t :: rest) = if p t then some rest else none := rfl

@[simp] theorem control?_cons (delimiter : String) :
    control? delimiter (t :: rest) = if t.isControl delimiter then some rest else none := rfl

@[simp] theorem other?_cons (character : String) :
    other? character (t :: rest) = if t.isOther character then some rest else none := rfl

@[simp] theorem keyword?_cons (word : String) :
    keyword? word (t :: rest) = if t.isKeyword word then some rest else none := rfl

@[simp] theorem name?_cons : name? (t :: rest) = if t.isIdentifier then some rest else none := rfl

@[simp] theorem word?_cons :
    word? (t :: rest) = if t.isIdentifier then some (t.text, rest) else none := rfl

theorem next?_eq_some_iff : next? p ts = some rest ↔ ∃ t, p t = true ∧ ts = t :: rest := by
  constructor
  · intro h
    cases ts with
    | nil => cases h
    | cons t ts =>
      by_cases hp : p t = true
      · rw [next?, if_pos hp, Option.some.injEq] at h
        exact ⟨t, hp, by rw [h]⟩
      · rw [next?, if_neg hp] at h
        cases h
  · rintro ⟨t, hp, rfl⟩
    rw [next?, if_pos hp]

theorem behind_of_next? (h : next? p ts = some rest) : Behind rest ts := by
  obtain ⟨t, _, rfl⟩ := next?_eq_some_iff.1 h
  exact .tail t rest

theorem word?_eq_some_iff {w : String} :
    word? ts = some (w, rest) ↔ ∃ t, t.isIdentifier = true ∧ t.text = w ∧ ts = t :: rest := by
  constructor
  · intro h
    cases ts with
    | nil => cases h
    | cons t ts =>
      by_cases hp : t.isIdentifier = true
      · rw [word?, if_pos hp, Option.some.injEq, Prod.mk.injEq] at h
        exact ⟨t, hp, h.1, by rw [h.2]⟩
      · rw [word?, if_neg hp] at h
        cases h
  · rintro ⟨t, hp, rfl, rfl⟩
    rw [word?, if_pos hp]

theorem behind_of_word? {w : String} (h : word? ts = some (w, rest)) : Behind rest ts := by
  obtain ⟨t, _, _, rfl⟩ := word?_eq_some_iff.1 h
  exact .tail t rest

/-! ### Several tokens -/

/-- Takes everything through the first token that satisfies the test. -/
def past? (p : Token → Bool) : List Token → Option (List Token)
  | [] => none
  | t :: rest => if p t then some rest else past? p rest

/-- Applies the reader, or leaves the list as it is where the reader does not apply. -/
def optional (read? : List Token → Option (List Token)) (ts : List Token) : List Token :=
  (read? ts).getD ts

theorem behind_of_past? (h : past? p ts = some rest) : Behind rest ts := by
  induction ts with
  | nil => simp [past?] at h
  | cons t ts ih =>
    simp only [past?] at h
    split at h
    · cases h; exact .tail t _
    · exact (ih h).trans (.tail t ts)

theorem optional_of_none {read? : List Token → Option (List Token)} (h : read? ts = none) :
    optional read? ts = ts := by
  rw [optional, h, Option.getD_none]

theorem optional_of_some {read? : List Token → Option (List Token)} (h : read? ts = some rest) :
    optional read? ts = rest := by
  rw [optional, h, Option.getD_some]

theorem optional_isSuffix {read? : List Token → Option (List Token)}
    (h : ∀ rest, read? ts = some rest → Behind rest ts) : optional read? ts <:+ ts := by
  unfold optional
  cases hr : read? ts with
  | none => exact List.suffix_refl ts
  | some rest => exact (h rest hr).isSuffix

/-- Applies a reader of entries as often as it applies, and yields the entries and the tokens behind
    the last one. -/
def many (read? : List Token → Option (α × List Token))
    (behind : ∀ {ts rest a}, read? ts = some (a, rest) → Behind rest ts) (ts : List Token) :
    List α × List Token :=
  match h : read? ts with
  | none => ([], ts)
  | some (a, rest) =>
    have := (behind h).length_lt
    let (more, last) := many read? behind rest
    (a :: more, last)
termination_by ts.length

theorem many_isSuffix (read? : List Token → Option (α × List Token))
    (behind : ∀ {ts rest a}, read? ts = some (a, rest) → Behind rest ts) (ts : List Token) :
    (many read? behind ts).2 <:+ ts := by
  fun_induction many read? behind ts with
  | case1 ts h => exact List.suffix_refl ts
  | case2 ts a rest h _ more last hm ih =>
    rw [hm] at ih
    exact ih.trans (behind h).isSuffix

section

variable {read? : List Token → Option (α × List Token)}
  {behind : ∀ {ts rest a}, read? ts = some (a, rest) → Behind rest ts}

theorem many_of_none (h : read? ts = none) : many read? behind ts = ([], ts) := by
  rw [many]
  split
  · rfl
  · rename_i hs
    rw [h] at hs
    cases hs

theorem many_of_some {a : α} (h : read? ts = some (a, rest)) :
    many read? behind ts = (a :: (many read? behind rest).1, (many read? behind rest).2) := by
  rw [many]
  split
  · rename_i hs
    rw [h] at hs
    cases hs
  · rename_i hs
    rw [h] at hs
    cases hs
    rfl

end

end Reader

end DocAudit
