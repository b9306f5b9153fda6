import DocAudit.Text.Position
import Mathlib.Data.List.Basic

namespace DocAudit

/-!
# Places in a text

What a line and a column say: how many whole lines stand in front of a place, and how many characters
of its own line.

* `Text.joinedLines` — lines, each with its line feed;
* `Text.exists_joinedLines` — every text is made of whole lines and the start of another one;
* `Position.Follows` — the line and column behind a text;
* `Position.follows_after` — the position that is computed is that one.
-/

namespace Text

/-- The lines one behind the other, each with its line feed. -/
def joinedLines (lines : List (List Char)) : List Char :=
  lines.flatMap fun line => line ++ ['\n']

@[simp] theorem joinedLines_nil : joinedLines [] = [] := rfl

@[simp] theorem joinedLines_cons (line : List Char) (lines : List (List Char)) :
    joinedLines (line :: lines) = line ++ '\n' :: joinedLines lines := by
  simp [joinedLines]

theorem exists_joinedLines (cs : List Char) :
    ∃ lines here, cs = joinedLines lines ++ here ∧ ∀ line ∈ here :: lines, '\n' ∉ line := by
  induction cs with
  | nil => exact ⟨[], [], rfl, by simp⟩
  | cons c cs ih =>
    obtain ⟨lines, here, rfl, hlines⟩ := ih
    by_cases hc : c = '\n'
    · refine ⟨[] :: lines, here, by simp [hc], ?_⟩
      simpa using hlines
    · -- The character joins the line that comes first.
      cases lines with
      | nil =>
        refine ⟨[], c :: here, rfl, ?_⟩
        simpa [Ne.symm hc] using hlines
      | cons line lines =>
        refine ⟨(c :: line) :: lines, here, by simp, ?_⟩
        simpa [Ne.symm hc] using hlines

theorem count_joinedLines {lines : List (List Char)} (h : ∀ line ∈ lines, '\n' ∉ line) :
    (joinedLines lines).count '\n' = lines.length := by
  induction lines with
  | nil => rfl
  | cons line lines ih =>
    rw [List.forall_mem_cons] at h
    rw [joinedLines_cons, List.count_append, List.count_cons_self, ih h.2,
      List.count_eq_zero_of_not_mem h.1, List.length_cons, Nat.zero_add]

/-- Lines with their line feeds end in a line feed, if there are any. -/
theorem joinedLines_eq_nil_or (lines : List (List Char)) :
    joinedLines lines = [] ∨ ∃ front, joinedLines lines = front ++ ['\n'] := by
  rcases List.eq_nil_or_concat' lines with rfl | ⟨front, line, rfl⟩
  · exact .inl rfl
  · exact .inr ⟨joinedLines front ++ line, by simp [joinedLines]⟩

/-- A character that a text does not hold is none of those met when it is read backwards. -/
theorem bne_of_mem_reverse {x : Char} {cs : List Char} (h : x ∉ cs) :
    ∀ c ∈ cs.reverse, (c != x) = true := by
  intro c hc
  rw [bne_iff_ne]
  rintro rfl
  exact h (List.mem_reverse.1 hc)

theorem takeWhile_reverse_joinedLines {lines : List (List Char)} {here : List Char}
    (h : '\n' ∉ here) :
    (joinedLines lines ++ here).reverse.takeWhile (· != '\n') = here.reverse := by
  rw [List.reverse_append, List.takeWhile_append_of_pos (bne_of_mem_reverse h)]
  -- Behind its own line, read backwards, stands a line feed or nothing.
  rcases joinedLines_eq_nil_or lines with hnil | ⟨front, hfront⟩
  · simp [hnil]
  · simp [hfront]

end Text

namespace Position

/-- The position behind a text: in front of it stand as many whole lines as the line says, less one,
    and in its own line as many characters as the column says, less one. -/
def Follows (p : Position) (before : List Char) : Prop :=
  ∃ lines here, before = Text.joinedLines lines ++ here ∧ (∀ line ∈ here :: lines, '\n' ∉ line) ∧
    p = ⟨lines.length + 1, here.length + 1⟩

/-- **The position counts lines and columns.** -/
theorem follows_after (before : List Char) : (after before).Follows before := by
  obtain ⟨lines, here, rfl, hlines⟩ := Text.exists_joinedLines before
  refine ⟨lines, here, rfl, hlines, ?_⟩
  rw [List.forall_mem_cons] at hlines
  rw [after, Text.takeWhile_reverse_joinedLines hlines.1, List.count_append,
    Text.count_joinedLines hlines.2, List.count_eq_zero_of_not_mem hlines.1, List.length_reverse,
    Nat.add_zero]

end Position

end DocAudit
