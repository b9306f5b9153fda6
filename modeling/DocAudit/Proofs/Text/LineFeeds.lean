import DocAudit.Proofs.Text.Position
import DocAudit.Text.Quoted

namespace DocAudit.Text

/-!
# Line feeds in shown text

Which pieces of a shown text stay on one line, and how many lines a text takes up.

* `lineFeed_not_mem_toDigits`, `lineFeed_not_mem_quoted` — numbers and quoted texts stay on one line;
* `count_joinedLines_eq_length_iff` — lines that are not broken, told by counting line feeds;
* `exists_lines` — a text and a line feed are one line more than the text has line feeds.
-/

theorem lineFeed_not_mem_intercalate {sep : String} {texts : List String}
    (hsep : '\n' ∉ sep.toList) (h : ∀ s ∈ texts, '\n' ∉ s.toList) :
    '\n' ∉ (sep.intercalate texts).toList := by
  induction texts with
  | nil => simp
  | cons s texts ih =>
    rw [List.forall_mem_cons] at h
    cases texts with
    | nil => simpa using h.1
    | cons t texts =>
      have hrest : '\n' ∉ (sep.intercalate (t :: texts)).toList := ih h.2
      rw [String.intercalate_cons_cons, String.toList_append, String.toList_append,
        List.mem_append, List.mem_append]
      exact not_or.2 ⟨not_or.2 ⟨h.1, hsep⟩, hrest⟩

/-! ### Numbers -/

theorem lineFeed_not_mem_toDigits {b : Nat} (hb : 1 < b) (n : Nat) : '\n' ∉ b.toDigits n := by
  induction n using Nat.strongRecOn with
  | _ n ih =>
    rw [Nat.toDigits_eq_if hb]
    split
    · simp
    · have hrest : '\n' ∉ b.toDigits (n / b) := ih (n / b) (Nat.div_lt_self (by omega) hb)
      simp [hrest]

/-! ### Quoted text -/

theorem lineFeed_not_mem_hexadecimal (width n : Nat) : '\n' ∉ hexadecimal width n := by
  rw [hexadecimal, List.mem_append, not_or]
  refine ⟨fun h => ?_, lineFeed_not_mem_toDigits (by decide) n⟩
  exact absurd (List.eq_of_mem_replicate h) (by decide)

/-- A line feed is escaped like other controls, so no escape holds one. -/
theorem lineFeed_not_mem_escaped {quote : Char} (hquote : quote ≠ '\n') (c : Char) :
    '\n' ∉ escaped quote c := by
  have hhex := lineFeed_not_mem_hexadecimal
  rw [escaped]
  split_ifs with hself htab hfeed hreturn hprint
  · have hc : c ≠ '\n' := by
      rintro rfl
      simp [hquote.symm] at hself
    simpa using hc.symm
  · decide
  · decide
  · decide
  · -- A printable character stands for itself.  The line feed was met before.
    rw [beq_iff_eq] at hfeed
    simpa using Ne.symm hfeed
  all_goals simp [hhex]

theorem quoteFor_ne_lineFeed (cs : List Char) : quoteFor cs ≠ '\n' := by
  rw [quoteFor]
  split <;> decide

/-- **A quoted text stays on one line.** -/
theorem lineFeed_not_mem_quoted (s : String) : '\n' ∉ (quoted s).toList := by
  have hquote := quoteFor_ne_lineFeed s.toList
  have hbody : '\n' ∉ s.toList.flatMap (escaped (quoteFor s.toList)) := by
    rw [List.mem_flatMap]
    rintro ⟨c, _, hc⟩
    exact lineFeed_not_mem_escaped hquote c hc
  rw [quoted, String.toList_ofList]
  simp [hquote.symm, hbody]

/-! ### Lines -/

theorem joinedLines_append (lines more : List (List Char)) :
    joinedLines (lines ++ more) = joinedLines lines ++ joinedLines more :=
  List.flatMap_append

/-- Lines with their line feeds have as many of these as there are lines just if none holds another. -/
theorem count_joinedLines_eq_length_iff {lines : List (List Char)} :
    (joinedLines lines).count '\n' = lines.length ↔ ∀ line ∈ lines, '\n' ∉ line := by
  have hcount : (joinedLines lines).count '\n' = (lines.map (List.count '\n')).sum + lines.length := by
    induction lines with
    | nil => rfl
    | cons line lines ih =>
      rw [joinedLines_cons, List.count_append, List.count_cons_self, ih, List.map_cons, List.sum_cons,
        List.length_cons]
      omega
  rw [hcount, Nat.add_eq_right, List.sum_eq_zero_iff_forall_eq_nat, List.forall_mem_map]
  simp only [List.count_eq_zero]

/-- A text with a line feed behind is made of lines, one more than it has line feeds itself.  What stands
    in front of its first line feed starts the first of them. -/
theorem exists_lines {front : List Char} (hfront : '\n' ∉ front) (cs : List Char) :
    ∃ first more, joinedLines ((front ++ first) :: more) = front ++ cs ++ ['\n'] ∧
      (∀ line ∈ (front ++ first) :: more, '\n' ∉ line) ∧ more.length = cs.count '\n' := by
  obtain ⟨lines, here, rfl, hlines⟩ := exists_joinedLines cs
  rw [List.forall_mem_cons] at hlines
  have hcount : (joinedLines lines ++ here).count '\n' = lines.length := by
    rw [List.count_append, count_joinedLines hlines.2, List.count_eq_zero_of_not_mem hlines.1,
      Nat.add_zero]
  cases lines with
  | nil =>
    refine ⟨here, [], by simp, ?_, by rw [hcount]⟩
    simpa [hfront] using hlines.1
  | cons line lines =>
    rw [List.forall_mem_cons] at hlines
    refine ⟨line, lines ++ [here], by simp [joinedLines], ?_, by rw [hcount]; simp⟩
    simp only [List.mem_cons, List.mem_append, List.not_mem_nil, or_false]
    rintro other (rfl | hother | rfl)
    · simpa [hfront] using hlines.2.1
    · exact hlines.2.2 other hother
    · exact hlines.1

end DocAudit.Text
