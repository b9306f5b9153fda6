import DocAudit.Proofs.Text.Position
import Mathlib.Data.List.TakeWhile

namespace DocAudit

/-!
# Lines and columns as coordinates

A line and a column say as much as the offset from which they come.

* `Text.LineStart` — the offset at which a line starts;
* `Text.LineStart.unique`, `Text.exists_lineStart_iff` — every line starts at one offset;
* `Position.after_append`, `Position.precedes_after_append` — what the characters of one line, and of
  several ones, do to a position;
* `Position.after_take_add` — the position a number of characters behind the start of a line;
* `Position.Coordinates`, `Position.ofOffset_coordinates` — positions are in the order of the offsets,
  each offset is recovered from its position, and every place in a line is the position of an offset.
-/

variable {text before more : List Char} {line start other : Nat}

/-! ### Lines -/

namespace Text

/-- The line, counted from 1, starts at the offset: the first one at the start of the text, each later
    one just behind the line feed in front of it. -/
inductive LineStart (text : List Char) : (line start : Nat) → Prop where
  /-- The first line. -/
  | first : LineStart text 1 0
  /-- The line behind a line feed. -/
  | behind {i : Nat} (h : text[i]? = some '\n') :
      LineStart text ((text.take i).count '\n' + 2) (i + 1)

/-- The line that starts at the offset, without its line feed. -/
def lineFrom (text : List Char) (start : Nat) : List Char :=
  (text.drop start).takeWhile (· != '\n')

/-- So many characters belong to the line just where no line feed is among them. -/
theorem le_length_lineFrom_iff {k : Nat} : k ≤ (lineFrom text start).length ↔
    k ≤ (text.drop start).length ∧ '\n' ∉ (text.drop start).take k := by
  rw [lineFrom]
  generalize text.drop start = cs
  induction cs generalizing k with
  | nil => simp
  | cons c cs ih =>
    cases k with
    | zero => simp
    | succ k =>
      by_cases hc : c = '\n'
      · simp [hc]
      · simp [hc, Ne.symm hc, ih]

theorem LineStart.le_length (h : LineStart text line start) : start ≤ text.length := by
  cases h with
  | first => exact Nat.zero_le _
  | behind hi => exact (List.getElem?_eq_some_iff.1 hi).1

/-- A line feed in between is one more of them in front of the later place. -/
theorem count_take_lt {i j : Nat} (h : text[i]? = some '\n') (hij : i < j) :
    (text.take i).count '\n' < (text.take j).count '\n' := by
  have htake : text.take (i + 1) = text.take i ++ ['\n'] := by
    rw [List.take_add_one, h, Option.toList_some]
  have hle : (text.take (i + 1)).count '\n' ≤ (text.take j).count '\n' :=
    (List.take_prefix_take_left hij).sublist.count_le '\n'
  rw [htake, List.count_append, List.count_singleton_self] at hle
  omega

/-- A line starts at one offset. -/
theorem LineStart.unique (h : LineStart text line start) (h' : LineStart text line other) :
    start = other := by
  generalize hline : line = line' at h'
  cases h with
  | first =>
    cases h' with
    | first => rfl
    | behind => omega
  | @behind i hi =>
    cases h' with
    | first => omega
    | @behind j hj =>
      -- Of two line feeds the later one has more of them in front of it.
      rcases Nat.lt_trichotomy i j with hij | rfl | hij
      · have := count_take_lt hi hij
        omega
      · rfl
      · have := count_take_lt hj hij
        omega

/-- For every number below the count there is a line feed with so many of them in front of it. -/
theorem exists_lineFeed {k : Nat} (h : k < text.count '\n') :
    ∃ i : Nat, text[i]? = some '\n' ∧ (text.take i).count '\n' = k := by
  induction text generalizing k with
  | nil => simp at h
  | cons c text ih =>
    by_cases hc : c = '\n'
    · subst hc
      rw [List.count_cons_self] at h
      cases k with
      | zero => exact ⟨0, rfl, rfl⟩
      | succ k =>
        obtain ⟨i, hi, hcount⟩ := ih (Nat.lt_of_succ_lt_succ h)
        exact ⟨i + 1, hi, by rw [List.take_succ_cons, List.count_cons_self, hcount]⟩
    · rw [List.count_cons_of_ne hc] at h
      obtain ⟨i, hi, hcount⟩ := ih h
      exact ⟨i + 1, hi, by rw [List.take_succ_cons, List.count_cons_of_ne hc, hcount]⟩

/-- There is one line more than there are line feeds. -/
theorem exists_lineStart_iff :
    (∃ start, LineStart text line start) ↔ 1 ≤ line ∧ line ≤ 1 + text.count '\n' := by
  constructor
  · rintro ⟨start, h⟩
    cases h with
    | first => omega
    | @behind i hi =>
      have hlt := count_take_lt hi (List.getElem?_eq_some_iff.1 hi).1
      rw [List.take_length] at hlt
      omega
  · rintro ⟨hpos, hle⟩
    rcases hpos.eq_or_lt with rfl | hlt
    · exact ⟨0, .first⟩
    · have hfeeds : line - 2 < text.count '\n' := by omega
      obtain ⟨i, hi, hcount⟩ := exists_lineFeed hfeeds
      have hline : line = (text.take i).count '\n' + 2 := by omega
      exact ⟨i + 1, hline ▸ .behind hi⟩

end Text

/-! ### How a position moves -/

namespace Position

/-- The position stands in front of the other: in an earlier line, or in the same one with a smaller
    column. -/
def Precedes (p q : Position) : Prop :=
  p.line < q.line ∨ p.line = q.line ∧ p.column < q.column

/-- More characters of the same line move the column. -/
theorem after_append (h : '\n' ∉ more) :
    after (before ++ more) = ⟨(after before).line, (after before).column + more.length⟩ := by
  have hmore : ∀ c ∈ more.reverse, (c != '\n') = true := Text.bne_of_mem_reverse h
  simp only [after, List.count_append, List.count_eq_zero_of_not_mem h, List.reverse_append,
    List.takeWhile_append_of_pos hmore, List.length_append, List.length_reverse, mk.injEq]
  exact ⟨trivial, by omega⟩

/-- A line feed starts a new line. -/
theorem after_lineFeed (before : List Char) : after (before ++ ['\n']) = ⟨before.count '\n' + 2, 1⟩ := by
  simp [after]

/-- More characters lead to a later position. -/
theorem precedes_after_append (h : more ≠ []) : (after before).Precedes (after (before ++ more)) := by
  by_cases hmem : '\n' ∈ more
  · refine .inl ?_
    have hpos : 0 < more.count '\n' := List.count_pos_iff.2 hmem
    show before.count '\n' + 1 < (before ++ more).count '\n' + 1
    rw [List.count_append]
    omega
  · rw [after_append hmem]
    have hpos : 0 < more.length := List.length_pos_iff.2 h
    exact .inr ⟨rfl, by simpa using hpos⟩

/-- At the start of a line the column is 1. -/
theorem after_take_lineStart (h : Text.LineStart text line start) :
    after (text.take start) = ⟨line, 1⟩ := by
  cases h with
  | first => rfl
  | @behind i hi => rw [List.take_add_one, hi, Option.toList_some, after_lineFeed]

/-- Behind some characters of a line the column is so much larger. -/
theorem after_take_add {k : Nat} (h : Text.LineStart text line start)
    (hk : k ≤ (Text.lineFrom text start).length) :
    after (text.take (start + k)) = ⟨line, k + 1⟩ := by
  obtain ⟨hlength, hplain⟩ := Text.le_length_lineFrom_iff.1 hk
  rw [List.take_add, after_append hplain, after_take_lineStart h, List.length_take_of_le hlength,
    Nat.add_comm]

/-- Every offset lies in a line, so many characters behind its start. -/
theorem exists_lineStart {n : Nat} (hn : n ≤ text.length) :
    ∃ line start k, Text.LineStart text line start ∧ k ≤ (Text.lineFrom text start).length ∧
      n = start + k := by
  induction n with
  | zero => exact ⟨1, 0, 0, .first, Nat.zero_le _, rfl⟩
  | succ n ih =>
    obtain ⟨line, start, k, hstart, hk, rfl⟩ := ih (Nat.le_of_succ_le hn)
    have hget : text[start + k]? = some text[start + k] := List.getElem?_eq_getElem hn
    by_cases hlf : text[start + k] = '\n'
    · -- Behind a line feed, the next line starts.
      rw [hlf] at hget
      exact ⟨_, start + k + 1, 0, .behind hget, Nat.zero_le _, rfl⟩
    · obtain ⟨_, hplain⟩ := Text.le_length_lineFrom_iff.1 hk
      refine ⟨line, start, k + 1, hstart, Text.le_length_lineFrom_iff.2 ⟨?_, ?_⟩, rfl⟩
      · rw [List.length_drop]
        omega
      · rw [List.take_add_one, List.getElem?_drop, hget, Option.toList_some, List.mem_append,
          List.mem_singleton, not_or]
        exact ⟨hplain, Ne.symm hlf⟩

/-! ### Coordinates -/

/-- The positions `place` are coordinates of the offsets of the text. -/
structure Coordinates (text : List Char) (place : Int → Position) : Prop where
  /-- Positions are in the order of the offsets. -/
  increasing : ∀ m n : Nat, m < n → n ≤ text.length → (place m).Precedes (place n)
  /-- Two offsets have two positions. -/
  injective : ∀ m n : Nat, m ≤ text.length → n ≤ text.length → place m = place n → m = n
  /-- The line counts the line feeds in front of the offset. -/
  line_eq : ∀ n : Nat, n ≤ text.length → (place n).line = (text.take n).count '\n' + 1
  /-- Columns start at 1. -/
  column_pos : ∀ n : Nat, n ≤ text.length → 1 ≤ (place n).column
  /-- Every line starts at one offset, and there is one line more than there are line feeds. -/
  lines : ∀ line, (∃! start, Text.LineStart text line start) ↔ 1 ≤ line ∧ line ≤ 1 + text.count '\n'
  /-- The offset is recovered from the start of the line and the column. -/
  recovers : ∀ n : Nat, n ≤ text.length → ∃ start, Text.LineStart text (place n).line start ∧
    n = start + (place n).column - 1
  /-- Every column of every line, one more than the line has characters, is the place of an offset, and
      no other pair is. -/
  image : ∀ p : Position, (∃ n : Nat, n ≤ text.length ∧ place n = p) ↔
    ∃ start, Text.LineStart text p.line start ∧
      1 ≤ p.column ∧ p.column ≤ (Text.lineFrom text start).length + 1
  /-- In front of the text is its start. -/
  of_neg : ∀ z : Int, z < 0 → place z = place 0
  /-- Behind the text is its end. -/
  of_length_lt : ∀ z : Int, text.length < z → place z = place text.length

@[simp] theorem ofOffset_natCast (text : List Char) (n : Nat) :
    ofOffset text n = after (text.take n) := rfl

theorem precedes_irrefl (p : Position) : ¬p.Precedes p := by
  rintro (h | ⟨_, h⟩) <;> omega

theorem ofOffset_precedes {m n : Nat} (hmn : m < n) (hn : n ≤ text.length) :
    (ofOffset text m).Precedes (ofOffset text n) := by
  obtain ⟨k, rfl⟩ := Nat.exists_eq_add_of_lt hmn
  rw [ofOffset_natCast, ofOffset_natCast, Nat.add_assoc, List.take_add]
  refine precedes_after_append (List.ne_nil_of_length_pos ?_)
  rw [List.length_take, List.length_drop]
  omega

/-- **Lines and columns are coordinates.** -/
theorem ofOffset_coordinates (text : List Char) : Coordinates text (ofOffset text) where
  increasing _ _ hmn hn := ofOffset_precedes hmn hn
  injective m n hm hn heq := by
    rcases Nat.lt_trichotomy m n with hlt | rfl | hlt
    · exact absurd (heq ▸ ofOffset_precedes hlt hn) (precedes_irrefl _)
    · rfl
    · exact absurd (heq ▸ ofOffset_precedes hlt hm) (precedes_irrefl _)
  line_eq _ _ := rfl
  column_pos _ _ := Nat.le_add_left 1 _
  lines line := by
    rw [← Text.exists_lineStart_iff]
    exact ⟨ExistsUnique.exists, fun ⟨start, h⟩ => ⟨start, h, fun _ h' => h'.unique h⟩⟩
  recovers n hn := by
    obtain ⟨line, start, k, hstart, hk, rfl⟩ := exists_lineStart hn
    rw [ofOffset_natCast, after_take_add hstart hk]
    exact ⟨start, hstart, rfl⟩
  image p := by
    constructor
    · rintro ⟨n, hn, rfl⟩
      obtain ⟨line, start, k, hstart, hk, rfl⟩ := exists_lineStart hn
      rw [ofOffset_natCast, after_take_add hstart hk]
      exact ⟨start, hstart, Nat.le_add_left 1 k, Nat.succ_le_succ hk⟩
    · rintro ⟨start, hstart, hpos, hle⟩
      have hk : p.column - 1 ≤ (Text.lineFrom text start).length := by omega
      refine ⟨start + (p.column - 1), ?_, ?_⟩
      · have hlength := (Text.le_length_lineFrom_iff.1 hk).1
        have hle := hstart.le_length
        rw [List.length_drop] at hlength
        omega
      · rw [ofOffset_natCast, after_take_add hstart hk, Nat.sub_add_cancel hpos]
  of_neg z hz := by rw [ofOffset, Int.toNat_of_nonpos (Int.le_of_lt hz), ofOffset, Int.toNat_zero]
  of_length_lt z hz := by
    rw [ofOffset, ofOffset_natCast, List.take_of_length_le (by omega), List.take_length]

end Position

end DocAudit
