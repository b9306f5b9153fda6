import DocAudit.Proofs.Documentation.Completeness
import DocAudit.Proofs.Documentation.Places

namespace DocAudit

open Documentation

/-!
# Comments joined

Several comments above a declaration are joined to one text, with nothing in between.  What the joined
text says, told by the comments one by one.

* `Text.Trimmed` — a text that neither starts nor ends with a blank, which a joined text is, too;
* `marker_append_iff` — between two such texts there is no marker of a bullet;
* `BulletsClosed`, `documentedNames_flatten` — so the bullets are those of the single texts;
* `Text.Straddles`, `Text.infix_flatten_iff` — a word in a joined text stands in a single text or lies
  over several;
* `mentionsReturning_join_iff` — for the word `return` both count.
-/

variable {a b us vs ws w text word : List Char} {texts : List (List Char)} {c : Char}

/-! ### Trimmed texts -/

namespace Text

/-- The text neither starts nor ends with a blank. -/
structure Trimmed (text : List Char) : Prop where
  /-- It does not start with one. -/
  head : ∀ c ∈ text.head?, isBlank c = false
  /-- It does not end with one. -/
  last : ∀ c ∈ text.getLast?, isBlank c = false

theorem Stripped.trimmed {cs : List Char} (h : Stripped cs text) : Trimmed text := by
  cases h with
  | mk _ _ hhead hlast => exact ⟨hhead, hlast⟩

theorem Trimmed.append (h : Trimmed a) (g : Trimmed b) : Trimmed (a ++ b) where
  head c hc := by
    rw [List.head?_append] at hc
    rcases Option.or_eq_some_iff.1 hc with hc | ⟨_, hc⟩
    · exact h.head c hc
    · exact g.head c hc
  last c hc := by
    rw [List.getLast?_append] at hc
    rcases Option.or_eq_some_iff.1 hc with hc | ⟨_, hc⟩
    · exact g.last c hc
    · exact h.last c hc

theorem trimmed_flatten (h : ∀ text ∈ texts, Trimmed text) : Trimmed texts.flatten := by
  induction texts with
  | nil => exact ⟨by simp, by simp⟩
  | cons text texts ih =>
    rw [List.flatten_cons]
    exact (h text (by simp)).append (ih fun t ht => h t (by simp [ht]))

end Text

/-! ### Bullets -/

namespace Documentation

/-- **No marker lies over the seam** between a text that does not end with a blank and one that does not
    start with one: the second character of the marker is a blank, and it would stand there. -/
theorem marker_append_iff (hne : a ≠ []) (ha : ∀ c ∈ a.getLast?, Text.isBlank c = false)
    (hb : ∀ c ∈ b.head?, Text.isBlank c = false) :
    bulletMarker <+: a ++ b ↔ bulletMarker <+: a := by
  refine ⟨fun h => ?_, fun h => h.trans (List.prefix_append a b)⟩
  have hblank : Text.isBlank ' ' = true := by decide
  match a with
  | [] => exact absurd rfl hne
  | [star] =>
    cases b with
    | nil => simpa using h
    | cons d b =>
      obtain rfl : ' ' = d := (List.cons_prefix_cons.1 (List.cons_prefix_cons.1 h).2).1
      exact absurd (hb ' ' rfl) (by simp [hblank])
  | [star, d] =>
    obtain rfl : ' ' = d := (List.cons_prefix_cons.1 (List.cons_prefix_cons.1 h).2).1
    exact absurd (ha ' ' rfl) (by simp [hblank])
  | star :: space :: tick :: more => simpa [bulletMarker, List.cons_prefix_cons] using h

/-- In the text, each marker is followed by a character other than a backtick and, further on, by a
    backtick. -/
def BulletsClosed (text : List Char) : Prop :=
  ∀ q, MarkerAt text q →
    ∃ us c vs ws, text.drop (q + 3) = us ++ c :: (vs ++ '`' :: ws) ∧ c ≠ '`'

theorem BulletsClosed.of_cons (h : BulletsClosed (c :: text)) : BulletsClosed text :=
  fun q hq => h (q + 1) hq

/-- A stretch without backticks ends at the first one. -/
theorem takeWhile_append_backtick (us ws b : List Char) :
    (us ++ '`' :: ws ++ b).takeWhile (· != '`') = (us ++ '`' :: ws).takeWhile (· != '`') := by
  induction us with
  | nil => rfl
  | cons d us ih => simp only [List.cons_append, List.takeWhile_cons, ih]

theorem bulletName_backtick (rest : List Char) : bulletName ('`' :: rest) = bulletName rest := by
  rw [bulletName, List.dropWhile_cons_of_pos (by decide), bulletName]

theorem bulletName_of_ne (hc : c ≠ '`') (rest : List Char) :
    bulletName (c :: rest) = (c :: rest).takeWhile (· != '`') := by
  rw [bulletName, List.dropWhile_cons_of_neg (by simpa using hc)]

/-- A name that is closed in its text does not go on behind it. -/
theorem bulletName_append (hc : c ≠ '`') (us vs ws b : List Char) :
    bulletName (us ++ c :: (vs ++ '`' :: ws) ++ b) = bulletName (us ++ c :: (vs ++ '`' :: ws)) := by
  induction us with
  | nil =>
    rw [List.nil_append, List.cons_append, bulletName_of_ne hc, bulletName_of_ne hc]
    exact takeWhile_append_backtick (c :: vs) ws b
  | cons d us ih =>
    rw [List.cons_append, List.cons_append]
    by_cases hd : d = '`'
    · rw [hd, bulletName_backtick, bulletName_backtick, ih]
    · rw [bulletName_of_ne hd, bulletName_of_ne hd]
      simpa using takeWhile_append_backtick (d :: us ++ c :: vs) ws b

/-- The names of two texts, one behind the other: as many for the first text as it has on its own, and the
    same ones if they are closed there, and then those of the second text. -/
theorem exists_names_append (ha : ∀ c ∈ a.getLast?, Text.isBlank c = false)
    (hb : ∀ c ∈ b.head?, Text.isBlank c = false) :
    ∃ names, documentedNames (a ++ b) = names ++ documentedNames b ∧
      names.length = (documentedNames a).length ∧
      (BulletsClosed a → names = documentedNames a) := by
  induction a with
  | nil => exact ⟨[], rfl, rfl, fun _ => rfl⟩
  | cons c a ih =>
    have ha' : ∀ d ∈ a.getLast?, Text.isBlank d = false := by
      intro d hd
      refine ha d ?_
      rw [List.getLast?_cons, Option.mem_def.1 hd]
      rfl
    obtain ⟨names, hnames, hlength, hclosed⟩ := ih ha'
    have hmarker := marker_append_iff (List.cons_ne_nil c a) ha hb
    rw [List.cons_append] at hmarker ⊢
    by_cases h : bulletMarker <+: c :: a
    · rw [documentedNames_of_marker (hmarker.2 h), documentedNames_of_marker h, hnames]
      refine ⟨_, List.cons_append.symm, by simp [hlength], fun hbullets => ?_⟩
      obtain ⟨us, d, vs, ws, hdrop, hd⟩ := hbullets 0 h
      have hlong : 3 ≤ (c :: a).length := h.length_le
      have hbehind : (c :: (a ++ b)).drop 3 = (c :: a).drop 3 ++ b := by
        rw [← List.cons_append, List.drop_append_of_le_length hlong]
      rw [Nat.zero_add] at hdrop
      rw [hbehind, hdrop, bulletName_append hd, hclosed hbullets.of_cons]
    · rw [documentedNames_of_no_marker (mt hmarker.1 h), documentedNames_of_no_marker h]
      exact ⟨names, hnames, hlength, fun hbullets => hclosed hbullets.of_cons⟩

/-- **The bullets of joined texts** are those of the single texts, by their number, and also by their names
    if these are closed in their texts. -/
theorem documentedNames_flatten (h : ∀ text ∈ texts, Text.Trimmed text) :
    (documentedNames texts.flatten).length =
      (texts.map fun text => (documentedNames text).length).sum ∧
    ((∀ text ∈ texts, BulletsClosed text) →
      documentedNames texts.flatten = texts.flatMap documentedNames) := by
  induction texts with
  | nil => exact ⟨rfl, fun _ => rfl⟩
  | cons text texts ih =>
    rw [List.forall_mem_cons] at h
    obtain ⟨hcount, hsame⟩ := ih h.2
    obtain ⟨names, hnames, hlength, hclosed⟩ :=
      exists_names_append h.1.last (Text.trimmed_flatten h.2).head
    rw [List.flatten_cons, hnames, List.forall_mem_cons]
    refine ⟨by simp [hlength, hcount], fun hbullets => ?_⟩
    rw [List.flatMap_cons, hclosed hbullets.1, hsame hbullets.2]

end Documentation

/-! ### Words -/

namespace Text

/-- The word lies over several of the texts: it starts within one, goes on over any number of whole texts
    and ends within a later one. -/
inductive Straddles : List Char → List (List Char) → Prop where
  /-- A part at the end of a text, whole texts, and a part at the start of a text. -/
  | mk {before middle after : List (List Char)} {front head tail back : List Char}
      (hhead : head ≠ []) (htail : tail ≠ []) :
      Straddles (head ++ (middle.flatten ++ tail))
        (before ++ (front ++ head) :: (middle ++ (tail ++ back) :: after))

theorem Straddles.cons (h : Straddles word texts) (text : List Char) :
    Straddles word (text :: texts) := by
  cases h with
  | mk hhead htail =>
    rw [← List.cons_append]
    exact .mk hhead htail

theorem Straddles.isInfix (h : Straddles word texts) : word <:+: texts.flatten := by
  cases h with
  | @mk before middle after front head tail back _ _ =>
    exact ⟨before.flatten ++ front, back ++ after.flatten, by simp⟩

/-- A text at the front of joined texts takes whole ones and ends within one. -/
theorem exists_of_prefix_flatten (h : w <+: texts.flatten) (hw : w ≠ []) :
    ∃ middle tail back after, texts = middle ++ (tail ++ back) :: after ∧ tail ≠ [] ∧
      w = middle.flatten ++ tail := by
  induction texts generalizing w with
  | nil => exact absurd (List.prefix_nil.1 h) hw
  | cons text texts ih =>
    obtain ⟨rest, hrest⟩ := h
    rw [List.flatten_cons] at hrest
    rcases List.append_eq_append_iff.1 hrest with ⟨back, rfl, _⟩ | ⟨later, rfl, hlater⟩
    · exact ⟨[], w, back, texts, rfl, hw, rfl⟩
    · by_cases hnil : later = []
      · -- The text ends with the first one.
        subst hnil
        exact ⟨[], text, [], texts, by simp, by simpa using hw, by simp⟩
      · obtain ⟨middle, tail, back, after, rfl, htail, rfl⟩ := ih ⟨rest, hlater.symm⟩ hnil
        exact ⟨text :: middle, tail, back, after, rfl, htail, by simp⟩

/-- **A word in joined texts** stands in one of them or lies over several. -/
theorem infix_flatten_iff (hw : word ≠ []) :
    word <:+: texts.flatten ↔ (∃ text ∈ texts, word <:+: text) ∨ Straddles word texts := by
  constructor
  · intro h
    induction texts with
    | nil => exact absurd (List.infix_nil.1 h) hw
    | cons text texts ih =>
      have hlater (h : word <:+: texts.flatten) :
          (∃ t ∈ text :: texts, word <:+: t) ∨ Straddles word (text :: texts) :=
        (ih h).imp (fun ⟨t, ht, hin⟩ => ⟨t, List.mem_cons_of_mem text ht, hin⟩) (·.cons text)
      rw [List.flatten_cons, List.infix_append_iff] at h
      rcases h with h | h | ⟨head, tail, rfl, ⟨front, rfl⟩, htail⟩
      · exact .inl ⟨text, by simp, h⟩
      · exact hlater h
      · -- The word goes over the seam behind the first text, if both of its parts hold something.
        by_cases hhead : head = []
        · exact hlater (by simpa [hhead] using htail.isInfix)
        by_cases hnil : tail = []
        · refine .inl ⟨front ++ head, by simp, ?_⟩
          simpa [hnil] using (List.suffix_append front head).isInfix
        obtain ⟨middle, last, back, after, rfl, hlast, rfl⟩ := exists_of_prefix_flatten htail hnil
        have hacross : Straddles (head ++ (middle.flatten ++ last))
            ([] ++ (front ++ head) :: (middle ++ (last ++ back) :: after)) := .mk hhead hlast
        exact .inr hacross
  · rintro (⟨text, ht, h⟩ | h)
    · exact h.trans (List.infix_of_mem_flatten ht)
    · exact h.isInfix

end Text

/-- The word `return`, in any case, lies over several of the texts. -/
def ReturnsAcross (texts : List String) : Prop :=
  ∃ stretch, Text.Straddles stretch (texts.map String.toList) ∧
    stretch.map Char.toLower = "return".toList

/-- **Joined texts mention returning** if one of them does, or if the word lies over several. -/
theorem mentionsReturning_join_iff (texts : List String) :
    MentionsReturning (String.join texts) ↔
      (∃ text ∈ texts, MentionsReturning text) ∨ ReturnsAcross texts := by
  have hjoin : (String.join texts).toList = (texts.map String.toList).flatten := by
    rw [String.toList_join, List.flatMap_def]
  have hstretch : ∀ stretch : List Char, stretch.map Char.toLower = "return".toList →
      (stretch <:+: (String.join texts).toList ↔
        (∃ text ∈ texts, stretch <:+: text.toList) ∨
          Text.Straddles stretch (texts.map String.toList)) := by
    intro stretch hword
    have hne : stretch ≠ [] := by
      rintro rfl
      cases hword
    rw [hjoin, Text.infix_flatten_iff hne]
    simp only [List.mem_map, exists_exists_and_eq_and]
  constructor
  · rintro ⟨stretch, hin, hword⟩
    rcases (hstretch stretch hword).1 hin with ⟨text, ht, h⟩ | h
    · exact .inl ⟨text, ht, stretch, h, hword⟩
    · exact .inr ⟨stretch, h, hword⟩
  · rintro (⟨text, ht, stretch, h, hword⟩ | ⟨stretch, h, hword⟩)
    · exact ⟨stretch, (hstretch stretch hword).2 (.inl ⟨text, ht, h⟩), hword⟩
    · exact ⟨stretch, (hstretch stretch hword).2 (.inr h), hword⟩

end DocAudit
