import DocAudit.Documentation.Bullet
import DocAudit.Proofs.Token.Lexeme

namespace DocAudit.Documentation

/-!
# The places of bullets

The names that a text documents, told by offsets: there is one for each place of the marker, in the order
of the places, and each is read off the characters behind its marker.

* `MarkerAt` — a place of the marker;
* `FirstPlain` — the first character behind an offset that is no backtick;
* `NamedAt` — the name of the bullet at a place;
* `namedAt_bulletName` — the name that is found behind a marker;
* `documentedNames_places` — the names of a text, by their places.
-/

variable {docs front ticks more rest : List Char} {c : Char} {q r : Nat}

/-! ### Markers -/

/-- The marker of a bullet stands at the offset. -/
def MarkerAt (docs : List Char) (q : Nat) : Prop :=
  bulletMarker <+: docs.drop q

instance (docs : List Char) (q : Nat) : Decidable (MarkerAt docs q) :=
  inferInstanceAs (Decidable (_ <+: _))

theorem MarkerAt.lt_length (h : MarkerAt docs q) : q < docs.length := by
  have hroom : 3 ≤ (docs.drop q).length := h.length_le
  rw [List.length_drop] at hroom
  omega

theorem documentedNames_of_marker (h : bulletMarker <+: c :: rest) :
    documentedNames (c :: rest) =
      String.ofList (bulletName ((c :: rest).drop 3)) :: documentedNames rest := by
  rw [documentedNames, if_pos (List.isPrefixOf_iff_prefix.2 h)]
  rfl

theorem documentedNames_of_no_marker (h : ¬bulletMarker <+: c :: rest) :
    documentedNames (c :: rest) = documentedNames rest := by
  rw [documentedNames, if_neg (mt List.isPrefixOf_iff_prefix.1 h)]

/-! ### Names -/

/-- The first character at or behind the offset `start` that is no backtick stands at the offset `r`. -/
structure FirstPlain (docs : List Char) (start r : Nat) : Prop where
  /-- It does not stand in front of the offset. -/
  le : start ≤ r
  /-- There stands a character other than a backtick. -/
  plain : ∃ c, docs[r]? = some c ∧ c ≠ '`'
  /-- In between there are only backticks. -/
  first : ∀ i, start ≤ i → i < r → docs[i]? = some '`'

/-- The name of the bullet whose marker stands at the offset: the longest stretch without backticks, from
    the first character behind the marker that is none. -/
inductive NamedAt (docs : List Char) (q : Nat) : String → Prop where
  /-- There is such a character. -/
  | plain {r : Nat} {name after : List Char} (hr : FirstPlain docs (q + 3) r)
      (hdrop : docs.drop r = name ++ after) (hrun : Run (· != '`') name after) :
      NamedAt docs q (String.ofList name)
  /-- There is none, so the name is empty. -/
  | empty (h : ∀ r, ¬FirstPlain docs (q + 3) r) : NamedAt docs q ""

theorem firstPlain_append (front : List Char) (hticks : ∀ d ∈ ticks, d = '`') (hc : c ≠ '`') :
    FirstPlain (front ++ (ticks ++ c :: more)) front.length (front.length + ticks.length) where
  le := Nat.le_add_right _ _
  plain := ⟨c, by simp, hc⟩
  first i hi hlt := by
    obtain ⟨k, rfl⟩ := Nat.exists_eq_add_of_le hi
    have hk : k < ticks.length := Nat.lt_of_add_lt_add_left hlt
    rw [List.getElem?_append_right (Nat.le_add_right _ _), Nat.add_sub_cancel_left,
      List.getElem?_append_left hk, List.getElem?_eq_getElem hk,
      hticks _ (List.getElem_mem hk)]

theorem not_firstPlain_append (front : List Char) (hticks : ∀ d ∈ ticks, d = '`') :
    ¬FirstPlain (front ++ ticks) front.length r := by
  rintro ⟨hle, ⟨c, hget, hc⟩, _⟩
  rw [List.getElem?_append_right hle] at hget
  exact hc (hticks c (List.mem_of_getElem? hget))

/-- **The name behind a marker** is that of the bullet. -/
theorem namedAt_bulletName (hq : front.length = q + 3) (rest : List Char) :
    NamedAt (front ++ rest) q (String.ofList (bulletName rest)) := by
  -- The text behind the marker starts with backticks, and the name is read behind these.
  have hticks : ∀ d ∈ rest.takeWhile (· == '`'), d = '`' :=
    fun d hd => by simpa using List.mem_takeWhile_imp hd
  have hrest : rest.takeWhile (· == '`') ++ rest.dropWhile (· == '`') = rest :=
    List.takeWhile_append_dropWhile
  have hhead := List.head?_dropWhile_not (· == '`') rest
  rw [bulletName]
  generalize rest.takeWhile (· == '`') = ticks at hticks hrest
  generalize rest.dropWhile (· == '`') = named at hrest hhead
  subst hrest
  cases named with
  | nil =>
    refine .empty fun r hr => ?_
    rw [List.append_nil, ← hq] at hr
    exact not_firstPlain_append front hticks hr
  | cons c more =>
    have hc : c ≠ '`' := by simpa using hhead
    have hfirst : FirstPlain (front ++ (ticks ++ c :: more)) (q + 3) (front.length + ticks.length) :=
      hq ▸ firstPlain_append front hticks hc
    refine .plain hfirst ?_ (run_takeWhile _ _)
    rw [List.drop_length_add_append, List.drop_left, List.takeWhile_append_dropWhile]

/-! ### All bullets of a text -/

/-- The names of the rest of a text, by their places in the whole text. -/
theorem exists_places (front rest : List Char) :
    ∃ places : List Nat, places.Pairwise (· < ·) ∧
      (∀ q, q ∈ places ↔ front.length ≤ q ∧ MarkerAt (front ++ rest) q) ∧
      List.Forall₂ (NamedAt (front ++ rest)) places (documentedNames rest) := by
  induction rest generalizing front with
  | nil =>
    refine ⟨[], .nil, fun q => ?_, .nil⟩
    -- There is no room for a marker behind the text.
    suffices front.length ≤ q → ¬MarkerAt front q by simpa using this
    exact fun hq hmarker => Nat.not_lt.2 hq hmarker.lt_length
  | cons c rest ih =>
    obtain ⟨places, hsorted, hplaces, hnames⟩ := ih (front ++ [c])
    rw [← List.append_cons] at hplaces hnames
    have hlater : ∀ q, q ∈ places ↔ front.length < q ∧ MarkerAt (front ++ c :: rest) q := by
      simpa [Nat.succ_le_iff] using hplaces
    have hhere : MarkerAt (front ++ c :: rest) front.length ↔ bulletMarker <+: c :: rest := by
      rw [MarkerAt, List.drop_left]
    have hplace : ∀ q, q = front.length ∧ bulletMarker <+: c :: rest ∨ q ∈ places ↔
        front.length ≤ q ∧ MarkerAt (front ++ c :: rest) q := by
      intro q
      rw [hlater, ← hhere, Nat.le_iff_lt_or_eq]
      constructor
      · rintro (⟨rfl, hmarker⟩ | ⟨hlt, hmarker⟩)
        · exact ⟨.inr rfl, hmarker⟩
        · exact ⟨.inl hlt, hmarker⟩
      · rintro ⟨hlt | rfl, hmarker⟩
        · exact .inr ⟨hlt, hmarker⟩
        · exact .inl ⟨rfl, hmarker⟩
    by_cases h : bulletMarker <+: c :: rest
    · rw [documentedNames_of_marker h]
      have hbehind : ∀ p ∈ places, front.length < p := fun p hp => ((hlater p).1 hp).1
      refine ⟨front.length :: places, .cons hbehind hsorted, fun q => ?_, .cons ?_ hnames⟩
      · simpa [h] using hplace q
      · obtain ⟨behind, hmarker⟩ := h
        have hlength : (front ++ bulletMarker).length = front.length + 3 := List.length_append
        have hname := namedAt_bulletName hlength behind
        rw [← hmarker, ← List.append_assoc]
        simpa [bulletMarker] using hname
    · rw [documentedNames_of_no_marker h]
      refine ⟨places, hsorted, fun q => ?_, hnames⟩
      simpa [h] using hplace q

/-- **A name for each place of the marker**, in the order of the places: the one that is read off the
    characters behind. -/
theorem documentedNames_places (docs : List Char) :
    ∃ places : List Nat, places.Pairwise (· < ·) ∧ (∀ q, q ∈ places ↔ MarkerAt docs q) ∧
      List.Forall₂ (NamedAt docs) places (documentedNames docs) := by
  simpa using exists_places [] docs

end DocAudit.Documentation
