import DocAudit.Token.Reader

namespace DocAudit.Header

/-!
# What stands in front of a declaration

* `docs`, `skipDocs` — the run of comments above it;
* `skipAttributes` — attributes, each from `#[` to the first `]`;
* `skipVisibility` — `pub`, with what stands in parentheses behind it;
* `skipOpening` — these three, one behind another;
* `skipExtern` — `extern`, with the quoted name of a calling convention.

All of it is optional.  A part that starts but does not close is left where it stands.
-/

open Reader

variable {ts rest : List Token}

/-! ### Comments -/

/-- The text of the comments at the front, joined. -/
def docs (ts : List Token) : String :=
  String.join ((ts.takeWhile Token.isComment).map Token.text)

/-- The tokens behind the comments at the front. -/
def skipDocs (ts : List Token) : List Token :=
  ts.dropWhile Token.isComment

theorem skipDocs_isSuffix (ts : List Token) : skipDocs ts <:+ ts :=
  List.dropWhile_suffix _

/-! ### Attributes -/

/-- Takes one attribute, through the first closing bracket: brackets inside are not counted. -/
def attribute? (ts : List Token) : Option (List Token) := do
  let rest ← other? "#" ts
  let rest ← other? "[" rest
  past? (·.isOther "]") rest

theorem behind_of_attribute? (h : attribute? ts = some rest) : Behind rest ts := by
  simp only [attribute?, Option.bind_eq_bind, Option.bind_eq_some_iff] at h
  obtain ⟨us, hm, vs, ho, hc⟩ := h
  exact (behind_of_past? hc).trans ((behind_of_next? ho).trans (behind_of_next? hm))

/-- The tokens behind the attributes at the front. -/
def skipAttributes (ts : List Token) : List Token :=
  match h : attribute? ts with
  | some rest =>
    have := (behind_of_attribute? h).length_lt
    skipAttributes rest
  | none => ts
termination_by ts.length

theorem skipAttributes_of_none (h : attribute? ts = none) : skipAttributes ts = ts := by
  rw [skipAttributes]
  split
  · rename_i hs
    rw [h] at hs
    cases hs
  · rfl

theorem skipAttributes_of_some (h : attribute? ts = some rest) :
    skipAttributes ts = skipAttributes rest := by
  rw [skipAttributes]
  split
  · rename_i hs
    rw [h] at hs
    cases hs
    rfl
  · rename_i hs
    rw [h] at hs
    cases hs

theorem skipAttributes_isSuffix (ts : List Token) : skipAttributes ts <:+ ts := by
  fun_induction skipAttributes ts with
  | case1 ts rest h _ ih => exact ih.trans (behind_of_attribute? h).isSuffix
  | case2 ts h => exact List.suffix_refl ts

/-! ### Visibility and linkage -/

/-- Takes a parenthesis and everything through the first closing one. -/
def parenthesized? (ts : List Token) : Option (List Token) := do
  past? (·.isControl ")") (← control? "(" ts)

theorem behind_of_parenthesized? (h : parenthesized? ts = some rest) : Behind rest ts := by
  simp only [parenthesized?, Option.bind_eq_bind, Option.bind_eq_some_iff] at h
  obtain ⟨us, ho, hc⟩ := h
  exact (behind_of_past? hc).trans (behind_of_next? ho)

/-- The tokens behind a visibility at the front. -/
def skipVisibility (ts : List Token) : List Token :=
  match keyword? "pub" ts with
  | some rest => optional parenthesized? rest
  | none => ts

theorem skipVisibility_isSuffix (ts : List Token) : skipVisibility ts <:+ ts := by
  unfold skipVisibility
  split
  · rename_i rest h
    exact (optional_isSuffix fun _ hp => behind_of_parenthesized? hp).trans
      (behind_of_next? h).isSuffix
  · exact List.suffix_refl ts

/-- The tokens behind comments, attributes and a visibility at the front. -/
def skipOpening (ts : List Token) : List Token :=
  skipVisibility (skipAttributes (skipDocs ts))

theorem skipOpening_isSuffix (ts : List Token) : skipOpening ts <:+ ts :=
  (skipVisibility_isSuffix _).trans ((skipAttributes_isSuffix _).trans (skipDocs_isSuffix ts))

/-- Takes a name between double quotes. -/
def quotedName? (ts : List Token) : Option (List Token) := do
  let rest ← other? "\"" ts
  let rest ← name? rest
  other? "\"" rest

theorem behind_of_quotedName? (h : quotedName? ts = some rest) : Behind rest ts := by
  simp only [quotedName?, Option.bind_eq_bind, Option.bind_eq_some_iff] at h
  obtain ⟨us, ho, vs, hn, hc⟩ := h
  exact (behind_of_next? hc).trans ((behind_of_next? hn).trans (behind_of_next? ho))

/-- Takes `extern`, with a quoted name if a quote follows. -/
def extern? (ts : List Token) : Option (List Token) := do
  let rest ← keyword? "extern" ts
  if (other? "\"" rest).isSome then quotedName? rest else some rest

theorem behind_of_extern? (h : extern? ts = some rest) : Behind rest ts := by
  simp only [extern?, Option.bind_eq_bind, Option.bind_eq_some_iff] at h
  obtain ⟨us, he, h⟩ := h
  split at h
  · exact (behind_of_quotedName? h).trans (behind_of_next? he)
  · cases h; exact behind_of_next? he

/-- The tokens behind a linkage at the front. -/
def skipExtern (ts : List Token) : List Token :=
  optional extern? ts

theorem skipExtern_isSuffix (ts : List Token) : skipExtern ts <:+ ts :=
  optional_isSuffix fun _ h => behind_of_extern? h

/-- The tokens behind the given word, if it stands at the front. -/
def skipWord (word : String) (ts : List Token) : List Token :=
  optional (keyword? word) ts

theorem skipWord_isSuffix (word : String) (ts : List Token) : skipWord word ts <:+ ts :=
  optional_isSuffix fun _ h => behind_of_next? h

end DocAudit.Header
