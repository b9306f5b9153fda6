import DocAudit.Proofs.Declaration.Signature
import DocAudit.Proofs.Declaration.Struct
import Mathlib.Data.List.Basic

namespace DocAudit

/-!
# Entries do not depend on what is cut off behind them

A parameter or a field ends where its type ends, and for that the tokens behind it are looked at: there
may be no limit to how far, if an angle bracket is never closed.  What is found there can only make the
entry longer.  So an entry that was read stays the same if tokens behind it are cut off.

* `TypeExpr.type?_cut` — this holds of types;
* `typed?`, `steady_typed` — hence of a name with its type;
* `OpeningBefore`, `skipOpening_eq_cons_iff` — what is passed over in front of a word, exactly;
* `steady_parameter`, `steady_field` — hence it holds of parameters and of fields.
-/

open Reader Header

variable {ts us rest : List Token} {n : Token} {closer : String}

/-! ### Types -/

/-- With tokens cut off behind it, a type is neither shorter, because what was read of it is still
    there, nor longer, because it would have been longer before. -/
theorem TypeExpr.type?_cut (us : List Token) (h : type? (ts ++ us) = some (rest ++ us)) :
    type? ts = some rest := by
  have hread : Part.type.read? (ts ++ us) = some (rest ++ us) := h
  obtain ⟨front, hfront, heq⟩ := read?_sound hread
  obtain rfl : ts = front ++ rest := by
    rwa [← List.append_assoc, List.append_cancel_right_eq] at heq
  obtain ⟨r, hr, hsuffix⟩ := type?_append hfront rest
  have hread' : Part.type.read? (front ++ rest) = some r := hr
  obtain ⟨longer, hlonger, heq'⟩ := read?_sound hread'
  obtain ⟨r', hr', hsuffix'⟩ := type?_append hlonger (r ++ us)
  rw [← List.append_assoc, ← heq', h, Option.some.injEq] at hr'
  subst hr'
  -- Of two suffixes of one list the shorter one is a suffix of the other, so both rests agree.
  have hlength : rest.length ≤ r.length := by
    have := hsuffix'.length_le
    simp only [List.length_append] at this
    omega
  rw [hr, hsuffix.eq_of_length_le hlength]

theorem TypeExpr.type?_extend (us : List Token) (h : type? ts ≠ none) : type? (ts ++ us) ≠ none := by
  obtain ⟨rest, hr⟩ := Option.ne_none_iff_exists'.1 h
  have hread : Part.type.read? ts = some rest := hr
  obtain ⟨front, hfront, rfl⟩ := read?_sound hread
  obtain ⟨r, hr', _⟩ := type?_append hfront (rest ++ us)
  rw [List.append_assoc, hr']
  exact Option.some_ne_none r

/-! ### A name with its type -/

theorem skipEntryEnd_cons_of_not {t : Token} (h : ¬ EndsEntry closer t) :
    skipEntryEnd closer (t :: rest) = t :: rest := by
  rw [EndsEntry, not_or] at h
  simp [skipEntryEnd, h.1, h.2, Reader.optional]

theorem skipEntryEnd_cut (us : List Token) (h : skipEntryEnd closer (ts ++ us) = rest ++ us) :
    skipEntryEnd closer ts = rest := by
  cases ts with
  | nil =>
    have hlength := (skipEntryEnd_isSuffix closer us).length_le
    rw [List.nil_append] at h
    rw [h, List.length_append] at hlength
    obtain rfl : rest = [] := List.length_eq_zero_iff.1 (by omega)
    rfl
  | cons t ts =>
    by_cases ht : EndsEntry closer t
    · rw [List.cons_append, skipEntryEnd_cons ht] at h
      rw [skipEntryEnd_cons ht, List.append_cancel_right h]
    · rw [List.cons_append, skipEntryEnd_cons_of_not ht] at h
      rw [skipEntryEnd_cons_of_not ht]
      exact List.append_cancel_right h

/-- Takes a name with its type, and the end of the entry. -/
def typed? (closer : String) (ts : List Token) : Option (String × List Token) := do
  let (name, rest) ← word? ts
  let rest ← control? ":" rest
  let rest ← TypeExpr.type? rest
  return (name, skipEntryEnd closer rest)

theorem typed?_eq_some_iff {name : String} : typed? closer ts = some (name, rest) ↔
    ∃ n c us vs, n.isIdentifier = true ∧ n.text = name ∧ c.isControl ":" = true ∧
      ts = n :: c :: us ∧ TypeExpr.type? us = some vs ∧ skipEntryEnd closer vs = rest := by
  constructor
  · intro h
    simp only [typed?, Option.bind_eq_bind, Option.bind_eq_some_iff, Option.pure_def,
      Option.some.injEq, Prod.mk.injEq, Prod.exists] at h
    obtain ⟨_, ws, rn, us, rc, vs, rt, rfl, hend⟩ := h
    obtain ⟨n, hn, hname, rfl⟩ := word?_eq_some_iff.1 rn
    obtain ⟨c, hc, rfl⟩ := next?_eq_some_iff.1 rc
    exact ⟨n, c, us, vs, hn, hname, hc, rfl, rt, hend⟩
  · rintro ⟨n, c, us, vs, hn, rfl, hc, rfl, rt, rfl⟩
    simp [typed?, hn, hc, rt]

/-- A suffix that ends in given tokens comes from one of the tokens in front of them. -/
theorem exists_of_append_suffix {vs : List Token} (h : rest ++ us <:+ vs) : ∃ ts, vs = ts ++ us := by
  obtain ⟨front, rfl⟩ := h
  exact ⟨front ++ rest, (List.append_assoc front rest us).symm⟩

theorem steady_typed (closer : String) : Steady (typed? closer) where
  cut {ts rest} us name h := by
    obtain ⟨n, c, vs, ws, hn, hname, hc, hts, rt, hend⟩ := typed?_eq_some_iff.1 h
    -- The tokens that are cut off stand behind each part.
    obtain ⟨ws, rfl⟩ := exists_of_append_suffix (hend ▸ skipEntryEnd_isSuffix closer ws)
    obtain ⟨vs, rfl⟩ := exists_of_append_suffix (TypeExpr.behind_of_type? rt).isSuffix
    refine typed?_eq_some_iff.2 ⟨n, c, vs, ws, hn, hname, hc, ?_, TypeExpr.type?_cut us rt,
      skipEntryEnd_cut us hend⟩
    have hcancel : ts ++ us = n :: c :: vs ++ us := hts
    exact List.append_cancel_right hcancel
  extend {ts} us h := by
    obtain ⟨⟨name, rest⟩, h⟩ := Option.ne_none_iff_exists'.1 h
    obtain ⟨n, c, vs, ws, hn, hname, hc, rfl, rt, _⟩ := typed?_eq_some_iff.1 h
    have hread : TypeExpr.type? (vs ++ us) ≠ none :=
      TypeExpr.type?_extend us (by rw [rt]; exact Option.some_ne_none ws)
    obtain ⟨ws', rt'⟩ := Option.ne_none_iff_exists'.1 hread
    exact Option.ne_none_iff_exists'.2
      ⟨_, typed?_eq_some_iff.2 ⟨n, c, vs ++ us, ws', hn, hname, hc, rfl, rt', rfl⟩⟩

/-! ### What stands in front of a word -/

/-- What the function passes over in front of a word does not depend on what stands at the end. -/
structure StopsAtWord (skip : List Token → List Token) : Prop where
  /-- Tokens at the end stay behind the word. -/
  append_iff : ∀ {ts us rest : List Token} {n : Token}, n.isIdentifier = true →
    (skip (ts ++ us) = n :: (rest ++ us) ↔ skip ts = n :: rest)

/-- It is enough to know what may be passed over in front of a word. -/
theorem StopsAtWord.of_iff {skip : List Token → List Token} {P : Token → List Token → Prop}
    (h : ∀ {ts rest n}, n.isIdentifier = true →
      (skip ts = n :: rest ↔ ∃ front, P n front ∧ ts = front ++ n :: rest)) : StopsAtWord skip where
  append_iff {ts us rest n} hn := by
    rw [h hn, h hn]
    refine exists_congr fun front => and_congr_right fun _ => ?_
    rw [← List.cons_append, ← List.append_assoc, List.append_cancel_right_eq]

/-- A name with its type, behind what stands in front of it. -/
theorem StopsAtWord.steady_typed {skip : List Token → List Token} (hskip : StopsAtWord skip) :
    Steady fun ts => typed? closer (skip ts) where
  cut {ts rest} us name h := by
    obtain ⟨n, c, vs, ws, hn, _, _, hts, rt, hend⟩ := typed?_eq_some_iff.1 h
    obtain ⟨ws, rfl⟩ := exists_of_append_suffix (hend ▸ skipEntryEnd_isSuffix closer ws)
    obtain ⟨vs, rfl⟩ := exists_of_append_suffix (TypeExpr.behind_of_type? rt).isSuffix
    have hword : skip ts = n :: c :: vs := (hskip.append_iff hn).1 hts
    have hread : typed? closer (n :: c :: vs ++ us) = some (name, rest ++ us) := by
      rw [← h, hts]
      rfl
    show typed? closer (skip ts) = _
    rw [hword]
    exact (DocAudit.steady_typed closer).cut us hread
  extend {ts} us h := by
    obtain ⟨⟨name, rest⟩, hread⟩ := Option.ne_none_iff_exists'.1 h
    obtain ⟨n, c, vs, _, hn, _, _, hts, _, _⟩ := typed?_eq_some_iff.1 hread
    show typed? closer (skip (ts ++ us)) ≠ none
    rw [(hskip.append_iff hn).2 hts]
    exact (DocAudit.steady_typed closer).extend us (hts ▸ h)

/-- A word is passed over in front of another one. -/
theorem skipWord_eq_cons_iff {word : String} : skipWord word ts = n :: rest ↔
    ∃ front, (front = [] ∧ n.isKeyword word = false ∨ Word word front) ∧ ts = front ++ n :: rest := by
  constructor
  · intro h
    obtain ⟨front, hfront, hts⟩ := (Takes.keyword word).optional_sound ts
    rw [show Reader.optional (keyword? word) ts = n :: rest from h] at hts
    refine ⟨front, hfront.imp_left fun hnone => ⟨hnone.1, ?_⟩, hts⟩
    obtain ⟨rfl, hnone⟩ := hnone
    rw [hts, List.nil_append] at hnone
    simpa using hnone
  · rintro ⟨front, ⟨rfl, hn⟩ | hfront, rfl⟩
    · exact skipWord_append (.inl rfl) (Heads.cons_iff.2 hn)
    · exact optional_of_some ((Takes.keyword word).append hfront _)

theorem stopsAtWord_skipWord (word : String) : StopsAtWord (skipWord word) :=
  .of_iff fun _ => skipWord_eq_cons_iff

theorem skipVisibility_eq_cons_iff (hn : n.isIdentifier = true) : skipVisibility ts = n :: rest ↔
    ∃ v, (v = [] ∧ n.isKeyword "pub" = false ∨ Visibility v) ∧ ts = v ++ n :: rest := by
  constructor
  · intro h
    obtain ⟨v, hv, hts⟩ := skipVisibility_sound ts
    rw [h] at hts
    refine ⟨v, hv.imp_left fun hnil => ⟨hnil, ?_⟩, hts⟩
    -- In front of all else the word `pub` would have been passed over.
    by_contra hpub
    rw [Bool.not_eq_false] at hpub
    rw [hts, hnil, List.nil_append, skipVisibility, keyword?_cons, if_pos hpub] at h
    have hrest : Reader.optional parenthesized? rest = n :: rest := h
    have hsuffix : Reader.optional parenthesized? rest <:+ rest :=
      optional_isSuffix fun _ hp => behind_of_parenthesized? hp
    have hlength := hsuffix.length_le
    rw [hrest, List.length_cons] at hlength
    omega
  · rintro ⟨v, ⟨rfl, hpub⟩ | hv, rfl⟩
    · exact skipVisibility_append (.inl rfl) (Heads.cons_iff.2 ⟨hpub, by grind⟩)
    · exact skipVisibility_visibility hv (Heads.cons_iff.2 (by grind))

/-- What is passed over as an opening in front of the word: that word may itself be `pub`, but only
    behind a visibility. -/
inductive OpeningBefore (n : Token) : List Token → Prop where
  /-- The parts in their order. -/
  | mk {cs as v : List Token} (hcs : ∀ t ∈ cs, t.isComment = true) (has : Attributes as)
      (hv : v = [] ∧ n.isKeyword "pub" = false ∨ Visibility v) : OpeningBefore n (cs ++ (as ++ v))

theorem skipOpening_eq_cons_iff (hn : n.isIdentifier = true) : skipOpening ts = n :: rest ↔
    ∃ front, OpeningBefore n front ∧ ts = front ++ n :: rest := by
  constructor
  · intro h
    obtain ⟨cs, hcs, hdocs⟩ := skipDocs_sound ts
    obtain ⟨as, has, hattributes⟩ := skipAttributes_sound (skipDocs ts)
    obtain ⟨v, hv, hvisibility⟩ := (skipVisibility_eq_cons_iff hn).1 h
    refine ⟨cs ++ (as ++ v), .mk hcs has hv, ?_⟩
    rw [List.append_assoc, List.append_assoc, ← hvisibility, ← hattributes, ← hdocs]
  · rintro ⟨_, @⟨cs, as, v, hcs, has, hv⟩, rfl⟩
    have hvisibility : v = [] ∨ Visibility v := hv.imp_left And.left
    have hhash : Heads (·.isOther "#" = false) (v ++ n :: rest) :=
      (Visibility.heads hvisibility (by grind)).append (Heads.cons_iff.2 (by grind))
    have hcomment : Heads (·.isComment = false) (as ++ (v ++ n :: rest)) :=
      (has.heads (by grind)).append
        ((Visibility.heads hvisibility (by grind)).append (Heads.cons_iff.2 (by grind)))
    rw [List.append_assoc, List.append_assoc, skipOpening, skipDocs_append hcs hcomment,
      skipAttributes_append has hhash]
    exact (skipVisibility_eq_cons_iff hn).2 ⟨v, hv, rfl⟩

theorem stopsAtWord_skipOpening : StopsAtWord skipOpening :=
  .of_iff skipOpening_eq_cons_iff

/-! ### Parameters -/

theorem parameter?_eq (ts : List Token) : parameter? ts =
    match receiver? ts with
    | some rest => some (receiverName, rest)
    | none => typed? ")" (skipWord "mut" ts) :=
  rfl

theorem takes_receiver :
    Takes receiver? (fun front => ∃ r d, Receiver r ∧ EndsEntry ")" d ∧ front = r ++ [d]) where
  sound hr := by
    obtain ⟨r, d, h, hd, rfl⟩ := receiver?_sound hr
    exact ⟨r ++ [d], ⟨r, d, h, hd, rfl⟩, List.append_cons r d _⟩
  append hp rest := by
    obtain ⟨r, d, h, hd, rfl⟩ := hp
    rw [List.append_assoc, List.singleton_append, receiver?_append h hd]

/-- **A parameter does not depend on what is cut off behind it.** -/
theorem steady_parameter : Steady parameter? where
  cut {ts rest} us name h := by
    rw [parameter?_eq] at h ⊢
    cases hr : receiver? (ts ++ us) with
    | some r =>
      rw [hr, Option.some.injEq, Prod.mk.injEq] at h
      obtain ⟨rfl, rfl⟩ := h
      rw [takes_receiver.cut us hr]
    | none =>
      -- A receiver in the shorter list would have been there before.
      have hnone : receiver? ts = none := by
        cases hr' : receiver? ts with
        | none => rfl
        | some r => exact absurd (hr.symm.trans (takes_receiver.extend us hr')) (by simp)
      rw [hr] at h
      rw [hnone]
      exact (stopsAtWord_skipWord "mut").steady_typed.cut us h
  extend {ts} us h := by
    rw [parameter?_eq] at h ⊢
    cases hr : receiver? (ts ++ us) with
    | some r => exact Option.some_ne_none _
    | none =>
      cases hr' : receiver? ts with
      | some r => exact absurd (hr.symm.trans (takes_receiver.extend us hr')) (by simp)
      | none =>
        rw [hr'] at h
        exact (stopsAtWord_skipWord "mut").steady_typed.extend us h

/-! ### Fields -/

theorem field?_eq (ts : List Token) : field? ts = (typed? "\x7d" (skipOpening ts)).map
    fun (name, rest) => ({ name, docs := docs ts, span := .covering (blockBefore ts rest) }, rest) := by
  simp only [field?, typed?, Option.bind_eq_bind, Option.map_bind, Option.pure_def,
    Function.comp_def, Option.map_some]

theorem blockBefore_append_append (h : rest <:+ ts) (us : List Token) :
    blockBefore (ts ++ us) (rest ++ us) = blockBefore ts rest := by
  obtain ⟨front, rfl⟩ := h
  rw [List.append_assoc, blockBefore_append, blockBefore_append]

/-- **A field does not depend on what is cut off behind it.** -/
theorem steady_field : Steady field? where
  cut {ts rest} us f h := by
    have hsuffix : rest <:+ ts :=
      List.suffix_append_self_iff.1 (behind_of_field? h).isSuffix
    rw [field?_eq, Option.map_eq_some_iff] at h ⊢
    obtain ⟨⟨name, _⟩, h, heq⟩ := h
    obtain ⟨rfl, rfl⟩ := Prod.mk.inj heq
    have hread := stopsAtWord_skipOpening.steady_typed.cut us h
    -- The name stands behind the comments.
    have hne : skipDocs ts ≠ [] := by
      obtain ⟨n, c, vs, _, _, _, _, hts, _⟩ := typed?_eq_some_iff.1 hread
      have hopening : skipOpening ts <:+ skipDocs ts :=
        (skipVisibility_isSuffix _).trans (skipAttributes_isSuffix _)
      intro hnil
      rw [hnil, List.suffix_nil, hts] at hopening
      cases hopening
    refine ⟨(name, rest), hread, ?_⟩
    rw [docs_append_of_ne_nil hne, blockBefore_append_append hsuffix]
  extend {ts} us h := by
    rw [field?_eq, ne_eq, Option.map_eq_none_iff] at h ⊢
    exact stopsAtWord_skipOpening.steady_typed.extend us h

end DocAudit
