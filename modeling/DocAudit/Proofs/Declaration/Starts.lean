import DocAudit.Proofs.Declaration.Qualifiers

namespace DocAudit

/-!
# How a declaration starts

Each form of declaration is recognized by its start; whatever stands behind that only adds entries to
what is recorded.  So a form applies exactly where its start is written.

* `skipExtern_sound`, `skipModifiers_sound`, `skipQualifiers_sound` — what is passed over in front of a
  keyword is what may stand there;
* `SignatureStart`, `StructStart`, `NamedStart` — the written starts, each with its name and the
  comments above it;
* `signature?_eq_some_iff`, `structHead?_eq_some_iff`, `named?_eq_some_iff` — the readers take just
  these;
* `Form.Applies`, `Form.recognize?_ne_none_iff` — hence a form is recognized exactly where a
  declaration of it starts.
-/

open Reader Header

variable {ts us rest comments front : List Token} {t : Token} {name : String}

/-! ### What is passed over -/

theorem skipExtern_sound (ts : List Token) :
    ∃ linkage, (linkage = [] ∨ Linkage linkage) ∧ ts = linkage ++ skipExtern ts := by
  cases hr : extern? ts with
  | none => exact ⟨[], .inl rfl, (optional_of_none hr).symm⟩
  | some rest =>
    rw [skipExtern, optional_of_some hr]
    simp only [extern?, Option.bind_eq_bind, Option.bind_eq_some_iff] at hr
    obtain ⟨us, re, hr⟩ := hr
    obtain ⟨e, he, rfl⟩ := next?_eq_some_iff.1 re
    split at hr
    · simp only [quotedName?, Option.bind_eq_bind, Option.bind_eq_some_iff] at hr
      obtain ⟨vs, ro, ws, rn, rc⟩ := hr
      obtain ⟨o, ho, rfl⟩ := next?_eq_some_iff.1 ro
      obtain ⟨n, hn, rfl⟩ := next?_eq_some_iff.1 rn
      obtain ⟨c, hc, rfl⟩ := next?_eq_some_iff.1 rc
      exact ⟨[e, o, n, c], .inr (.quoted he ho hn hc), rfl⟩
    · cases hr
      exact ⟨[e], .inr (.plain he), rfl⟩

theorem skipWord_sound (word : String) (ts : List Token) :
    ∃ front, (front = [] ∨ Word word front) ∧ ts = front ++ skipWord word ts := by
  obtain ⟨front, hf, hts⟩ := (Takes.keyword word).optional_sound ts
  exact ⟨front, hf.imp_left And.left, hts⟩

theorem skipModifiers_sound (ts : List Token) :
    ∃ modifiers, Modifiers modifiers ∧ ts = modifiers ++ skipModifiers ts := by
  obtain ⟨as, has, hattributes⟩ := skipAttributes_sound ts
  obtain ⟨v, hv, hvisibility⟩ := skipVisibility_sound (skipAttributes ts)
  obtain ⟨c, hc, hconst⟩ := skipWord_sound "const" (skipVisibility (skipAttributes ts))
  obtain ⟨a, ha, hasync⟩ :=
    skipWord_sound "async" (skipWord "const" (skipVisibility (skipAttributes ts)))
  obtain ⟨u, hu, hunsafe⟩ :=
    skipWord_sound "unsafe" (skipWord "async" (skipWord "const" (skipVisibility (skipAttributes ts))))
  refine ⟨as ++ (v ++ (c ++ (a ++ u))), .mk has hv hc ha hu, ?_⟩
  unfold skipModifiers
  simp only [List.append_assoc]
  rw [← hunsafe, ← hasync, ← hconst, ← hvisibility, ← hattributes]

theorem skipQualifiers_sound (ts : List Token) :
    ∃ qualifiers, Qualifiers qualifiers ∧ ts = qualifiers ++ skipQualifiers ts := by
  obtain ⟨e, he, hfirst⟩ := skipExtern_sound ts
  obtain ⟨ms, hms, hmodifiers⟩ := skipModifiers_sound (skipExtern ts)
  obtain ⟨l, hl, hlast⟩ := skipExtern_sound (skipModifiers (skipExtern ts))
  refine ⟨e ++ (ms ++ l), .mk he hms hl, ?_⟩
  unfold skipQualifiers
  simp only [List.append_assoc]
  rw [← hlast, ← hmodifiers, ← hfirst]

/-! ### Functions -/

/-- The start of a signature, through the parenthesis that opens the parameters. -/
inductive SignatureStart : String → List Token → List Token → Prop where
  /-- Comments, qualifiers, the word `fn`, the name, and anything up to the first parenthesis. -/
  | mk {cs qs generics : List Token} {k n o : Token} (hcs : ∀ t ∈ cs, t.isComment = true)
      (hqs : Qualifiers qs) (hk : k.isKeyword "fn" = true) (hn : n.isIdentifier = true)
      (hgenerics : ∀ t ∈ generics, t.isControl "(" = false) (ho : o.isControl "(" = true) :
      SignatureStart n.text cs (cs ++ (qs ++ k :: n :: (generics ++ [o])))

namespace SignatureStart

/-- The start of a signature ends in the parenthesis that opens the parameters. -/
theorem exists_concat (h : SignatureStart name comments front) :
    ∃ head o, o.isControl "(" = true ∧ front = head ++ [o] := by
  obtain @⟨_, qs, generics, k, n, o, _, _, _, _, _, ho⟩ := h
  exact ⟨comments ++ (qs ++ k :: n :: generics), o, ho, by simp⟩

/-- Behind the comments of a signature there is no further one. -/
theorem docs_append (h : SignatureStart name comments front) (rest : List Token) :
    docs (front ++ rest) = String.join (comments.map Token.text) := by
  obtain @⟨_, qs, generics, k, n, o, hcs, hqs, hk, _, _, _⟩ := h
  have hcomment : Heads (·.isComment = false) (qs ++ k :: n :: (generics ++ [o]) ++ rest) := by
    rw [List.append_assoc]
    exact hqs.heads.append (Heads.cons_iff.2 (by grind))
  rw [List.append_assoc]
  exact Header.docs_append hcs hcomment

theorem signature?_append (h : SignatureStart name comments front) (rest : List Token) :
    signature? (front ++ rest) = some (name, rest) := by
  obtain @⟨_, qs, generics, k, n, o, hcs, hqs, hk, hn, hgenerics, ho⟩ := h
  have hcomment : Heads (·.isComment = false) (qs ++ k :: n :: (generics ++ o :: rest)) :=
    hqs.heads.append (Heads.cons_iff.2 (by grind))
  have hparenthesis : past? (·.isControl "(") (generics ++ o :: rest) = some rest := by
    have h := (Takes.past (·.isControl "(")).append ⟨generics, o, hgenerics, ho, rfl⟩ rest
    rwa [List.append_assoc] at h
  have hfront : comments ++ (qs ++ k :: n :: (generics ++ [o])) ++ rest =
      comments ++ (qs ++ k :: n :: (generics ++ o :: rest)) := by simp
  rw [hfront, signature?, skipDocs_append hcs hcomment,
    skipQualifiers_append hqs (.of_isKeyword hk (by decide))]
  simp [hk, hn, hparenthesis]

end SignatureStart

/-- **A signature is read where its start is written, and nowhere else.** -/
theorem signature?_eq_some_iff : signature? ts = some (name, rest) ↔
    ∃ comments front, SignatureStart name comments front ∧ ts = front ++ rest := by
  constructor
  · intro h
    simp only [signature?, Option.bind_eq_bind, Option.bind_eq_some_iff, Option.pure_def,
      Option.some.injEq, Prod.mk.injEq, Prod.exists] at h
    obtain ⟨vs, rk, _, ws, rn, xs, rp, rfl, rfl⟩ := h
    obtain ⟨k, hk, hkeyword⟩ := next?_eq_some_iff.1 rk
    obtain ⟨n, hn, rfl, rfl⟩ := word?_eq_some_iff.1 rn
    obtain ⟨_, ⟨generics, o, hgenerics, ho, rfl⟩, rfl⟩ := (Takes.past (·.isControl "(")).sound rp
    obtain ⟨cs, hcs, hdocs⟩ := skipDocs_sound ts
    obtain ⟨qs, hqs, hqualifiers⟩ := skipQualifiers_sound (skipDocs ts)
    refine ⟨cs, _, .mk hcs hqs hk hn hgenerics ho, ?_⟩
    rw [hdocs, hqualifiers, hkeyword]
    simp
  · rintro ⟨comments, front, h, rfl⟩
    exact h.signature?_append rest

/-! ### Structs -/

/-- The start of a struct, up to the token that ends its head. -/
inductive StructStart : String → List Token → List Token → Prop where
  /-- An opening, the word `struct`, the name, and anything that does not end the head. -/
  | mk {cs opening generics : List Token} {k n : Token} (hopening : Opening cs opening)
      (hk : k.isKeyword "struct" = true) (hn : n.isIdentifier = true)
      (hgenerics : ∀ t ∈ generics, endsStructHead t = false) :
      StructStart n.text cs (opening ++ k :: n :: generics)

namespace StructStart

theorem docs_append (h : StructStart name comments front) (rest : List Token) :
    docs (front ++ rest) = String.join (comments.map Token.text) := by
  obtain @⟨_, opening, generics, k, n, hopening, hk, _, _⟩ := h
  have hend : EndsOpening k := endsOpening_of_isIdentifier (by grind) (by grind)
  rw [List.append_assoc]
  exact (skipOpening_append hopening hend).2

theorem structHead?_append {o : Token} (h : StructStart name comments front)
    (ho : endsStructHead o = true) (rest : List Token) :
    structHead? (front ++ o :: rest) = some (name, o :: rest) := by
  obtain @⟨_, opening, generics, k, n, hopening, hk, hn, hgenerics⟩ := h
  have hend : EndsOpening k := endsOpening_of_isIdentifier (by grind) (by grind)
  have hhead : (generics ++ o :: rest).dropWhile (fun t => !endsStructHead t) = o :: rest := by
    rw [List.dropWhile_append_of_pos fun t ht => by simp [hgenerics t ht],
      List.dropWhile_cons_of_neg (by simp [ho])]
  rw [List.append_assoc, structHead?, List.cons_append, (skipOpening_append hopening hend).1]
  simp only [keyword?_cons, hk, List.cons_append, word?_cons, hn, if_true, hhead,
    Option.bind_eq_bind, Option.bind_some]
  rfl

end StructStart

/-- **The head of a struct is read where it is written, and nowhere else.** -/
theorem structHead?_eq_some_iff : structHead? ts = some (name, rest) ↔
    ∃ comments front o inside, StructStart name comments front ∧ endsStructHead o = true ∧
      rest = o :: inside ∧ ts = front ++ rest := by
  constructor
  · intro h
    simp only [structHead?, Option.bind_eq_bind, Option.bind_eq_some_iff, Prod.exists] at h
    obtain ⟨us, rk, _, vs, rn, h⟩ := h
    obtain ⟨k, hk, hkeyword⟩ := next?_eq_some_iff.1 rk
    obtain ⟨n, hn, rfl, rfl⟩ := word?_eq_some_iff.1 rn
    obtain ⟨cs, opening, hopening, hts⟩ := skipOpening_sound ts
    rw [hkeyword] at hts
    split at h
    · cases h
    · rename_i hbody
      simp only [Option.some.injEq, Prod.mk.injEq] at h
      obtain ⟨rfl, hrest⟩ := h
      -- What is left is not empty, and starts with a token that ends the head.
      have hne : vs.dropWhile (fun t => !endsStructHead t) ≠ [] := by
        rwa [ne_eq, ← List.isEmpty_iff]
      obtain ⟨o, inside, hinside⟩ := List.exists_cons_of_ne_nil hne
      have ho : endsStructHead o = true := by
        have hnot := List.head?_dropWhile_not (fun t => !endsStructHead t) vs
        rw [hinside] at hnot
        simpa using hnot
      have hgenerics : ∀ t ∈ vs.takeWhile (fun t => !endsStructHead t), endsStructHead t = false :=
        fun t ht => by simpa using List.mem_takeWhile_imp ht
      refine ⟨cs, _, o, inside, .mk hopening hk hn hgenerics, ho, hrest ▸ hinside, ?_⟩
      rw [hts, ← hrest, List.append_assoc, List.cons_append, List.cons_append,
        List.takeWhile_append_dropWhile]
  · rintro ⟨comments, front, o, inside, h, ho, rfl, rfl⟩
    exact h.structHead?_append ho inside

/-! ### Declarations of which only the name matters -/

/-- An enumeration, a trait or a constant through its name. -/
inductive NamedStart (kind : NamedKind) : String → List Token → List Token → Prop where
  /-- Comments, attributes, which a trait does not have, a visibility, the word and the name. -/
  | mk {cs as v : List Token} {k n : Token} (hcs : ∀ t ∈ cs, t.isComment = true)
      (has : Attributes as) (htrait : kind = .trait → as = []) (hv : v = [] ∨ Visibility v)
      (hk : k.isKeyword kind.word = true) (hn : n.isIdentifier = true) :
      NamedStart kind n.text cs (cs ++ (as ++ (v ++ [k, n])))

/-- The declaration that is written there. -/
def Named.ofStart (kind : NamedKind) (name : String) (comments front : List Token) : Named where
  kind
  name
  docs := String.join (comments.map Token.text)
  span := Span.covering front

/-- The word that introduces a declaration is none that may stand in front of it. -/
theorem NamedKind.word_ne_pub (kind : NamedKind) : kind.word ≠ "pub" := by
  cases kind <;> decide

theorem NamedStart.named?_append {kind : NamedKind} (h : NamedStart kind name comments front)
    (rest : List Token) :
    named? kind (front ++ rest) = some (.ofStart kind name comments front, rest) := by
  obtain @⟨_, as, v, k, n, hcs, has, htrait, hv, hk, hn⟩ := h
  have hpub : Heads (fun t => t.isKeyword "pub" = false ∧ t.isControl "(" = false)
      (k :: n :: rest) := Heads.cons_iff.2 (by grind [kind.word_ne_pub])
  have hhash : Heads (·.isOther "#" = false) (v ++ k :: n :: rest) :=
    (Visibility.heads hv (by grind)).append (Heads.cons_iff.2 (by grind))
  have hcomment : Heads (·.isComment = false) (as ++ (v ++ k :: n :: rest)) :=
    (has.heads (by grind)).append
      ((Visibility.heads hv (by grind)).append (Heads.cons_iff.2 (by grind)))
  have hheader : (if kind = .trait then as ++ (v ++ k :: n :: rest)
      else skipAttributes (as ++ (v ++ k :: n :: rest))) = v ++ k :: n :: rest := by
    split
    · rename_i hkind
      rw [htrait hkind, List.nil_append]
    · exact skipAttributes_append has hhash
  have hfront : comments ++ (as ++ (v ++ [k, n])) ++ rest =
      comments ++ (as ++ (v ++ k :: n :: rest)) := by simp
  have hblock : blockBefore (comments ++ (as ++ (v ++ k :: n :: rest))) rest =
      comments ++ (as ++ (v ++ [k, n])) := by rw [← hfront, blockBefore_append]
  rw [hfront, named?, skipDocs_append hcs hcomment, Header.docs_append hcs hcomment, hheader,
    skipVisibility_append hv hpub]
  simp only [keyword?_cons, hk, word?_cons, hn, if_true, hblock, Option.bind_eq_bind,
    Option.bind_some, Option.pure_def]
  rfl

/-- **A name is read where it is written behind its word, and nowhere else.** -/
theorem named?_eq_some_iff {kind : NamedKind} {d : Named} : named? kind ts = some (d, rest) ↔
    ∃ name comments front, NamedStart kind name comments front ∧
      d = .ofStart kind name comments front ∧ ts = front ++ rest := by
  constructor
  · intro h
    have hread := h
    simp only [named?, Option.bind_eq_bind, Option.bind_eq_some_iff, Option.pure_def,
      Option.some.injEq, Prod.mk.injEq, Prod.exists] at h
    obtain ⟨us, rk, _, vs, rn, _, rfl⟩ := h
    obtain ⟨k, hk, hkeyword⟩ := next?_eq_some_iff.1 rk
    obtain ⟨n, hn, rfl, rfl⟩ := word?_eq_some_iff.1 rn
    obtain ⟨cs, hcs, hdocs⟩ := skipDocs_sound ts
    -- A trait has no attributes; in front of the others they are passed over.
    obtain ⟨as, has, htrait, hattributes⟩ : ∃ as, Attributes as ∧ (kind = .trait → as = []) ∧
        skipDocs ts = as ++ if kind = .trait then skipDocs ts else skipAttributes (skipDocs ts) := by
      by_cases hkind : kind = .trait
      · exact ⟨[], .nil, fun _ => rfl, by rw [if_pos hkind, List.nil_append]⟩
      · obtain ⟨as, has, heq⟩ := skipAttributes_sound (skipDocs ts)
        exact ⟨as, has, fun h => absurd h hkind, by rwa [if_neg hkind]⟩
    obtain ⟨v, hv, hvisibility⟩ := skipVisibility_sound
      (if kind = .trait then skipDocs ts else skipAttributes (skipDocs ts))
    have hstart := NamedStart.mk hcs has htrait hv hk hn
    have hts : ts = cs ++ (as ++ (v ++ [k, n])) ++ vs := by
      rw [hdocs, hattributes, hvisibility, hkeyword]
      simp
    rw [hts, hstart.named?_append, Option.some.injEq, Prod.mk.injEq] at hread
    exact ⟨n.text, cs, _, hstart, hread.1.symm, hts⟩
  · rintro ⟨name, comments, front, h, rfl, rfl⟩
    exact h.named?_append rest

/-! ### All forms -/

/-- A declaration of the form starts at the front of the list. -/
inductive Form.Applies : Form → List Token → Prop where
  /-- The start of a signature. -/
  | function {name : String} {comments front rest : List Token}
      (h : SignatureStart name comments front) : Applies .function (front ++ rest)
  /-- The start of a struct, in front of a token that ends its head. -/
  | struct {name : String} {comments front rest : List Token} {o : Token}
      (h : StructStart name comments front) (ho : endsStructHead o = true) :
      Applies .struct (front ++ o :: rest)
  /-- The start of a declaration of which only the name matters. -/
  | named {kind : NamedKind} {name : String} {comments front rest : List Token}
      (h : NamedStart kind name comments front) : Applies (.named kind) (front ++ rest)

namespace Form

variable {form : Form}

/-- **A form is recognized where a declaration of it starts, and nowhere else.** -/
theorem recognize?_ne_none_iff : form.recognize? ts ≠ none ↔ form.Applies ts := by
  cases form with
  | function =>
    have hread : recognize? .function ts = none ↔ signature? ts = none := by
      rw [recognize?, Option.map_eq_none_iff, function?]
      cases signature? ts <;> simp
    rw [ne_eq, hread, ← ne_eq, Option.ne_none_iff_exists']
    constructor
    · rintro ⟨⟨name, rest⟩, h⟩
      obtain ⟨comments, front, hstart, rfl⟩ := signature?_eq_some_iff.1 h
      exact .function hstart
    · rintro ⟨hstart⟩
      exact ⟨_, hstart.signature?_append _⟩
  | struct =>
    have hread : recognize? .struct ts = none ↔ structHead? ts = none := by
      rw [recognize?, Option.map_eq_none_iff, struct?]
      cases structHead? ts <;> simp
    rw [ne_eq, hread, ← ne_eq, Option.ne_none_iff_exists']
    constructor
    · rintro ⟨⟨name, rest⟩, h⟩
      obtain ⟨comments, front, o, inside, hstart, ho, rfl, rfl⟩ := structHead?_eq_some_iff.1 h
      exact .struct hstart ho
    · rintro (_ | ⟨hstart, ho⟩)
      exact ⟨_, hstart.structHead?_append ho _⟩
  | named kind =>
    rw [recognize?, ne_eq, Option.map_eq_none_iff, ← ne_eq, Option.ne_none_iff_exists']
    constructor
    · rintro ⟨⟨d, rest⟩, h⟩
      obtain ⟨name, comments, front, hstart, _, rfl⟩ := named?_eq_some_iff.1 h
      exact .named hstart
    · rintro (_ | _ | hstart)
      exact ⟨_, hstart.named?_append _⟩

/-- A form that applies still applies with one more comment in front. -/
theorem Applies.cons_comment (h : form.Applies ts) (ht : t.isComment = true) :
    form.Applies (t :: ts) := by
  cases h with
  | function h =>
    obtain ⟨hcs, hqs, hk, hn, hgenerics, ho⟩ := h
    exact .function (.mk (List.forall_mem_cons.2 ⟨ht, hcs⟩) hqs hk hn hgenerics ho)
  | struct h ho =>
    obtain ⟨⟨hcs, has, hv⟩, hk, hn, hgenerics⟩ := h
    exact .struct (.mk (.mk (List.forall_mem_cons.2 ⟨ht, hcs⟩) has hv) hk hn hgenerics) ho
  | named h =>
    obtain ⟨hcs, has, htrait, hv, hk, hn⟩ := h
    exact .named (.mk (List.forall_mem_cons.2 ⟨ht, hcs⟩) has htrait hv hk hn)

/-- A form that applies still applies if the list goes on. -/
theorem Applies.append (h : form.Applies ts) (us : List Token) : form.Applies (ts ++ us) := by
  cases h with
  | function h =>
    rw [List.append_assoc]
    exact .function h
  | struct h ho =>
    rw [List.append_assoc]
    exact .struct h ho
  | named h =>
    rw [List.append_assoc]
    exact .named h

/-- What may open a declaration: a comment, an attribute or a word. -/
def Opens (t : Token) : Prop :=
  t.isComment = true ∨ t.isOther "#" = true ∨ t.isIdentifier = true

/-- A declaration starts with a comment, an attribute or a word. -/
theorem Applies.heads (h : form.Applies ts) : Heads Opens ts := by
  have hcomments {cs : List Token} (hcs : ∀ t ∈ cs, t.isComment = true) : Heads Opens cs :=
    fun t ht => .inl (hcs t (List.mem_of_head? ht))
  have hhash : ∀ t : Token, t.isOther "#" = true → Opens t := fun t ht => .inr (.inl ht)
  have hword : ∀ t : Token, t.isIdentifier = true → Opens t := fun t ht => .inr (.inr ht)
  cases h with
  | function h =>
    obtain ⟨hcs, hqs, hk, _, _, _⟩ := h
    simp only [List.append_assoc]
    exact (hcomments hcs).append ((hqs.heads_of hhash hword).append
      (Heads.cons_iff.2 (hword _ (by grind))))
  | struct h ho =>
    obtain ⟨hopening, hk, _, _⟩ := h
    rw [List.append_assoc]
    exact (hopening.heads (fun t ht => .inl ht) hhash fun t ht => hword t (by grind)).append
      (Heads.cons_iff.2 (hword _ (by grind)))
  | named h =>
    obtain ⟨hcs, has, _, hv, hk, _⟩ := h
    simp only [List.append_assoc]
    exact (hcomments hcs).append ((has.heads hhash).append
      ((Visibility.heads hv fun t ht => hword t (by grind)).append
        (Heads.cons_iff.2 (hword _ (by grind)))))

end Form

end DocAudit
