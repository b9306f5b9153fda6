import DocAudit.Proofs.Declaration.Entries
import DocAudit.Proofs.Declaration.Qualifiers
import DocAudit.Proofs.Outline.Coverage

namespace DocAudit

/-!
# Structs are read back

What a struct with named fields is, written down, and that an outline gives it back.

* `WrittenField` — a field, with its name, its comments and its span;
* `fields_append` — the loop over fields reads a written list back;
* `WrittenStruct` — a struct through its closing brace, with what it declares;
* `outline_struct` — an outline has that struct in front, and goes on right behind its tokens.

The brace that closes a struct may already be taken as the end of its last field.  `EndsFields` says
that the tokens behind it do not read as more of the struct.
-/

open Reader Header

variable {ts rest : List Token} {t d : Token}

/-! ### Fields -/

/-- A field in front of the token that ends it.  Its span reaches through that token. -/
inductive WrittenField : Field → List Token → Token → Prop where
  /-- An opening, the name, a colon and the type. -/
  | mk {cs front ty : List Token} {n c d : Token} (hf : Opening cs front)
      (hn : n.isIdentifier = true) (hpub : n.isKeyword "pub" = false) (hc : c.isControl ":" = true)
      (hty : TypeExpr.Derives .type ty) :
      WrittenField
        { name := n.text, docs := String.join (cs.map Token.text),
          span := Span.covering (front ++ n :: c :: ty ++ [d]) }
        (front ++ n :: c :: ty) d

theorem field?_append {f : Field} (h : WrittenField f ts d) (hd : EndsEntry "\x7d" d) :
    field? (ts ++ d :: rest) = some (f, rest) := by
  obtain @⟨cs, front, ty, n, c, _, hf, hn, hpub, hc, hty⟩ := h
  have htype : TypeExpr.type? (ty ++ d :: rest) = some (d :: rest) :=
    type?_append_of_endsEntry hty hd (by decide)
  have hts : front ++ n :: c :: ty ++ d :: rest = front ++ n :: c :: (ty ++ d :: rest) := by simp
  -- The block of the field reaches through the token that ends it.
  have hblock : blockBefore (front ++ n :: c :: (ty ++ d :: rest)) rest =
      front ++ n :: c :: ty ++ [d] := by
    rw [← hts, List.append_cons, blockBefore_append]
  obtain ⟨hskip, hdocs⟩ := skipOpening_append hf (endsOpening_of_isIdentifier hn hpub)
  rw [hts, field?, hskip, hdocs]
  simp only [word?_cons, hn, control?_cons, hc, htype, skipEntryEnd_cons hd, hblock, if_true,
    Option.bind_eq_bind, Option.bind_some, Option.pure_def]

/-- What `field?` reads starts like a field. -/
theorem field?_sound {f : Field} (h : field? ts = some (f, rest)) :
    ∃ comments front n c us, Opening comments front ∧ n.isIdentifier = true ∧
      c.isControl ":" = true ∧ ts = front ++ n :: c :: us := by
  simp only [field?, Option.bind_eq_bind, Option.bind_eq_some_iff, Prod.exists] at h
  obtain ⟨_, vs, rn, us, rc, _⟩ := h
  obtain ⟨n, hn, _, hskip⟩ := word?_eq_some_iff.1 rn
  obtain ⟨c, hc, rfl⟩ := next?_eq_some_iff.1 rc
  obtain ⟨comments, front, hf, hts⟩ := skipOpening_sound ts
  rw [hskip] at hts
  exact ⟨comments, front, n, c, us, hf, hn, hc, hts⟩

/-- The closing brace starts no field. -/
theorem field?_closer (hc : t.isControl "\x7d" = true) : field? (t :: rest) = none := by
  have hi : t.isIdentifier = false := by grind
  have hnil : Opening [] [] := .mk (by simp) .nil (.inl rfl)
  have hskip : skipOpening ([] ++ t :: rest) = t :: rest :=
    (skipOpening_append hnil (endsOpening_of_isControl hc (by decide))).1
  rw [List.nil_append] at hskip
  simp [field?, hskip, hi]

/-- The tokens do not read as more of a struct: they start neither with the closing brace nor with an
    opening, a name and a colon. -/
structure EndsFields (ts : List Token) : Prop where
  /-- They do not start with the closing brace. -/
  closer : Heads (·.isControl "\x7d" = false) ts
  /-- They do not start with a field. -/
  field : ∀ comments front n c us, Opening comments front → n.isIdentifier = true →
    c.isControl ":" = true → ts ≠ front ++ n :: c :: us

/-- A token that is neither a word nor a comment nor the start of an attribute nor the closing brace,
    such as a semicolon, ends a struct. -/
theorem endsFields_cons (hi : t.isIdentifier = false) (hm : t.isComment = false)
    (ha : t.isOther "#" = false) (hc : t.isControl "\x7d" = false) : EndsFields (t :: rest) where
  closer := Heads.cons_iff.2 hc
  field := by
    intro comments front n c us hf hn _ heq
    -- A field starts with a comment, a hash sign or a word, and the token is none of them.
    have hfront : Heads (fun u => u ≠ t) front :=
      hf.heads (by grind) (by grind) (by grind)
    have hword : Heads (fun u => u ≠ t) (n :: c :: us) := Heads.cons_iff.2 (by grind)
    have hne : Heads (fun u => u ≠ t) (t :: rest) := heq ▸ hfront.append hword
    exact Heads.cons_iff.1 hne rfl

theorem EndsFields.field?_eq_none (h : EndsFields ts) : field? ts = none := by
  cases hf : field? ts with
  | none => rfl
  | some found =>
    obtain ⟨comments, front, n, c, us, hopening, hn, hc, heq⟩ := field?_sound hf
    exact absurd heq (h.field comments front n c us hopening hn hc)

/-- **Field lists are read back**, each field with its own comments and span, if the tokens behind
    the list, its closing brace included, do not read as more of it. -/
theorem fields_append {members : List Field} (h : Entries WrittenField "\x7d" members ts)
    (hend : EndsFields rest) :
    (fields (ts ++ rest)).1 = members ∧
      Reader.optional (control? "\x7d") (fields (ts ++ rest)).2 = rest :=
  many_append h (fun _ hf hd => field?_append hf hd) (fun _ hc => field?_closer hc)
    hend.field?_eq_none hend.closer.next?_eq_none

/-! ### Structs -/

/-- A written struct with named fields. -/
structure WrittenStruct where
  /-- The comments above it. -/
  comments : List Token
  /-- The comments, with the attributes and the visibility behind them. -/
  opening : List Token
  /-- The word `struct`. -/
  keyword : Token
  /-- The name. -/
  name : Token
  /-- Whatever stands between the name and the fields. -/
  generics : List Token
  /-- The brace that opens the fields. -/
  opener : Token
  /-- The fields. -/
  members : List Field
  /-- The tokens of the fields through the closing brace. -/
  body : List Token
  opening_spec : Opening comments opening
  keyword_isKeyword : keyword.isKeyword "struct" = true
  name_isIdentifier : name.isIdentifier = true
  generics_spec : ∀ t ∈ generics, t.isControl "\x7b" = false ∧ t.isOther ";" = false
  opener_isControl : opener.isControl "\x7b" = true
  body_spec : Entries WrittenField "\x7d" members body

namespace WrittenStruct

variable (s : WrittenStruct)

/-- The tokens of the struct. -/
def tokens : List Token :=
  s.opening ++ s.keyword :: s.name :: (s.generics ++ s.opener :: s.body)

/-- What the struct declares. -/
def struct : Struct where
  name := s.name.text
  fields := s.members
  docs := String.join (s.comments.map Token.text)
  span := Span.covering s.tokens

/-- The tokens of the struct, with more behind them. -/
theorem tokens_append (us : List Token) : s.tokens ++ us =
    s.opening ++ s.keyword :: s.name :: (s.generics ++ s.opener :: (s.body ++ us)) := by
  simp [tokens]

theorem endsOpening_keyword : EndsOpening s.keyword :=
  endsOpening_of_isIdentifier (by grind [s.keyword_isKeyword]) (by grind [s.keyword_isKeyword])

/-- Through the opening brace, a struct is read to its name. -/
theorem structHead?_append (us : List Token) :
    structHead? (s.tokens ++ us) = some (s.name.text, s.opener :: (s.body ++ us)) := by
  have hskip : ∀ rest, skipOpening (s.opening ++ s.keyword :: rest) = s.keyword :: rest :=
    fun _ => (skipOpening_append s.opening_spec s.endsOpening_keyword).1
  have hopener : endsStructHead s.opener = true := by simp [endsStructHead, s.opener_isControl]
  have hgenerics : (s.generics ++ s.opener :: (s.body ++ us)).dropWhile (fun t => !endsStructHead t) =
      s.opener :: (s.body ++ us) := by
    rw [List.dropWhile_append_of_pos fun t ht => by simp [endsStructHead, s.generics_spec t ht],
      List.dropWhile_cons_of_neg (by simp [hopener])]
  rw [tokens_append, structHead?, hskip]
  simp only [keyword?_cons, s.keyword_isKeyword, word?_cons, s.name_isIdentifier, if_true,
    hgenerics, Option.bind_eq_bind, Option.bind_some]
  rfl

theorem docs_tokens_append (us : List Token) :
    docs (s.tokens ++ us) = String.join (s.comments.map Token.text) := by
  rw [tokens_append]
  exact (skipOpening_append s.opening_spec s.endsOpening_keyword).2

/-- A struct is no function: behind what may stand in front of `fn` there is another word. -/
theorem function?_eq_none (us : List Token) : function? (s.tokens ++ us) = none := by
  have hk : IsOneOf ["fn", "struct"] s.keyword := .of_isKeyword s.keyword_isKeyword (by decide)
  have hfn : s.keyword.isKeyword "fn" = false := by grind [s.keyword_isKeyword]
  have hsignature : signature? (s.tokens ++ us) = none := by
    rw [tokens_append, signature?, skipQualifiers_opening s.opening_spec hk, keyword?_cons, hfn]
    rfl
  rw [function?, hsignature]
  rfl

/-- **Structs are read back**, if the tokens behind the struct do not read as more of it. -/
theorem struct?_append (hend : EndsFields rest) :
    struct? (s.tokens ++ rest) = some (s.struct, rest) := by
  obtain ⟨hmembers, hbehind⟩ := fields_append s.body_spec hend
  have hbody : structBody (s.opener :: (s.body ++ rest)) = (s.members, rest) := by
    simp only [structBody, control?_cons, s.opener_isControl, if_true]
    rw [hmembers, hbehind]
  simp only [struct?, s.structHead?_append, hbody, s.docs_tokens_append, blockBefore_append,
    Option.bind_eq_bind, Option.bind_some, Option.pure_def]
  rfl

end WrittenStruct

/-- **An outline gives a struct back.** If the tokens of an accepted list start with a struct whose
    end shows in what follows, the outline starts with that struct, over just its tokens, and goes on
    behind them.  It has the written name, comments and fields, and each field has its own comments. -/
theorem outline_struct {items : List Item} {source : Option (List Char)} (s : WrittenStruct)
    (h : checkOrder items source = .ok (s.tokens ++ rest)) (hend : EndsFields rest) :
    outline? items source = .ok (.struct s.struct :: outline rest) := by
  have hnext := nextNode?_of_struct? (s.function?_eq_none rest) (s.struct?_append hend)
  rw [outline?, h, ← outline_of_nextNode? hnext]
  rfl

/-- The field `/// w` `a: u8` in front of the closing brace. -/
theorem writtenField_a : WrittenField ⟨"a", "w", ⟨16, 30⟩⟩
    [⟨.comment, "w", ⟨16, 21⟩⟩, ⟨.identifier, "a", ⟨22, 23⟩⟩, ⟨.control, ":", ⟨23, 24⟩⟩,
      ⟨.identifier, "u8", ⟨25, 27⟩⟩] ⟨.control, "\x7d", ⟨29, 30⟩⟩ := by
  have hopening : Opening [⟨.comment, "w", ⟨16, 21⟩⟩] [⟨.comment, "w", ⟨16, 21⟩⟩] :=
    .mk (by decide) .nil (.inl rfl)
  have htype : TypeExpr.Derives .type [⟨.identifier, "u8", ⟨25, 27⟩⟩] :=
    .plain (.simple (.bare (.name rfl)))
  exact .mk (n := ⟨.identifier, "a", ⟨22, 23⟩⟩) (c := ⟨.control, ":", ⟨23, 24⟩⟩)
    (d := ⟨.control, "\x7d", ⟨29, 30⟩⟩) hopening rfl rfl rfl htype

/-- A struct with one field: `pub struct S`, under a comment. -/
def oneFieldStruct : WrittenStruct where
  comments := [⟨.comment, "d", ⟨0, 2⟩⟩]
  opening := [⟨.comment, "d", ⟨0, 2⟩⟩, ⟨.identifier, "pub", ⟨2, 5⟩⟩]
  keyword := ⟨.identifier, "struct", ⟨6, 12⟩⟩
  name := ⟨.identifier, "S", ⟨13, 14⟩⟩
  generics := []
  opener := ⟨.control, "\x7b", ⟨14, 15⟩⟩
  members := [⟨"a", "w", ⟨16, 30⟩⟩]
  body := _
  opening_spec := .mk (by decide) .nil (.inr (.plain rfl))
  keyword_isKeyword := rfl
  name_isIdentifier := rfl
  generics_spec := by decide
  opener_isControl := rfl
  body_spec := .last writtenField_a rfl

/-- The struct in front of a semicolon. -/
theorem outline_oneFieldStruct :
    outline? (List.map .token (oneFieldStruct.tokens ++ [⟨.other, ";", ⟨30, 31⟩⟩])) none =
      .ok (.struct ⟨"S", [⟨"a", "w", ⟨16, 30⟩⟩], "d", ⟨0, 30⟩⟩ ::
        outline [⟨.other, ";", ⟨30, 31⟩⟩]) :=
  outline_struct oneFieldStruct rfl (endsFields_cons rfl rfl rfl rfl)

end DocAudit
