import DocAudit.Proofs.Declaration.Steady
import DocAudit.Proofs.Token.Unplaced

namespace DocAudit

/-!
# Declarations do not depend on places

With the places of the tokens taken away, the same declarations are found, without their spans.

* `Node.unplaced` — an entry of an outline without the spans of it and of what it holds;
* `skipOpening_unplaced`, `skipQualifiers_unplaced` — what is passed over;
* `unplaces_parameter`, `unplaces_field`, `unplaces_function`, `unplaces_struct`, `unplaces_named` —
  what is read;
* `outline_unplaced` — hence an outline without places is the outline of tokens without places.
-/

open Reader Header

variable {closer : String}

/-! ### Without spans -/

/-- The field without its span. -/
def Field.unplaced (f : Field) : Field :=
  { f with span := {} }

/-- The struct without the spans of it and of its fields. -/
def Struct.unplaced (s : Struct) : Struct :=
  { s with fields := s.fields.map Field.unplaced, span := {} }

/-- The function without its span. -/
def Function.unplaced (f : Function) : Function :=
  { f with span := {} }

/-- The declaration without its span. -/
def Named.unplaced (n : Named) : Named :=
  { n with span := {} }

/-- The entry without the spans of it and of what it holds. -/
def Node.unplaced : Node → Node
  | .struct s => .struct s.unplaced
  | .function f => .function f.unplaced
  | .named n => .named n.unplaced
  | .other t _ => .other t.unplaced {}
  | .field f => .field f.unplaced
  | .blank _ => .blank {}

/-- Tokens without places span nothing. -/
theorem covering_unplaced (ts : List Token) : Span.covering (ts.map Token.unplaced) = {} := by
  simp only [Span.covering, List.head?_map, List.getLast?_map, Option.map_map]
  cases ts.head? <;> cases ts.getLast? <;> rfl

theorem blockBefore_map (ts rest : List Token) :
    blockBefore (ts.map Token.unplaced) (rest.map Token.unplaced) =
      (blockBefore ts rest).map Token.unplaced := by
  simp only [blockBefore, List.length_map, List.map_take]

/-! ### What is passed over -/

theorem skipDocs_unplaced (ts : List Token) :
    skipDocs (ts.map Token.unplaced) = (skipDocs ts).map Token.unplaced :=
  List.dropWhile_map ..

/-- Comments keep their texts. -/
theorem docs_unplaced (ts : List Token) : docs (ts.map Token.unplaced) = docs ts := by
  rw [docs, docs, List.takeWhile_map, List.map_map]
  rfl

theorem ignoresPlace_attribute : IgnoresPlace attribute? :=
  (ignoresPlace_other "#").bind <| (ignoresPlace_other "[").bind <|
    ignoresPlace_past (·.isOther_unplaced "]")

theorem skipAttributes_unplaced (ts : List Token) :
    skipAttributes (ts.map Token.unplaced) = (skipAttributes ts).map Token.unplaced := by
  fun_induction skipAttributes ts with
  | case1 ts rest h _ ih =>
    have hread : attribute? (ts.map Token.unplaced) = some (rest.map Token.unplaced) := by
      rw [ignoresPlace_attribute, h, Option.map_some]
    rw [skipAttributes_of_some hread, ih]
  | case2 ts h =>
    exact skipAttributes_of_none (by rw [ignoresPlace_attribute, h, Option.map_none])

theorem ignoresPlace_parenthesized : IgnoresPlace parenthesized? :=
  (ignoresPlace_control "(").bind (ignoresPlace_past (·.isControl_unplaced ")"))

theorem skipVisibility_unplaced (ts : List Token) :
    skipVisibility (ts.map Token.unplaced) = (skipVisibility ts).map Token.unplaced := by
  rw [skipVisibility, skipVisibility, ignoresPlace_keyword]
  cases keyword? "pub" ts with
  | none => rfl
  | some rest => exact ignoresPlace_parenthesized.optional rest

theorem skipOpening_unplaced (ts : List Token) :
    skipOpening (ts.map Token.unplaced) = (skipOpening ts).map Token.unplaced := by
  rw [skipOpening, skipDocs_unplaced, skipAttributes_unplaced, skipVisibility_unplaced, skipOpening]

theorem ignoresPlace_quotedName : IgnoresPlace quotedName? :=
  (ignoresPlace_other "\"").bind (ignoresPlace_name.bind (ignoresPlace_other "\""))

theorem ignoresPlace_extern : IgnoresPlace extern? := by
  have hname : IgnoresPlace fun rest =>
      if (other? "\"" rest).isSome then quotedName? rest else some rest := by
    intro rest
    show (if (other? "\"" (rest.map Token.unplaced)).isSome then _ else _) = _
    rw [ignoresPlace_other, Option.isSome_map]
    by_cases hquote : (other? "\"" rest).isSome
    · simp only [if_pos hquote]
      exact ignoresPlace_quotedName rest
    · simp only [if_neg hquote]
      rfl
  exact (ignoresPlace_keyword "extern").bind hname

theorem skipExtern_unplaced (ts : List Token) :
    skipExtern (ts.map Token.unplaced) = (skipExtern ts).map Token.unplaced :=
  ignoresPlace_extern.optional ts

theorem skipWord_unplaced (word : String) (ts : List Token) :
    skipWord word (ts.map Token.unplaced) = (skipWord word ts).map Token.unplaced :=
  (ignoresPlace_keyword word).optional ts

theorem skipQualifiers_unplaced (ts : List Token) :
    skipQualifiers (ts.map Token.unplaced) = (skipQualifiers ts).map Token.unplaced := by
  simp only [skipQualifiers, skipModifiers, skipExtern_unplaced, skipAttributes_unplaced,
    skipVisibility_unplaced, skipWord_unplaced]

theorem skipEntryEnd_unplaced (closer : String) (ts : List Token) :
    skipEntryEnd closer (ts.map Token.unplaced) = (skipEntryEnd closer ts).map Token.unplaced := by
  rw [skipEntryEnd, skipEntryEnd, ignoresPlace_control]
  cases control? "," ts with
  | none => exact (ignoresPlace_control closer).optional ts
  | some rest => rfl

/-! ### Parameters and fields -/

theorem unplaces_typed (closer : String) : Unplaces id (typed? closer) := by
  intro ts
  rw [typed?, typed?, unplaces_word]
  cases word? ts with
  | none => rfl
  | some found =>
    -- Behind the name, the colon and the type are taken in turn.
    show (control? ":" (found.2.map Token.unplaced)).bind _ = ((control? ":" found.2).bind _).map _
    rw [ignoresPlace_control]
    cases control? ":" found.2 with
    | none => rfl
    | some us =>
      show (TypeExpr.type? (us.map Token.unplaced)).bind _ = ((TypeExpr.type? us).bind _).map _
      rw [TypeExpr.ignoresPlace_type]
      cases TypeExpr.type? us with
      | none => rfl
      | some rest => exact congrArg (fun rest => some (found.1, rest)) (skipEntryEnd_unplaced closer rest)

/-- What stands in front of a receiver: a reference sign, and perhaps the word `mut`. -/
def skipReference (ts : List Token) : List Token :=
  match other? "&" ts with
  | some rest => skipWord "mut" rest
  | none => ts

theorem skipReference_unplaced (ts : List Token) :
    skipReference (ts.map Token.unplaced) = (skipReference ts).map Token.unplaced := by
  rw [skipReference, skipReference, ignoresPlace_other]
  cases other? "&" ts with
  | none => rfl
  | some rest => exact skipWord_unplaced "mut" rest

theorem ignoresPlace_receiver : IgnoresPlace receiver? := by
  have heq : receiver? = fun ts => (keyword? receiverName (skipReference ts)).bind fun rest =>
      (control? "," rest).or (control? ")" rest) := by
    funext ts
    simp only [receiver?, Option.orElse_eq_orElse, Option.orElse_eq_or]
    rfl
  have hend := (ignoresPlace_control ",").or (ignoresPlace_control ")")
  rw [heq]
  exact ((ignoresPlace_keyword receiverName).bind hend).comp skipReference_unplaced

theorem unplaces_parameter : Unplaces id parameter? := by
  intro ts
  rw [parameter?_eq, parameter?_eq, ignoresPlace_receiver]
  cases receiver? ts with
  | some rest => rfl
  | none =>
    show typed? ")" (skipWord "mut" (ts.map Token.unplaced)) = _
    rw [skipWord_unplaced, unplaces_typed]

theorem unplaces_field : Unplaces Field.unplaced field? := by
  intro ts
  rw [field?_eq, field?_eq, skipOpening_unplaced, unplaces_typed]
  cases typed? "\x7d" (skipOpening ts) with
  | none => rfl
  | some found =>
    simp only [Option.map_some, Prod.map, docs_unplaced, blockBefore_map, covering_unplaced]
    rfl

/-! ### Declarations -/

theorem unplaces_signature : Unplaces id signature? := by
  intro ts
  rw [signature?, signature?, skipDocs_unplaced, skipQualifiers_unplaced]
  show (keyword? "fn" (_ : List Token)).bind _ = ((keyword? "fn" _).bind _).map _
  rw [ignoresPlace_keyword]
  cases keyword? "fn" (skipQualifiers (skipDocs ts)) with
  | none => rfl
  | some us =>
    show (word? (us.map Token.unplaced)).bind _ = ((word? us).bind _).map _
    rw [unplaces_word]
    cases word? us with
    | none => rfl
    | some found =>
      show (past? _ (found.2.map Token.unplaced)).bind _ = ((past? _ found.2).bind _).map _
      rw [ignoresPlace_past (·.isControl_unplaced "(")]
      cases past? (·.isControl "(") found.2 <;> rfl

theorem parameters_unplaced (ts : List Token) : parameters (ts.map Token.unplaced) =
    Prod.map (List.map id) (List.map Token.unplaced) (parameters ts) :=
  many_unplaced unplaces_parameter ts

theorem fields_unplaced (ts : List Token) : fields (ts.map Token.unplaced) =
    Prod.map (List.map Field.unplaced) (List.map Token.unplaced) (fields ts) :=
  many_unplaced unplaces_field ts

theorem unplaces_function : Unplaces Function.unplaced function? := by
  intro ts
  rw [function?, function?, unplaces_signature]
  cases signature? ts with
  | none => rfl
  | some found =>
    obtain ⟨name, us⟩ := found
    have hclosed := (ignoresPlace_control ")").optional (parameters us).2
    have harrow : next? (·.isOperator "->")
        ((Reader.optional (control? ")") (parameters us).2).map Token.unplaced) = _ :=
      ignoresPlace_next (fun t => t.isOperator_unplaced "->") _
    simp only [Option.bind_eq_bind, Option.pure_def, Option.map_some, Option.bind_some, Prod.map,
      id_eq, List.map_id, parameters_unplaced, hclosed, harrow, Option.isNone_map, Option.getD_map,
      docs_unplaced, blockBefore_map, covering_unplaced]
    rfl

theorem structBody_unplaced (ts : List Token) : structBody (ts.map Token.unplaced) =
    Prod.map (List.map Field.unplaced) (List.map Token.unplaced) (structBody ts) := by
  rw [structBody, structBody, ignoresPlace_control]
  cases control? "\x7b" ts with
  | none => rfl
  | some rest =>
    have hclosed := (ignoresPlace_control "\x7d").optional (fields rest).2
    simp only [Option.map_some, fields_unplaced, Prod.map, hclosed]

theorem unplaces_structHead : Unplaces id structHead? := by
  intro ts
  rw [structHead?, structHead?, skipOpening_unplaced, ignoresPlace_keyword]
  cases keyword? "struct" (skipOpening ts) with
  | none => rfl
  | some us =>
    show (word? (us.map Token.unplaced)).bind _ = ((word? us).bind _).map _
    rw [unplaces_word]
    cases word? us with
    | none => rfl
    | some found =>
      obtain ⟨name, vs⟩ := found
      have hbody : (vs.map Token.unplaced).dropWhile (fun t => !endsStructHead t) =
          (vs.dropWhile fun t => !endsStructHead t).map Token.unplaced := List.dropWhile_map ..
      simp only [Option.map_some, Option.bind_some, Prod.map, hbody, List.isEmpty_map]
      split <;> rfl

theorem unplaces_struct : Unplaces Struct.unplaced struct? := by
  intro ts
  rw [struct?, struct?, unplaces_structHead]
  cases structHead? ts with
  | none => rfl
  | some found =>
    obtain ⟨name, us⟩ := found
    simp only [Option.bind_eq_bind, Option.pure_def, Option.map_some, Option.bind_some, Prod.map,
      id_eq, structBody_unplaced, docs_unplaced, blockBefore_map, covering_unplaced]
    rfl

theorem unplaces_named (kind : NamedKind) : Unplaces Named.unplaced (named? kind) := by
  intro ts
  have hheader : (if kind = .trait then skipDocs (ts.map Token.unplaced)
      else skipAttributes (skipDocs (ts.map Token.unplaced))) =
        (if kind = .trait then skipDocs ts else skipAttributes (skipDocs ts)).map Token.unplaced := by
    rw [skipDocs_unplaced, skipAttributes_unplaced]
    split <;> rfl
  simp only [named?, hheader, skipVisibility_unplaced]
  rw [ignoresPlace_keyword]
  cases keyword? kind.word
      (skipVisibility (if kind = .trait then skipDocs ts else skipAttributes (skipDocs ts))) with
  | none => rfl
  | some us =>
    show (word? (us.map Token.unplaced)).bind _ = ((word? us).bind _).map _
    rw [unplaces_word]
    cases word? us with
    | none => rfl
    | some found =>
      simp only [Option.pure_def, Option.map_some, Option.bind_some, Prod.map, id_eq,
        docs_unplaced, blockBefore_map, covering_unplaced]
      rfl

theorem unplaces_recognize (form : Form) : Unplaces Node.unplaced form.recognize? := by
  intro ts
  cases form with
  | function =>
    rw [Form.recognize?, Form.recognize?, unplaces_function]
    cases function? ts <;> rfl
  | struct =>
    rw [Form.recognize?, Form.recognize?, unplaces_struct]
    cases struct? ts <;> rfl
  | named kind =>
    rw [Form.recognize?, Form.recognize?, unplaces_named]
    cases named? kind ts <;> rfl

theorem unplaces_recognizeFirst (order : List Form) :
    Unplaces Node.unplaced (recognizeFirst? order) := by
  intro ts
  induction order with
  | nil => rfl
  | cons form order ih =>
    rw [recognizeFirst?, recognizeFirst?] at ih ⊢
    rw [List.findSome?_cons, List.findSome?_cons, unplaces_recognize, ih]
    cases form.recognize? ts <;> rfl

theorem unplaces_nextNode : Unplaces Node.unplaced nextNode? := by
  intro ts
  cases ts with
  | nil => rfl
  | cons t more =>
    have hfirst := unplaces_recognizeFirst Form.order (t :: more)
    rw [List.map_cons] at hfirst
    rw [List.map_cons, nextNode?, nextNode?, hfirst]
    cases recognizeFirst? Form.order (t :: more) <;> rfl

/-- **An outline does not depend on places.** -/
theorem outline_unplaced (ts : List Token) :
    outline (ts.map Token.unplaced) = (outline ts).map Node.unplaced := by
  induction hn : ts.length using Nat.strongRecOn generalizing ts with
  | ind n ih =>
    cases hs : nextNode? ts with
    | none =>
      obtain rfl := nextNode?_eq_none_iff.1 hs
      rw [List.map_nil, outline_nil, List.map_nil]
    | some found =>
      obtain ⟨node, rest⟩ := found
      have hread : nextNode? (ts.map Token.unplaced) =
          some (node.unplaced, rest.map Token.unplaced) := by
        rw [unplaces_nextNode, hs]
        rfl
      have hlength : rest.length < n := hn ▸ (behind_of_nextNode? hs).length_lt
      rw [outline_of_nextNode? hread, outline_of_nextNode? hs, List.map_cons, ih _ hlength rest rfl]

end DocAudit
