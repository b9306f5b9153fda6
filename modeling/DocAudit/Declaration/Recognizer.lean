import DocAudit.Declaration.Basic
import DocAudit.Declaration.Header
import DocAudit.TypeExpr

namespace DocAudit

/-!
# Recognizing a declaration

Each recognizer takes one form of declaration, with the comments above it, from the front of a token
list:

* `function?` — a signature: everything from the comments through the arguments and the arrow;
* `struct?` — a struct with its fields, or one that ends in a semicolon, which is left in place;
* `named?` — an enumeration, a trait or a constant, of which only the name is read.

`Form.recognize?` gathers them, and `Form.order` is the order in which they are tried.
-/

open Reader Header

variable {ts rest : List Token}

/-- The tokens of `ts` in front of `rest`, which stands at its end. -/
def blockBefore (ts rest : List Token) : List Token :=
  ts.take (ts.length - rest.length)

@[simp] theorem blockBefore_append (block rest : List Token) :
    blockBefore (block ++ rest) rest = block := by
  simp [blockBefore]

/-- The tokens behind the end of an entry: behind a comma, else behind the closer if it is there. -/
def skipEntryEnd (closer : String) (ts : List Token) : List Token :=
  match control? "," ts with
  | some rest => rest
  | none => optional (control? closer) ts

theorem skipEntryEnd_isSuffix (closer : String) (ts : List Token) :
    skipEntryEnd closer ts <:+ ts := by
  unfold skipEntryEnd
  split
  · rename_i rest h
    exact (behind_of_next? h).isSuffix
  · exact optional_isSuffix fun _ h => behind_of_next? h

/-! ### Functions -/

/-- Takes a receiver: `self`, `&self` or `&mut self`, with the comma or parenthesis behind it. -/
def receiver? (ts : List Token) : Option (List Token) := do
  let start := match other? "&" ts with
    | some rest => skipWord "mut" rest
    | none => ts
  let rest ← keyword? receiverName start
  control? "," rest <|> control? ")" rest

/-- Takes an argument and yields its name. -/
def parameter? (ts : List Token) : Option (String × List Token) :=
  match receiver? ts with
  | some rest => some (receiverName, rest)
  | none => do
    let (name, rest) ← word? (skipWord "mut" ts)
    let rest ← control? ":" rest
    let rest ← TypeExpr.type? rest
    return (name, skipEntryEnd ")" rest)

theorem behind_of_receiver? (h : receiver? ts = some rest) : Behind rest ts := by
  simp only [receiver?, Option.orElse_eq_orElse, Option.orElse_eq_or, Option.bind_eq_bind,
    Option.bind_eq_some_iff] at h
  obtain ⟨us, hk, h⟩ := h
  have hr : Behind rest us := by
    rcases Option.or_eq_some_iff.1 h with h | ⟨_, h⟩ <;> exact behind_of_next? h
  have hu : Behind rest _ := hr.trans (behind_of_next? hk)
  split at hu
  · rename_i vs hm
    exact (hu.suffix_left (skipWord_isSuffix "mut" vs)).trans (behind_of_next? hm)
  · exact hu

theorem behind_of_parameter? {name : String} (h : parameter? ts = some (name, rest)) :
    Behind rest ts := by
  simp only [parameter?] at h
  split at h
  · rename_i us hr
    cases h
    exact behind_of_receiver? hr
  · simp only [Option.bind_eq_bind, Option.bind_eq_some_iff, Option.pure_def, Option.some.injEq,
      Prod.mk.injEq, Prod.exists] at h
    obtain ⟨_, us, hw, vs, hc, ws, ht, _, rfl⟩ := h
    have hv : Behind ws us := (TypeExpr.behind_of_type? ht).trans (behind_of_next? hc)
    have hw : Behind ws _ := hv.trans (behind_of_word? hw)
    exact .of_suffix (skipEntryEnd_isSuffix ")" ws) (hw.suffix_left (skipWord_isSuffix "mut" ts))

/-- The arguments at the front, as many as there are, and the tokens behind them. -/
def parameters : List Token → List String × List Token :=
  many parameter? behind_of_parameter?

/-- The tokens behind attributes, a visibility and the words `const`, `async` and `unsafe`. -/
def skipModifiers (ts : List Token) : List Token :=
  skipWord "unsafe" (skipWord "async" (skipWord "const" (skipVisibility (skipAttributes ts))))

theorem skipModifiers_isSuffix (ts : List Token) : skipModifiers ts <:+ ts :=
  (skipWord_isSuffix "unsafe" _).trans <| (skipWord_isSuffix "async" _).trans <|
    (skipWord_isSuffix "const" _).trans <| (skipVisibility_isSuffix _).trans <|
    skipAttributes_isSuffix ts

/-- The tokens behind everything that may stand between the comments and the word `fn`. -/
def skipQualifiers (ts : List Token) : List Token :=
  skipExtern (skipModifiers (skipExtern ts))

theorem skipQualifiers_isSuffix (ts : List Token) : skipQualifiers ts <:+ ts :=
  (skipExtern_isSuffix _).trans <| (skipModifiers_isSuffix _).trans (skipExtern_isSuffix ts)

/-- Takes the start of a signature, through the parenthesis that opens the arguments, and yields the
    name.  Whatever stands between the name and that parenthesis is passed over. -/
def signature? (ts : List Token) : Option (String × List Token) := do
  let rest ← keyword? "fn" (skipQualifiers (skipDocs ts))
  let (name, rest) ← word? rest
  let rest ← past? (·.isControl "(") rest
  return (name, rest)

theorem behind_of_signature? {name : String} (h : signature? ts = some (name, rest)) :
    Behind rest ts := by
  simp only [signature?, Option.bind_eq_bind, Option.bind_eq_some_iff, Option.pure_def,
    Option.some.injEq, Prod.mk.injEq, Prod.exists] at h
  obtain ⟨us, hf, _, vs, hw, ws, hp, _, rfl⟩ := h
  have hv : Behind ws us := (behind_of_past? hp).trans (behind_of_word? hw)
  exact (hv.trans (behind_of_next? hf)).suffix_left
    ((skipQualifiers_isSuffix _).trans (skipDocs_isSuffix ts))

/-- Takes a function signature. -/
def function? (ts : List Token) : Option (Function × List Token) := do
  let (name, rest) ← signature? ts
  let (arguments, rest) := parameters rest
  let closed := optional (control? ")") rest
  let arrow := next? (·.isOperator "->") closed
  let rest := arrow.getD closed
  let span := Span.covering (blockBefore ts rest)
  return ({ name, arguments, returnsNothing := arrow.isNone, docs := docs ts, span }, rest)

theorem behind_of_function? {f : Function} (h : function? ts = some (f, rest)) :
    Behind rest ts := by
  simp only [function?, Option.bind_eq_bind, Option.bind_eq_some_iff, Option.pure_def,
    Option.some.injEq, Prod.mk.injEq, Prod.exists] at h
  obtain ⟨_, us, hs, _, rfl⟩ := h
  have hc : optional (control? ")") (parameters us).2 <:+ us :=
    (optional_isSuffix fun _ h => behind_of_next? h).trans (many_isSuffix _ _ us)
  have ha :
      optional (next? (·.isOperator "->")) (optional (control? ")") (parameters us).2) <:+ us :=
    (optional_isSuffix fun _ h => behind_of_next? h).trans hc
  exact .of_suffix ha (behind_of_signature? hs)

/-! ### Structs -/

/-- Takes a field of a struct. -/
def field? (ts : List Token) : Option (Field × List Token) := do
  let (name, rest) ← word? (skipOpening ts)
  let rest ← control? ":" rest
  let rest ← TypeExpr.type? rest
  let rest := skipEntryEnd "\x7d" rest
  return ({ name, docs := docs ts, span := Span.covering (blockBefore ts rest) }, rest)

theorem behind_of_field? {f : Field} (h : field? ts = some (f, rest)) : Behind rest ts := by
  simp only [field?, Option.bind_eq_bind, Option.bind_eq_some_iff, Option.pure_def,
    Option.some.injEq, Prod.mk.injEq, Prod.exists] at h
  obtain ⟨_, us, hw, vs, hc, ws, ht, _, rfl⟩ := h
  have hv : Behind ws us := (TypeExpr.behind_of_type? ht).trans (behind_of_next? hc)
  have hu : Behind ws ts := (hv.trans (behind_of_word? hw)).suffix_left (skipOpening_isSuffix ts)
  exact .of_suffix (skipEntryEnd_isSuffix _ ws) hu

/-- The fields at the front, as many as there are, and the tokens behind them. -/
def fields : List Token → List Field × List Token :=
  many field? behind_of_field?

/-- Whether the token ends the head of a struct: the brace of its body, or a semicolon in place of
    one. -/
def endsStructHead (t : Token) : Bool :=
  t.isControl "\x7b" || t.isOther ";"

/-- Takes the start of a struct up to the token that ends its head, and yields the name. -/
def structHead? (ts : List Token) : Option (String × List Token) := do
  let rest ← keyword? "struct" (skipOpening ts)
  let (name, rest) ← word? rest
  let body := rest.dropWhile fun t => !endsStructHead t
  if body.isEmpty then none else some (name, body)

theorem behind_of_structHead? {name : String} (h : structHead? ts = some (name, rest)) :
    Behind rest ts := by
  simp only [structHead?, Option.bind_eq_bind, Option.bind_eq_some_iff, Prod.exists] at h
  obtain ⟨us, hk, _, vs, hw, h⟩ := h
  split at h
  · cases h
  · simp only [Option.some.injEq, Prod.mk.injEq] at h
    obtain ⟨_, rfl⟩ := h
    have hv : Behind vs _ := (behind_of_word? hw).trans (behind_of_next? hk)
    exact .of_suffix (List.dropWhile_suffix _) (hv.suffix_left (skipOpening_isSuffix ts))

/-- Takes the body of a struct in braces, with its fields, or nothing where there is no brace. -/
def structBody (ts : List Token) : List Field × List Token :=
  match control? "\x7b" ts with
  | none => ([], ts)
  | some rest =>
    let (members, rest) := fields rest
    (members, optional (control? "\x7d") rest)

theorem structBody_isSuffix (ts : List Token) : (structBody ts).2 <:+ ts := by
  unfold structBody
  split
  · exact List.suffix_refl ts
  · rename_i rest h
    exact (optional_isSuffix fun _ h => behind_of_next? h).trans
      ((many_isSuffix _ _ rest).trans (behind_of_next? h).isSuffix)

/-- Takes a struct. -/
def struct? (ts : List Token) : Option (Struct × List Token) := do
  let (name, rest) ← structHead? ts
  let (fields, rest) := structBody rest
  let span := Span.covering (blockBefore ts rest)
  return ({ name, fields, docs := docs ts, span }, rest)

theorem behind_of_struct? {s : Struct} (h : struct? ts = some (s, rest)) : Behind rest ts := by
  simp only [struct?, Option.bind_eq_bind, Option.bind_eq_some_iff, Option.pure_def,
    Option.some.injEq, Prod.mk.injEq, Prod.exists] at h
  obtain ⟨_, us, hh, _, rfl⟩ := h
  exact .of_suffix (structBody_isSuffix us) (behind_of_structHead? hh)

/-! ### Declarations of which only the name matters -/

/-- Takes an enumeration, a trait or a constant through its name.  A trait carries no attributes. -/
def named? (kind : NamedKind) (ts : List Token) : Option (Named × List Token) := do
  let behindDocs := skipDocs ts
  let header := if kind = .trait then behindDocs else skipAttributes behindDocs
  let rest ← keyword? kind.word (skipVisibility header)
  let (name, rest) ← word? rest
  return ({ kind, name, docs := docs ts, span := Span.covering (blockBefore ts rest) }, rest)

theorem behind_of_named? {kind : NamedKind} {n : Named} (h : named? kind ts = some (n, rest)) :
    Behind rest ts := by
  simp only [named?, Option.bind_eq_bind, Option.bind_eq_some_iff, Option.pure_def,
    Option.some.injEq, Prod.mk.injEq, Prod.exists] at h
  obtain ⟨us, hk, _, vs, hw, _, rfl⟩ := h
  have hv := (behind_of_word? hw).trans (behind_of_next? hk)
  refine hv.suffix_left ((skipVisibility_isSuffix _).trans ?_)
  split
  · exact skipDocs_isSuffix ts
  · exact (skipAttributes_isSuffix _).trans (skipDocs_isSuffix ts)

/-! ### All forms -/

/-- The forms of declaration that are recognized. -/
inductive Form where
  /-- A function signature. -/
  | function
  /-- A struct. -/
  | struct
  /-- An enumeration, a trait or a constant. -/
  | named (kind : NamedKind)
deriving DecidableEq, Repr

namespace Form

/-- The order in which the forms are tried. -/
def order : List Form :=
  [.function, .struct, .named .enum, .named .const, .named .trait]

/-- Takes a declaration of this form from the front of a token list. -/
def recognize? (form : Form) (ts : List Token) : Option (Node × List Token) :=
  match form with
  | .function => (function? ts).map fun (f, rest) => (.function f, rest)
  | .struct => (struct? ts).map fun (s, rest) => (.struct s, rest)
  | .named kind => (named? kind ts).map fun (n, rest) => (.named n, rest)

theorem behind_of_recognize? {form : Form} {node : Node}
    (h : form.recognize? ts = some (node, rest)) : Behind rest ts := by
  cases form with
  | function =>
    simp only [recognize?, Option.map_eq_some_iff, Prod.mk.injEq, Prod.exists] at h
    obtain ⟨_, us, hf, _, rfl⟩ := h
    exact behind_of_function? hf
  | struct =>
    simp only [recognize?, Option.map_eq_some_iff, Prod.mk.injEq, Prod.exists] at h
    obtain ⟨_, us, hs, _, rfl⟩ := h
    exact behind_of_struct? hs
  | named kind =>
    simp only [recognize?, Option.map_eq_some_iff, Prod.mk.injEq, Prod.exists] at h
    obtain ⟨_, us, hn, _, rfl⟩ := h
    exact behind_of_named? hn

end Form

end DocAudit
