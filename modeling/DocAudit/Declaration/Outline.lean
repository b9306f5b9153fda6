import DocAudit.Declaration.Recognizer
import DocAudit.Token.Lexer

namespace DocAudit

/-!
# The outline of a token list

`outline` turns a token list into nodes that cover it in order: at each place the forms of
declaration are tried, and a token at which none of them starts is passed through.  `outline?`
first asks that the tokens stand in source order (`checkOrder`), and `outlineOfSource?` starts from
a text.
-/

/-- The first of the given forms that applies takes its declaration. -/
def recognizeFirst? (order : List Form) (ts : List Token) : Option (Node × List Token) :=
  order.findSome? (·.recognize? ts)

theorem behind_of_recognizeFirst? {order : List Form} {ts rest : List Token} {node : Node}
    (h : recognizeFirst? order ts = some (node, rest)) : Behind rest ts := by
  obtain ⟨form, _, hf⟩ := List.exists_of_findSome?_eq_some h
  exact Form.behind_of_recognize? hf

/-- The nodes of a token list when the forms are tried in the given order. -/
def outlineInOrder (order : List Form) (ts : List Token) : List Node :=
  match ts with
  | [] => []
  | t :: more =>
    match _h : recognizeFirst? order (t :: more) with
    | some (node, rest) => node :: outlineInOrder order rest
    | none => .other t t.span :: outlineInOrder order more
termination_by ts.length
decreasing_by
  · exact (behind_of_recognizeFirst? _h).length_lt
  · exact Nat.lt_succ_self more.length

/-- The nodes of a token list. -/
def outline (ts : List Token) : List Node :=
  outlineInOrder Form.order ts

/-! ### Token lists from outside -/

/-- An item of a list that should hold tokens. -/
inductive Item where
  /-- A token. -/
  | token (t : Token)
  /-- A value of another shape, by the name of that shape. -/
  | foreign (shape : String)
deriving DecidableEq, Repr

/-- The tokens of the list, if all items are tokens and each one starts where its predecessor ended
    or later; `previousEnd` is where the tokens before ended. -/
def checkOrderFrom (previousEnd : Int) : List Item → Except (Cause × Int) (List Token)
  | [] => .ok []
  | .foreign shape :: _ => .error (.notToken shape, 0)
  | .token t :: rest =>
    if t.span.start < previousEnd ∨ t.span.stop < t.span.start then
      .error (.misordered t, t.span.start)
    else do
      let ts ← checkOrderFrom t.span.stop rest
      return t :: ts

/-- The tokens of a list in source order, or the fault of its first misplaced item. -/
def checkOrder (items : List Item) (source : Option (List Char)) : Except Fault (List Token) :=
  match checkOrderFrom 0 items with
  | .ok ts => .ok ts
  | .error (cause, offset) =>
    match source with
    | some text => .error (.within text .statements cause offset)
    | none => .error { stage := .statements, cause, offset }

/-- The nodes of a list of items, which have to be tokens in source order.  The text from which they
    come serves to place a fault. -/
def outline? (items : List Item) (source : Option (List Char)) : Except Fault (List Node) := do
  let ts ← checkOrder items source
  return outline ts

/-- The nodes of a source text. -/
def outlineOfSource? (source : List Char) : Except Fault (List Node) := do
  let ts ← tokenize true source
  outline? (ts.map Item.token) (some source)

end DocAudit
