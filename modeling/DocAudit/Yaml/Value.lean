import DocAudit.Decimal.Shortest
import DocAudit.Text.Quoted

namespace DocAudit.Yaml

/-!
# Values of a settings document

* `Value` — what a document says;
* `Value.text`, `Value.display` — a value as text, at the top and inside another value;
* `Value.holds` — whether a value counts as true;
* `Value.set` — one more entry of a mapping, where an equal key keeps its place.
-/

/-- A value of a document. -/
inductive Value where
  /-- Nothing. -/
  | null
  /-- A truth value. -/
  | bool (b : Bool)
  /-- An integer. -/
  | int (n : Int)
  /-- A floating-point number. -/
  | float (x : Binary64)
  /-- A text. -/
  | text (s : String)
  /-- A list. -/
  | list (items : List Value)
  /-- A mapping, in the order of its entries. -/
  | map (entries : List (Value × Value))
deriving Repr, Inhabited

namespace Value

/-! ### Text -/

mutual

/-- The value as it stands inside another one: a text is quoted. -/
def display : Value → String
  | .null => "None"
  | .bool b => if b then "True" else "False"
  | .int n => toString n
  | .float x => x.display
  | .text s => Text.quoted s
  | .list items => "[" ++ ", ".intercalate (displayAll items) ++ "]"
  | .map entries => "\x7b" ++ ", ".intercalate (displayEntries entries) ++ "\x7d"

/-- The values of a list, each as it stands inside another one. -/
def displayAll : List Value → List String
  | [] => []
  | v :: rest => display v :: displayAll rest

/-- The entries of a mapping, each with a colon between key and value. -/
def displayEntries : List (Value × Value) → List String
  | [] => []
  | (key, value) :: rest => (display key ++ ": " ++ display value) :: displayEntries rest

end

/-- The value as text: a text stands for itself. -/
def asText : Value → String
  | .text s => s
  | v => v.display

/-- Whether the value counts as true: it is neither nothing, nor zero, nor empty. -/
def holds : Value → Bool
  | .null => false
  | .bool b => b
  | .int n => n != 0
  | .float x => !x.isZero
  | .text s => !s.isEmpty
  | .list items => !items.isEmpty
  | .map entries => !entries.isEmpty

/-! ### Keys -/

/-- The value of a number as a fraction whose denominator is a power of two, given by its exponent.
    Truth values count as one and zero. -/
def fraction? : Value → Option (Int × Nat)
  | .bool b => some (if b then 1 else 0, 0)
  | .int n => some (n, 0)
  | .float x =>
    if x.isNaN || x.isInfinite then none
    else
      let magnitude : Int := x.significand * Int.pow 2 x.scale.toNat
      some (if x.isNegative then -magnitude else magnitude, (-x.scale).toNat)
  | _ => none

/-- Whether two values are the same key.  Numbers are compared by what they amount to. -/
def sameKey (v w : Value) : Bool :=
  match v.fraction?, w.fraction? with
  | some (a, i), some (b, j) => a * Int.pow 2 j == b * Int.pow 2 i
  | none, none =>
    match v, w with
    | .null, .null => true
    | .text s, .text t => s == t
    | .float x, .float y => x == y && !x.isNaN
    | _, _ => false
  | _, _ => false

/-- Whether the value may be a key: a list or mapping may not. -/
def isKey : Value → Bool
  | .list _ => false
  | .map _ => false
  | _ => true

/-- The entries with the key set to the value: an equal key keeps its place and its spelling, a new
    one goes to the end. -/
def set (entries : List (Value × Value)) (key value : Value) : List (Value × Value) :=
  match entries with
  | [] => [(key, value)]
  | (k, v) :: rest => if k.sameKey key then (k, value) :: rest else (k, v) :: set rest key value

/-- The value of a key that is a text. -/
def lookup? (entries : List (Value × Value)) (key : String) : Option Value :=
  (entries.find? fun (k, _) => k.sameKey (.text key)).map (·.2)

end Value

end DocAudit.Yaml
