import DocAudit.Yaml.Value

namespace DocAudit.Yaml

/-!
# Unquoted scalars

A scalar without quotes is a word for nothing or for a truth value, a number, or else a text.
`plainValue?` tells which, by the rules of YAML 1.1: integers also in base 2, 8, 16 and 60, with
underscores between digits, and floating-point numbers, which always have a point.
-/

/-- The spellings of nothing. -/
def nullWords : List String :=
  ["", "~", "null", "Null", "NULL"]

/-- The spellings of true. -/
def trueWords : List String :=
  ["true", "True", "TRUE", "yes", "Yes", "YES", "on", "On", "ON"]

/-- The spellings of false. -/
def falseWords : List String :=
  ["false", "False", "FALSE", "no", "No", "NO", "off", "Off", "OFF"]

/-- The scalars that stand for a merge or a default, which a value cannot be. -/
def reservedWords : List String :=
  ["<<", "="]

/-- A sign, if there is one, and what follows it; the flag says whether it is a minus. -/
def splitSign : List Char → Bool × List Char
  | [] => (false, [])
  | c :: rest =>
    if c = '-' then (true, rest) else if c = '+' then (false, rest) else (false, c :: rest)

/-- The value of a hexadecimal digit. -/
def digitValue (c : Char) : Nat :=
  if c.isDigit then c.toNat - '0'.toNat else c.toLower.toNat - 'a'.toNat + 10

/-- Whether the character is a digit of the base. -/
def isDigitOf (base : Nat) (c : Char) : Bool :=
  (c.isDigit || (c.isAlpha && c.toNat < 0x80)) && digitValue c < base

/-- The number that the digits write in the base. -/
def numeral (base : Nat) (digits : List Char) : Nat :=
  digits.foldl (fun n c => n * base + digitValue c) 0

/-- A numeral of the base with underscores among its digits, of which it has at least one. -/
def grouped? (base : Nat) (cs : List Char) : Option Nat :=
  let digits := cs.filter (· != '_')
  if digits.isEmpty || !digits.all (isDigitOf base) then none else some (numeral base digits)

/-- Whether the characters are one or two digits that write a number below sixty. -/
def isSixtieth (cs : List Char) : Bool :=
  cs.all Char.isDigit && (cs.length == 1 || (cs.length == 2 && numeral 10 cs < 60))

/-- A positive decimal, or one in base sixty with colons between its places. -/
def positive? (cs : List Char) : Option Nat :=
  match cs.splitBy (fun a b => a != ':' && b != ':') with
  | [whole] => grouped? 10 whole
  | whole :: rest => do
    let places ← pairs rest
    let first ← grouped? 10 whole
    return places.foldl (fun n place => n * 60 + numeral 10 place) first
  | [] => none
where
  /-- The places behind the first one, each after its colon. -/
  pairs : List (List Char) → Option (List (List Char))
    | [] => some []
    | [_] => none
    | colon :: place :: rest =>
      if colon == [':'] && isSixtieth place then (place :: ·) <$> pairs rest else none

/-- An unsigned integer. -/
def natural? (cs : List Char) : Option Nat :=
  match cs with
  | [] => none
  | '0' :: [] => some 0
  | '0' :: 'b' :: digits => grouped? 2 digits
  | '0' :: 'x' :: digits => grouped? 16 digits
  | '0' :: digits => grouped? 8 ('0' :: digits)
  | c :: _ => if c.isDigit then positive? cs else none

/-- An integer. -/
def integer? (cs : List Char) : Option Int :=
  let (negative, digits) := splitSign cs
  (natural? digits).map fun n => if negative then -(n : Int) else n

/-- The exponent of a floating-point number: nothing, or a letter, a sign and digits. -/
def exponent? : List Char → Option Int
  | [] => some 0
  | e :: sign :: digits =>
    if (e == 'e' || e == 'E') && (sign == '-' || sign == '+') && !digits.isEmpty
        && digits.all Char.isDigit then
      let n : Int := numeral 10 digits
      some (if sign == '-' then -n else n)
    else none
  | _ => none

/-- The decimal of an unsigned floating-point number; `bare` says that no sign stood in front,
    without which the point may come first. -/
def fractional? (bare : Bool) (cs : List Char) : Option DecimalNumber := do
  let isPlace (c : Char) : Bool := c.isDigit || c == '_'
  let whole := cs.takeWhile isPlace
  let rest ← (cs.dropWhile isPlace).head? >>= fun c =>
    if c == '.' then some (cs.drop (whole.length + 1)) else none
  let places := rest.takeWhile isPlace
  let startsWithDigit (l : List Char) : Bool := (l.head?.map Char.isDigit).getD false
  if !startsWithDigit whole && !(whole.isEmpty && bare && startsWithDigit places) then none
  let exponent ← exponent? (rest.dropWhile isPlace)
  let isDigit (c : Char) : Bool := c != '_'
  let decimals := places.filter isDigit
  return ⟨numeral 10 (whole.filter isDigit ++ decimals), exponent - decimals.length⟩

/-- A floating-point number. -/
def float? (cs : List Char) : Option Binary64 :=
  let (negative, digits) := splitSign cs
  let infinity := Binary64.infinityBits
  if [".inf", ".Inf", ".INF"].contains (String.ofList digits) then
    some ⟨UInt64.ofNat (if negative then infinity + Binary64.signWeight else infinity)⟩
  else if [".nan", ".NaN", ".NAN"].contains (String.ofList cs) then
    some ⟨UInt64.ofNat (infinity + Binary64.exponentWeight / 2)⟩
  else (fractional? (digits.length == cs.length) digits).map (Binary64.ofDecimal negative)

/-- The value of a scalar without quotes. -/
def plainValue? (s : String) : Option Value :=
  if reservedWords.contains s then none
  else if nullWords.contains s then some .null
  else if trueWords.contains s then some (.bool true)
  else if falseWords.contains s then some (.bool false)
  else
    match float? s.toList, integer? s.toList with
    | some x, _ => some (.float x)
    | none, some n => some (.int n)
    | none, none => some (.text s)

end DocAudit.Yaml
