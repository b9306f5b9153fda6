namespace DocAudit

/-!
# Binary floating point as decimal text

`Binary64` is a number of the 64-bit format, by its bits.  `Binary64.shortest` gives the decimal
with the fewest digits that reads back as the same number, the nearest one if there are several,
and `Binary64.display` writes it out: in positional notation from 10⁻⁴ up to 10¹⁶, with an exponent
elsewhere.
-/

/-- A floating-point number of the 64-bit format. -/
structure Binary64 where
  /-- Sign, exponent and fraction, from the highest bit down. -/
  bits : UInt64
deriving DecidableEq, Repr

/-- A decimal: digits times a power of ten. -/
structure DecimalNumber where
  /-- The digits, as a number. -/
  digits : Nat
  /-- The exponent of ten. -/
  exponent : Int
deriving DecidableEq, Repr

namespace Binary64

/-- The weight of the sign bit, 2 ^ 63. -/
def signWeight : Nat := 0x8000000000000000

/-- The weight of the lowest bit of the exponent, 2 ^ 52. -/
def exponentWeight : Nat := 0x10000000000000

/-- The magnitude bits of infinity.  Larger ones stand for no number. -/
def infinityBits : Nat := 0x7FF * exponentWeight

/-- The number nearest to a decimal, with the sign given apart. -/
def ofDecimal (negative : Bool) (d : DecimalNumber) : Binary64 :=
  let magnitude := (Float.ofScientific d.digits (d.exponent < 0) d.exponent.natAbs).toBits
  ⟨if negative then magnitude ||| 0x8000000000000000 else magnitude⟩

/-- Whether the sign bit is set. -/
def isNegative (x : Binary64) : Bool :=
  x.bits.toNat ≥ signWeight

/-- Exponent and fraction as one number. -/
def magnitudeBits (x : Binary64) : Nat :=
  x.bits.toNat % signWeight

/-- Whether the number is zero, of either sign. -/
def isZero (x : Binary64) : Bool :=
  x.magnitudeBits == 0

/-- Whether the number is infinite. -/
def isInfinite (x : Binary64) : Bool :=
  x.magnitudeBits == infinityBits

/-- Whether the bits stand for no number. -/
def isNaN (x : Binary64) : Bool :=
  x.magnitudeBits > infinityBits

/-- The exponent field. -/
def exponentField (x : Binary64) : Nat :=
  x.magnitudeBits / exponentWeight

/-- The integer `m` such that the magnitude is `m · 2 ^ scale`. -/
def significand (x : Binary64) : Nat :=
  let fraction := x.magnitudeBits % exponentWeight
  if x.exponentField = 0 then fraction else fraction + exponentWeight

/-- The exponent of two that goes with the significand. -/
def scale (x : Binary64) : Int :=
  if x.exponentField = 0 then -1074 else (x.exponentField : Int) - 1075

/-- Whether the next smaller magnitude is only half as far away as the next larger one. -/
def atBoundary (x : Binary64) : Bool :=
  x.magnitudeBits % exponentWeight = 0 ∧ 1 < x.exponentField

/-- The exponent `k` such that the magnitude `num / den` is at least 10 ^ (k - 1) and below 10 ^
    k. -/
def decimalMagnitude (num den : Nat) : Int :=
  if den ≤ num then ((Nat.toDigits 10 (num / den)).length : Int)
  else 1 - ((Nat.toDigits 10 (den / num)).length : Int)

/-- The numerator and denominator of `2 ^ e2 · 10 ^ e10`. -/
def powers (e2 e10 : Int) : Nat × Nat :=
  (Nat.pow 2 e2.toNat * Nat.pow 10 e10.toNat,
    Nat.pow 2 (-e2).toNat * Nat.pow 10 (-e10).toNat)

/-- The decimal on the grid of multiples of 10 ^ grid that rounds back to the number and lies
    nearest to it, if there is one.  Quarters of the last binary place make all bounds integers. -/
def nearestOnGrid? (x : Binary64) (grid : Int) : Option DecimalNumber :=
  let m := 4 * x.significand
  let below := if x.atBoundary then m - 1 else m - 2
  let (num, den) := powers (x.scale - 2) (-grid)
  let fits (c : Nat) : Bool :=
    if x.significand % 2 = 0 then decide (below * num ≤ c * den ∧ c * den ≤ (m + 2) * num)
    else decide (below * num < c * den ∧ c * den < (m + 2) * num)
  let low := m * num / den
  let high := low + 1
  let twice := 2 * (m * num)
  let middle := (low + high) * den
  let lowIsNearer := twice < middle ∨ (twice = middle ∧ low % 2 = 0)
  match fits low, fits high with
  | true, true => some ⟨if lowIsNearer then low else high, grid⟩
  | true, false => some ⟨low, grid⟩
  | false, true => some ⟨high, grid⟩
  | false, false => none

/-- The decimal with the fewest digits that reads back as the magnitude of the number. -/
def shortest (x : Binary64) : DecimalNumber :=
  let (num, den) := powers x.scale 0
  let magnitude := decimalMagnitude (x.significand * num) den
  let found := (List.range 17).findSome? fun (n : Nat) => x.nearestOnGrid? (magnitude - n - 1)
  found.getD ⟨0, 0⟩

/-! ### Text -/

/-- The least and the first too large number of integer digits for which positional notation is
    used. -/
def positionalRange : Int × Int :=
  (-3, 17)

/-- The digits with the exponent behind them. -/
def withExponent (digits : List Char) (point : Int) : List Char :=
  let exponent := point - 1
  let power := Nat.toDigits 10 exponent.natAbs
  let mantissa := match digits with
    | [] => []
    | [d] => [d]
    | d :: more => d :: '.' :: more
  mantissa ++ ['e', if exponent < 0 then '-' else '+']
    ++ List.replicate (2 - power.length) '0' ++ power

/-- The digits with the point among them: `point` digits stand in front of it. -/
def positional (digits : List Char) (point : Int) : List Char :=
  if point ≤ 0 then ['0', '.'] ++ List.replicate (-point).toNat '0' ++ digits
  else if digits.length ≤ point.toNat then
    digits ++ List.replicate (point.toNat - digits.length) '0' ++ ['.', '0']
  else digits.take point.toNat ++ '.' :: digits.drop point.toNat

/-- The number as text: the fewest digits that read back. -/
def display (x : Binary64) : String :=
  let sign := if x.isNegative then "-" else ""
  if x.isNaN then "nan"
  else if x.isInfinite then sign ++ "inf"
  else if x.isZero then sign ++ "0.0"
  else
    let d := x.shortest
    let raw := Nat.toDigits 10 d.digits
    let point := (raw.length : Int) + d.exponent
    let digits := (raw.reverse.dropWhile (· == '0')).reverse
    let text := if positionalRange.1 ≤ point ∧ point < positionalRange.2 then
      positional digits point else withExponent digits point
    sign ++ String.ofList text

end Binary64

end DocAudit
