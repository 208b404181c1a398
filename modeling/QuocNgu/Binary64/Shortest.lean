import QuocNgu.Binary64

/-!
# Binary64.Shortest — the shortest decimal text of a number

* `rounding`  : the decimals that read back as a number form an interval around it
* `shortest`  : the fewest digits of a decimal in that interval, and of those the nearest
* `Style`     : where a dialect writes a decimal positionally, and its words for special numbers
* `toText`    : the text of a number in a style
-/

namespace QuocNgu
namespace Binary64

/-! ## The rounding interval -/

/-- Bounds on a number in quarters of its last binary place: `low ≤ value ≤ high`, and the ends
belong to the interval if `closed`. One quarter is `unitNum / unitDen`. -/
structure Rounding where
  low : Nat
  value : Nat
  high : Nat
  closed : Bool
  unitNum : Nat
  unitDen : Nat

/-- Below a power of two the gap to the next smaller number is half as wide. -/
def rounding (x : Binary64) : Rounding :=
  let m := x.significand
  let (unitNum, unitDen) := scaleRatio 1 4 x.binaryExponent
  let narrow := m == 1 <<< 52 && x.exponentField > 1
  { low := if narrow then 4 * m - 1 else 4 * m - 2
    value := 4 * m
    high := 4 * m + 2
    closed := m % 2 == 0
    unitNum := unitNum
    unitDen := unitDen }

/-! ## Digits -/

/-- A positive decimal `digits * 10 ^ exponent`. -/
structure Decimal where
  digits : Nat
  exponent : Int
  deriving DecidableEq, Repr

/-- Compares `a * 10 ^ e` with `b` quarters: numerators over a common denominator. -/
def onGrid (r : Rounding) (a : Nat) (e : Int) (b : Nat) : Nat × Nat :=
  (a * Nat.pow 10 e.toNat * r.unitDen, b * r.unitNum * Nat.pow 10 (-e).toNat)

def Rounding.holds (r : Rounding) (a : Nat) (e : Int) : Bool :=
  let (c, low) := onGrid r a e r.low
  let (_, high) := onGrid r a e r.high
  (low < c && c < high) || (r.closed && (c == low || c == high))

/-- The exponent of the leading decimal digit. -/
def leadingExponent (r : Rounding) : Int :=
  let num := r.value * r.unitNum
  if r.unitDen ≤ num then (decimalLength (num / r.unitDen) : Int) - 1
  else -(decimalLength ((r.unitDen - 1) / num) : Int)

/-- The nearest decimal of the interval with last place `10 ^ e`, if there is one. -/
def nearestOnGrid? (r : Rounding) (e : Int) : Option Nat :=
  let (unit, value) := onGrid r 1 e r.value
  let low := value / unit
  let near := roundRatio value unit
  let far := if near = low then low + 1 else low
  if near != 0 && r.holds near e then some near
  else if far != 0 && r.holds far e then some far
  else none

def dropZeros (fuel : Nat) (d : Decimal) : Decimal :=
  match fuel with
  | 0 => d
  | n + 1 => if d.digits % 10 = 0 then dropZeros n ⟨d.digits / 10, d.exponent + 1⟩ else d

/-- Tries one digit, two digits, and so on; seventeen always suffice. -/
def shortest (x : Binary64) : Decimal :=
  let r := x.rounding
  let top := leadingExponent r
  let tries := (List.range 18).findSome? fun (n : Nat) =>
    (nearestOnGrid? r (top - n)).map fun digits => Decimal.mk digits (top - n)
  dropZeros 18 (tries.getD ⟨0, 0⟩)

/-! ## Text -/

structure Style where
  /-- The exponents of the leading digit that are written positionally. -/
  leastPositional : Int
  greatestPositional : Int
  exponentWidth : Nat
  infinityWord : String
  nanWord : String

def zeros (n : Nat) : String := String.ofList (List.replicate n '0')

def Decimal.positional (digits : String) (point : Int) : String :=
  if point ≤ 0 then "0." ++ zeros (-point).toNat ++ digits
  else if point < digits.length then
    String.ofList (digits.toList.take point.toNat) ++ "." ++
      String.ofList (digits.toList.drop point.toNat)
  else digits ++ zeros (point.toNat - digits.length) ++ ".0"

def Decimal.scientific (style : Style) (digits : String) (leading : Int) : String :=
  let mantissa := match digits.toList with
    | first :: second :: rest => String.ofList (first :: '.' :: second :: rest)
    | _ => digits
  let size := toString leading.natAbs
  mantissa ++ (if leading < 0 then "e-" else "e+") ++
    zeros (style.exponentWidth - size.length) ++ size

def Decimal.toText (style : Style) (d : Decimal) : String :=
  let digits := toString d.digits
  let leading : Int := digits.length + d.exponent - 1
  if style.leastPositional ≤ leading && leading ≤ style.greatestPositional then
    Decimal.positional digits (leading + 1)
  else Decimal.scientific style digits leading

def toText (style : Style) (x : Binary64) : String :=
  if x.isNan then style.nanWord
  else
    (if x.isNegative then "-" else "") ++
      if x.isInfinite then style.infinityWord
      else if x.isZero then "0.0"
      else x.shortest.toText style

end Binary64
end QuocNgu
