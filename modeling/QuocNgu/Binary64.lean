/-!
# Binary64 — IEEE 754 double-precision numbers as 64-bit words

* `Binary64`      : a word of 64 bits, read as sign, exponent and fraction
* `ofDecimal`     : the number nearest to a decimal, a tie going to the even significand
* `toRatio?`      : the exact value of a finite number

Every computation is exact arithmetic on natural numbers; no machine float is involved.
-/

namespace QuocNgu

structure Binary64 where
  bits : UInt64
  deriving DecidableEq, Repr, Inhabited

namespace Binary64

/-! ## Fields of the word -/

def isNegative (x : Binary64) : Bool := 1 <<< 63 ≤ x.bits.toNat

def exponentField (x : Binary64) : Nat := (x.bits.toNat >>> 52) % (1 <<< 11)

def fractionField (x : Binary64) : Nat := x.bits.toNat % (1 <<< 52)

def isNan (x : Binary64) : Bool := x.exponentField == 2047 && x.fractionField != 0

def isInfinite (x : Binary64) : Bool := x.exponentField == 2047 && x.fractionField == 0

def isZero (x : Binary64) : Bool := x.exponentField == 0 && x.fractionField == 0

def significand (x : Binary64) : Nat :=
  if x.exponentField = 0 then x.fractionField else (1 <<< 52) + x.fractionField

/-- The magnitude of a finite number is `significand * 2 ^ binaryExponent`. -/
def binaryExponent (x : Binary64) : Int := (max x.exponentField 1 : Nat) - 1075

/-! ## Special numbers -/

def ofParts (negative : Bool) (magnitude : Nat) : Binary64 :=
  ⟨UInt64.ofNat ((if negative then 1 <<< 63 else 0) + magnitude)⟩

def infinity (negative : Bool) : Binary64 := ofParts negative (2047 <<< 52)

def nan : Binary64 := ofParts false ((2047 <<< 52) + (1 <<< 51))

/-! ## Nearest number to a fraction -/

/-- The natural number nearest to `num / den`, the even one of two equally near. -/
def roundRatio (num den : Nat) : Nat :=
  let low := num / den
  let rest := 2 * (num % den)
  if den < rest || (rest == den && low % 2 == 1) then low + 1 else low

/-- Raises or lowers the fraction `num / den` by a power of two. -/
def scaleRatio (num den : Nat) (power : Int) : Nat × Nat :=
  (num <<< power.toNat, den <<< (-power).toNat)

/-- The least binary exponent whose significands reach `num / den`, at least the subnormal one. -/
def exponentFor (num den : Nat) : Int :=
  let guess : Int := (num.log2 : Int) - den.log2 - 52
  let (n, d) := scaleRatio num den (-guess)
  max (if n < d <<< 52 then guess - 1 else guess) (-1074)

/-- The magnitude bits of the number nearest to `num / den`, at most those of infinity. -/
def nearestMagnitude (num den : Nat) : Nat :=
  if num = 0 then 0
  else
    let e := exponentFor num den
    let (n, d) := scaleRatio num den (-e)
    min (((e + 1074).toNat <<< 52) + roundRatio n d) (2047 <<< 52)

def decimalLength (n : Nat) : Nat := (Nat.toDigits 10 n).length

/-- The number nearest to `digits * 10 ^ exponent`. Decimals far outside the range of finite numbers
are settled by their length alone. -/
def ofDecimal (negative : Bool) (digits : Nat) (exponent : Int) : Binary64 :=
  if digits = 0 then ofParts negative 0
  else if 400 < decimalLength digits + exponent then infinity negative
  else if decimalLength digits + exponent < -400 then ofParts negative 0
  else
    ofParts negative
      (nearestMagnitude (digits * Nat.pow 10 exponent.toNat) (Nat.pow 10 (-exponent).toNat))

/-! ## Exact value -/

/-- Numerator and denominator of a finite number. -/
def toRatio? (x : Binary64) : Option (Int × Nat) :=
  if x.exponentField = 2047 then none
  else
    let (num, den) := scaleRatio x.significand 1 x.binaryExponent
    some (if x.isNegative then -(num : Int) else num, den)

def toInteger? (x : Binary64) : Option Int :=
  match x.toRatio? with
  | some (num, den) => if num % den = 0 then some (num / den) else none
  | none => none

/-- Numeric equality: the two zeros are equal and no NaN equals anything. -/
def same (x y : Binary64) : Bool :=
  !x.isNan && ((x.isZero && y.isZero) || x == y)

def lessThan (x : Binary64) (n : Int) : Bool :=
  match x.toRatio? with
  | some (num, den) => num < n * den
  | none => x.isInfinite && x.isNegative

end Binary64
end QuocNgu
