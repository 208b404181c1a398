import QuocNgu.Value

/-!
# Json.Reader — JSON texts as values

* `Dialect`  : what a reader accepts beyond the standard, and its limits
* `lenient`  : the dialect of configuration files and layout definitions
* `strict`   : the dialect of word lists
* `read`     : the value of a whole text

A repeated key keeps its first position and its last value.

The lenient dialect sets no limit on nesting. A reader that calls itself for each level has one all
the same, where its stack ends; how deep that is depends on the caller and is left out.
-/

namespace QuocNgu
namespace Json

structure Dialect where
  /-- `NaN`, `Infinity` and `-Infinity` are numbers. -/
  specialNumbers : Bool
  /-- A number beyond every finite one is read as infinite. -/
  overflow : Bool
  /-- An escape of half a surrogate pair may stand alone. -/
  halfSurrogates : Bool
  /-- The most digits of an integer. -/
  maxDigits : Option Nat
  /-- The deepest nesting of lists and mappings. -/
  maxDepth : Option Nat

def lenient : Dialect where
  specialNumbers := true
  overflow := true
  halfSurrogates := true
  maxDigits := some 4300
  maxDepth := none

def strict : Dialect where
  specialNumbers := false
  overflow := false
  halfSurrogates := false
  maxDigits := none
  maxDepth := some 1024

inductive Problem where
  | malformed
  | longInteger
  deriving DecidableEq, Repr

def isSpace (c : Char) : Bool := c = ' ' || c = '\t' || c = '\n' || c = '\r'

def skipSpace (cs : List Char) : List Char := cs.dropWhile isSpace

/-- The text after a word that it starts with. -/
def after? : List Char → List Char → Option (List Char)
  | [], cs => some cs
  | w :: ws, c :: cs => if w = c then after? ws cs else none
  | _ :: _, [] => none

/-! ## Texts -/

def hexValue? (c : Char) : Option Nat :=
  if '0' ≤ c ∧ c ≤ '9' then some (c.toNat - '0'.toNat)
  else if 'a' ≤ c ∧ c ≤ 'f' then some (c.toNat - 'a'.toNat + 10)
  else if 'A' ≤ c ∧ c ≤ 'F' then some (c.toNat - 'A'.toNat + 10)
  else none

def hexCode? (digits : List Char) : Option Nat :=
  digits.foldlM (fun n c => (hexValue? c).map (16 * n + ·)) 0

def escape? : Char → Option Nat
  | '"' => some 0x22
  | '\\' => some 0x5C
  | '/' => some 0x2F
  | 'b' => some 0x08
  | 'f' => some 0x0C
  | 'n' => some 0x0A
  | 'r' => some 0x0D
  | 't' => some 0x09
  | _ => none

/-- The code units of a text up to its closing quote, and what follows the quote. -/
def readUnits : List Char → Option (List Nat × List Char)
  | [] => none
  | '"' :: rest => some ([], rest)
  | '\\' :: 'u' :: a :: b :: c :: d :: rest =>
      match hexCode? [a, b, c, d], readUnits rest with
      | some n, some (units, rest) => some (n :: units, rest)
      | _, _ => none
  | '\\' :: e :: rest =>
      match escape? e, readUnits rest with
      | some n, some (units, rest) => some (n :: units, rest)
      | _, _ => none
  | c :: rest =>
      if c.toNat < 0x20 || c = '\\' then none
      else
        match readUnits rest with
        | some (units, rest) => some (c.toNat :: units, rest)
        | none => none

def isHigh (n : Nat) : Bool := 0xD800 ≤ n && n < 0xDC00

def isLow (n : Nat) : Bool := 0xDC00 ≤ n && n < 0xE000

def pointOf? (d : Dialect) (n : Nat) : Option Point :=
  if (isHigh n || isLow n) && !d.halfSurrogates then none else some (Point.ofCode n)

/-- Joins each high unit with a low unit right after it. -/
def joinUnits (d : Dialect) : List Nat → Option Text
  | [] => some []
  | [n] => (pointOf? d n).map ([·])
  | n :: m :: rest =>
      if isHigh n && isLow m then
        let p := Point.ofCode (0x10000 + (n - 0xD800) * 0x400 + (m - 0xDC00))
        (joinUnits d rest).map (p :: ·)
      else
        match pointOf? d n, joinUnits d (m :: rest) with
        | some p, some t => some (p :: t)
        | _, _ => none

def readText (d : Dialect) (cs : List Char) : Except Problem (Text × List Char) :=
  match readUnits cs with
  | none => .error .malformed
  | some (units, rest) =>
      match joinUnits d units with
      | some t => .ok (t, rest)
      | none => .error .malformed

/-! ## Numbers -/

def isDigit (c : Char) : Bool := '0' ≤ c && c ≤ '9'

def digits (cs : List Char) : List Char × List Char := (cs.takeWhile isDigit, cs.dropWhile isDigit)

def digitsValue (cs : List Char) : Nat :=
  cs.foldl (fun n c => 10 * n + (c.toNat - '0'.toNat)) 0

def readSign : List Char → Bool × List Char
  | '-' :: rest => (true, rest)
  | cs => (false, cs)

/-- The whole part: a zero on its own, or digits that start with no zero. -/
def readWhole? : List Char → Option (List Char × List Char)
  | '0' :: rest => some (['0'], rest)
  | cs =>
      match digits cs with
      | ([], _) => none
      | (whole, rest) => some (whole, rest)

/-- The digits after a point, if there are any. -/
def readFraction : List Char → List Char × List Char
  | '.' :: rest =>
      match digits rest with
      | ([], _) => ([], '.' :: rest)
      | (fraction, rest) => (fraction, rest)
  | cs => ([], cs)

def readExponent? : List Char → Option (Int × List Char)
  | e :: rest =>
      if e = 'e' || e = 'E' then
        let (negative, unsigned) := match rest with
          | '+' :: more => (false, more)
          | more => readSign more
        match digits unsigned with
        | ([], _) => none
        | (power, rest) =>
            let n : Int := digitsValue power
            some (if negative then -n else n, rest)
      else none
  | [] => none

def integer (d : Dialect) (negative : Bool) (whole : List Char) : Except Problem Value :=
  if d.maxDigits.any (· < whole.length) then .error .longInteger
  else
    let n : Int := digitsValue whole
    if !d.overflow && (Binary64.ofDecimal false n.toNat 0).isInfinite then .error .malformed
    else .ok (.integer (if negative then -n else n))

def real (d : Dialect) (negative : Bool) (whole fraction : List Char) (power : Int) :
    Except Problem Value :=
  let x := Binary64.ofDecimal negative (digitsValue (whole ++ fraction)) (power - fraction.length)
  if !d.overflow && x.isInfinite then .error .malformed else .ok (.real x)

def readNumber (d : Dialect) (cs : List Char) : Except Problem (Value × List Char) := do
  let (negative, unsigned) := readSign cs
  match readWhole? unsigned with
  | none => .error .malformed
  | some (whole, rest) =>
      let (fraction, rest) := readFraction rest
      match readExponent? rest with
      | some (power, rest) => return (← real d negative whole fraction power, rest)
      | none =>
          if fraction.isEmpty then return (← integer d negative whole, rest)
          else return (← real d negative whole fraction 0, rest)

/-! ## Words -/

def words (d : Dialect) : List (List Char × Value) :=
  [(['n', 'u', 'l', 'l'], .null), (['t', 'r', 'u', 'e'], .boolean true),
    (['f', 'a', 'l', 's', 'e'], .boolean false)] ++
  if d.specialNumbers then
    [(['N', 'a', 'N'], .real Binary64.nan),
      (['I', 'n', 'f', 'i', 'n', 'i', 't', 'y'], .real (Binary64.infinity false)),
      (['-', 'I', 'n', 'f', 'i', 'n', 'i', 't', 'y'], .real (Binary64.infinity true))]
  else []

def readScalar (d : Dialect) (cs : List Char) : Except Problem (Value × List Char) :=
  match (words d).findSome? fun (word, v) => (after? word cs).map (v, ·) with
  | some read => .ok read
  | none => readNumber d cs

/-! ## Values -/

def tooDeep (d : Dialect) (depth : Nat) : Bool := d.maxDepth.any (· < depth)

mutual

/-- Reads one value; every character read costs at most two units of fuel. -/
def readValue (d : Dialect) (fuel depth : Nat) (cs : List Char) :
    Except Problem (Value × List Char) :=
  match fuel with
  | 0 => .error .malformed
  | fuel + 1 =>
      match skipSpace cs with
      | '"' :: rest => do
          let (t, rest) ← readText d rest
          return (.text t, rest)
      | '[' :: rest =>
          if tooDeep d (depth + 1) then .error .malformed
          else
            match skipSpace rest with
            | ']' :: rest => .ok (.list [], rest)
            | _ => do
                let (items, rest) ← readItems d fuel (depth + 1) rest
                return (.list items, rest)
      | '{' :: rest =>
          if tooDeep d (depth + 1) then .error .malformed
          else
            match skipSpace rest with
            | '}' :: rest => .ok (.object [], rest)
            | _ => do
                let (fields, rest) ← readFields d fuel (depth + 1) [] rest
                return (.object fields, rest)
      | cs => readScalar d cs

def readItems (d : Dialect) (fuel depth : Nat) (cs : List Char) :
    Except Problem (List Value × List Char) :=
  match fuel with
  | 0 => .error .malformed
  | fuel + 1 => do
      let (item, rest) ← readValue d fuel depth cs
      match skipSpace rest with
      | ']' :: rest => return ([item], rest)
      | ',' :: rest =>
          let (items, rest) ← readItems d fuel depth rest
          return (item :: items, rest)
      | _ => .error .malformed

def readFields (d : Dialect) (fuel depth : Nat) (fields : List (Text × Value))
    (cs : List Char) : Except Problem (List (Text × Value) × List Char) :=
  match fuel with
  | 0 => .error .malformed
  | fuel + 1 =>
      match skipSpace cs with
      | '"' :: rest => do
          let (key, rest) ← readText d rest
          match skipSpace rest with
          | ':' :: rest =>
              let (value, rest) ← readValue d fuel depth rest
              let fields := Value.assignField key value fields
              match skipSpace rest with
              | '}' :: rest => return (fields, rest)
              | ',' :: rest => readFields d fuel depth fields rest
              | _ => .error .malformed
          | _ => .error .malformed
      | _ => .error .malformed

end

def readChars (d : Dialect) (cs : List Char) : Except Problem Value := do
  let (v, rest) ← readValue d (2 * cs.length + 2) 0 cs
  if (skipSpace rest).isEmpty then return v else .error .malformed

def read (d : Dialect) (text : String) : Except Problem Value := readChars d text.toList

end Json
end QuocNgu
