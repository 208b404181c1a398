import QuocNgu.Text.Blank
import QuocNgu.Text.Digit

/-!
# Text.Numeral — integers as people type them

* `numeral?`       : an integer in decimal digits of any script, with an optional sign, single
  underscores between digits and blanks around it
* `looksNegative`  : a minus sign before digits, or before digits with a point among or before them
-/

namespace QuocNgu
namespace Text

/-- Of the separators below U+0080 only the white space of a line counts here. -/
def isMargin (p : Point) : Bool := isBlank p && !inRanges [(0x1C, 0x1F)] p.code

def dropMargins (t : Text) : Text := ((t.dropWhile isMargin).reverse.dropWhile isMargin).reverse

/-- The digits of a numeral without its underscores, each of which has to stand between two. -/
def digitValues? : Text → Option (List Nat)
  | [] => none
  | [p] => (digit? p).map ([·])
  | p :: .char '_' :: q :: rest =>
      match digit? p, digitValues? (q :: rest) with
      | some n, some ns => some (n :: ns)
      | _, _ => none
  | p :: rest =>
      match digit? p, digitValues? rest with
      | some n, some ns => some (n :: ns)
      | _, _ => none

def maxNumeralDigits : Nat := 4300

def natural? (t : Text) : Option Nat :=
  match digitValues? t with
  | some ns => if maxNumeralDigits < ns.length then none else some (ns.foldl (10 * · + ·) 0)
  | none => none

def numeral? (t : Text) : Option Int :=
  match dropMargins t with
  | .char '-' :: rest => (natural? rest).map fun n => -(n : Int)
  | .char '+' :: rest => (natural? rest).map fun n => (n : Int)
  | rest => (natural? rest).map fun n => (n : Int)

/-- A line feed at the very end does not count. -/
def dropFinalBreak (t : Text) : Text :=
  match t.getLast? with
  | some (.char '\n') => t.dropLast
  | _ => t

def looksNegative (t : Text) : Bool :=
  match dropFinalBreak t with
  | .char '-' :: rest =>
      match rest.dropWhile isDigit with
      | [] => !rest.isEmpty
      | .char '.' :: fraction => !fraction.isEmpty && fraction.all isDigit
      | _ => false
  | _ => false

end Text
end QuocNgu
