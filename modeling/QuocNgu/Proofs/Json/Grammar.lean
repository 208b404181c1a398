import QuocNgu.Json.Reader

/-!
# Proofs.Json.Grammar — what a JSON text is

* `Quoted`   : how a text is written between quotes
* `Numeral`  : how a number is written, and which number that is
* `Written`  : how values, lists of elements and lists of members are written
* `Document` : a text that holds a value

* `Document.toStandard` : the strict dialect is the standard one within limits

The grammar is the standard one, and nothing here reads. A dialect enters where it has words of its
own and where it sets a limit: how far a number may reach, whether half a surrogate pair may be
escaped alone, and how deep values may nest.
-/

namespace QuocNgu
namespace Json

/-- The standard dialect, with no limit at all. -/
def standard : Dialect where
  specialNumbers := false
  overflow := true
  halfSurrogates := true
  maxDigits := none
  maxDepth := none

/-! ## Texts -/

/-- The characters between two quotes, and the code units they stand for. -/
inductive Units : List Nat → List Char → Prop where
  | nil : Units [] []
  | plain {c : Char} {units : List Nat} {cs : List Char} (hcontrol : ¬c.toNat < 0x20)
      (hquote : c ≠ '"') (hslash : c ≠ '\\') (hunits : Units units cs) :
      Units (c.toNat :: units) (c :: cs)
  | mark {e : Char} {n : Nat} {units : List Nat} {cs : List Char} (hmark : escape? e = some n)
      (hunits : Units units cs) : Units (n :: units) ('\\' :: e :: cs)
  | code {a b c d : Char} {n : Nat} {units : List Nat} {cs : List Char}
      (hcode : hexCode? [a, b, c, d] = some n) (hunits : Units units cs) :
      Units (n :: units) ('\\' :: 'u' :: a :: b :: c :: d :: cs)

/-- The code points of code units. A high unit and a low unit after it are one code point. -/
inductive Joins (d : Dialect) : List Nat → Text → Prop where
  | nil : Joins d [] []
  | pair {n m : Nat} {units : List Nat} {t : Text} (hhigh : isHigh n = true)
      (hlow : isLow m = true) (hunits : Joins d units t) :
      Joins d (n :: m :: units)
        (Point.ofCode (0x10000 + (n - 0xD800) * 0x400 + (m - 0xDC00)) :: t)
  | single {n : Nat} {units : List Nat} {t : Text}
      -- A high unit must not have its low unit after it, or the two would be read apart.
      (halone : isHigh n = true → ∀ m ∈ units.head?, isLow m = false)
      (hhalf : d.halfSurrogates = true ∨ isHigh n = false ∧ isLow n = false)
      (hunits : Joins d units t) : Joins d (n :: units) (Point.ofCode n :: t)

/-- A text between quotes. -/
inductive Quoted (d : Dialect) : Text → List Char → Prop where
  | quoted {units : List Nat} {t : Text} {cs : List Char} (hunits : Units units cs)
      (hjoins : Joins d units t) : Quoted d t ('"' :: (cs ++ ['"']))

/-! ## Numbers -/

/-- The power of ten at the end of a number. -/
structure Exponent where
  mark : Char
  sign : List Char
  digits : List Char

structure Exponent.Regular (e : Exponent) : Prop where
  mark : e.mark = 'e' ∨ e.mark = 'E'
  sign : e.sign ∈ [[], ['+'], ['-']]
  digits_ne : e.digits ≠ []
  digits : ∀ c ∈ e.digits, isDigit c = true

def Exponent.chars (e : Exponent) : List Char := e.mark :: (e.sign ++ e.digits)

def Exponent.power (e : Exponent) : Int :=
  if e.sign = ['-'] then -(digitsValue e.digits : Int) else digitsValue e.digits

/-- Digits after a point; without digits there is no point. -/
def pointed : List Char → List Char
  | [] => []
  | ds => '.' :: ds

/-- The parts of a number. -/
structure Numeral where
  negative : Bool
  whole : List Char
  fraction : List Char
  exponent? : Option Exponent

namespace Numeral

/-- No number starts with a zero that it could do without. -/
structure Regular (n : Numeral) : Prop where
  whole_ne : n.whole ≠ []
  whole : ∀ c ∈ n.whole, isDigit c = true
  zero : n.whole.head? = some '0' → n.whole = ['0']
  fraction : ∀ c ∈ n.fraction, isDigit c = true
  exponent : ∀ e ∈ n.exponent?, e.Regular

def fractionChars (n : Numeral) : List Char := pointed n.fraction

def exponentChars (n : Numeral) : List Char := n.exponent?.elim [] Exponent.chars

def signChars (n : Numeral) : List Char := if n.negative then ['-'] else []

def chars (n : Numeral) : List Char :=
  n.signChars ++ (n.whole ++ (n.fractionChars ++ n.exponentChars))

/-- A number without fraction and exponent is an integer. -/
def isInteger (n : Numeral) : Bool := n.fraction.isEmpty && n.exponent?.isNone

def toInt (n : Numeral) : Int :=
  if n.negative then -(digitsValue n.whole : Int) else digitsValue n.whole

def power (n : Numeral) : Int :=
  match n.exponent? with
  | some e => e.power
  | none => 0

def toBinary64 (n : Numeral) : Binary64 :=
  Binary64.ofDecimal n.negative (digitsValue (n.whole ++ n.fraction))
    (n.power - n.fraction.length)

def value (n : Numeral) : Value := if n.isInteger then .integer n.toInt else .real n.toBinary64

/-- Whether a number is within the limits of a dialect. -/
def Fits (d : Dialect) (n : Numeral) : Prop :=
  if n.isInteger then
    -- Whether an integer is out of reach does not depend on its sign.
    (∀ m ∈ d.maxDigits, n.whole.length ≤ m) ∧
    (d.overflow = true ∨ (Binary64.ofDecimal false (digitsValue n.whole) 0).isInfinite = false)
  else d.overflow = true ∨ n.toBinary64.isInfinite = false

end Numeral

/-! ## Values -/

/-- What a run of characters can be the writing of. -/
inductive Form where
  | value (v : Value)
  /-- A value with space around it. -/
  | element (v : Value)
  | elements (vs : List Value)
  | member (key : Text) (v : Value)
  | members (entries : List (Text × Value))

def Spaces (cs : List Char) : Prop := ∀ c ∈ cs, isSpace c = true

/-- Values may nest as deep as this. -/
def Nests (d : Dialect) (depth : Nat) : Prop := ∀ most ∈ d.maxDepth, depth ≤ most

/-- Assigns values to keys in turn. -/
def assignAll (fields entries : List (Text × Value)) : List (Text × Value) :=
  entries.foldl (fun fields entry => Value.assignField entry.1 entry.2 fields) fields

/-- How a form is written at some depth; one relation rather than several, so that an induction has
one case for each way of writing. -/
inductive Written (d : Dialect) : Nat → Form → List Char → Prop where
  | word {depth : Nat} {cs : List Char} {v : Value} (hword : (cs, v) ∈ words d) :
      Written d depth (.value v) cs
  | number {depth : Nat} {n : Numeral} (hn : n.Regular) (hfits : n.Fits d) :
      Written d depth (.value n.value) n.chars
  | text {depth : Nat} {t : Text} {cs : List Char} (ht : Quoted d t cs) :
      Written d depth (.value (.text t)) cs
  | emptyList {depth : Nat} {space : List Char} (hdepth : Nests d (depth + 1))
      (hspace : Spaces space) : Written d depth (.value (.list [])) ('[' :: (space ++ [']']))
  | list {depth : Nat} {vs : List Value} {cs : List Char} (hdepth : Nests d (depth + 1))
      (hvs : Written d (depth + 1) (.elements vs) cs) :
      Written d depth (.value (.list vs)) ('[' :: (cs ++ [']']))
  | emptyObject {depth : Nat} {space : List Char} (hdepth : Nests d (depth + 1))
      (hspace : Spaces space) :
      Written d depth (.value (.object [])) ('\x7b' :: (space ++ ['\x7d']))
  | object {depth : Nat} {entries : List (Text × Value)} {cs : List Char}
      (hdepth : Nests d (depth + 1)) (hentries : Written d (depth + 1) (.members entries) cs) :
      Written d depth (.value (.object (assignAll [] entries))) ('\x7b' :: (cs ++ ['\x7d']))
  | element {depth : Nat} {v : Value} {before cs after : List Char} (hbefore : Spaces before)
      (hv : Written d depth (.value v) cs) (hafter : Spaces after) :
      Written d depth (.element v) (before ++ (cs ++ after))
  | oneElement {depth : Nat} {v : Value} {cs : List Char}
      (hv : Written d depth (.element v) cs) : Written d depth (.elements [v]) cs
  | moreElements {depth : Nat} {v : Value} {vs : List Value} {cs more : List Char}
      (hv : Written d depth (.element v) cs) (hvs : Written d depth (.elements vs) more) :
      Written d depth (.elements (v :: vs)) (cs ++ ',' :: more)
  | member {depth : Nat} {key : Text} {v : Value} {before quoted after cs : List Char}
      (hbefore : Spaces before) (hkey : Quoted d key quoted) (hafter : Spaces after)
      (hv : Written d depth (.element v) cs) :
      Written d depth (.member key v) (before ++ (quoted ++ (after ++ ':' :: cs)))
  | oneMember {depth : Nat} {key : Text} {v : Value} {cs : List Char}
      (hentry : Written d depth (.member key v) cs) : Written d depth (.members [(key, v)]) cs
  | moreMembers {depth : Nat} {key : Text} {v : Value} {entries : List (Text × Value)}
      {cs more : List Char} (hentry : Written d depth (.member key v) cs)
      (hentries : Written d depth (.members entries) more) :
      Written d depth (.members ((key, v) :: entries)) (cs ++ ',' :: more)

/-- A value is an element with no space around it. -/
theorem Written.bare {d : Dialect} {depth : Nat} {v : Value} {cs : List Char}
    (hv : Written d depth (.value v) cs) : Written d depth (.element v) cs := by
  have hnothing : Spaces [] := fun c hc => by cases hc
  have helement := Written.element hnothing hv hnothing
  rwa [List.append_nil] at helement

/-- A whole text that holds a value. -/
def Document (d : Dialect) (text : String) (v : Value) : Prop :=
  Written d 0 (.element v) text.toList

/-! ## The strict dialect and the standard one -/

theorem Numeral.fits_standard (n : Numeral) : n.Fits standard := by
  unfold Numeral.Fits
  split
  · exact ⟨(fun m hm => by cases hm), Or.inl rfl⟩
  · exact Or.inl rfl

theorem nests_standard (depth : Nat) : Nests standard depth := fun most hmost => by cases hmost

theorem Joins.toStandard {d : Dialect} {units : List Nat} {t : Text} (hjoins : Joins d units t) :
    Joins standard units t := by
  induction hjoins with
  | nil => exact .nil
  | pair hhigh hlow _ ih => exact .pair hhigh hlow ih
  | single halone _ _ ih => exact .single halone (Or.inl rfl) ih

theorem Quoted.toStandard {d : Dialect} {t : Text} {cs : List Char} (ht : Quoted d t cs) :
    Quoted standard t cs := by
  cases ht with
  | quoted hunits hjoins => exact .quoted hunits hjoins.toStandard

/-- By induction on how a form is written: every rule of the strict dialect is one of the standard,
which has the same words and no limit. -/
theorem Written.toStandard {depth : Nat} {form : Form} {cs : List Char}
    (hwritten : Written strict depth form cs) : Written standard depth form cs := by
  induction hwritten with
  | word hword => exact .word hword
  | number hn _ => exact .number hn (Numeral.fits_standard _)
  | text ht => exact .text ht.toStandard
  | emptyList _ hspace => exact .emptyList (nests_standard _) hspace
  | list _ _ ih => exact .list (nests_standard _) ih
  | emptyObject _ hspace => exact .emptyObject (nests_standard _) hspace
  | object _ _ ih => exact .object (nests_standard _) ih
  | element hbefore _ hafter ih => exact .element hbefore ih hafter
  | oneElement _ ih => exact .oneElement ih
  | moreElements _ _ ihv ihvs => exact .moreElements ihv ihvs
  | member hbefore hkey hafter _ ih => exact .member hbefore hkey.toStandard hafter ih
  | oneMember _ ih => exact .oneMember ih
  | moreMembers _ _ ihentry ihentries => exact .moreMembers ihentry ihentries

theorem Document.toStandard {text : String} {v : Value} (hv : Document strict text v) :
    Document standard text v := Written.toStandard hv

end Json
end QuocNgu
