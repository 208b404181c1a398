import QuocNgu.Text
import QuocNgu.Text.CaseTable

/-!
# Text.Lowercase — full lower-casing of a text

* `lowerChar` : the lower-case form of one character outside any context
* `endsWord`  : a capital sigma that follows a cased character and precedes none is final
* `lower`     : the lower-case form of a text

A text may grow (U+0130 becomes `i` and a combining dot), and a capital sigma depends on its
neighbours; every other character is lowered on its own.
-/

namespace QuocNgu
namespace Text

/-! ## One code point -/

def CaseRun.covers (r : CaseRun) (n : Nat) : Bool :=
  r.first ≤ n && n ≤ r.last && (n - r.first) % r.stride == 0

def lowerCode (n : Nat) : Nat :=
  match lowerRuns.find? (·.covers n) with
  | some r => r.image + (n - r.first)
  | none => n

def lowerChar (c : Char) : List Char :=
  if c = '\u0130' then ['i', '\u0307'] else [Char.ofNat (lowerCode c.toNat)]

/-- Half a surrogate pair has no case. -/
def lowerPoint : Point → Text
  | .char c => (lowerChar c).map .char
  | .half offset => [.half offset]

/-! ## Final sigma -/

/-- The first code point that the search does not step over is cased. -/
def meetsCased (t : Text) : Bool :=
  match t.dropWhile fun p => inRanges caseIgnorable p.code with
  | [] => false
  | p :: _ => inRanges cased p.code

/-- The code points before a capital sigma are given nearest first. -/
def endsWord (before after : Text) : Bool :=
  meetsCased before && !meetsCased after

def lowerSigma (before after : Text) : Point := if endsWord before after then 'ς' else 'σ'

/-! ## Texts -/

/-- Lowers the rest of a text; the code points before it are given nearest first. -/
def lowerFrom (before : Text) : Text → Text
  | [] => []
  | p :: after =>
      (if p = 'Σ' then [lowerSigma before after] else lowerPoint p) ++
        lowerFrom (p :: before) after

def lower (t : Text) : Text := lowerFrom [] t

end Text
end QuocNgu
