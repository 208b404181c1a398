import QuocNgu.Text
import QuocNgu.Text.CodeRange

/-!
# Text.Blank — white space of every script, and trimming it

* `isBlank`   : the set of code points that count as white space
* `trimStart` : drops the leading blanks of a text
* `trim`      : drops the leading and the trailing blanks
-/

namespace QuocNgu
namespace Text

def blanks : List (Nat × Nat) :=
  [(0x09, 0x0D), (0x1C, 0x20), (0x85, 0x85), (0xA0, 0xA0), (0x1680, 0x1680), (0x2000, 0x200A),
    (0x2028, 0x2029), (0x202F, 0x202F), (0x205F, 0x205F), (0x3000, 0x3000)]

def isBlank (p : Point) : Bool := inRanges blanks p.code

def trimStart (t : Text) : Text := t.dropWhile isBlank

def trimEnd (t : Text) : Text := (trimStart t.reverse).reverse

def trim (t : Text) : Text := trimEnd (trimStart t)

theorem isBlank_of_isWhitespace {c : Char} (h : c.isWhitespace = true) :
    isBlank (.char c) = true := by
  simp only [Char.isWhitespace, Bool.or_eq_true, decide_eq_true_eq] at h
  rcases h with ((rfl | rfl) | rfl) | rfl <;> decide

end Text
end QuocNgu
