/-!
# Text — texts as sequences of code points

* `Point`     : a code point, which is a character or one half of a surrogate pair
* `Text`      : a list of code points
* `toString?` : the string of a text in which no half stands
* `shown`     : a text as a string, with its halves escaped

A JSON escape can name one half of a surrogate pair without the other. A text with such a half can
be held, compared and quoted, but it has no UTF-8 form.
-/

namespace QuocNgu

inductive Point where
  | char (c : Char)
  /-- One of the 2048 halves of surrogate pairs, counted from U+D800. -/
  | half (offset : Fin 2048)
  deriving DecidableEq, Repr, Inhabited

namespace Point

instance : Coe Char Point := ⟨char⟩

def code : Point → Nat
  | char c => c.toNat
  | half offset => 0xD800 + offset

def ofCode (n : Nat) : Point :=
  if h : 0xD800 ≤ n ∧ n < 0xE000 then half ⟨n - 0xD800, by omega⟩ else char (Char.ofNat n)

theorem ofCode_code (p : Point) : ofCode p.code = p := by
  cases p with
  | char c =>
      have valid : c.toNat < 0xD800 ∨ 0xDFFF < c.toNat ∧ c.toNat < 0x110000 := c.valid
      have apart : ¬(0xD800 ≤ c.toNat ∧ c.toNat < 0xE000) := by omega
      simp only [code, ofCode, apart, dite_false, Char.ofNat_toNat]
  | half offset =>
      have bound := offset.isLt
      have inside : 0xD800 ≤ 0xD800 + offset.val ∧ 0xD800 + offset.val < 0xE000 := by omega
      simp [code, ofCode, inside]

theorem code_inj {p q : Point} : p.code = q.code ↔ p = q := by
  refine ⟨fun h => ?_, fun h => h ▸ rfl⟩
  rw [← ofCode_code p, h, ofCode_code]

def char? : Point → Option Char
  | char c => some c
  | half _ => none

end Point

abbrev Text := List Point

namespace Text

/-! ## Strings -/

def ofString (s : String) : Text := s.toList.map .char

instance : Coe String Text := ⟨ofString⟩

def toString? (t : Text) : Option String := (t.mapM Point.char?).map String.ofList

theorem mapM_char? (cs : List Char) : (cs.map Point.char).mapM Point.char? = some cs := by
  induction cs with
  | nil =>
      rfl
  | cons c cs ih =>
      simp [List.mapM_cons, Point.char?, ih]

theorem toString?_ofString (s : String) : toString? (ofString s) = some s := by
  rw [toString?, ofString, mapM_char?, Option.map_some, String.ofList_toList]

/-- A text without halves is the text of a string. -/
def isWhole (t : Text) : Bool := (toString? t).isSome

/-! ## Halves in messages -/

def hexDigits (width n : Nat) : List Char :=
  let digits := Nat.toDigits 16 n
  List.replicate (width - digits.length) '0' ++ digits

def shownPoint : Point → List Char
  | .char c => [c]
  | p => '\\' :: 'u' :: hexDigits 4 p.code

def shown (t : Text) : String := String.ofList (t.flatMap shownPoint)

end Text
end QuocNgu
