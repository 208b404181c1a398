import Mathlib.Data.List.Basic
import QuocNgu.Json.Reader

/-!
# Proofs.Json.Steps — one step of the reader

* `readUnits_plain`, `readUnits_mark`, `readUnits_code` : one more code unit of a text
* `digits_append`            : digits are read up to the first character that is none
* `readScalar_eq_readNumber` : what starts like no word is read as a number
* `Starts`                   : how a value starts
* `readValue_text`, `readValue_list`, `readValue_object` : the first character says what is read
* `readItems_more`, `readFields_more` : one item, one field and the comma behind it

Each step leaves the rest of the characters, and what is done with the rest is the next step.
-/

namespace QuocNgu
namespace Json

theorem exists_of_bind_eq_ok {ε α β : Type} {r : Except ε α} {next : α → Except ε β} {b : β}
    (h : r >>= next = .ok b) : ∃ a, r = .ok a ∧ next a = .ok b := by
  cases r with
  | error e => cases h
  | ok a => exact ⟨a, rfl, h⟩

/-! ## Texts -/

/-- One code unit more in front of those that are read. -/
def withUnit (n : Nat) (read : List Nat × List Char) : List Nat × List Char := (n :: read.1, read.2)

theorem readUnits_code {a b c d : Char} {n : Nat} (hn : hexCode? [a, b, c, d] = some n)
    (cs : List Char) :
    readUnits ('\\' :: 'u' :: a :: b :: c :: d :: cs) = (readUnits cs).map (withUnit n) := by
  rw [readUnits, hn]
  cases readUnits cs <;> rfl

theorem readUnits_mark {e : Char} {n : Nat} (hn : escape? e = some n) (cs : List Char) :
    readUnits ('\\' :: e :: cs) = (readUnits cs).map (withUnit n) := by
  have hu : e ≠ 'u' := by
    rintro rfl
    cases hn
  rw [readUnits, hn]
  · cases readUnits cs <;> rfl
  · intro a b c d rest he
    exact absurd he hu

theorem readUnits_plain {c : Char} (hcontrol : ¬c.toNat < 0x20) (hquote : c ≠ '"')
    (hslash : c ≠ '\\') (cs : List Char) :
    readUnits (c :: cs) = (readUnits cs).map (withUnit c.toNat) := by
  rw [readUnits]
  · simp only [hcontrol, hslash, decide_false, Bool.or_self, Bool.false_eq_true, if_false]
    cases readUnits cs <;> rfl
  · exact fun h => hquote h
  · intro a b c d rest h
    exact absurd h hslash
  · intro e rest h
    exact absurd h hslash

/-! ## Numbers and words -/

theorem ne_of_isDigit {c c' : Char} (hc : isDigit c = true) (hc' : isDigit c' = false) :
    c ≠ c' := by
  rintro rfl
  rw [hc] at hc'
  cases hc'

/-- What comes next is no digit. -/
def NoDigit (cs : List Char) : Prop := ∀ c ∈ cs.head?, isDigit c = false

theorem digits_append {ds rest : List Char} (hds : ∀ c ∈ ds, isDigit c = true)
    (hrest : NoDigit rest) : digits (ds ++ rest) = (ds, rest) := by
  have htake : rest.takeWhile isDigit = [] := by
    cases rest with
    | nil => rfl
    | cons c rest => simp [hrest c rfl]
  have hdrop : rest.dropWhile isDigit = rest := by
    cases rest with
    | nil => rfl
    | cons c rest => simp [hrest c rfl]
  rw [digits, List.takeWhile_append_of_pos hds, List.dropWhile_append_of_pos hds, htake, hdrop,
    List.append_nil]

theorem readScalar_eq_readNumber {d : Dialect} {cs : List Char}
    (hcs : ∀ word ∈ words d, after? word.1 cs = none) : readScalar d cs = readNumber d cs := by
  unfold readScalar
  split
  · next found hfound =>
      rcases List.exists_of_findSome?_eq_some hfound with ⟨⟨word, v⟩, hword, hread⟩
      dsimp only at hread
      rw [hcs _ hword] at hread
      cases hread
  · rfl

/-- No word starts with a digit, and after a sign none goes on with one. -/
theorem after?_digit {c : Char} (hc : isDigit c = true) (cs : List Char) :
    ∀ word ∈ words lenient,
      after? word.1 (c :: cs) = none ∧ after? word.1 ('-' :: c :: cs) = none := by
  have hne : ∀ w, isDigit w = false → w ≠ c := fun w hw => (ne_of_isDigit hc hw).symm
  simp [words, lenient, after?, hne 'n' rfl, hne 't' rfl, hne 'f' rfl, hne 'N' rfl, hne 'I' rfl,
    hne '-' rfl]

/-! ## Space -/

theorem skipSpace_append {space : List Char} (hspace : ∀ c ∈ space, isSpace c = true)
    (cs : List Char) : skipSpace (space ++ cs) = skipSpace cs :=
  List.dropWhile_append_of_pos hspace

theorem isSpace_of_isDigit {c : Char} (hc : isDigit c = true) : isSpace c = false := by
  have hspace : c ≠ ' ' := ne_of_isDigit hc (by decide)
  have htab : c ≠ '\t' := ne_of_isDigit hc (by decide)
  have hfeed : c ≠ '\n' := ne_of_isDigit hc (by decide)
  have hreturn : c ≠ '\r' := ne_of_isDigit hc (by decide)
  simp [isSpace, hspace, htab, hfeed, hreturn]

theorem readValue_congr {d : Dialect} {cs cs' : List Char} (hcs : skipSpace cs = skipSpace cs')
    (fuel depth : Nat) : readValue d fuel depth cs = readValue d fuel depth cs' := by
  cases fuel with
  | zero => rw [readValue, readValue]
  | succ fuel => rw [readValue, readValue, hcs]

/-- A value that can be told apart from space and from the end of a list by how it starts. -/
def Starts (cs : List Char) : Prop :=
  ∃ c after, cs = c :: after ∧ isSpace c = false ∧ c ≠ ']'

theorem Starts.skipSpace_append {cs : List Char} (hcs : Starts cs) (tail : List Char) :
    Starts (skipSpace (cs ++ tail)) := by
  rcases hcs with ⟨c, after, rfl, hspace, hc⟩
  refine ⟨c, after ++ tail, ?_, hspace, hc⟩
  simp [skipSpace, hspace]

/-! ## Values, items and fields -/

section Step

variable {d : Dialect} {fuel depth : Nat} {cs rest after : List Char}

theorem readValue_scalar {c : Char} (hspace : isSpace c = false)
    (hc : c ≠ '"' ∧ c ≠ '[' ∧ c ≠ '\x7b') :
    readValue d (fuel + 1) depth (c :: cs) = readScalar d (c :: cs) := by
  have hskip : skipSpace (c :: cs) = c :: cs := by
    simp [skipSpace, hspace]
  rcases hc with ⟨hquote, hbracket, hbrace⟩
  rw [readValue, hskip]
  split
  · next h => exact absurd (List.cons_eq_cons.1 h).1 hquote
  · next h => exact absurd (List.cons_eq_cons.1 h).1 hbracket
  · next h => exact absurd (List.cons_eq_cons.1 h).1 hbrace
  · rfl

theorem readValue_text {t : Text} (ht : readText d cs = .ok (t, rest)) :
    readValue d (fuel + 1) depth ('"' :: cs) = .ok (.text t, rest) := by
  have hskip : skipSpace ('"' :: cs) = '"' :: cs := rfl
  simp [readValue, hskip, ht, bind, Except.bind, pure, Except.pure]

theorem readValue_list {items : List Value} (hdeep : tooDeep d (depth + 1) = false)
    (hcs : Starts (skipSpace cs)) (hitems : readItems d fuel (depth + 1) cs = .ok (items, rest)) :
    readValue d (fuel + 1) depth ('[' :: cs) = .ok (.list items, rest) := by
  have hskip : skipSpace ('[' :: cs) = '[' :: cs := rfl
  rcases hcs with ⟨c, after, hcs, -, hc⟩
  simp [readValue, hskip, hdeep, hcs, hc, hitems, bind, Except.bind, pure, Except.pure]

theorem readValue_object {fields : List (Text × Value)} (hdeep : tooDeep d (depth + 1) = false)
    (hcs : skipSpace cs = '"' :: after)
    (hfields : readFields d fuel (depth + 1) [] cs = .ok (fields, rest)) :
    readValue d (fuel + 1) depth ('\x7b' :: cs) = .ok (.object fields, rest) := by
  have hskip : skipSpace ('\x7b' :: cs) = '\x7b' :: cs := rfl
  simp [readValue, hskip, hdeep, hcs, hfields, bind, Except.bind, pure, Except.pure]

theorem readItems_last {item : Value} (hitem : readValue d fuel depth cs = .ok (item, rest))
    (hrest : skipSpace rest = ']' :: after) :
    readItems d (fuel + 1) depth cs = .ok ([item], after) := by
  simp [readItems, hitem, hrest, bind, Except.bind, pure, Except.pure]

theorem readItems_more {item : Value} {items : List Value}
    (hitem : readValue d fuel depth cs = .ok (item, rest)) (hrest : skipSpace rest = ',' :: after)
    {final : List Char} (hitems : readItems d fuel depth after = .ok (items, final)) :
    readItems d (fuel + 1) depth cs = .ok (item :: items, final) := by
  simp [readItems, hitem, hrest, hitems, bind, Except.bind, pure, Except.pure]

theorem readFields_last {fields : List (Text × Value)} {key : Text} {v : Value}
    {quoted unread colon : List Char} (hcs : skipSpace cs = '"' :: quoted)
    (hkey : readText d quoted = .ok (key, unread)) (hcolon : skipSpace unread = ':' :: colon)
    (hv : readValue d fuel depth colon = .ok (v, rest)) (hrest : skipSpace rest = '\x7d' :: after) :
    readFields d (fuel + 1) depth fields cs = .ok (Value.assignField key v fields, after) := by
  simp [readFields, hcs, hkey, hcolon, hv, hrest, bind, Except.bind, pure, Except.pure]

theorem readFields_more {fields : List (Text × Value)} {key : Text} {v : Value}
    {quoted unread colon : List Char} (hcs : skipSpace cs = '"' :: quoted)
    (hkey : readText d quoted = .ok (key, unread)) (hcolon : skipSpace unread = ':' :: colon)
    (hv : readValue d fuel depth colon = .ok (v, rest)) (hrest : skipSpace rest = ',' :: after) :
    readFields d (fuel + 1) depth fields cs =
      readFields d fuel depth (Value.assignField key v fields) after := by
  simp [readFields, hcs, hkey, hcolon, hv, hrest, bind, Except.bind]

end Step

end Json
end QuocNgu
