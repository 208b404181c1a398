import Mathlib.Data.List.TakeWhile
import QuocNgu.Proofs.Json.Grammar
import QuocNgu.Proofs.Json.Steps

/-!
# Proofs.Json.Tokens — the reader takes texts, numbers and words as they are written

* `readText_iff`      : a text is read exactly if it is written between quotes
* `readNumber_append` : a number is read up to where it stops
* `exists_numeral_of_readNumber` : and whatever is read as a number is one
* `readScalar_word`, `exists_written_of_readScalar` : the same of scalars

A quote ends a text. A number and a word have no mark at their end: a number goes on as long as it
can, so what follows has to stop it, while no word begins another.
-/

namespace QuocNgu
namespace Json

/-! ## Texts -/

theorem Units.readUnits_append {units : List Nat} {cs : List Char} (hunits : Units units cs)
    (rest : List Char) : readUnits (cs ++ '"' :: rest) = some (units, rest) := by
  induction hunits with
  | nil =>
      simp [readUnits]
  | plain hcontrol hquote hslash _ ih =>
      rw [List.cons_append, readUnits_plain hcontrol hquote hslash, ih]
      rfl
  | mark hmark _ ih =>
      rw [List.cons_append, List.cons_append, readUnits_mark hmark, ih]
      rfl
  | code hcode _ ih =>
      simp only [List.cons_append]
      rw [readUnits_code hcode, ih]
      rfl

theorem units_of_readUnits {cs rest : List Char} {units : List Nat}
    (hread : readUnits cs = some (units, rest)) :
    ∃ body, cs = body ++ '"' :: rest ∧ Units units body := by
  -- The cases follow the reader: the end, the closing quote, a code, a mark and a plain character.
  fun_induction readUnits cs generalizing units rest with
  | case1 => cases hread
  | case2 after =>
      cases hread
      exact ⟨[], rfl, .nil⟩
  | case3 a b c d after n units' after' hmore hcode ih =>
      cases hread
      rcases ih hmore with ⟨body, hbody, hunits⟩
      subst hbody
      exact ⟨'\\' :: 'u' :: a :: b :: c :: d :: body, rfl, .code hcode hunits⟩
  | case4 => cases hread
  | case5 e after _ n units' after' hmore hmark ih =>
      cases hread
      rcases ih hmore with ⟨body, hbody, hunits⟩
      subst hbody
      exact ⟨'\\' :: e :: body, rfl, .mark hmark hunits⟩
  | case6 => cases hread
  | case7 => cases hread
  | case8 c after hquote _ _ hplain units' after' hmore ih =>
      cases hread
      rcases ih hmore with ⟨body, hbody, hunits⟩
      subst hbody
      simp only [Bool.or_eq_true, decide_eq_true_eq, not_or] at hplain
      exact ⟨c :: body, rfl, .plain hplain.1 hquote hplain.2 hunits⟩
  | case9 => cases hread

theorem joinUnits_single {d : Dialect} {n : Nat} {units : List Nat} {t : Text}
    (halone : isHigh n = true → ∀ m ∈ units.head?, isLow m = false)
    (hhalf : d.halfSurrogates = true ∨ isHigh n = false ∧ isLow n = false)
    (hunits : joinUnits d units = some t) :
    joinUnits d (n :: units) = some (Point.ofCode n :: t) := by
  have hpoint : pointOf? d n = some (Point.ofCode n) := by
    rcases hhalf with hhalf | ⟨hhigh, hlow⟩
    · simp [pointOf?, hhalf]
    · simp [pointOf?, hhigh, hlow]
  cases units with
  | nil =>
      cases hunits
      rw [joinUnits, hpoint]
      rfl
  | cons m units =>
      have hpair : ¬(isHigh n && isLow m) = true := by
        intro hpair
        rw [Bool.and_eq_true] at hpair
        rw [halone hpair.1 m rfl] at hpair
        exact Bool.false_ne_true hpair.2
      rw [joinUnits, if_neg hpair, hpoint, hunits]

theorem Joins.joinUnits {d : Dialect} {units : List Nat} {t : Text} (hjoins : Joins d units t) :
    joinUnits d units = some t := by
  induction hjoins with
  | nil => rfl
  | pair hhigh hlow _ ih =>
      rw [Json.joinUnits, hhigh, hlow, ih]
      rfl
  | single halone hhalf _ ih => exact joinUnits_single halone hhalf ih

theorem halves_of_pointOf? {d : Dialect} {n : Nat} {p : Point} (hp : pointOf? d n = some p) :
    (d.halfSurrogates = true ∨ isHigh n = false ∧ isLow n = false) ∧ p = Point.ofCode n := by
  unfold pointOf? at hp
  split at hp
  · cases hp
  · next hhalf =>
      cases hp
      refine ⟨?_, rfl⟩
      cases hd : d.halfSurrogates with
      | false => simpa [hd] using hhalf
      | true => exact Or.inl rfl

theorem joins_of_joinUnits {d : Dialect} {units : List Nat} {t : Text}
    (hjoin : joinUnits d units = some t) : Joins d units t := by
  induction units using joinUnits.induct d generalizing t with
  | case1 =>
      cases hjoin
      exact .nil
  | case2 n =>
      rcases Option.map_eq_some_iff.1 hjoin with ⟨p, hp, rfl⟩
      rcases halves_of_pointOf? hp with ⟨hhalf, rfl⟩
      exact .single (by simp) hhalf .nil
  | case3 n m rest hpair ih =>
      rw [joinUnits, if_pos hpair] at hjoin
      rcases Option.map_eq_some_iff.1 hjoin with ⟨t', ht', rfl⟩
      rw [Bool.and_eq_true] at hpair
      exact .pair hpair.1 hpair.2 (ih ht')
  | case4 n m rest hpair p t' hrest hp ih =>
      rw [joinUnits, if_neg hpair, hp, hrest] at hjoin
      obtain rfl := Option.some.inj hjoin
      rcases halves_of_pointOf? hp with ⟨hhalf, rfl⟩
      -- The two units are no pair, so the first of them stands alone.
      refine .single ?_ hhalf (ih hrest)
      intro hhigh m' hm'
      cases hm'
      simpa [hhigh] using hpair
  | case5 n m rest hpair hnone _ =>
      rw [joinUnits, if_neg hpair] at hjoin
      split at hjoin
      · next p t' hp hrest => exact absurd hrest (hnone p t' hp)
      · cases hjoin

/-- A text is read up to the quote that ends it. -/
theorem readText_iff {d : Dialect} {cs rest : List Char} {t : Text} :
    readText d cs = .ok (t, rest) ↔ ∃ body, Quoted d t ('"' :: body) ∧ cs = body ++ rest := by
  constructor
  · intro hread
    unfold readText at hread
    split at hread
    · cases hread
    · next units after hunits =>
        split at hread
        · next hjoin =>
            cases hread
            rcases units_of_readUnits hunits with ⟨body, hbody, hunits⟩
            refine ⟨body ++ ['"'], .quoted hunits (joins_of_joinUnits hjoin), ?_⟩
            rw [hbody, List.append_assoc]
            rfl
        · cases hread
  · rintro ⟨body, hquoted, hcs⟩
    cases hquoted with
    | quoted hunits hjoins =>
        rw [hcs, List.append_assoc, readText, List.singleton_append, hunits.readUnits_append]
        dsimp only
        rw [hjoins.joinUnits]

theorem not_surrogate (c : Char) : isHigh c.toNat = false ∧ isLow c.toNat = false := by
  have hvalid : c.toNat < 0xD800 ∨ 0xDFFF < c.toNat ∧ c.toNat < 0x110000 := c.valid
  simp only [isHigh, isLow, Bool.and_eq_false_iff, decide_eq_false_iff_not]
  omega

/-- No character is half of a pair, so the code units of characters stay apart. -/
theorem joins_toNat (d : Dialect) (cs : List Char) :
    Joins d (cs.map Char.toNat) (cs.map .char) := by
  induction cs with
  | nil => exact .nil
  | cons c cs ih =>
      rcases not_surrogate c with ⟨hhigh, hlow⟩
      have hpoint : Point.ofCode c.toNat = .char c := Point.ofCode_code (.char c)
      have hjoins : Joins d (c.toNat :: cs.map Char.toNat)
          (Point.ofCode c.toNat :: cs.map .char) :=
        .single (by simp [hhigh]) (Or.inr ⟨hhigh, hlow⟩) ih
      rwa [hpoint] at hjoins

/-- A character that stands for itself between quotes. -/
def isPlain (c : Char) : Bool := 0x20 ≤ c.toNat && c ≠ '"' && c ≠ '\\'

/-- Plain characters need no escapes. -/
theorem quoted_plain (d : Dialect) {cs : List Char} (hcs : cs.all isPlain = true) :
    Quoted d (cs.map .char) ('"' :: (cs ++ ['"'])) := by
  have hunits : Units (cs.map Char.toNat) cs := by
    induction cs with
    | nil => exact .nil
    | cons c cs ih =>
        rw [List.all_cons, Bool.and_eq_true] at hcs
        rcases hcs with ⟨hplain, hrest⟩
        simp only [isPlain, Bool.and_eq_true, decide_eq_true_eq] at hplain
        rcases hplain with ⟨⟨hcontrol, hquote⟩, hslash⟩
        exact .plain (Nat.not_lt.2 hcontrol) hquote hslash (ih hrest)
  exact .quoted hunits (joins_toNat d cs)

/-! ## What the reader makes of the parts of a number -/

theorem overflows_iff (d : Dialect) (infinite : Bool) :
    (!d.overflow && infinite) = true ↔ ¬(d.overflow = true ∨ infinite = false) := by
  cases d.overflow <;> cases infinite <;> simp

theorem integer_eq_ok_iff {d : Dialect} {negative : Bool} {whole : List Char} {v : Value} :
    integer d negative whole = .ok v ↔
      ((∀ m ∈ d.maxDigits, whole.length ≤ m) ∧
        (d.overflow = true ∨ (Binary64.ofDecimal false (digitsValue whole) 0).isInfinite = false)) ∧
      .integer (if negative then -(digitsValue whole : Int) else digitsValue whole) = v := by
  have hlong : d.maxDigits.any (· < whole.length) = true ↔
      ¬∀ m ∈ d.maxDigits, whole.length ≤ m := by
    simp [Option.any_eq_true]
  unfold integer
  split
  · next hany =>
      refine iff_of_false (fun h => by cases h) ?_
      exact fun h => hlong.1 hany h.1.1
  · next hany =>
      have hshort := not_not.1 (mt hlong.2 hany)
      dsimp only
      split
      · next hover =>
          refine iff_of_false (fun h => by cases h) ?_
          exact fun h => (overflows_iff d _).1 hover h.1.2
      · next hover =>
          have hreach := not_not.1 (mt (overflows_iff d _).2 hover)
          rw [Except.ok.injEq]
          exact (and_iff_right ⟨hshort, hreach⟩).symm

theorem real_eq_ok_iff {d : Dialect} {negative : Bool} {whole fraction : List Char} {power : Int}
    {v : Value} :
    real d negative whole fraction power = .ok v ↔
      (d.overflow = true ∨ (Binary64.ofDecimal negative (digitsValue (whole ++ fraction))
        (power - fraction.length)).isInfinite = false) ∧
      .real (Binary64.ofDecimal negative (digitsValue (whole ++ fraction))
        (power - fraction.length)) = v := by
  unfold real
  dsimp only
  split
  · next hover =>
      refine iff_of_false (fun h => by cases h) ?_
      exact fun h => (overflows_iff d _).1 hover h.1
  · next hover =>
      have hreach := not_not.1 (mt (overflows_iff d _).2 hover)
      rw [Except.ok.injEq]
      exact (and_iff_right hreach).symm

/-! ## Reading numbers -/

theorem digits_spec {cs ds rest : List Char} (h : digits cs = (ds, rest)) :
    cs = ds ++ rest ∧ ∀ c ∈ ds, isDigit c = true := by
  cases h
  exact ⟨(List.takeWhile_append_dropWhile).symm, fun c hc => List.mem_takeWhile_imp hc⟩

/-- What can follow a value: nothing, space, a comma or a closing bracket. -/
def Stops (cs : List Char) : Prop :=
  ∀ c ∈ cs.head?, isSpace c = true ∨ c = ',' ∨ c = ']' ∨ c = '\x7d'

/-- Nothing that can follow a number could go on with it. -/
theorem Stops.apart {rest : List Char} (hrest : Stops rest) {c : Char} (hc : c ∈ rest.head?) :
    isDigit c = false ∧ c ≠ '.' ∧ c ≠ 'e' ∧ c ≠ 'E' := by
  rcases hrest c hc with hspace | rfl | rfl | rfl
  · simp only [isSpace, Bool.or_eq_true, decide_eq_true_eq] at hspace
    rcases hspace with ((rfl | rfl) | rfl) | rfl <;> decide
  · decide
  · decide
  · decide

/-- The sign of an exponent, which may be a plus. -/
def readPowerSign : List Char → Bool × List Char
  | '+' :: more => (false, more)
  | more => readSign more

theorem readExponent?_cons (mark : Char) (rest : List Char) :
    readExponent? (mark :: rest) =
      if mark = 'e' || mark = 'E' then
        match digits (readPowerSign rest).2 with
        | ([], _) => none
        | (power, after) =>
            some (if (readPowerSign rest).1 then -(digitsValue power : Int) else digitsValue power,
              after)
      else none := rfl

namespace Exponent

variable {e : Exponent}

theorem Regular.noDigit (he : e.Regular) (rest : List Char) : NoDigit (e.chars ++ rest) := by
  intro c hc
  cases hc
  rcases he.mark with hmark | hmark <;> rw [hmark] <;> rfl

theorem Regular.readPowerSign_append (he : e.Regular) (rest : List Char) :
    readPowerSign (e.sign ++ (e.digits ++ rest)) =
      (decide (e.sign = ['-']), e.digits ++ rest) := by
  obtain ⟨c, ds, hdigits⟩ := List.exists_cons_of_ne_nil he.digits_ne
  have hc : isDigit c = true := he.digits c (by rw [hdigits]; exact List.mem_cons_self)
  have hplus : c ≠ '+' := ne_of_isDigit hc rfl
  have hminus : c ≠ '-' := ne_of_isDigit hc rfl
  have hsign := he.sign
  simp only [List.mem_cons, List.not_mem_nil, or_false] at hsign
  rcases hsign with hsign | hsign | hsign
  · simp [hsign, hdigits, readPowerSign, readSign, hplus, hminus]
  · rw [hsign]
    rfl
  · rw [hsign]
    rfl

theorem Regular.readExponent?_append (he : e.Regular) {rest : List Char} (hrest : NoDigit rest) :
    readExponent? (e.chars ++ rest) = some (e.power, rest) := by
  have hread := digits_append he.digits hrest
  have hmark : (decide (e.mark = 'e') || decide (e.mark = 'E')) = true := by
    simpa using he.mark
  obtain ⟨c, ds, hdigits⟩ := List.exists_cons_of_ne_nil he.digits_ne
  rw [chars, List.cons_append, readExponent?_cons, if_pos hmark, List.append_assoc,
    he.readPowerSign_append, hread, hdigits]
  simp [power, hdigits]

end Exponent

namespace Numeral

variable {n : Numeral} {rest : List Char}

theorem Regular.exists_whole (hn : n.Regular) :
    ∃ c ds, n.whole = c :: ds ∧ isDigit c = true := by
  rcases List.exists_cons_of_ne_nil hn.whole_ne with ⟨c, ds, hwhole⟩
  exact ⟨c, ds, hwhole, hn.whole c (by rw [hwhole]; exact List.mem_cons_self)⟩

theorem Regular.readSign_append (hn : n.Regular) (rest : List Char) :
    readSign (n.signChars ++ (n.whole ++ rest)) = (n.negative, n.whole ++ rest) := by
  rcases hn.exists_whole with ⟨c, ds, hwhole, hc⟩
  rw [signChars]
  cases n.negative with
  | true => rfl
  | false =>
      have hminus : c ≠ '-' := ne_of_isDigit hc rfl
      simp [hwhole, readSign, hminus]

theorem Regular.readWhole?_append (hn : n.Regular) (hrest : NoDigit rest) :
    readWhole? (n.whole ++ rest) = some (n.whole, rest) := by
  have hread : digits (n.whole ++ rest) = (n.whole, rest) := digits_append hn.whole hrest
  rcases hn.exists_whole with ⟨c, ds, hwhole, -⟩
  by_cases hzero : c = '0'
  · -- A zero is read on its own, whatever follows.
    have hsingle : n.whole = ['0'] := hn.zero (by rw [hwhole, hzero]; rfl)
    rw [hsingle]
    rfl
  · rw [hwhole, List.cons_append] at hread ⊢
    rw [readWhole?, hread]
    intro rest' h
    exact hzero (List.cons_eq_cons.1 h).1

theorem Regular.readFraction_append (hn : n.Regular) (hrest : NoDigit rest)
    (hpoint : rest.head? ≠ some '.') :
    readFraction (n.fractionChars ++ rest) = (n.fraction, rest) := by
  have hread : digits (n.fraction ++ rest) = (n.fraction, rest) := digits_append hn.fraction hrest
  rw [fractionChars]
  cases hfraction : n.fraction with
  | nil =>
      -- Without a fraction the rest must not bring a point of its own.
      rw [pointed, List.nil_append, readFraction]
      rintro rest' rfl
      exact hpoint rfl
  | cons c ds =>
      rw [hfraction, List.cons_append] at hread
      rw [pointed, List.cons_append, List.cons_append, readFraction, hread]
      exact List.cons_ne_nil c ds

theorem Regular.readExponent?_append (hn : n.Regular) (hrest : Stops rest) :
    readExponent? (n.exponentChars ++ rest) = n.exponent?.map fun e => (e.power, rest) := by
  have hnoDigit : NoDigit rest := fun c hc => (hrest.apart hc).1
  rw [exponentChars]
  cases hexponent : n.exponent? with
  | some e => exact (hn.exponent e hexponent).readExponent?_append hnoDigit
  | none =>
      cases rest with
      | nil => rfl
      | cons c rest =>
          rcases hrest.apart (c := c) rfl with ⟨-, -, hsmall, hlarge⟩
          simp [readExponent?, hsmall, hlarge]

/-- What follows the whole part, and what follows the fraction, is no digit and no point. -/
theorem Regular.noDigit_exponentChars (hn : n.Regular) (hrest : Stops rest) :
    NoDigit (n.exponentChars ++ rest) ∧ (n.exponentChars ++ rest).head? ≠ some '.' := by
  rw [exponentChars]
  cases hexponent : n.exponent? with
  | some e =>
      have he := hn.exponent e hexponent
      refine ⟨he.noDigit rest, ?_⟩
      intro hpoint
      have hmark : e.mark = '.' := Option.some.inj hpoint
      rcases he.mark with h | h <;> rw [h] at hmark <;> cases hmark
  | none => exact ⟨fun c hc => (hrest.apart hc).1, fun hpoint => (hrest.apart hpoint).2.1 rfl⟩

theorem Regular.noDigit_fractionChars (hn : n.Regular) (hrest : Stops rest) :
    NoDigit (n.fractionChars ++ (n.exponentChars ++ rest)) := by
  rw [fractionChars]
  cases n.fraction with
  | nil => exact (hn.noDigit_exponentChars hrest).1
  | cons c ds =>
      intro c' hc'
      cases hc'
      rfl

end Numeral

/-- What the reader makes of the parts of a number. -/
def Numeral.read (d : Dialect) (n : Numeral) : Except Problem Value :=
  match n.exponent? with
  | some e => real d n.negative n.whole n.fraction e.power
  | none =>
      if n.fraction.isEmpty then integer d n.negative n.whole
      else real d n.negative n.whole n.fraction 0

theorem Numeral.read_eq_ok_iff {d : Dialect} {n : Numeral} {v : Value} :
    n.read d = .ok v ↔ n.Fits d ∧ n.value = v := by
  unfold Numeral.read Numeral.Fits Numeral.value Numeral.isInteger Numeral.toBinary64 Numeral.power
  cases n.exponent? with
  | some e =>
      simp only [Option.isNone_some, Bool.and_false, Bool.false_eq_true, if_false]
      exact real_eq_ok_iff
  | none =>
      cases n.fraction.isEmpty with
      | true => exact integer_eq_ok_iff
      | false =>
          simp only [Option.isNone_none, Bool.and_true, Bool.false_eq_true, if_false]
          exact real_eq_ok_iff

theorem readNumber_eq_read {d : Dialect} {n : Numeral} {cs unsigned after after' rest : List Char}
    (hsign : readSign cs = (n.negative, unsigned))
    (hwhole : readWhole? unsigned = some (n.whole, after))
    (hfraction : readFraction after = (n.fraction, after'))
    (hexponent : readExponent? after' = n.exponent?.map fun e => (e.power, rest))
    (hnone : n.exponent? = none → after' = rest) :
    readNumber d cs = (n.read d).bind fun v => .ok (v, rest) := by
  unfold readNumber Numeral.read
  rw [hsign]
  dsimp only
  rw [hwhole]
  dsimp only
  rw [hfraction]
  dsimp only
  rw [hexponent]
  cases he : n.exponent? with
  | some e => rfl
  | none =>
      rw [hnone he]
      dsimp only [Option.map_none]
      split <;> rfl

/-- A number is read up to where it stops, whether or not it is within the limits. -/
theorem readNumber_append {d : Dialect} {n : Numeral} (hn : n.Regular) {rest : List Char}
    (hrest : Stops rest) :
    readNumber d (n.chars ++ rest) = (n.read d).bind fun v => .ok (v, rest) := by
  have hsign := hn.readSign_append (n.fractionChars ++ (n.exponentChars ++ rest))
  have hwhole := hn.readWhole?_append (hn.noDigit_fractionChars hrest)
  have hfraction : readFraction (n.fractionChars ++ (n.exponentChars ++ rest)) =
      (n.fraction, n.exponentChars ++ rest) := by
    rcases hn.noDigit_exponentChars hrest with ⟨hdigit, hpoint⟩
    exact hn.readFraction_append hdigit hpoint
  have hnone : n.exponent? = none → n.exponentChars ++ rest = rest := by
    intro he
    rw [Numeral.exponentChars, he]
    rfl
  simp only [Numeral.chars, List.append_assoc]
  exact readNumber_eq_read hsign hwhole hfraction (hn.readExponent?_append hrest) hnone

/-! ## The parts of a number that was read -/

theorem readSign_spec {cs rest : List Char} {negative : Bool}
    (h : readSign cs = (negative, rest)) :
    cs = (if negative then ['-'] else []) ++ rest := by
  unfold readSign at h
  split at h
  · cases h
    rfl
  · cases h
    rfl

theorem readWhole?_spec {cs whole rest : List Char} (h : readWhole? cs = some (whole, rest)) :
    cs = whole ++ rest ∧ whole ≠ [] ∧ (∀ c ∈ whole, isDigit c = true) ∧
      (whole.head? = some '0' → whole = ['0']) := by
  unfold readWhole? at h
  split at h
  · cases h
    exact ⟨rfl, List.cons_ne_nil _ _, List.all_eq_true.1 rfl, fun _ => rfl⟩
  · next hzero =>
      split at h
      · cases h
      · next whole' rest' hne hdigits =>
          cases h
          rcases digits_spec hdigits with ⟨rfl, hall⟩
          have hnonempty : whole ≠ [] := fun hnil => hne hnil
          -- The reader takes a zero that comes first alone, so here no zero does.
          refine ⟨rfl, hnonempty, hall, fun hhead => ?_⟩
          rcases List.exists_cons_of_ne_nil hnonempty with ⟨c, ds, rfl⟩
          cases hhead
          exact absurd rfl (hzero (ds ++ rest))

theorem readFraction_spec {cs fraction rest : List Char}
    (h : readFraction cs = (fraction, rest)) :
    cs = pointed fraction ++ rest ∧ ∀ c ∈ fraction, isDigit c = true := by
  unfold readFraction at h
  split at h
  · next after =>
      cases hdigits : digits after with
      | mk ds rest' =>
          rcases digits_spec hdigits with ⟨rfl, hall⟩
          rw [hdigits] at h
          cases ds with
          | nil =>
              cases h
              exact ⟨rfl, by simp⟩
          | cons c ds =>
              cases h
              exact ⟨rfl, hall⟩
  · cases h
    exact ⟨rfl, by simp⟩

theorem readPowerSign_spec {cs rest : List Char} {negative : Bool}
    (h : readPowerSign cs = (negative, rest)) :
    ∃ sign ∈ [[], ['+'], ['-']], cs = sign ++ rest ∧ decide (sign = ['-']) = negative := by
  unfold readPowerSign at h
  split at h
  · cases h
    exact ⟨['+'], by decide, rfl, rfl⟩
  · cases negative with
    | false => exact ⟨[], by decide, readSign_spec h, rfl⟩
    | true => exact ⟨['-'], by decide, readSign_spec h, rfl⟩

theorem exists_exponent_of_readExponent? {cs rest : List Char} {power : Int}
    (h : readExponent? cs = some (power, rest)) :
    ∃ e : Exponent, e.Regular ∧ cs = e.chars ++ rest ∧ e.power = power := by
  cases cs with
  | nil => cases h
  | cons mark cs =>
      rw [readExponent?_cons] at h
      split at h
      · next hmark =>
          cases hpower : readPowerSign cs with
          | mk negative unsigned =>
              rcases readPowerSign_spec hpower with ⟨sign, hsign, rfl, hnegative⟩
              rw [hpower] at h
              cases hdigits : digits unsigned with
              | mk ds after =>
                  rcases digits_spec hdigits with ⟨rfl, hall⟩
                  dsimp only at h
                  rw [hdigits] at h
                  cases ds with
                  | nil => cases h
                  | cons c ds =>
                      cases h
                      have hregular : Exponent.Regular ⟨mark, sign, c :: ds⟩ :=
                        ⟨by simpa using hmark, hsign, List.cons_ne_nil c ds, hall⟩
                      refine ⟨_, hregular, ?_, ?_⟩
                      · simp [Exponent.chars]
                      · simp [Exponent.power, ← hnegative]
      · cases h

/-- Whether or not there is an exponent, what is read of it is one, and the rest follows it. -/
theorem exists_exponent?_of_readExponent? (cs : List Char) :
    ∃ (e? : Option Exponent) (rest : List Char), (∀ e ∈ e?, e.Regular) ∧
      readExponent? cs = e?.map (fun e => (e.power, rest)) ∧
      cs = e?.elim [] Exponent.chars ++ rest ∧ (e? = none → cs = rest) := by
  cases hexponent : readExponent? cs with
  | none => exact ⟨none, cs, by simp, rfl, rfl, fun _ => rfl⟩
  | some found =>
      rcases found with ⟨power, rest⟩
      rcases exists_exponent_of_readExponent? hexponent with ⟨e, he, hchars, rfl⟩
      exact ⟨some e, rest, by simpa using he, rfl, hchars, by simp⟩

/-- A number that was read is one, whatever stands behind it. -/
theorem exists_numeral_of_readNumber {d : Dialect} {cs rest : List Char} {v : Value}
    (hread : readNumber d cs = .ok (v, rest)) :
    ∃ n : Numeral, n.Regular ∧ n.Fits d ∧ n.value = v ∧ cs = n.chars ++ rest := by
  rcases hsign : readSign cs with ⟨negative, unsigned⟩
  rcases hwhole : readWhole? unsigned with _ | ⟨whole, after⟩
  · simp [readNumber, hsign, hwhole] at hread
  · rcases hfraction : readFraction after with ⟨fraction, after'⟩
    rcases exists_exponent?_of_readExponent? after' with
      ⟨e?, after'', hregular, hexponent, hafter', hnone⟩
    have hcs := readSign_spec hsign
    rcases readWhole?_spec hwhole with ⟨hunsigned, hne, hdigits, hzero⟩
    rcases readFraction_spec hfraction with ⟨hafter, hfractionDigits⟩
    rw [readNumber_eq_read (n := ⟨negative, whole, fraction, e?⟩) hsign hwhole hfraction hexponent
      hnone] at hread
    rcases exists_of_bind_eq_ok hread with ⟨v', hv', hpair⟩
    cases hpair
    rcases Numeral.read_eq_ok_iff.1 hv' with ⟨hfits, hvalue⟩
    refine ⟨_, ⟨hne, hdigits, hzero, hfractionDigits, hregular⟩, hfits, hvalue, ?_⟩
    rw [hcs, hunsigned, hafter, hafter']
    simp [Numeral.chars, Numeral.signChars, Numeral.fractionChars, Numeral.exponentChars]

/-! ## Words -/

theorem after?_eq_some_iff {word cs rest : List Char} :
    after? word cs = some rest ↔ cs = word ++ rest := by
  induction word generalizing cs with
  | nil =>
      rw [after?, List.nil_append, Option.some.injEq]
  | cons w ws ih =>
      cases cs with
      | nil => simp [after?]
      | cons c cs =>
          rw [after?, List.cons_append, List.cons.injEq]
          split
          · next hsame => rw [ih, eq_comm (a := c), and_iff_right hsame]
          · next hsame => simp [Ne.symm hsame]

theorem mem_words_lenient {d : Dialect} {word : List Char × Value} (hword : word ∈ words d) :
    word ∈ words lenient := by
  unfold words at hword ⊢
  rcases List.mem_append.1 hword with hword | hword
  · exact List.mem_append_left _ hword
  · split at hword
    · exact List.mem_append_right _ hword
    · cases hword

/-- No word of a dialect is the beginning of another. -/
theorem readScalar_word {d : Dialect} {word : List Char} {v : Value} (hword : (word, v) ∈ words d)
    (rest : List Char) : readScalar d (word ++ rest) = .ok (v, rest) := by
  unfold readScalar words at *
  cases hspecial : d.specialNumbers with
  | false =>
      simp only [hspecial, Bool.false_eq_true, if_false, List.append_nil, List.mem_cons,
        Prod.mk.injEq, List.not_mem_nil, or_false] at hword
      rcases hword with ⟨rfl, rfl⟩ | ⟨rfl, rfl⟩ | ⟨rfl, rfl⟩ <;> rfl
  | true =>
      simp only [hspecial, if_true, List.cons_append, List.nil_append, List.mem_cons,
        Prod.mk.injEq, List.not_mem_nil, or_false] at hword
      rcases hword with ⟨rfl, rfl⟩ | ⟨rfl, rfl⟩ | ⟨rfl, rfl⟩ | ⟨rfl, rfl⟩ | ⟨rfl, rfl⟩ |
        ⟨rfl, rfl⟩ <;> rfl

/-- No number starts like a word. -/
theorem readScalar_numeral {d : Dialect} {n : Numeral} (hn : n.Regular) (rest : List Char) :
    readScalar d (n.chars ++ rest) = readNumber d (n.chars ++ rest) := by
  rcases hn.exists_whole with ⟨c, ds, hwhole, hc⟩
  apply readScalar_eq_readNumber
  intro word hword
  rcases after?_digit hc (ds ++ (n.fractionChars ++ n.exponentChars) ++ rest) word
    (mem_words_lenient hword) with ⟨hplain, hsigned⟩
  rw [Numeral.chars, Numeral.signChars, hwhole]
  cases n.negative with
  | false => simpa using hplain
  | true => simpa using hsigned

theorem exists_written_of_readScalar {d : Dialect} {cs rest : List Char} {v : Value}
    (hread : readScalar d cs = .ok (v, rest)) :
    (∃ word, (word, v) ∈ words d ∧ cs = word ++ rest) ∨
    ∃ n : Numeral, n.Regular ∧ n.Fits d ∧ n.value = v ∧ cs = n.chars ++ rest := by
  unfold readScalar at hread
  split at hread
  · next found hfound =>
      cases hread
      rcases List.exists_of_findSome?_eq_some hfound with ⟨⟨word, v'⟩, hword, hafter⟩
      rcases Option.map_eq_some_iff.1 hafter with ⟨after, hafter, hpair⟩
      cases hpair
      exact Or.inl ⟨word, hword, after?_eq_some_iff.1 hafter⟩
  · exact Or.inr (exists_numeral_of_readNumber hread)

end Json
end QuocNgu
