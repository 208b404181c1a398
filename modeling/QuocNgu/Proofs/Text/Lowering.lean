import Mathlib.Data.List.Forall2
import QuocNgu.Text.Lowercase

/-!
# Proofs.Text.Lowering — laws of full lower-casing

* `Lowered`        : a code point that lower-casing leaves alone wherever it stands
* `lower_lower`    : lowering a text twice is lowering it once
* `CasePreserving` : a relation between code points that a capital sigma cannot see through
* `forall₂_lower`  : such a relation holds of the lowered texts, place by place

The table of runs is data, so facts about it are checked run against run. Everything else follows
from these checks without another look at the table.
-/

namespace QuocNgu
namespace Text

/-! ## The table of runs -/

/-- No lower-case form that the first run gives is a capital of the second. -/
def CaseRun.avoids (r s : CaseRun) : Bool :=
  s.last < r.image || r.image + (r.last - r.first) < s.first ||
    ((r.first == r.last || r.stride == 2) && s.stride == 2 && (r.image + s.first) % 2 == 1)

theorem CaseRun.covers_iff {r : CaseRun} {n : Nat} :
    r.covers n = true ↔ (r.first ≤ n ∧ n ≤ r.last) ∧ (n - r.first) % r.stride = 0 := by
  simp [covers]

theorem CaseRun.not_covers_of_avoids {r s : CaseRun} {n : Nat} (havoids : r.avoids s = true)
    (hcovers : r.covers n = true) : s.covers (r.image + (n - r.first)) = false := by
  rcases covers_iff.1 hcovers with ⟨⟨hfirst, hlast⟩, hstep⟩
  by_contra hother
  rcases covers_iff.1 (Bool.not_eq_false _ ▸ hother) with ⟨⟨hfirst', hlast'⟩, hstep'⟩
  simp only [avoids, Bool.or_eq_true, Bool.and_eq_true, decide_eq_true_eq, beq_iff_eq] at havoids
  rcases havoids with (hbelow | habove) | ⟨⟨hsparse, hstride'⟩, hodd⟩
  · -- The second run ends before the forms of the first.
    omega
  · -- The second run starts after the forms of the first.
    omega
  · -- Both runs step by two, from places that differ by an odd number.
    rw [hstride'] at hstep'
    rcases hsparse with hsingle | hstride
    · omega
    · rw [hstride] at hstep
      omega

/-- The two capitals that have rules of their own. -/
def ruledCapitals : List CaseRun := [⟨0x130, 0x130, 1, 0x69⟩, ⟨0x3A3, 0x3A3, 1, 0x3C3⟩]

theorem ruledCapitals_covers : ∀ s ∈ ruledCapitals, s.covers s.first = true := by
  decide

theorem ruledCapitals_toNat : ∀ s ∈ ruledCapitals, (Char.ofNat s.first).toNat = s.first := by
  decide

theorem lowerRuns_avoid :
    ∀ r ∈ lowerRuns, ∀ s ∈ ruledCapitals ++ lowerRuns, r.avoids s = true := by
  -- One Boolean for the whole table checks faster than a decision on every pair.
  have hall : lowerRuns.all (fun r => (ruledCapitals ++ lowerRuns).all r.avoids) = true := by
    decide +kernel
  simpa only [List.all_eq_true] using hall

/-- Every lower-case form is a character. -/
theorem lowerRuns_image_valid :
    ∀ r ∈ lowerRuns, r.image + (r.last - r.first) < 0xD800 ∨
      0xDFFF < r.image ∧ r.image + (r.last - r.first) < 0x110000 := by
  decide +kernel

theorem lowerCode_cases (n : Nat) :
    lowerCode n = n ∨
      ∃ r ∈ lowerRuns, r.covers n = true ∧ lowerCode n = r.image + (n - r.first) := by
  cases hfind : lowerRuns.find? (·.covers n) with
  | none =>
      have hself : lowerCode n = n := by
        simp [lowerCode, hfind]
      exact Or.inl hself
  | some r =>
      have hcovers : r.covers n = true := by
        simpa using List.find?_some hfind
      have himage : lowerCode n = r.image + (n - r.first) := by
        simp [lowerCode, hfind]
      exact Or.inr ⟨r, List.mem_of_find?_eq_some hfind, hcovers, himage⟩

theorem lowerCode_eq_self {n : Nat} (hfree : ∀ r ∈ lowerRuns, r.covers n = false) :
    lowerCode n = n := by
  rcases lowerCode_cases n with hself | ⟨r, hr, hcovers, -⟩
  · exact hself
  · simp [hfree r hr] at hcovers

/-! ## Code points that stay as they are -/

/-- Lower-casing leaves the code point alone wherever it stands. -/
def Lowered (p : Point) : Prop := p ≠ 'Σ' ∧ lowerPoint p = [p]

instance (p : Point) : Decidable (Lowered p) := inferInstanceAs (Decidable (_ ∧ _))

theorem lowered_half (offset : Fin 2048) : Lowered (.half offset) := by
  simp [Lowered, lowerPoint]

theorem lowered_char {c : Char} (hsigma : c ≠ 'Σ') (hdotted : c ≠ '\u0130')
    (hcode : lowerCode c.toNat = c.toNat) : Lowered (.char c) := by
  refine ⟨by simpa using hsigma, ?_⟩
  simp [lowerPoint, lowerChar, hdotted, hcode]

theorem toNat_ofNat_image {r : CaseRun} (hr : r ∈ lowerRuns) {n : Nat}
    (hcovers : r.covers n = true) :
    (Char.ofNat (r.image + (n - r.first))).toNat = r.image + (n - r.first) := by
  have hrange := lowerRuns_image_valid r hr
  rcases CaseRun.covers_iff.1 hcovers with ⟨⟨hfirst, hlast⟩, -⟩
  have hvalid : (r.image + (n - r.first)).isValidChar := by
    unfold Nat.isValidChar
    omega
  rw [Char.ofNat, dif_pos hvalid]
  rfl

/-- What a run gives is a character that no rule and no run touches again. -/
theorem lowered_image {r : CaseRun} (hr : r ∈ lowerRuns) {n : Nat} (hcovers : r.covers n = true) :
    Lowered (.char (Char.ofNat (r.image + (n - r.first)))) := by
  have hfree : ∀ s ∈ ruledCapitals ++ lowerRuns, s.covers (r.image + (n - r.first)) = false :=
    fun s hs => CaseRun.not_covers_of_avoids (lowerRuns_avoid r hr s hs) hcovers
  have hcode := toNat_ofNat_image hr hcovers
  -- The two capitals with rules of their own are listed as runs, so that one check covers them too.
  have hruled : ∀ s ∈ ruledCapitals, Char.ofNat (r.image + (n - r.first)) ≠ Char.ofNat s.first := by
    intro s hs heq
    have hsame : r.image + (n - r.first) = s.first := by
      calc
        r.image + (n - r.first)
            = (Char.ofNat (r.image + (n - r.first))).toNat := hcode.symm
        _ = (Char.ofNat s.first).toNat := by
              rw [heq]
        _ = s.first := ruledCapitals_toNat s hs
    have hapart := hfree s (List.mem_append_left _ hs)
    rw [hsame, ruledCapitals_covers s hs] at hapart
    cases hapart
  have hsigma := hruled ⟨0x3A3, 0x3A3, 1, 0x3C3⟩ (by simp [ruledCapitals])
  have hdotted := hruled ⟨0x130, 0x130, 1, 0x69⟩ (by simp [ruledCapitals])
  refine lowered_char hsigma hdotted ?_
  rw [hcode]
  apply lowerCode_eq_self
  intro s hs
  exact hfree s (List.mem_append_right _ hs)

theorem lowered_of_mem_lowerPoint {p q : Point} (hp : p ≠ 'Σ') (hq : q ∈ lowerPoint p) :
    Lowered q := by
  cases p with
  | half offset =>
      obtain rfl : q = .half offset := by simpa [lowerPoint] using hq
      exact lowered_half offset
  | char c =>
      have hsigma : c ≠ 'Σ' := by simpa using hp
      by_cases hdotted : c = '\u0130'
      · -- The dotted capital is the one that grows, into an `i` and a dot above.
        subst hdotted
        have hforms : ∀ form ∈ lowerPoint (.char '\u0130'), Lowered form := by
          decide +kernel
        exact hforms q hq
      · obtain rfl : q = .char (Char.ofNat (lowerCode c.toNat)) := by
          simpa [lowerPoint, lowerChar, hdotted] using hq
        rcases lowerCode_cases c.toNat with hself | ⟨r, hr, hcovers, himage⟩
        · -- No run covers the character.
          rw [hself, Char.ofNat_toNat]
          exact lowered_char hsigma hdotted hself
        · rw [himage]
          exact lowered_image hr hcovers

theorem lowered_lowerSigma (before after : Text) : Lowered (lowerSigma before after) := by
  have hforms : Lowered (.char 'ς') ∧ Lowered (.char 'σ') := by
    decide +kernel
  simp only [lowerSigma]
  split
  · exact hforms.1
  · exact hforms.2

/-! ## Lowered texts -/

theorem lowered_of_mem_lowerFrom {before t : Text} {q : Point} (hq : q ∈ lowerFrom before t) :
    Lowered q := by
  -- By induction along the text, for any text before it: the forms of a sigma are both lowered, so
  -- it does not matter here which of them the context selects.
  induction t generalizing before with
  | nil =>
      simp [lowerFrom] at hq
  | cons p after ih =>
      rcases List.mem_append.1 hq with hhead | htail
      · by_cases hsigma : p = 'Σ'
        · have hform : q = lowerSigma before after := by
            simpa [hsigma] using hhead
          rw [hform]
          exact lowered_lowerSigma before after
        · have hform : q ∈ lowerPoint p := by
            simpa [hsigma] using hhead
          exact lowered_of_mem_lowerPoint hsigma hform
      · exact ih htail

theorem lowered_of_mem_lower {t : Text} {q : Point} (hq : q ∈ t.lower) : Lowered q :=
  lowered_of_mem_lowerFrom hq

theorem lowerFrom_eq_self {before t : Text} (ht : ∀ p ∈ t, Lowered p) :
    lowerFrom before t = t := by
  induction t generalizing before with
  | nil =>
      rfl
  | cons p after ih =>
      rcases ht p (by simp) with ⟨hsigma, hself⟩
      have hrest : lowerFrom (p :: before) after = after := by
        apply ih
        intro q hq
        exact ht q (by simp [hq])
      simp [lowerFrom, hsigma, hself, hrest]

theorem lower_lower (t : Text) : t.lower.lower = t.lower := by
  apply lowerFrom_eq_self
  intro q hq
  exact lowered_of_mem_lower hq

theorem lowerPoint_ne_nil (p : Point) : lowerPoint p ≠ [] := by
  cases p with
  | half offset =>
      simp [lowerPoint]
  | char c =>
      simp only [lowerPoint, lowerChar]
      split <;> simp

theorem lower_eq_nil_iff {t : Text} : t.lower = [] ↔ t = [] := by
  cases t with
  | nil =>
      simp [lower, lowerFrom]
  | cons p after =>
      simp only [lower, lowerFrom, List.append_eq_nil_iff]
      split <;> simp [lowerPoint_ne_nil]

/-! ## Texts that lower alike -/

theorem meetsCased_cons (p : Point) (t : Text) :
    meetsCased (p :: t) =
      if inRanges caseIgnorable p.code then meetsCased t else inRanges cased p.code := by
  by_cases hignorable : inRanges caseIgnorable p.code = true
  · simp [meetsCased, hignorable]
  · simp [meetsCased, hignorable]

/-- Code points related by `S` look the same to a capital sigma beside them, and their lower-case
forms are related by `R`. -/
structure CasePreserving (S R : Point → Point → Prop) : Prop where
  ignorable {p q : Point} : S p q → inRanges caseIgnorable p.code = inRanges caseIgnorable q.code
  cased {p q : Point} : S p q → inRanges cased p.code = inRanges cased q.code
  sigma {p q : Point} : S p q → (p = 'Σ' ↔ q = 'Σ')
  sigmaForm {p q : Point} : S p q → ∀ before after : Text,
    R (lowerSigma before after) (lowerSigma before after)
  lowered {p q : Point} : S p q → List.Forall₂ R (lowerPoint p) (lowerPoint q)

section CasePreserving

variable {S R : Point → Point → Prop}

theorem meetsCased_congr (hpreserving : CasePreserving S R) {t u : Text}
    (htu : List.Forall₂ S t u) : meetsCased t = meetsCased u := by
  induction htu with
  | nil =>
      rfl
  | @cons p q t u hpq _ ih =>
      have hignorable := hpreserving.ignorable hpq
      have hcased := hpreserving.cased hpq
      simp only [meetsCased_cons, hignorable, hcased, ih]

theorem lowerSigma_congr (hpreserving : CasePreserving S R) {before before' after after' : Text}
    (hbefore : List.Forall₂ S before before') (hafter : List.Forall₂ S after after') :
    lowerSigma before after = lowerSigma before' after' := by
  have hleft := meetsCased_congr hpreserving hbefore
  have hright := meetsCased_congr hpreserving hafter
  have hends : endsWord before after = endsWord before' after' := by
    simp [endsWord, hleft, hright]
  rw [lowerSigma, lowerSigma, hends]

theorem forall₂_lowerFrom (hpreserving : CasePreserving S R) {before before' t u : Text}
    (hbefore : List.Forall₂ S before before') (htu : List.Forall₂ S t u) :
    List.Forall₂ R (lowerFrom before t) (lowerFrom before' u) := by
  -- What was read moves to the text before, which grows on both sides by related code points.
  induction htu generalizing before before' with
  | nil =>
      exact List.Forall₂.nil
  | @cons p q t u hpq htu ih =>
      have hrest := ih (List.Forall₂.cons hpq hbefore)
      rw [lowerFrom, lowerFrom]
      refine List.rel_append ?_ hrest
      by_cases hsigma : p = 'Σ'
      · have hsigma' : q = 'Σ' := (hpreserving.sigma hpq).1 hsigma
        have hform := lowerSigma_congr hpreserving hbefore htu
        rw [if_pos hsigma, if_pos hsigma', hform]
        exact List.Forall₂.cons (hpreserving.sigmaForm hpq _ _) List.Forall₂.nil
      · have hsigma' : ¬q = 'Σ' := mt (hpreserving.sigma hpq).2 hsigma
        rw [if_neg hsigma, if_neg hsigma']
        exact hpreserving.lowered hpq

theorem forall₂_lower (hpreserving : CasePreserving S R) {t u : Text}
    (htu : List.Forall₂ S t u) : List.Forall₂ R t.lower u.lower :=
  forall₂_lowerFrom hpreserving List.Forall₂.nil htu

end CasePreserving

end Text
end QuocNgu
