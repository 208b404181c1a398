import QuocNgu.Proofs.Text.Cutting

/-!
# Proofs.Text.Barriers — lowering a text part by part

* `IsBarrier`            : a code point that a capital sigma does not see past
* `lower_append_barrier` : the parts on its two sides are lowered as texts of their own
* `IsForm`               : what a code point can be lowered to, whatever stands beside it
* `forall₂_isForm_lower` : a text without a dotted capital is lowered place by place
-/

namespace QuocNgu
namespace Text

/-! ## Barriers -/

/-- The code point ends the search of a sigma on either side without being cased itself, and
lowering leaves it alone. -/
structure IsBarrier (p : Point) : Prop where
  notIgnorable : inRanges caseIgnorable p.code = false
  notCased : inRanges cased p.code = false
  lowered : Lowered p

section

variable {p : Point} (hp : IsBarrier p)
include hp

theorem meetsCased_append_barrier (t u : Text) : meetsCased (t ++ p :: u) = meetsCased t := by
  have hstop : meetsCased (p :: u) = false := by
    simp [meetsCased_cons, hp.notIgnorable, hp.notCased]
  have hwhole := meetsCased_append t (p :: u)
  by_cases hignored : (t.all fun q => inRanges caseIgnorable q.code) = true
  · -- The search reaches the barrier, and alone it would reach the end.
    have hend : meetsCased t = false := by
      simpa [hignored, meetsCased] using meetsCased_append t []
    simpa [hignored, hstop, hend] using hwhole
  · simpa [hignored] using hwhole

/-- A sigma has the same form whatever stands beyond a barrier, before it or after it. -/
theorem lowerSigma_barrier (front before after beyond : Text) :
    lowerSigma (front ++ p :: before) after = lowerSigma front after ∧
      lowerSigma before (after ++ p :: beyond) = lowerSigma before after := by
  have hleft : endsWord (front ++ p :: before) after = endsWord front after := by
    simp only [endsWord, meetsCased_append_barrier hp]
  have hright : endsWord before (after ++ p :: beyond) = endsWord before after := by
    simp only [endsWord, meetsCased_append_barrier hp]
  constructor
  · rw [lowerSigma, lowerSigma, hleft]
  · rw [lowerSigma, lowerSigma, hright]

/-- What stands before a barrier has no say in how a text after it is lowered. -/
theorem lowerFrom_append_barrier (front before t : Text) :
    lowerFrom (front ++ p :: before) t = lowerFrom front t := by
  induction t generalizing front with
  | nil => rfl
  | cons q after ih =>
      have hsigma := (lowerSigma_barrier hp front before after []).1
      have hrest : lowerFrom (q :: (front ++ p :: before)) after = lowerFrom (q :: front) after :=
        ih (q :: front)
      simp only [lowerFrom, hsigma, hrest]

theorem lowerFrom_barrier (before t u : Text) :
    lowerFrom before (t ++ p :: u) = lowerFrom before t ++ p :: lower u := by
  -- By induction on the text before the barrier: what a sigma sees of its right side ends there.
  induction t generalizing before with
  | nil =>
      have hright : lowerFrom (p :: before) u = lower u := lowerFrom_append_barrier hp [] before u
      obtain ⟨hsigma, hself⟩ := hp.lowered
      simp [lowerFrom, hsigma, hself, hright]
  | cons q after ih =>
      have hsigma := (lowerSigma_barrier hp [] before after u).2
      simp [lowerFrom, hsigma, ih]

/-- The texts on the two sides of a barrier are lowered as texts of their own. -/
theorem lower_append_barrier (t u : Text) : lower (t ++ p :: u) = lower t ++ p :: lower u :=
  lowerFrom_barrier hp [] t u

end

/-! ## Forms -/

/-- The second code point is what the first can be lowered to, beside whatever it stands. -/
def IsForm (p q : Point) : Prop :=
  if p = 'Σ' then q = 'σ' ∨ q = 'ς' else lowerPoint p = [q]

theorem isForm_lowerSigma (before after : Text) : IsForm 'Σ' (lowerSigma before after) := by
  simp only [IsForm, if_true, lowerSigma]
  cases endsWord before after with
  | true => exact Or.inr rfl
  | false => exact Or.inl rfl

/-- Every code point but the dotted capital has one form, beside whatever it stands. -/
theorem exists_isForm {p : Point} (hdotted : p ≠ '\u0130') (hsigma : p ≠ 'Σ') :
    ∃ q, lowerPoint p = [q] := by
  cases p with
  | half offset => exact ⟨_, rfl⟩
  | char c =>
      have hc : c ≠ '\u0130' := by simpa using hdotted
      exact ⟨.char (Char.ofNat (lowerCode c.toNat)), by simp [lowerPoint, lowerChar, hc]⟩

theorem forall₂_isForm_lowerFrom {t : Text} (ht : Point.char '\u0130' ∉ t) (before : Text) :
    List.Forall₂ IsForm t (lowerFrom before t) := by
  induction t generalizing before with
  | nil => exact .nil
  | cons p after ih =>
      obtain ⟨hp, hafter⟩ := not_or.1 (mt List.mem_cons.2 ht)
      have hrest := ih hafter (p :: before)
      by_cases hsigma : p = 'Σ'
      · subst hsigma
        have hform := isForm_lowerSigma before after
        simpa [lowerFrom] using And.intro hform hrest
      · obtain ⟨q, hq⟩ := exists_isForm (Ne.symm hp) hsigma
        have hform : IsForm p q := by simpa [IsForm, hsigma] using hq
        simpa [lowerFrom, hsigma, hq] using And.intro hform hrest

/-- The dotted capital is the one code point that comes to two. -/
theorem forall₂_isForm_lower {t : Text} (ht : Point.char '\u0130' ∉ t) :
    List.Forall₂ IsForm t t.lower := forall₂_isForm_lowerFrom ht []

end Text
end QuocNgu
