import QuocNgu.Proofs.Text.Lowering

/-!
# Proofs.Text.Cutting — lowering a text that has been typed only in part

* `SplitsSigma`               : the cut makes a capital sigma final that is not final in the whole
* `lowerFrom_cut`             : where a lowered start and the lowered whole part
* `lower_isPrefix_append_iff` : a lowered start is a start of the lowered whole, but for a sigma

Code points are lowered one by one, and only a capital sigma looks past the end of what was typed.
It looks over the code points that it ignores, so the cut need not be next to it.
-/

namespace QuocNgu
namespace Text

/-! ## A sigma at the cut -/

theorem meetsCased_append (t u : Text) :
    meetsCased (t ++ u) =
      if t.all (fun p => inRanges caseIgnorable p.code) then meetsCased u else meetsCased t := by
  induction t with
  | nil =>
      simp
  | cons p t ih =>
      rw [List.cons_append, meetsCased_cons, meetsCased_cons, ih]
      by_cases hignorable : inRanges caseIgnorable p.code = true
      · simp [hignorable]
      · -- The search ends here, whatever follows.
        simp [hignorable]

/-- A capital sigma between the first two texts ends a word as long as the third is still to be
typed, and then no more. The code points before the sigma are given nearest first. -/
def FinalAtCut (before typed rest : Text) : Prop :=
  meetsCased before = true ∧ (typed.all fun p => inRanges caseIgnorable p.code) = true ∧
    meetsCased rest = true

theorem lowerSigma_of_finalAtCut {before typed rest : Text} (hcut : FinalAtCut before typed rest) :
    lowerSigma before typed = 'ς' ∧ lowerSigma before (typed ++ rest) = 'σ' := by
  rcases hcut with ⟨hbefore, hignored, hrest⟩
  have htyped : meetsCased typed = false := by
    simpa [hignored, meetsCased] using meetsCased_append typed []
  have hwhole : meetsCased (typed ++ rest) = true := by
    rw [meetsCased_append, if_pos hignored, hrest]
  constructor
  · simp [lowerSigma, endsWord, hbefore, htyped]
  · simp [lowerSigma, endsWord, hwhole]

theorem lowerSigma_append {before typed rest : Text} (hcut : ¬FinalAtCut before typed rest) :
    lowerSigma before (typed ++ rest) = lowerSigma before typed := by
  have hends : endsWord before (typed ++ rest) = endsWord before typed := by
    by_cases hignored : (typed.all fun p => inRanges caseIgnorable p.code) = true
    · have htyped : meetsCased typed = false := by
        simpa [hignored, meetsCased] using meetsCased_append typed []
      have hwhole : meetsCased (typed ++ rest) = meetsCased rest := by
        rw [meetsCased_append, if_pos hignored]
      -- Either nothing cased comes before the sigma, or nothing cased after it in both texts.
      have houtside : meetsCased before = true → meetsCased rest = false := by
        intro hbefore
        simpa [FinalAtCut, hbefore, hignored] using hcut
      cases hbefore : meetsCased before with
      | false => simp [endsWord, hbefore]
      | true => simp [endsWord, htyped, hwhole, houtside hbefore]
    · have hwhole : meetsCased (typed ++ rest) = meetsCased typed := by
        rw [meetsCased_append, if_neg hignored]
      rw [endsWord, endsWord, hwhole]
  rw [lowerSigma, lowerSigma, hends]

/-! ## Cuts that split a text -/

/-- Some capital sigma of the typed text is final until the rest is typed as well. -/
def SplitsSigma (before typed rest : Text) : Prop :=
  ∃ front ignored, typed = front ++ (.char 'Σ') :: ignored ∧
    FinalAtCut (front.reverse ++ before) ignored rest

theorem not_splitsSigma_nil (before rest : Text) : ¬SplitsSigma before [] rest := by
  simp [SplitsSigma]

theorem splitsSigma_cons {before typed rest : Text} {p : Point} :
    SplitsSigma before (p :: typed) rest ↔
      (p = 'Σ' ∧ FinalAtCut before typed rest) ∨ SplitsSigma (p :: before) typed rest := by
  constructor
  · intro h
    rcases h with ⟨front, ignored, htyped, hcut⟩
    cases front with
    | nil =>
        -- The sigma is the head itself.
        rcases List.cons_eq_cons.1 htyped with ⟨rfl, rfl⟩
        exact Or.inl ⟨rfl, hcut⟩
    | cons q front =>
        rcases List.cons_eq_cons.1 htyped with ⟨rfl, htail⟩
        exact Or.inr ⟨front, ignored, htail, by simpa using hcut⟩
  · intro h
    rcases h with ⟨rfl, hcut⟩ | ⟨front, ignored, rfl, hcut⟩
    · exact ⟨[], typed, rfl, hcut⟩
    · exact ⟨p :: front, ignored, rfl, by simpa using hcut⟩

/-! ## Where the lowered texts part -/

/-- Up to some place the texts are the same, and there one has a final sigma and the other an inner
one. -/
def PartAtSigma (start whole : Text) : Prop :=
  ∃ common t u, start = common ++ (.char 'ς') :: t ∧ whole = common ++ (.char 'σ') :: u

theorem PartAtSigma.append_left {start whole : Text} (hpart : PartAtSigma start whole)
    (form : Text) : PartAtSigma (form ++ start) (form ++ whole) := by
  rcases hpart with ⟨common, t, u, rfl, rfl⟩
  refine ⟨form ++ common, t, u, ?_, ?_⟩
  · rw [List.append_assoc]
  · rw [List.append_assoc]

theorem PartAtSigma.not_isPrefix {start whole : Text} (hpart : PartAtSigma start whole) :
    ¬start <+: whole := by
  rcases hpart with ⟨common, t, u, rfl, rfl⟩
  intro hstart
  have htail := (List.prefix_append_right_inj common).1 hstart
  simpa using (List.cons_prefix_cons.1 htail).1

/-- A code point has the same form whether or not the rest is typed, unless the cut splits there. -/
theorem lowerFrom_cons_append {before typed rest : Text} {p : Point}
    (hcut : ¬(p = 'Σ' ∧ FinalAtCut before typed rest)) :
    ∃ form, lowerFrom before (p :: typed) = form ++ lowerFrom (p :: before) typed ∧
      lowerFrom before (p :: typed ++ rest) = form ++ lowerFrom (p :: before) (typed ++ rest) := by
  by_cases hsigma : p = 'Σ'
  · have hform : lowerSigma before (typed ++ rest) = lowerSigma before typed :=
      lowerSigma_append fun hfinal => hcut ⟨hsigma, hfinal⟩
    refine ⟨[lowerSigma before typed], ?_, ?_⟩
    · simp [lowerFrom, hsigma]
    · simp [lowerFrom, hsigma, hform]
  · refine ⟨lowerPoint p, ?_, ?_⟩
    · simp [lowerFrom, hsigma]
    · simp [lowerFrom, hsigma]

/-- A lowered start is a start of the lowered whole, or the two part at a sigma, as the cut tells. -/
theorem lowerFrom_cut (before typed rest : Text) :
    (¬SplitsSigma before typed rest ∧
      lowerFrom before typed <+: lowerFrom before (typed ++ rest)) ∨
    (SplitsSigma before typed rest ∧
      PartAtSigma (lowerFrom before typed) (lowerFrom before (typed ++ rest))) := by
  -- By induction along what was typed: the two texts part at the head, or the head has one form in
  -- both and stands before what the induction gives.
  induction typed generalizing before with
  | nil =>
      exact Or.inl ⟨not_splitsSigma_nil before rest, List.nil_prefix⟩
  | cons p typed ih =>
      by_cases hhead : p = 'Σ' ∧ FinalAtCut before typed rest
      · rcases hhead with ⟨rfl, hcut⟩
        rcases lowerSigma_of_finalAtCut hcut with ⟨hfinal, hinner⟩
        have hpart : PartAtSigma (lowerFrom before ((.char 'Σ') :: typed))
            (lowerFrom before ((.char 'Σ') :: typed ++ rest)) := by
          refine ⟨[], lowerFrom ((.char 'Σ') :: before) typed,
            lowerFrom ((.char 'Σ') :: before) (typed ++ rest), ?_, ?_⟩
          · simp [lowerFrom, hfinal]
          · simp [lowerFrom, hinner]
        exact Or.inr ⟨splitsSigma_cons.2 (Or.inl ⟨rfl, hcut⟩), hpart⟩
      · rcases lowerFrom_cons_append hhead with ⟨form, htyped, hwhole⟩
        rw [splitsSigma_cons, or_iff_right hhead, htyped, hwhole]
        rcases ih (p :: before) with ⟨hsplit, hstart⟩ | ⟨hsplit, hpart⟩
        · exact Or.inl ⟨hsplit, (List.prefix_append_right_inj form).2 hstart⟩
        · exact Or.inr ⟨hsplit, hpart.append_left form⟩

theorem lower_isPrefix_append_iff {typed rest : Text} :
    typed.lower <+: (typed ++ rest).lower ↔ ¬SplitsSigma [] typed rest := by
  rcases lowerFrom_cut [] typed rest with ⟨hsplit, hstart⟩ | ⟨hsplit, hpart⟩
  · exact iff_of_true hstart hsplit
  · exact iff_of_false hpart.not_isPrefix (not_not_intro hsplit)

theorem partAtSigma_lower {typed rest : Text} (hsplit : SplitsSigma [] typed rest) :
    PartAtSigma typed.lower (typed ++ rest).lower := by
  rcases lowerFrom_cut [] typed rest with ⟨hwhole, -⟩ | ⟨-, hpart⟩
  · exact absurd hsplit hwhole
  · exact hpart

end Text
end QuocNgu
