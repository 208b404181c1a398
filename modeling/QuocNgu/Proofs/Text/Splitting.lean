import QuocNgu.Text.Split

/-!
# Proofs.Text.Splitting — laws of cutting a list at its separators

* `splitAll_eq_splitOn`  : the cut is the one of the library, whose laws carry over
* `splitAll_append`      : a cut at a separator splits the two sides apart
* `splitAll_intercalate` : runs joined by a separator are found again
* `headD_splitAll`       : the first run is what stands before the first separator
* `head?_eq_separator_iff` : a separator comes first exactly if the first of several runs is empty
-/

namespace QuocNgu
namespace Text

variable {α : Type} [DecidableEq α]

theorem splitAll_eq_splitOn (separator : α) (items : List α) :
    splitAll separator items = items.splitOn separator := by
  induction items with
  | nil =>
      simp [splitAll]
  | cons a rest ih =>
      rcases List.exists_cons_of_ne_nil (splitAll_ne_nil separator rest) with ⟨run, runs, hruns⟩
      by_cases ha : a = separator
      · simp [splitAll, ha, ih, List.splitOn_cons_eq_if_modifyHead]
      · rw [splitAll, if_neg ha, hruns]
        simp [List.splitOn_cons_eq_if_modifyHead, ha, ← ih, hruns]

theorem splitAll_append (separator : α) (items rest : List α) :
    splitAll separator (items ++ separator :: rest) =
      splitAll separator items ++ splitAll separator rest := by
  simp only [splitAll_eq_splitOn, List.splitOn_append_cons_self]

variable {separator : α}

theorem splitAll_of_not_mem {run : List α} (hrun : separator ∉ run) :
    splitAll separator run = [run] := by
  rw [splitAll_eq_splitOn]
  exact List.splitOn_eq_singleton hrun

theorem splitAll_intercalate {runs : List (List α)} (hruns : ∀ run ∈ runs, separator ∉ run)
    (hne : runs ≠ []) : splitAll separator ([separator].intercalate runs) = runs := by
  rw [splitAll_eq_splitOn]
  exact List.splitOn_intercalate separator hruns hne

theorem headD_splitAll (separator : α) (items : List α) :
    (splitAll separator items).headD [] = items.takeWhile (· ≠ separator) := by
  induction items with
  | nil =>
      rfl
  | cons a rest ih =>
      rcases List.exists_cons_of_ne_nil (splitAll_ne_nil separator rest) with ⟨run, runs, hruns⟩
      by_cases ha : a = separator
      · simp [splitAll, ha]
      · have hrun : run = rest.takeWhile (· ≠ separator) := by
          simpa [hruns] using ih
        simp [splitAll, ha, hruns, hrun]

/-- The first run is empty and not the only one exactly if a separator comes first. -/
theorem head?_eq_separator_iff {items run : List α} {runs : List (List α)}
    (hruns : splitAll separator items = run :: runs) :
    items.head? = some separator ↔ run = [] ∧ runs ≠ [] := by
  cases items with
  | nil =>
      simp only [splitAll, List.cons.injEq] at hruns
      simp [← hruns.2]
  | cons a rest =>
      rcases List.exists_cons_of_ne_nil (splitAll_ne_nil separator rest) with ⟨next, more, hnext⟩
      by_cases ha : a = separator
      · simp only [splitAll, ha, if_true, List.cons.injEq] at hruns
        simp [ha, ← hruns.1, ← hruns.2, splitAll_ne_nil]
      · simp only [splitAll, ha, if_false, hnext, List.cons.injEq] at hruns
        simp [ha, ← hruns.1]

end Text
end QuocNgu
