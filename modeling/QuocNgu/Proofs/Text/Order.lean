import Mathlib.Data.List.Lex
import QuocNgu.Text.Order

/-!
# Proofs.Text.Order — sorting texts by their code points

* `Increasing`        : texts that rise from one to the next, so that none is repeated
* `increasing_sorted` : sorting makes a list without repetitions increasing
* `Increasing.eq_of_mem_iff` : such a list is determined by what is in it
* `increasing_split`  : where such a list is cut, everything kept comes before everything left
-/

namespace QuocNgu
namespace Text

/-- Each text comes before all that follow it. -/
def Increasing (texts : List Text) : Prop :=
  texts.Pairwise fun s t => s.map Point.code < t.map Point.code

theorem map_code_inj {s t : Text} (h : s.map Point.code = t.map Point.code) : s = t :=
  List.map_injective_iff.2 (fun _ _ => Point.code_inj.1) h

theorem precedes_iff {s t : Text} :
    precedes s t = true ↔ s.map Point.code < t.map Point.code := by
  rw [precedes, decide_eq_true_eq]

theorem not_precedes_iff {s t : Text} :
    (!precedes t s) = true ↔ s.map Point.code ≤ t.map Point.code := by
  rw [Bool.not_eq_true', ← Bool.not_eq_true, precedes_iff, not_lt]

theorem mem_sorted {texts : List Text} {t : Text} : t ∈ sorted texts ↔ t ∈ texts :=
  (List.mergeSort_perm texts _).mem_iff

theorem increasing_sorted {texts : List Text} (htexts : texts.Nodup) :
    Increasing (sorted texts) := by
  have hnodup : (sorted texts).Nodup := (List.mergeSort_perm texts _).nodup_iff.2 htexts
  have hsorted : (sorted texts).Pairwise fun s t => (!precedes t s) = true := by
    apply List.pairwise_mergeSort
    · intro a b c hab hbc
      rw [not_precedes_iff] at hab hbc ⊢
      exact hab.trans hbc
    · intro a b
      rw [Bool.or_eq_true, not_precedes_iff, not_precedes_iff]
      exact le_total _ _
  -- Two neighbours that do not fall and are not the same rise.
  refine (hsorted.and hnodup).imp ?_
  intro s t h
  rcases h with ⟨hle, hne⟩
  refine lt_of_le_of_ne (not_precedes_iff.1 hle) ?_
  intro hsame
  exact hne (map_code_inj hsame)

/-- Increasing lists are determined by what is in them. -/
theorem Increasing.eq_of_mem_iff {texts texts' : List Text} (htexts : Increasing texts)
    (htexts' : Increasing texts') (hsame : ∀ t, t ∈ texts ↔ t ∈ texts') : texts = texts' := by
  have hdistinct : ∀ {l : List Text}, Increasing l → l.Nodup := by
    intro l hl
    refine hl.imp ?_
    rintro s t hst rfl
    exact lt_irrefl _ hst
  have hperm : texts.Perm texts' :=
    (List.perm_ext_iff_of_nodup (hdistinct htexts) (hdistinct htexts')).2 hsame
  refine hperm.eq_of_pairwise ?_ htexts htexts'
  intro s t _ _ hst hts
  exact absurd hst (lt_asymm hts)

theorem increasing_split {texts : List Text} (htexts : Increasing texts) (n : Nat) {s t : Text}
    (hs : s ∈ texts.take n) (ht : t ∈ texts) (hleft : t ∉ texts.take n) :
    s.map Point.code < t.map Point.code := by
  have hdrop : t ∈ texts.drop n := by
    rw [← List.take_append_drop n texts] at ht
    exact (List.mem_append.1 ht).resolve_left hleft
  rw [Increasing, ← List.take_append_drop n texts] at htexts
  exact (List.pairwise_append.1 htexts).2.2 s hs t hdrop

end Text
end QuocNgu
