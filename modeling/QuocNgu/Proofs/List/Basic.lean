import Mathlib.Data.List.Infix
import Mathlib.Data.List.Nodup

/-!
# Proofs.List.Basic — facts about lists that no library has

* `nodup_eraseDups`, `eraseDups_concat` : the first occurrences of the items of a list
* `pair_infix_cons`, `pair_infix_append` : two items side by side in a list
-/

namespace QuocNgu

/-! ## First occurrences -/

theorem nodup_eraseDups {α : Type} [BEq α] [LawfulBEq α] :
    ∀ items : List α, items.eraseDups.Nodup
  | [] => by simp
  | a :: rest => by
      have hrest := nodup_eraseDups (rest.filter fun b => !b == a)
      have hfresh : a ∉ (rest.filter fun b => !b == a).eraseDups := by
        simp [List.mem_eraseDups]
      rw [List.eraseDups_cons]
      exact List.nodup_cons.2 ⟨hfresh, hrest⟩
termination_by items => items.length
decreasing_by
  have hlength := List.length_filter_le (fun b => !b == a) rest
  exact Nat.lt_succ_of_le hlength

theorem eraseDups_concat {α : Type} [BEq α] [LawfulBEq α] (items : List α) (a : α) :
    (items ++ [a]).eraseDups =
      if a ∈ items then items.eraseDups else items.eraseDups ++ [a] := by
  rw [List.eraseDups_append]
  split
  · next ha => simp [List.removeAll, ha]
  · next ha => simp [List.removeAll, ha, List.eraseDups_cons]

/-! ## Items side by side -/

theorem pair_infix_cons {α : Type} {a b c : α} {items : List α} :
    [a, b] <:+: c :: items ↔ (c = a ∧ items.head? = some b) ∨ [a, b] <:+: items := by
  have hstart : [a, b] <+: c :: items ↔ c = a ∧ items.head? = some b := by
    cases items <;> simp [eq_comm]
  rw [List.infix_cons_iff, hstart]

theorem pair_infix_append {α : Type} {a b : α} {run items : List α} (ha : a ∉ run) :
    [a, b] <:+: run ++ items ↔ [a, b] <:+: items := by
  induction run with
  | nil => rfl
  | cons c run ih =>
      rw [List.mem_cons, not_or] at ha
      rw [List.cons_append, pair_infix_cons, ih ha.2]
      simp [Ne.symm ha.1]

end QuocNgu
