import Mathlib.Data.List.TakeWhile
import QuocNgu.Text.Blank

/-!
# Proofs.Text.Trimming — what trimming takes off a text

* `Blank`, `Trimmed` : texts of white space alone, and texts with none at either end
* `trim_padded`      : trimming takes off any white space around a trimmed text
* `exists_padding`   : and it takes off nothing else
-/

namespace QuocNgu
namespace Text

/-- Nothing but white space. -/
def Blank (t : Text) : Prop := ∀ p ∈ t, isBlank p = true

/-- Something with no white space at either end. -/
structure Trimmed (w : Text) : Prop where
  ne_nil : w ≠ []
  head : ∀ p ∈ w.head?, isBlank p = false
  last : ∀ p ∈ w.getLast?, isBlank p = false

theorem Blank.reverse {t : Text} (ht : Blank t) : Blank t.reverse :=
  fun p hp => ht p (List.mem_reverse.1 hp)

theorem trimStart_append {before : Text} (hbefore : Blank before) (t : Text) :
    trimStart (before ++ t) = trimStart t :=
  List.dropWhile_append_of_pos hbefore

theorem trimStart_of_head {t : Text} (ht : ∀ p ∈ t.head?, isBlank p = false) :
    trimStart t = t := by
  cases t with
  | nil => rfl
  | cons p t =>
      rw [trimStart, List.dropWhile_cons_of_neg]
      rw [ht p rfl]
      exact Bool.false_ne_true

theorem Trimmed.trim_append {w : Text} (hw : Trimmed w) {before after : Text}
    (hbefore : Blank before) (hafter : Blank after) : trim (before ++ (w ++ after)) = w := by
  have hhead : ∀ p ∈ (w ++ after).head?, isBlank p = false := by
    rcases List.exists_cons_of_ne_nil hw.ne_nil with ⟨q, rest, rfl⟩
    exact hw.head
  have hlast : ∀ p ∈ w.reverse.head?, isBlank p = false := by
    rw [List.head?_reverse]
    exact hw.last
  calc
    trim (before ++ (w ++ after))
        = trimEnd (w ++ after) := by
          rw [trim, trimStart_append hbefore, trimStart_of_head hhead]
    _ = (trimStart (after.reverse ++ w.reverse)).reverse := by
          rw [trimEnd, List.reverse_append]
    _ = w := by
          rw [trimStart_append hafter.reverse, trimStart_of_head hlast, List.reverse_reverse]

theorem exists_trimStart (t : Text) :
    ∃ before, Blank before ∧ t = before ++ t.trimStart :=
  ⟨t.takeWhile isBlank, fun _ hp => List.mem_takeWhile_imp hp,
    List.takeWhile_append_dropWhile.symm⟩

theorem exists_trimEnd (t : Text) : ∃ after, Blank after ∧ t = t.trimEnd ++ after := by
  rcases exists_trimStart t.reverse with ⟨before, hbefore, hreverse⟩
  refine ⟨before.reverse, hbefore.reverse, ?_⟩
  rw [trimEnd, ← List.reverse_append, ← hreverse, List.reverse_reverse]

/-- Only white space around a text is taken off. -/
theorem exists_padding (t : Text) :
    ∃ before after, Blank before ∧ Blank after ∧ t = before ++ (t.trim ++ after) := by
  rcases exists_trimStart t with ⟨before, hbefore, hstart⟩
  rcases exists_trimEnd t.trimStart with ⟨after, hafter, hend⟩
  refine ⟨before, after, hbefore, hafter, ?_⟩
  rw [trim, ← hend, ← hstart]

theorem head_trimStart (t : Text) : ∀ p ∈ (trimStart t).head?, isBlank p = false := by
  intro p hp
  have hnot := List.head?_dropWhile_not isBlank t
  rw [trimStart] at hp
  rw [hp] at hnot
  simpa using hnot

theorem trimmed_trim {t : Text} (ht : t.trim ≠ []) : Trimmed t.trim := by
  refine ⟨ht, ?_, ?_⟩
  · -- What stands first after trimming stood first before the end was trimmed.
    intro p hp
    rcases exists_trimEnd t.trimStart with ⟨after, -, hend⟩
    rcases List.exists_cons_of_ne_nil ht with ⟨q, rest, hcons⟩
    apply head_trimStart t p
    rw [trim] at hcons hp
    rw [hcons] at hend hp
    rw [hend]
    exact hp
  · intro p hp
    rw [trim, trimEnd, List.getLast?_reverse] at hp
    exact head_trimStart _ p hp

theorem trim_eq_nil_iff {t : Text} : t.trim = [] ↔ Blank t := by
  constructor
  · intro hnil
    rcases exists_padding t with ⟨before, after, hbefore, hafter, ht⟩
    rw [hnil] at ht
    rw [ht]
    intro p hp
    rcases List.mem_append.1 hp with hp | hp
    · exact hbefore p hp
    · exact hafter p hp
  · intro hblank
    have hstart : t.trimStart = [] := List.dropWhile_eq_nil_iff.2 hblank
    rw [trim, hstart]
    rfl

end Text
end QuocNgu
