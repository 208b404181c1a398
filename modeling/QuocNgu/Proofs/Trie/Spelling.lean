import Mathlib.Data.List.Forall2
import QuocNgu.Proofs.Letter.Editing
import QuocNgu.Proofs.List.Basic
import QuocNgu.Trie

/-!
# Proofs.Trie.Spelling — the spellings that a word is stored under

* `mem_variants`   : the variants of a code point are itself, itself untoned and itself stripped
* `IsSpelling`     : a text that takes a variant of each code point of a word
* `StartsSpelling` : a text that some spelling of a word starts with

A word is one of its own spellings; the others are its aliases.
-/

namespace QuocNgu
namespace Trie

/-! ## Variants of a code point -/

theorem mem_variants {p v : Point} :
    v ∈ variants p ↔ v = p ∨ v = Letter.untoned p ∨ v = Letter.stripped p := by
  simp [variants, List.mem_eraseDups, Letter.unmarked_untoned]

theorem self_mem_variants (p : Point) : p ∈ variants p := mem_variants.2 (Or.inl rfl)

theorem variants_nodup (p : Point) : (variants p).Nodup := nodup_eraseDups _

theorem stripped_of_mem_variants {p v : Point} (hv : v ∈ variants p) :
    Letter.stripped v = Letter.stripped p := by
  rcases mem_variants.1 hv with rfl | rfl | rfl
  · rfl
  · exact Letter.stripped_untoned p
  · exact Letter.stripped_stripped p

/-! ## Spellings of a word -/

/-- Each code point of the spelling is a variant of the one in its place in the word. -/
def IsSpelling (word spelling : Text) : Prop :=
  List.Forall₂ (fun p v => v ∈ variants p) word spelling

instance (word spelling : Text) : Decidable (IsSpelling word spelling) :=
  inferInstanceAs (Decidable (List.Forall₂ _ _ _))

/-- Some spelling of the word starts with this text. -/
def StartsSpelling (word start : Text) : Prop :=
  ∃ spelling, IsSpelling word spelling ∧ start <+: spelling

theorem isSpelling_self (word : Text) : IsSpelling word word := by
  apply List.forall₂_same.2
  intro p _
  exact self_mem_variants p

@[simp]
theorem isSpelling_nil {spelling : Text} : IsSpelling [] spelling ↔ spelling = [] := by
  simp [IsSpelling]

@[simp]
theorem isSpelling_nil_right {word : Text} : IsSpelling word [] ↔ word = [] := by
  simp [IsSpelling]

@[simp]
theorem isSpelling_cons {p v : Point} {word spelling : Text} :
    IsSpelling (p :: word) (v :: spelling) ↔ v ∈ variants p ∧ IsSpelling word spelling := by
  simp [IsSpelling]

@[simp]
theorem startsSpelling_nil_right (word : Text) : StartsSpelling word [] :=
  ⟨word, isSpelling_self word, List.nil_prefix⟩

@[simp]
theorem startsSpelling_nil {start : Text} : StartsSpelling [] start ↔ start = [] := by
  simp [StartsSpelling]

@[simp]
theorem startsSpelling_cons {p v : Point} {word start : Text} :
    StartsSpelling (p :: word) (v :: start) ↔ v ∈ variants p ∧ StartsSpelling word start := by
  constructor
  · intro h
    rcases h with ⟨spelling, hspelling, hstart⟩
    cases spelling with
    | nil =>
        simp at hspelling
    | cons v' spelling =>
        rcases isSpelling_cons.1 hspelling with ⟨hv, hrest⟩
        rcases List.cons_prefix_cons.1 hstart with ⟨rfl, hstart'⟩
        exact ⟨hv, spelling, hrest, hstart'⟩
  · intro h
    rcases h with ⟨hv, spelling, hspelling, hstart⟩
    refine ⟨v :: spelling, ?_, ?_⟩
    · exact isSpelling_cons.2 ⟨hv, hspelling⟩
    · exact List.cons_prefix_cons.2 ⟨rfl, hstart⟩

/-- All spellings of a word strip to the same text. -/
theorem IsSpelling.strip_eq {word spelling : Text} (hspelling : IsSpelling word spelling) :
    Letter.strip spelling = Letter.strip word := by
  induction hspelling with
  | nil =>
      rfl
  | cons hv _ ih =>
      have hhead := stripped_of_mem_variants hv
      simp only [Letter.strip, List.map_cons] at ih ⊢
      rw [hhead, ih]

end Trie
end QuocNgu
