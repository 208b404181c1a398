import QuocNgu.Proofs.Text.Cutting
import QuocNgu.Proofs.Trie.Completion
import QuocNgu.Proofs.Trie.Query

/-!
# Proofs.Trie.Typing — looking up an inserted word while it is typed

* `startsSpelling_lower_iff` : what was typed leads along the word, unless the cut splits a sigma
* `typed_ofInsertions`       : the answers for every start of every inserted word
* `typed_loses_word`         : a word that is lost on the way to its end

An insertion lowers the word as a whole, a lookup lowers what was typed up to now.
-/

namespace QuocNgu
namespace Trie

/-! ## Paths that part -/

theorem startsSpelling_append_left (t : Text) {word start : Text} :
    StartsSpelling (t ++ word) (t ++ start) ↔ StartsSpelling word start := by
  induction t with
  | nil =>
      rfl
  | cons p t ih =>
      rw [List.cons_append, List.cons_append, startsSpelling_cons, ih]
      exact and_iff_right (self_mem_variants p)

theorem startsSpelling_of_isPrefix {word start : Text} (hleading : start <+: word) :
    StartsSpelling word start :=
  ⟨word, isSpelling_self word, hleading⟩

/-- A sigma is no letter, so an inner one is stored in one form only. -/
theorem variants_sigma : variants 'σ' = ([.char 'σ'] : Text) := by
  decide +kernel

theorem not_startsSpelling_of_partAtSigma {start whole : Text}
    (hpart : Text.PartAtSigma start whole) : ¬StartsSpelling whole start := by
  rcases hpart with ⟨common, t, u, rfl, rfl⟩
  intro hstart
  have htail := (startsSpelling_append_left common).1 hstart
  have hfinal := (startsSpelling_cons.1 htail).1
  rw [variants_sigma] at hfinal
  simp at hfinal

/-- The lowered start leads along a spelling of the lowered word exactly if no cut is in its way. -/
theorem startsSpelling_lower_iff {typed rest : Text} :
    StartsSpelling (typed ++ rest).lower typed.lower ↔ ¬Text.SplitsSigma [] typed rest := by
  constructor
  · intro hstart hsplit
    exact not_startsSpelling_of_partAtSigma (Text.partAtSigma_lower hsplit) hstart
  · intro hsplit
    exact startsSpelling_of_isPrefix (Text.lower_isPrefix_append_iff.2 hsplit)

/-! ## Typing an inserted word -/

/-- An inserted word is completed from every start of it, and every start is found, as long as the
cut does not split a sigma; at such a cut the word is no completion, and what was typed is found only
if it starts a spelling of another word. -/
theorem typed_ofInsertions (insertions : List Insertion) :
    ∀ e ∈ insertions, e.word ≠ [] → ∀ typed rest, e.word = typed ++ rest →
      (e.word.lower ∈ (ofInsertions insertions).completions typed false ↔
        ¬Text.SplitsSigma [] typed rest) ∧
      (∀ dictionary, (ofInsertions insertions).query typed dictionary = .none ↔
        Text.SplitsSigma [] typed rest ∧
          ∀ f ∈ insertions, f.word ≠ e.word → ¬StartsSpelling f.word.lower typed.lower) := by
  intro e he hword typed rest hcut
  have hleading : typed.lower <+: e.word.lower ↔ ¬Text.SplitsSigma [] typed rest := by
    rw [hcut]
    exact Text.lower_isPrefix_append_iff
  have hleads : StartsSpelling e.word.lower typed.lower ↔ ¬Text.SplitsSigma [] typed rest := by
    rw [hcut]
    exact startsSpelling_lower_iff
  constructor
  · -- Another word may lower to the same text; it starts alike as well.
    rw [mem_completions_entries]
    constructor
    · intro hfound
      rcases hfound with ⟨f, -, -, hsame, hstart⟩
      rw [hsame] at hleading
      exact hleading.1 hstart
    · intro hsplit
      exact ⟨e, he, hword, rfl, hleading.2 hsplit⟩
  · intro dictionary
    rw [query_ofInsertions_none]
    constructor
    · intro hlost
      rcases hlost with ⟨-, hnone⟩
      refine ⟨?_, ?_⟩
      · by_contra hsplit
        exact hnone ⟨e, he, hleads.2 hsplit⟩
      · intro f hf _ hstart
        exact hnone ⟨f, hf, hstart⟩
    · intro hlost
      rcases hlost with ⟨hsplit, hothers⟩
      refine ⟨?_, ?_⟩
      · -- The empty start is one of every spelling, and here it is not one of the word itself.
        intro hempty
        rw [hempty] at hleads
        exact hleads.1 (startsSpelling_nil_right _) hsplit
      · intro hstart
        rcases hstart with ⟨f, hf, hstart⟩
        by_cases hsame : f.word = e.word
        · -- The same word, inserted here or earlier or later, has no path to offer.
          rw [hsame] at hstart
          exact hleads.1 hstart hsplit
        · exact hothers f hf hsame hstart

theorem splitsSigma_capitals : Text.SplitsSigma [] ['Α', 'Σ'] ['Α'] := by
  refine ⟨['Α'], [], rfl, ?_, rfl, ?_⟩
  · decide +kernel
  · decide +kernel

/-- Cut at its sigma, the first word is no completion of what was typed; that is found all the same,
since it is the second word. -/
theorem typed_ofInsertions_capitals :
    (⟨['Α', 'Σ', 'Α'], true⟩ ∈ [(⟨['Α', 'Σ', 'Α'], true⟩ : Insertion), ⟨['Α', 'Σ'], true⟩] ∧
      (['Α', 'Σ', 'Α'] : Text) ≠ [] ∧ (['Α', 'Σ', 'Α'] : Text) = ['Α', 'Σ'] ++ ['Α']) ∧
    (Text.lower ['Α', 'Σ', 'Α'] ∉
      (ofInsertions [⟨['Α', 'Σ', 'Α'], true⟩, ⟨['Α', 'Σ'], true⟩]).completions ['Α', 'Σ'] false) ∧
    (ofInsertions [⟨['Α', 'Σ', 'Α'], true⟩, ⟨['Α', 'Σ'], true⟩]).query ['Α', 'Σ'] true ≠ .none := by
  have hmem : ⟨['Α', 'Σ', 'Α'], true⟩ ∈
      [(⟨['Α', 'Σ', 'Α'], true⟩ : Insertion), ⟨['Α', 'Σ'], true⟩] := by simp
  have hword : (['Α', 'Σ', 'Α'] : Text) ≠ [] := by simp
  rcases typed_ofInsertions [⟨['Α', 'Σ', 'Α'], true⟩, ⟨['Α', 'Σ'], true⟩] _ hmem hword
    ['Α', 'Σ'] ['Α'] rfl with ⟨hcompleted, hfound⟩
  refine ⟨⟨hmem, hword, rfl⟩, ?_, ?_⟩
  · intro hcompletion
    exact hcompleted.1 hcompletion splitsSigma_capitals
  · intro hnone
    have hothers := ((hfound true).1 hnone).2 ⟨['Α', 'Σ'], true⟩ (by simp) (by simp)
    exact hothers (startsSpelling_of_isPrefix (List.prefix_refl _))

/-- In capitals, a word with a sigma inside it is lost when the sigma has been typed: the start is
not found, and the word is no completion of it. -/
theorem typed_loses_word :
    (¬∀ insertions : List Insertion, ∀ e ∈ insertions, e.word ≠ [] → ∀ k ≤ e.word.length,
      (ofInsertions insertions).query (e.word.take k) false ≠ .none) ∧
    (¬∀ insertions : List Insertion, ∀ e ∈ insertions, e.word ≠ [] → ∀ k ≤ e.word.length,
      e.word.lower ∈ (ofInsertions insertions).completions (e.word.take k) false) := by
  constructor
  · intro hclaim
    have hfound := hclaim [⟨['Α', 'Σ', 'Α'], false⟩] ⟨['Α', 'Σ', 'Α'], false⟩ (by simp) (by simp)
      2 (by simp)
    apply hfound
    rw [query_ofInsertions_none]
    refine ⟨mt Text.lower_eq_nil_iff.1 (by simp), ?_⟩
    intro hstart
    rcases hstart with ⟨e, he, hstart⟩
    rw [List.mem_singleton.1 he] at hstart
    exact startsSpelling_lower_iff.1 hstart splitsSigma_capitals
  · intro hclaim
    have hcompletion := hclaim [⟨['Α', 'Σ', 'Α'], false⟩] ⟨['Α', 'Σ', 'Α'], false⟩ (by simp)
      (by simp) 2 (by simp)
    rcases (mem_completions_entries _ _ _).1 hcompletion with ⟨e, -, -, hsame, hstart⟩
    rw [← hsame] at hstart
    exact Text.lower_isPrefix_append_iff.1 hstart splitsSigma_capitals

end Trie
end QuocNgu
