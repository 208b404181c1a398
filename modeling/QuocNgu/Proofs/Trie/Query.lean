import QuocNgu.Proofs.Letter.Lowering
import QuocNgu.Proofs.Trie.Insertion

/-!
# Proofs.Trie.Query — what a tree of inserted words answers

* `query_ofInsertions`      : the answer to every query, read off the inserted words
* `query_of_mem_iff`        : the same words in another order give the same answers
* `query_plainer_spellings` : words are found without their marks and tones, in any case

A query lowers what it is asked for, as an insertion lowers the word. A writer may leave out marks
and tones before either happens, so the second statement needs both to change places.
-/

namespace QuocNgu
namespace Trie

/-! ## Queries on any tree -/

theorem query_eq_none_iff {t : Trie} {q : Text} {dictionary : Bool} :
    t.query q dictionary = .none ↔ ¬t.hasPath q.lower = true := by
  cases hfound : findPath? q.lower t with
  | none =>
      simp [query, find?, hasPath, hfound]
  | some found =>
      have hmatched : found.flags.matched dictionary ≠ .none := by
        simp only [Flags.matched]
        split <;> simp
      simp [query, find?, hasPath, hfound, hmatched]

theorem query_eq_full_iff {t : Trie} {q : Text} {dictionary : Bool} :
    t.query q dictionary = .full ↔
      (t.flagsAt q.lower).full = true ∧
        (dictionary = true → (t.flagsAt q.lower).dictionary = true) := by
  cases hfound : findPath? q.lower t with
  | none =>
      simp [query, find?, flagsAt, hfound, Flags.clear]
  | some found =>
      cases dictionary <;> simp [query, find?, flagsAt, hfound, Flags.matched]

theorem query_eq_start_iff {t : Trie} {q : Text} {dictionary : Bool} :
    t.query q dictionary = .start ↔
      ¬t.query q dictionary = .full ∧ ¬t.query q dictionary = .none := by
  cases t.query q dictionary <;> simp

/-! ## Queries after a run of insertions -/

section OfInsertions

variable (insertions : List Insertion) (q : Text)

theorem query_ofInsertions_full :
    (ofInsertions insertions).query q false = .full ↔
      ∃ e ∈ insertions, e.word ≠ [] ∧ IsSpelling e.word.lower q.lower := by
  have hfull := full_ofInsertions insertions q.lower
  simpa [query_eq_full_iff] using hfull

theorem query_ofInsertions_dictionary :
    (ofInsertions insertions).query q true = .full ↔
      ∃ e ∈ insertions, e.word ≠ [] ∧ e.dictionary = true ∧ q.lower = e.word.lower := by
  rw [query_eq_full_iff, full_ofInsertions, dictionary_ofInsertions]
  constructor
  · intro h
    rcases h.2 rfl with ⟨e, he, hflag, hword, hlower⟩
    exact ⟨e, he, hword, hflag, hlower⟩
  · intro h
    rcases h with ⟨e, he, hword, hflag, hlower⟩
    -- A node of the dictionary is full, as a word is one of its own spellings.
    have hspelling : IsSpelling e.word.lower q.lower := by
      rw [hlower]
      exact isSpelling_self e.word.lower
    exact ⟨⟨e, he, hword, hspelling⟩, fun _ => ⟨e, he, hflag, hword, hlower⟩⟩

/-- An empty word adds no path, and the empty text is the only start of its spelling. -/
theorem query_ofInsertions_none (dictionary : Bool) :
    (ofInsertions insertions).query q dictionary = .none ↔
      q.lower ≠ [] ∧ ¬∃ e ∈ insertions, StartsSpelling e.word.lower q.lower := by
  rw [query_eq_none_iff, hasPath_ofInsertions, not_or]
  apply and_congr_right
  intro hlower
  apply not_congr
  constructor
  · intro h
    rcases h with ⟨e, he, -, hstart⟩
    exact ⟨e, he, hstart⟩
  · intro h
    rcases h with ⟨e, he, hstart⟩
    refine ⟨e, he, ?_, hstart⟩
    intro hword
    have hempty : e.word.lower = [] := Text.lower_eq_nil_iff.2 hword
    have hstart' : q.lower = [] := by
      simpa [hempty] using hstart
    exact hlower hstart'

/-- Every answer after any run of insertions. -/
theorem query_ofInsertions :
    ((ofInsertions insertions).query q false = .full ↔
      ∃ e ∈ insertions, e.word ≠ [] ∧ IsSpelling e.word.lower q.lower) ∧
    ((ofInsertions insertions).query q true = .full ↔
      ∃ e ∈ insertions, e.word ≠ [] ∧ e.dictionary = true ∧ q.lower = e.word.lower) ∧
    (∀ dictionary, (ofInsertions insertions).query q dictionary = .none ↔
      q.lower ≠ [] ∧ ¬∃ e ∈ insertions, StartsSpelling e.word.lower q.lower) ∧
    ((ofInsertions insertions).query q false = .start ↔
      (¬∃ e ∈ insertions, e.word ≠ [] ∧ IsSpelling e.word.lower q.lower) ∧
        (q.lower = [] ∨ ∃ e ∈ insertions, StartsSpelling e.word.lower q.lower)) ∧
    ((ofInsertions insertions).query q true = .start ↔
      (¬∃ e ∈ insertions, e.word ≠ [] ∧ e.dictionary = true ∧ q.lower = e.word.lower) ∧
        (q.lower = [] ∨ ∃ e ∈ insertions, StartsSpelling e.word.lower q.lower)) := by
  have hfull := query_ofInsertions_full insertions q
  have hdictionary := query_ofInsertions_dictionary insertions q
  have hnone := query_ofInsertions_none insertions q
  have hreached : ∀ dictionary, ¬(ofInsertions insertions).query q dictionary = .none ↔
      (q.lower = [] ∨ ∃ e ∈ insertions, StartsSpelling e.word.lower q.lower) := by
    intro dictionary
    rw [hnone, not_and_or, not_not, not_not]
  refine ⟨hfull, hdictionary, hnone, ?_, ?_⟩
  · rw [query_eq_start_iff, hfull, hreached]
  · rw [query_eq_start_iff, hdictionary, hreached]

end OfInsertions

theorem Match.ext {m m' : Match} (hnone : m = .none ↔ m' = .none) (hfull : m = .full ↔ m' = .full) :
    m = m' := by
  cases m <;> cases m' <;> simp_all

/-- The order of insertions does not matter to an answer, nor does it matter to repeat one. -/
theorem query_of_mem_iff {insertions insertions' : List Insertion}
    (hsame : ∀ e, e ∈ insertions ↔ e ∈ insertions') (q : Text) (dictionary : Bool) :
    (ofInsertions insertions).query q dictionary =
      (ofInsertions insertions').query q dictionary := by
  apply Match.ext
  · simp only [query_ofInsertions_none, hsame]
  · cases dictionary with
    | false => simp only [query_ofInsertions_full, hsame]
    | true => simp only [query_ofInsertions_dictionary, hsame]

/-! ## Queries without marks and tones -/

/-- Each code point of the second text is the one in its place in the first, or that one without
its tone, or that one without mark and tone. -/
def IsPlainer (word plainer : Text) : Prop :=
  List.Forall₂ (fun p v => v = p ∨ v = Letter.untoned p ∨ v = Letter.stripped p) word plainer

instance (word plainer : Text) : Decidable (IsPlainer word plainer) :=
  inferInstanceAs (Decidable (List.Forall₂ _ _ _))

/-- The edits that make a letter plainer. -/
def plainEdits : List (Letter → Letter) := [id, (·.withTone .level), Letter.bare]

theorem isPlainEdit_of_mem_plainEdits :
    ∀ edit ∈ plainEdits, Letter.IsPlainEdit edit := by
  simp [plainEdits, Letter.isPlainEdit_id, Letter.isPlainEdit_withTone_level,
    Letter.isPlainEdit_bare]

theorem edited_plainEdits_iff {p v : Point} :
    Letter.Edited plainEdits p v ↔ v = p ∨ v = Letter.untoned p ∨ v = Letter.stripped p := by
  have hid : Letter.onPoint id p = p := by
    cases hletter : Letter.ofPoint? p with
    | none =>
        exact Letter.onPoint_of_none id hletter
    | some l =>
        rw [Letter.eq_toChar_of_ofPoint? hletter, Letter.onPoint_toChar]
        rfl
  simp [Letter.Edited, plainEdits, hid, Letter.untoned, Letter.stripped]

/-- A plainer form of a word, lowered afterwards, is a spelling of the lowered word. -/
theorem IsPlainer.isSpelling_lower {word plainer : Text} (hplainer : IsPlainer word plainer) :
    IsSpelling word.lower plainer.lower := by
  have hedited : List.Forall₂ (Letter.Edited plainEdits) word plainer :=
    hplainer.imp fun _ _ => edited_plainEdits_iff.2
  have hlower := Letter.forall₂_edited_lower isPlainEdit_of_mem_plainEdits hedited
  refine hlower.imp ?_
  intro p v hv
  exact mem_variants.2 (edited_plainEdits_iff.1 hv)

theorem isPlainer_stripTones (word : Text) : IsPlainer word (Letter.stripTones word) := by
  apply List.forall₂_map_right_iff.2
  apply List.forall₂_same.2
  intro p _
  exact Or.inr (Or.inl rfl)

theorem isPlainer_strip (word : Text) : IsPlainer word (Letter.strip word) := by
  apply List.forall₂_map_right_iff.2
  apply List.forall₂_same.2
  intro p _
  exact Or.inr (Or.inr rfl)

/-- A text without marks and tones spells a lowered word exactly if stripping the word gives it. -/
theorem isSpelling_lower_iff_of_stripped {word q : Text} (hq : Letter.strip q = q) :
    IsSpelling word.lower q.lower ↔ (Letter.strip word).lower = q.lower := by
  have hlowered : Letter.strip q.lower = q.lower := by
    rw [Letter.strip_lower, hq]
  constructor
  · intro hspelling
    calc
      (Letter.strip word).lower = Letter.strip word.lower := (Letter.strip_lower word).symm
      _ = Letter.strip q.lower := hspelling.strip_eq.symm
      _ = q.lower := hlowered
  · intro hsame
    rw [← hsame]
    exact (isPlainer_strip word).isSpelling_lower

/-- Words are found in every plainer form, and a text without marks and tones is found only as the
stripped form of a word. -/
theorem query_plainer_spellings (insertions : List Insertion) :
    (∀ e ∈ insertions, e.word ≠ [] → ∀ u, IsPlainer e.word u →
      (ofInsertions insertions).query u false = .full) ∧
    (∀ e ∈ insertions, e.word ≠ [] →
      (ofInsertions insertions).query (Letter.stripTones e.word) false = .full ∧
        (ofInsertions insertions).query (Letter.strip e.word) false = .full) ∧
    (∀ q, Letter.strip q = q →
      ((ofInsertions insertions).query q false = .full ↔
        ∃ e ∈ insertions, e.word ≠ [] ∧ (Letter.strip e.word).lower = q.lower)) := by
  have hplainer : ∀ e ∈ insertions, e.word ≠ [] → ∀ u, IsPlainer e.word u →
      (ofInsertions insertions).query u false = .full := by
    intro e he hword u hu
    have hspelling : IsSpelling e.word.lower u.lower := hu.isSpelling_lower
    exact (query_ofInsertions_full insertions u).2 ⟨e, he, hword, hspelling⟩
  refine ⟨hplainer, ?_, ?_⟩
  · intro e he hword
    exact ⟨hplainer e he hword _ (isPlainer_stripTones e.word),
      hplainer e he hword _ (isPlainer_strip e.word)⟩
  · intro q hq
    simp only [query_ofInsertions_full, isSpelling_lower_iff_of_stripped hq]

/-- Beside a final sigma, which has to stay final when the letter before it is stripped. -/
theorem query_plainer_spellings_final_sigma :
    ((⟨['Ộ', 'Σ'], true⟩ ∈ [(⟨['Ộ', 'Σ'], true⟩ : Insertion)] ∧ (['Ộ', 'Σ'] : Text) ≠ [] ∧
      IsPlainer ['Ộ', 'Σ'] ['Ô', 'Σ']) ∧
        (ofInsertions [⟨['Ộ', 'Σ'], true⟩]).query ['Ô', 'Σ'] false = .full) ∧
    (Letter.strip ['O', 'Σ'] = ['O', 'Σ'] ∧
      ((ofInsertions [⟨['Ộ', 'Σ'], true⟩]).query ['O', 'Σ'] false = .full ↔
        ∃ e ∈ [(⟨['Ộ', 'Σ'], true⟩ : Insertion)], e.word ≠ [] ∧
          (Letter.strip e.word).lower = Text.lower ['O', 'Σ'])) := by
  have hmem : ⟨['Ộ', 'Σ'], true⟩ ∈ [(⟨['Ộ', 'Σ'], true⟩ : Insertion)] := by simp
  have hplainer : IsPlainer ['Ộ', 'Σ'] ['Ô', 'Σ'] := by decide +kernel
  have hstripped : Letter.strip ['O', 'Σ'] = ['O', 'Σ'] := by decide +kernel
  rcases query_plainer_spellings [⟨['Ộ', 'Σ'], true⟩] with ⟨hfound, -, hconverse⟩
  exact ⟨⟨⟨hmem, by simp, hplainer⟩, hfound _ hmem (by simp) _ hplainer⟩,
    hstripped, hconverse _ hstripped⟩

end Trie
end QuocNgu
