import Mathlib.Data.Set.List
import QuocNgu.Lexicon
import QuocNgu.Proofs.Trie.Query

/-!
# Proofs.Lexicon.Loading — a lexicon after any run of loads and questions

* `Loadable`     : a list in which every value that is not empty is a text
* `load_texts`, `load_others` : what a load does, for a list that can be loaded and for any other
* `Operation`, `perform`, `run` : what a lexicon can be asked, one operation or many
* `after_append_load` : only the last list that could be loaded is left in a lexicon
* `answers_after_run` : the answers after any run

A load that fails is told from one that succeeds by its list alone, whatever was loaded before.
-/

namespace QuocNgu

/-! ## Trees of values -/

namespace Trie

/-- An empty text is left out by either side. -/
theorem insertValue_text (t : Trie) (word : Text) (dictionary : Bool) :
    t.insertValue (.text word) dictionary = .ok (t.insert word dictionary) := by
  cases word with
  | nil =>
      rfl
  | cons p rest =>
      rfl

theorem foldlM_insertValue_texts (words : List Text) (dictionary : Bool) (t : Trie) :
    (words.map Value.text).foldlM (fun t word => t.insertValue word dictionary) t =
      Except.ok (words.foldl (fun t word => t.insert word dictionary) t) := by
  induction words generalizing t with
  | nil =>
      rfl
  | cons word rest ih =>
      rw [List.map_cons, List.foldlM_cons, insertValue_text]
      exact ih (t.insert word dictionary)

theorem insertValue_other {word : Value} (htruthy : word.isTruthy = true)
    (hother : ¬∃ w, word = .text w) (t : Trie) (dictionary : Bool) :
    t.insertValue word dictionary = .error .notText := by
  cases word with
  | text w => exact absurd ⟨w, rfl⟩ hother
  | _ => exact if_pos htruthy

/-- One value that is no text is enough, wherever it stands among the others. -/
theorem foldlM_insertValue_other {words : List Value}
    (hwords : ∃ word ∈ words, word.isTruthy = true ∧ ¬∃ w, word = .text w) (dictionary : Bool)
    (t : Trie) :
    words.foldlM (fun t word => t.insertValue word dictionary) t = .error .notText := by
  induction words generalizing t with
  | nil =>
      simp at hwords
  | cons word rest ih =>
      rw [List.foldlM_cons]
      by_cases hword : word.isTruthy = true ∧ ¬∃ w, word = .text w
      · rw [insertValue_other hword.1 hword.2]
        rfl
      · have hrest : ∃ word ∈ rest, word.isTruthy = true ∧ ¬∃ w, word = .text w := by
          rcases hwords with ⟨word', hmem, hother⟩
          rcases List.mem_cons.1 hmem with rfl | hmem
          · exact absurd hother hword
          · exact ⟨word', hmem, hother⟩
        -- The value is passed over or inserted, and the fault is still to come.
        have hstep : ∃ t', t.insertValue word dictionary = .ok t' := by
          by_cases htext : ∃ w, word = .text w
          · rcases htext with ⟨w, rfl⟩
            exact ⟨_, insertValue_text t w dictionary⟩
          · have hempty : ¬word.isTruthy = true := fun htruthy => hword ⟨htruthy, htext⟩
            exact ⟨t, if_neg hempty⟩
        rcases hstep with ⟨t', ht'⟩
        rw [ht']
        exact ih hrest t'

theorem ofWords_eq (words : List Text) (dictionary : Bool) :
    ofWords words dictionary = ofInsertions (words.map (⟨·, dictionary⟩)) := by
  rw [ofInsertions, insertAll, List.foldl_map, ofWords]

end Trie

namespace Lexicon

/-! ## One load -/

/-- Every value that is not empty is a text. -/
def Loadable (words : List Value) : Prop :=
  ∀ word ∈ words, word.isTruthy = true → ∃ w, word = .text w

theorem Loadable.exists_texts {words : List Value} (hwords : Loadable words) :
    ∃ texts : List Text, words.filter (·.isTruthy) = texts.map Value.text := by
  have hrange : words.filter (·.isTruthy) ∈ Set.range (List.map Value.text) := by
    rw [Set.range_list_map]
    intro word hmem
    rcases List.mem_filter.1 hmem with ⟨hword, htruthy⟩
    rcases hwords word hword htruthy with ⟨w, rfl⟩
    exact ⟨w, rfl⟩
  rcases hrange with ⟨texts, htexts⟩
  exact ⟨texts, htexts.symm⟩

theorem ofValues_texts {words : List Value} {texts : List Text}
    (htexts : words.filter (·.isTruthy) = texts.map Value.text) (dictionary : Bool) :
    ofValues words dictionary = .ok ⟨Trie.ofWords texts dictionary, texts.length, true⟩ := by
  have htree : Trie.ofValues (texts.map Value.text) dictionary =
      .ok (Trie.ofWords texts dictionary) :=
    Trie.foldlM_insertValue_texts texts dictionary Trie.empty
  rw [ofValues, htexts, htree, List.length_map]
  rfl

theorem load_texts {words : List Value} {texts : List Text}
    (htexts : words.filter (·.isTruthy) = texts.map Value.text) (l : Lexicon) (dictionary : Bool) :
    l.load words dictionary =
      (⟨Trie.ofWords texts dictionary, texts.length, true⟩, .ok [loaded texts.length]) := by
  rw [load, ofValues_texts htexts]

theorem load_others {words : List Value} (hwords : ¬Loadable words) (l : Lexicon)
    (dictionary : Bool) : l.load words dictionary = (l, .error .notText) := by
  have hother : ∃ word ∈ words.filter (·.isTruthy),
      word.isTruthy = true ∧ ¬∃ w, word = .text w := by
    simp only [Loadable, not_forall] at hwords
    rcases hwords with ⟨word, hmem, htruthy, hother⟩
    exact ⟨word, List.mem_filter.2 ⟨hmem, htruthy⟩, htruthy, hother⟩
  have htree : Trie.ofValues (words.filter (·.isTruthy)) dictionary = .error .notText :=
    Trie.foldlM_insertValue_other hother dictionary Trie.empty
  have hnew : ofValues words dictionary = .error .notText := by
    rw [ofValues, htree]
    rfl
  rw [load, hnew]

/-! ## Runs of operations -/

inductive Operation where
  | load (words : List Value) (dictionary : Bool)
  | query (word : Text) (dictionary : Bool)
  | completions (start : Text) (aliases : Bool)
  | contains (word : Text)
  | isReady
  | wordCount

inductive Answer where
  | loaded (outcome : Except Fault (List Log.Entry))
  | matched (m : Trie.Match)
  | completed (spellings : List Text)
  | truth (b : Bool)
  | number (n : Nat)

def perform (l : Lexicon) : Operation → Lexicon × Answer
  | .load words dictionary =>
      let (l', outcome) := l.load words dictionary
      (l', .loaded outcome)
  | .query word dictionary => (l, .matched (l.query word dictionary))
  | .completions start aliases => (l, .completed (l.completions start aliases))
  | .contains word => (l, .truth (l.contains word))
  | .isReady => (l, .truth l.ready)
  | .wordCount => (l, .number l.count)

/-- The lexicon after a run and the answers given on the way. -/
def run (l : Lexicon) : List Operation → Lexicon × List Answer
  | [] => (l, [])
  | op :: rest =>
      let (l', answer) := l.perform op
      let (l'', answers) := l'.run rest
      (l'', answer :: answers)

def Operation.Succeeds : Operation → Prop
  | .load words _ => Loadable words
  | _ => False

theorem run_append (l : Lexicon) (before later : List Operation) :
    l.run (before ++ later) =
      (((l.run before).1.run later).1, (l.run before).2 ++ ((l.run before).1.run later).2) := by
  induction before generalizing l with
  | nil =>
      rfl
  | cons op rest ih =>
      simp only [List.cons_append, run, ih]

theorem length_answers (l : Lexicon) (ops : List Operation) :
    (l.run ops).2.length = ops.length := by
  induction ops generalizing l with
  | nil =>
      rfl
  | cons op rest ih =>
      simp only [run, List.length_cons, ih]

/-- Only a load that succeeds changes a lexicon. -/
theorem perform_of_not_succeeds {op : Operation} (hop : ¬op.Succeeds) (l : Lexicon) :
    (l.perform op).1 = l := by
  cases op with
  | load words dictionary =>
      rw [perform, load_others hop]
  | query word dictionary => rfl
  | completions start aliases => rfl
  | contains word => rfl
  | isReady => rfl
  | wordCount => rfl

theorem run_of_not_succeeds {ops : List Operation} (hops : ∀ op ∈ ops, ¬op.Succeeds)
    (l : Lexicon) : (l.run ops).1 = l := by
  induction ops generalizing l with
  | nil =>
      rfl
  | cons op rest ih =>
      rcases List.forall_mem_cons.1 hops with ⟨hop, hrest⟩
      have hstep := perform_of_not_succeeds hop l
      have hafter := ih hrest (l.perform op).1
      simp only [run]
      rw [hafter, hstep]

/-! ## After a run -/

/-- The lexicon after a run on an empty one. -/
def after (ops : List Operation) : Lexicon := (empty.run ops).1

/-- What an operation answers after a run. -/
def answerAfter (ops : List Operation) (op : Operation) : Answer := ((after ops).perform op).2

theorem after_append_load {words : List Value} {texts : List Text}
    (htexts : words.filter (·.isTruthy) = texts.map Value.text) (dictionary : Bool)
    {later : List Operation} (hlater : ∀ op ∈ later, ¬op.Succeeds) (before : List Operation) :
    after (before ++ .load words dictionary :: later) =
      ⟨Trie.ofWords texts dictionary, texts.length, true⟩ := by
  have hload : ((after before).perform (.load words dictionary)).1 =
      ⟨Trie.ofWords texts dictionary, texts.length, true⟩ := by
    rw [perform, load_texts htexts]
  rw [after, run_append]
  exact (run_of_not_succeeds hlater _).trans hload

/-- A run in which a load succeeds has a last load that does. -/
theorem exists_last_load {ops : List Operation} (hops : ∃ op ∈ ops, op.Succeeds) :
    ∃ before words dictionary later, ops = before ++ .load words dictionary :: later ∧
      Loadable words ∧ ∀ op ∈ later, ¬op.Succeeds := by
  induction ops with
  | nil =>
      simp at hops
  | cons op rest ih =>
      by_cases hrest : ∃ op ∈ rest, op.Succeeds
      · rcases ih hrest with ⟨before, words, dictionary, later, rfl, hwords, hlater⟩
        exact ⟨op :: before, words, dictionary, later, rfl, hwords, hlater⟩
      · have hop : op.Succeeds := by
          simpa [hrest] using hops
        have hlater : ∀ op ∈ rest, ¬op.Succeeds := by
          intro op' hmem hsucceeds
          exact hrest ⟨op', hmem, hsucceeds⟩
        cases op with
        | load words dictionary => exact ⟨[], words, dictionary, rest, rfl, hop, hlater⟩
        | _ => exact False.elim hop

theorem ready_after_iff (ops : List Operation) :
    (after ops).ready = true ↔ ∃ op ∈ ops, op.Succeeds := by
  constructor
  · intro hready
    by_contra hops
    have hnone : ∀ op ∈ ops, ¬op.Succeeds := by
      intro op hmem hsucceeds
      exact hops ⟨op, hmem, hsucceeds⟩
    have hempty : after ops = empty := run_of_not_succeeds hnone empty
    rw [hempty] at hready
    cases hready
  · intro hops
    rcases exists_last_load hops with ⟨before, words, dictionary, later, rfl, hwords, hlater⟩
    rcases hwords.exists_texts with ⟨texts, htexts⟩
    rw [after_append_load htexts dictionary hlater]

theorem loads_iff (l : Lexicon) (words : List Value) (dictionary : Bool) :
    (∃ log, (l.perform (.load words dictionary)).2 = .loaded (.ok log)) ↔ Loadable words := by
  by_cases hwords : Loadable words
  · rcases hwords.exists_texts with ⟨texts, htexts⟩
    simp [perform, load_texts htexts, hwords]
  · simp [perform, load_others hwords, hwords]

theorem contains_ofWords_iff (texts : List Text) (dictionary : Bool) (q : Text) :
    (Trie.ofWords texts dictionary).query q true = .full ↔
      dictionary = true ∧ ∃ w ∈ texts, w ≠ [] ∧ q.lower = w.lower := by
  rw [Trie.ofWords_eq, Trie.query_ofInsertions_dictionary]
  simp only [List.mem_map, exists_exists_and_eq_and]
  constructor
  · intro h
    rcases h with ⟨w, hw, hword, hflag, hlower⟩
    exact ⟨hflag, w, hw, hword, hlower⟩
  · intro h
    rcases h with ⟨hflag, w, hw, hword, hlower⟩
    exact ⟨w, hw, hword, hflag, hlower⟩

/-- Every answer after any run. A load answers by its list alone; one that fails is as good as not
asked for; and what is read is read from the words of the last list that was loaded. -/
theorem answers_after_run (before : List Operation) :
    (∀ words dictionary, (∃ log, answerAfter before (.load words dictionary) = .loaded (.ok log)) ↔
      Loadable words) ∧
    (∀ words dictionary later, ¬Loadable words →
      (empty.run (before ++ .load words dictionary :: later)).2 =
        (empty.run before).2 ++ .loaded (.error .notText) ::
          (empty.run (before ++ later)).2.drop before.length) ∧
    (∀ words dictionary later, Loadable words → (∀ op ∈ later, ¬op.Succeeds) →
      let ops := before ++ .load words dictionary :: later
      ∃ texts : List Text, words.filter (·.isTruthy) = texts.map Value.text ∧
        (∀ q f, answerAfter ops (.query q f) =
          .matched ((Trie.ofWords texts dictionary).query q f)) ∧
        (∀ start aliases, answerAfter ops (.completions start aliases) =
          .completed ((Trie.ofWords texts dictionary).sortedCompletions start aliases)) ∧
        (∀ q, answerAfter ops (.contains q) = .truth true ↔
          dictionary = true ∧ ∃ w ∈ texts, q.lower = w.lower) ∧
        answerAfter ops .wordCount = .number (words.filter (·.isTruthy)).length) ∧
    (answerAfter before .isReady = .truth true ↔ ∃ op ∈ before, op.Succeeds) := by
  refine ⟨fun words dictionary => loads_iff (after before) words dictionary, ?_, ?_, ?_⟩
  · intro words dictionary later hwords
    have hfails : (after before).perform (.load words dictionary) =
        (after before, .loaded (.error .notText)) := by
      rw [perform, load_others hwords]
    have hlength := length_answers empty before
    rw [run_append, run_append, List.drop_left' hlength]
    change _ ++ ((after before).run (.load words dictionary :: later)).2 = _
    simp only [run, hfails]
    rfl
  · intro words dictionary later hwords hlater ops
    rcases hwords.exists_texts with ⟨texts, htexts⟩
    have hafter : after ops = ⟨Trie.ofWords texts dictionary, texts.length, true⟩ :=
      after_append_load htexts dictionary hlater before
    have hfull : ∀ w ∈ texts, w ≠ [] := by
      intro w hw hempty
      have hmem : Value.text w ∈ words.filter (·.isTruthy) := by
        rw [htexts]
        exact List.mem_map_of_mem hw
      simp [Value.isTruthy, hempty] at hmem
    refine ⟨texts, htexts, ?_, ?_, ?_, ?_⟩
    · intro q f
      rw [answerAfter, hafter]
      rfl
    · intro start aliases
      rw [answerAfter, hafter]
      rfl
    · intro q
      have hcontains := contains_ofWords_iff texts dictionary q
      rw [answerAfter, hafter]
      simp only [perform, contains, query, Answer.truth.injEq, decide_eq_true_eq, hcontains]
      apply and_congr_right
      intro _
      constructor
      · rintro ⟨w, hw, -, hlower⟩
        exact ⟨w, hw, hlower⟩
      · rintro ⟨w, hw, hlower⟩
        exact ⟨w, hw, hfull w hw, hlower⟩
    · rw [answerAfter, hafter, htexts, List.length_map]
      rfl
  · rw [← ready_after_iff]
    simp [answerAfter, perform]

/-- After a load that fails half-way, and after one that is followed by a load that fails. -/
theorem answers_after_run_failed_loads :
    (¬Loadable [.text ['b', 'a'], .integer 7] ∧
      (empty.run ([.load [.text ['m', 'ộ', 't']] true] ++
          .load [.text ['b', 'a'], .integer 7] true :: [.contains ['M', 'Ộ', 'T']])).2 =
        (empty.run [.load [.text ['m', 'ộ', 't']] true]).2 ++ .loaded (.error .notText) ::
          (empty.run ([.load [.text ['m', 'ộ', 't']] true] ++
            [.contains ['M', 'Ộ', 'T']])).2.drop 1) ∧
    (Loadable [.text [], .text ['H', 'a', 'i'], .null] ∧
      (∀ op ∈ [Operation.load [.integer 3] true, .isReady], ¬op.Succeeds) ∧
      let ops := [Operation.load [.text ['m', 'ộ', 't']] true] ++
        .load [.text [], .text ['H', 'a', 'i'], .null] false ::
          [.load [.integer 3] true, .isReady]
      ∃ texts : List Text,
        [Value.text [], .text ['H', 'a', 'i'], .null].filter (·.isTruthy) =
          texts.map Value.text ∧
        (∀ q f, answerAfter ops (.query q f) =
          .matched ((Trie.ofWords texts false).query q f)) ∧
        (∀ start aliases, answerAfter ops (.completions start aliases) =
          .completed ((Trie.ofWords texts false).sortedCompletions start aliases)) ∧
        (∀ q, answerAfter ops (.contains q) = .truth true ↔
          false = true ∧ ∃ w ∈ texts, q.lower = w.lower) ∧
        answerAfter ops .wordCount =
          .number ([Value.text [], .text ['H', 'a', 'i'], .null].filter (·.isTruthy)).length) := by
  rcases answers_after_run [.load [.text ['m', 'ộ', 't']] true] with ⟨-, hfails, hsucceeds, -⟩
  have hbad : ¬Loadable [.text ['b', 'a'], .integer 7] := by
    simp [Loadable, Value.isTruthy]
  have hgood : Loadable [.text [], .text ['H', 'a', 'i'], .null] := by
    simp [Loadable, Value.isTruthy]
  have hlater : ∀ op ∈ [Operation.load [.integer 3] true, .isReady], ¬op.Succeeds := by
    simp [Operation.Succeeds, Loadable, Value.isTruthy]
  exact ⟨⟨hbad, hfails _ true [.contains ['M', 'Ộ', 'T']] hbad⟩, hgood, hlater,
    hsucceeds _ false _ hgood hlater⟩

end Lexicon
end QuocNgu
