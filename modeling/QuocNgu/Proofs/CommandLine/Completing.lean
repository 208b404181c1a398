import QuocNgu.CommandLine.Command
import QuocNgu.Proofs.Lexicon.Loading
import QuocNgu.Proofs.Text.Order
import QuocNgu.Proofs.Trie.Completion
import QuocNgu.Proofs.Value.Rows
import QuocNgu.Proofs.WordList.Loading

/-!
# Proofs.CommandLine.Completing — what the command `complete` prints

* `runOn_withLexicon`  : words that were read make a lexicon, and the command goes on with it
* `runOn_limitOf_any`  : the limit in force, whatever it is
* `limitFor`           : the number of lines, from the command line, the configuration or by default
* `IsWanted`           : the spellings that a start asks for among the words that were read
* `complete_prints_first` : the command prints the first of them in order and ends well

Every line has to have a written form. The words of a file have one, and neither lower-casing nor
leaving out marks and tones takes it from them.
-/

namespace QuocNgu
namespace CommandLine
namespace Command

/-! ## The lexicon -/

theorem filter_isTruthy_words {words : List Text} (hwords : ∀ w ∈ words, WordList.IsWord w) :
    (words.map Value.text).filter (·.isTruthy) = words.map Value.text := by
  apply List.filter_eq_self.2
  intro v hv
  rcases List.mem_map.1 hv with ⟨w, hw, rfl⟩
  simp [Value.isTruthy, (hwords w hw).1]

/-- Loading words that there are succeeds, and changes nothing but the log. -/
theorem runOn_loadLexicon {names : List Text} {s : Session}
    (hwords : WordList.wordsOf s.files names ≠ []) :
    (loadLexicon (.list (names.map .text))).runOn s =
      let words := WordList.wordsOf s.files names
      (.ok (some ⟨Trie.ofWords words true, words.length, true⟩),
        { s with log := s.log ++ WordList.recordsOf s.files names ++
          [Lexicon.loaded words.length] }) := by
  have hnames : (Value.list (names.map .text)).isTruthy = true := by
    cases names with
    | nil => exact absurd rfl hwords
    | cons name rest => rfl
  have hload : (WordList.loadElements (.list (names.map .text))).runOn s =
      (.ok (WordList.wordsOf s.files names),
        { s with log := s.log ++ WordList.recordsOf s.files names }) := by
    have helements : (Value.list (names.map .text)).elements = .ok (names.map .text) := rfl
    rw [WordList.loadElements, helements, Job.runOn_bind (Job.runOn_ofExcept _ s)]
    exact WordList.runOn_loadAll names s
  have hsome : ¬(WordList.wordsOf s.files names).isEmpty = true := by
    simpa using hwords
  have hword : ∀ w ∈ WordList.wordsOf s.files names, WordList.IsWord w :=
    WordList.isWord_of_mem_wordsOf
  have hlexicon := Lexicon.ofValues_texts (filter_isTruthy_words hword) true
  unfold loadLexicon
  simp only [hnames, Bool.not_true, Bool.false_eq_true, if_false]
  rw [Job.runOn_bind hload, if_neg hsome, hlexicon, Job.runOn_bind (Job.runOn_ofExcept _ _),
    Job.runOn_bind (Job.runOn_ofReport (Report.runOn_log _ _))]
  rfl

/-- With words to load, a command goes on with the lexicon of them. -/
theorem runOn_withLexicon {config : Value} {given : List Value} {names : List Text} {s : Session}
    (hpaths : dictionaryPaths config given = .ok (.list (names.map .text)))
    (hwords : WordList.wordsOf s.files names ≠ []) (use : Lexicon → Job Nat) :
    (withLexicon config given use).runOn s =
      let words := WordList.wordsOf s.files names
      (use ⟨Trie.ofWords words true, words.length, true⟩).runOn { s with
        log := s.log ++ WordList.recordsOf s.files names ++ [Lexicon.loaded words.length] } := by
  unfold withLexicon
  rw [hpaths, Job.runOn_bind (Job.runOn_ofExcept _ s), Job.runOn_bind (runOn_loadLexicon hwords)]

/-! ## The limit -/

/-- The limit of the command line, of the configuration, or the usual one. -/
def limitInForce (config : Value) (best? : Option Value) : Value :=
  best?.getD ((config.field? "max_suggestions").getD defaultLimit)

/-- A limit that is too small gives way to the usual one. -/
def usedLimit (limit : Value) : Except Fault Value :=
  (isBelowOne limit).map fun below => if below then defaultLimit else limit

/-- Settling the limit leaves a trace in the log at most. -/
theorem runOn_limitOf_any {config : Value} (hconfig : config.kind = .mapping)
    (best? : Option Value) (s : Session) :
    ∃ log, (limitOf config best?).runOn s =
      (usedLimit (limitInForce config best?), { s with log := log }) := by
  have hfield : config.fieldOr "max_suggestions" defaultLimit =
      .ok ((config.field? "max_suggestions").getD defaultLimit) :=
    Value.fieldOr_of_field? hconfig rfl defaultLimit
  have hchosen : ∀ limit : Value, ∃ log, (Job.ofExcept (isBelowOne limit) >>= fun below =>
      if below then do
        Job.ofReport (Report.log (Log.warn .commandLine
          s!"Ignoring max_suggestions={limit.shown}; showing 10 suggestions"))
        return defaultLimit
      else return limit).runOn s = (usedLimit limit, { s with log := log }) := by
    intro limit
    cases hbelow : isBelowOne limit with
    | error fault =>
        rw [Job.runOn_bind_error (Job.runOn_ofExcept _ s), usedLimit, hbelow]
        exact ⟨s.log, rfl⟩
    | ok below =>
        rw [Job.runOn_bind (Job.runOn_ofExcept _ s), usedLimit, hbelow]
        cases below with
        | false => exact ⟨s.log, rfl⟩
        | true =>
            simp only [if_true]
            rw [Job.runOn_bind (Job.runOn_ofReport (Report.runOn_log _ _))]
            exact ⟨_, rfl⟩
  cases best? with
  | some limit => exact hchosen limit
  | none =>
      unfold limitOf
      dsimp only
      rw [hfield, Job.runOn_bind (Job.runOn_ofExcept _ s)]
      exact hchosen _

/-- The limit of the command line stands; that of the configuration has to be positive. -/
def limitFor (best? maximum? : Option Int) : Int :=
  match best?, maximum? with
  | some n, _ => n
  | none, some m => if 1 ≤ m then m else 10
  | none, none => 10

/-- A number that asks for no line at all counts as ten. -/
theorem usedLimit_integer (n : Int) :
    usedLimit (.integer n) = .ok (.integer (if 1 ≤ n then n else 10)) := by
  by_cases hn : 1 ≤ n
  · have hnot : ¬n < 1 := by omega
    simp [usedLimit, isBelowOne, Except.map, hnot, hn]
  · have hlt : n < 1 := by omega
    simp [usedLimit, isBelowOne, Except.map, hlt, hn, defaultLimit]

theorem runOn_limitOf {config : Value} {best? maximum? : Option Int}
    (hconfig : config.kind = .mapping)
    (hmaximum : config.field? "max_suggestions" = maximum?.map .integer)
    (hbest : ∀ n ∈ best?, 1 ≤ n) (s : Session) :
    ∃ log, (limitOf config (best?.map .integer)).runOn s =
      (.ok (.integer (limitFor best? maximum?)), { s with log := log }) := by
  have hused : usedLimit (limitInForce config (best?.map .integer)) =
      .ok (.integer (limitFor best? maximum?)) := by
    unfold limitInForce
    rw [hmaximum]
    cases best? with
    | some n => exact (usedLimit_integer n).trans (by simp [hbest n rfl, limitFor])
    | none =>
        cases maximum? with
        | some m => exact usedLimit_integer m
        | none => exact usedLimit_integer 10
  rw [← hused]
  exact runOn_limitOf_any hconfig _ s

/-! ## The lines -/

/-- A spelling that starts as asked and is a word, or one of its aliases if they are wanted. -/
def IsWanted (words : List Text) (start : Text) (aliases : Bool) (t : Text) : Prop :=
  start.lower <+: t ∧ ∃ w ∈ words, if aliases then Trie.IsSpelling w.lower t else t = w.lower

section

variable {words : List Text} (hwords : ∀ w ∈ words, WordList.IsWord w)
include hwords

theorem mem_completions_ofWords {start : Text} {aliases : Bool} {t : Text} :
    t ∈ (Trie.ofWords words true).completions start aliases ↔ IsWanted words start aliases t := by
  rw [Trie.ofWords_eq]
  cases aliases with
  | false =>
      rw [Trie.mem_completions_entries, IsWanted]
      constructor
      · intro ht
        rcases ht with ⟨e, he, -, rfl, hstart⟩
        rcases List.mem_map.1 he with ⟨w, hw, rfl⟩
        exact ⟨hstart, w, hw, rfl⟩
      · intro ht
        rcases ht with ⟨hstart, w, hw, hlower⟩
        have hself : t = w.lower := hlower
        rw [hself] at hstart
        exact ⟨⟨w, true⟩, List.mem_map_of_mem hw, (hwords w hw).1, hself, hstart⟩
  | true =>
      rw [Trie.mem_completions_aliases, IsWanted]
      apply and_congr_right
      intro _
      constructor
      · intro ht
        rcases ht with ⟨e, he, -, hspelling⟩
        rcases List.mem_map.1 he with ⟨w, hw, rfl⟩
        exact ⟨w, hw, hspelling⟩
      · intro ht
        rcases ht with ⟨w, hw, hspelling⟩
        exact ⟨⟨w, true⟩, List.mem_map_of_mem hw, (hwords w hw).1, hspelling⟩

theorem IsWanted.isWhole {start : Text} {aliases : Bool} {t : Text}
    (ht : IsWanted words start aliases t) : t.isWhole = true := by
  rcases ht with ⟨-, w, hw, hspelling⟩
  have hlower : w.lower.isWhole = true := Text.isWhole_lower (hwords w hw).2
  cases aliases with
  | false =>
      have hself : t = w.lower := hspelling
      rw [hself]
      exact hlower
  | true =>
      exact Trie.IsSpelling.isWhole hspelling hlower

/-- The spellings asked for in order: none is missing, none is doubled, all can be printed. -/
theorem sortedCompletions_ofWords (start : Text) (aliases : Bool) :
    Text.Increasing ((Trie.ofWords words true).sortedCompletions start aliases) ∧
    (∀ t, t ∈ (Trie.ofWords words true).sortedCompletions start aliases ↔
      IsWanted words start aliases t) := by
  constructor
  · apply Text.increasing_sorted
    rw [Trie.ofWords_eq]
    exact Trie.nodup_completions (Trie.distinct_ofInsertions _) start aliases
  · intro t
    exact Text.mem_sorted.trans (mem_completions_ofWords hwords)

end

theorem exists_lines {texts : List Text} (htexts : ∀ t ∈ texts, t.isWhole = true) :
    ∃ lines : List String, lines.map Text.ofString = texts := by
  have hrange : texts ∈ Set.range (List.map Text.ofString) := by
    rw [Set.range_list_map]
    intro t ht
    rcases Text.exists_ofString (htexts t ht) with ⟨line, rfl⟩
    exact ⟨line, rfl⟩
  exact hrange

/-- With words to complete from, a run prints the first spellings asked for and ends well. -/
theorem runOn_runComplete {config : Value} {given : List Value} {names : List Text}
    {best? maximum? : Option Int} {start : Text} {aliases : Bool} {s : Session}
    {printed : List String}
    (hpaths : dictionaryPaths config given = .ok (.list (names.map .text)))
    (hwords : WordList.wordsOf s.files names ≠ [])
    (hconfig : config.kind = .mapping)
    (hmaximum : config.field? "max_suggestions" = maximum?.map .integer)
    (hbest : ∀ n ∈ best?, 1 ≤ n)
    (hprinted : printed.map Text.ofString =
      ((Trie.ofWords (WordList.wordsOf s.files names) true).sortedCompletions start aliases).take
        (limitFor best? maximum?).toNat) :
    ∃ log, (runComplete config start given (best?.map .integer) aliases).runOn s =
      (.ok 0, { s with output := s.output ++ printed, log := log }) := by
  rcases runOn_limitOf hconfig hmaximum hbest { s with
      log := s.log ++ WordList.recordsOf s.files names ++
        [Lexicon.loaded (WordList.wordsOf s.files names).length] } with ⟨log, hlimit⟩
  refine ⟨log, ?_⟩
  rw [runComplete, runOn_withLexicon hpaths hwords]
  dsimp only
  rw [Job.runOn_bind hlimit, takeFirst, Lexicon.completions, ← hprinted,
    Job.runOn_bind (Job.runOn_ofExcept _ _), Job.runOn_bind (Job.runOn_printAll printed _)]
  rfl

/-- The command ends well and prints, in order, as many of the spellings asked for as the limit
allows; any that it leaves out comes after all that it prints. -/
theorem complete_prints_first {config : Value} {given : List Value} {names words : List Text}
    {best? maximum? : Option Int} {s : Session}
    (hpaths : dictionaryPaths config given = .ok (.list (names.map .text)))
    (hload : ((WordList.loadAll (names.map .text)).runOn s).1 = .ok words)
    (hwords : words ≠ [])
    (hconfig : config.kind = .mapping)
    (hmaximum : config.field? "max_suggestions" = maximum?.map .integer)
    (hbest : ∀ n ∈ best?, 1 ≤ n)
    (start : Text) (aliases : Bool) :
    ∃ (wanted : List Text) (printed : List String) (log : List Log.Entry),
      Text.Increasing wanted ∧
      (∀ t, t ∈ wanted ↔ IsWanted words start aliases t) ∧
      printed.map Text.ofString = wanted.take (limitFor best? maximum?).toNat ∧
      printed.length = min (limitFor best? maximum?).toNat wanted.length ∧
      (∀ t, IsWanted words start aliases t → t ∉ printed.map Text.ofString →
        ∀ line ∈ printed, (Text.ofString line).map Point.code < t.map Point.code) ∧
      (runComplete config start given (best?.map .integer) aliases).runOn s =
        (.ok 0, { s with output := s.output ++ printed, log := log }) ∧
      ∀ p : String, start = Text.ofString p →
        (run config (.complete p given (best?.map .integer) aliases)).runOn s =
          (.ok 0, { s with output := s.output ++ printed, log := log }) := by
  rw [WordList.runOn_loadAll] at hload
  cases hload
  let wanted := (Trie.ofWords (WordList.wordsOf s.files names) true).sortedCompletions start aliases
  have hword : ∀ w ∈ WordList.wordsOf s.files names, WordList.IsWord w :=
    WordList.isWord_of_mem_wordsOf
  rcases sortedCompletions_ofWords hword start aliases with ⟨hincreasing, hmem⟩
  have hwhole : ∀ t ∈ wanted.take (limitFor best? maximum?).toNat, t.isWhole = true := by
    intro t ht
    exact ((hmem t).1 (List.mem_of_mem_take ht)).isWhole hword
  rcases exists_lines hwhole with ⟨printed, hprinted⟩
  rcases runOn_runComplete hpaths hwords hconfig hmaximum hbest hprinted with ⟨log, hrun⟩
  refine ⟨wanted, printed, log, hincreasing, hmem, hprinted, ?_, ?_, hrun, ?_⟩
  · rw [← List.length_map Text.ofString, hprinted, List.length_take]
  · intro t ht hleft line hline
    rw [hprinted] at hleft
    have hfirst : Text.ofString line ∈ wanted.take (limitFor best? maximum?).toNat := by
      rw [← hprinted]
      exact List.mem_map_of_mem hline
    exact Text.increasing_split hincreasing _ hfirst ((hmem t).2 ht) hleft
  · rintro p rfl
    exact hrun

/-- Two words that differ in a tone only, and a command line that asks for one suggestion. -/
def toneSession : Session where
  files := { entries := [(["words"], .file "lá\nla\n".toUTF8)], working := [] }
  environment := ⟨none, none, none, "", ""⟩
  log := []
  output := []

theorem complete_prints_first_tones :
    let words : List Text := [Text.ofString "lá", Text.ofString "la"]
    dictionaryPaths (.object []) [.text "words"] = .ok (.list [.text "words"]) ∧
    ((WordList.loadAll [.text "words"]).runOn toneSession).1 = .ok words ∧
    ∃ (wanted : List Text) (printed : List String) (log : List Log.Entry),
      Text.Increasing wanted ∧
      (∀ t, t ∈ wanted ↔ IsWanted words (Text.ofString "L") true t) ∧
      printed.map Text.ofString = wanted.take 1 ∧
      (run (.object []) (.complete "L" [.text "words"] (some (.integer 1)) true)).runOn
        toneSession = (.ok 0, { toneSession with output := printed, log := log }) := by
  intro words
  have hpaths : dictionaryPaths (.object []) [.text "words"] = .ok (.list [.text "words"]) := rfl
  have hwords : WordList.wordsOf toneSession.files [Text.ofString "words"] = words := by
    decide
  have hload : ((WordList.loadAll [.text "words"]).runOn toneSession).1 = .ok words := by
    rw [← hwords]
    exact congrArg Prod.fst (WordList.runOn_loadAll [Text.ofString "words"] toneSession)
  have hone : ∀ n ∈ some (1 : Int), 1 ≤ n := by
    decide
  have hcomplete := @complete_prints_first (.object []) [.text "words"] [Text.ofString "words"]
    words (some 1) none toneSession hpaths hload (List.cons_ne_nil _ _) rfl rfl hone
  rcases hcomplete (Text.ofString "L") true with
    ⟨wanted, printed, log, hincreasing, hmem, hprinted, -, -, -, hrun⟩
  exact ⟨hpaths, hload, wanted, printed, log, hincreasing, hmem, hprinted, hrun "L" rfl⟩

end Command
end CommandLine
end QuocNgu
