import QuocNgu.Proofs.CommandLine.Completing
import QuocNgu.Proofs.CommandLine.Performing
import QuocNgu.Proofs.Config.RoundTrip

/-!
# Proofs.CommandLine.Ordering — dictionaries in any order

* `runOn_runCheck`, `runOn_runComplete_any` : what the commands print, from the words alone
* `Counts`       : the limits with which a list of suggestions can be cut
* `perform_same_dictionaries` : the same dictionaries in another order, or named twice, give the
  same run

The tree of words depends on the order in which they come. Its answers and the sorted list of its
completions do not, and the commands see no more of it.
-/

namespace QuocNgu
namespace CommandLine
namespace Command

/-! ## Words in any order -/

theorem mem_wordsOf_of_mem_iff {names names' : List Text}
    (hnames : ∀ name, name ∈ names ↔ name ∈ names') (fs : FileSystem) (w : Text) :
    w ∈ WordList.wordsOf fs names ↔ w ∈ WordList.wordsOf fs names' := by
  simp only [WordList.wordsOf, List.mem_flatMap, hnames]

section

variable {words words' : List Text} (hsame : ∀ w, w ∈ words ↔ w ∈ words')
include hsame

theorem query_ofWords_of_mem_iff (q : Text) (dictionary : Bool) :
    (Trie.ofWords words true).query q dictionary =
      (Trie.ofWords words' true).query q dictionary := by
  rw [Trie.ofWords_eq, Trie.ofWords_eq]
  apply Trie.query_of_mem_iff
  intro e
  simp only [List.mem_map, hsame]

theorem sortedCompletions_ofWords_of_mem_iff (hword : ∀ w ∈ words, WordList.IsWord w)
    (start : Text) (aliases : Bool) :
    (Trie.ofWords words true).sortedCompletions start aliases =
      (Trie.ofWords words' true).sortedCompletions start aliases := by
  have hword' : ∀ w ∈ words', WordList.IsWord w := by
    intro w hw
    exact hword w ((hsame w).2 hw)
  rcases sortedCompletions_ofWords hword start aliases with ⟨hincreasing, hmem⟩
  rcases sortedCompletions_ofWords hword' start aliases with ⟨hincreasing', hmem'⟩
  refine hincreasing.eq_of_mem_iff hincreasing' ?_
  intro t
  rw [hmem, hmem', IsWanted, IsWanted]
  simp only [hsame]

end

/-! ## Checking -/

/-- Whether only entries count, by the command line or by the configuration. -/
def onlyFor (config : Value) (asked : Bool) : Bool :=
  asked || ((config.field? "require_dictionary").getD (.boolean false)).isTruthy

theorem isDictionaryOnly_of_mapping {config : Value} (hconfig : config.kind = .mapping)
    (asked : Bool) : isDictionaryOnly config asked = .ok (onlyFor config asked) := by
  cases asked with
  | true => rfl
  | false =>
      rw [isDictionaryOnly, Value.fieldOr_of_field? hconfig rfl]
      rfl

/-- The line about a word. -/
def verdictLine (words : List Text) (only : Bool) (word : String) : String :=
  word ++ "\t" ++ ((Trie.ofWords words true).query word only).name

theorem ofString_verdictLine (words : List Text) (only : Bool) (word : String) :
    Text.ofString (verdictLine words only word) =
      verdict ⟨Trie.ofWords words true, words.length, true⟩ only word := by
  simp [verdictLine, verdict, Lexicon.query, Text.ofString]

/-! ## Suggestions up to a limit -/

/-- The first of the items, as many as the limit says. -/
def suggestions (limit : Value) (items : List Text) : Except Fault (List Text) :=
  (usedLimit limit).bind fun used => takeFirst used items

/-- The limits with which a list can be cut: whole numbers, and all numbers that are too small. -/
def Counts : Value → Prop
  | .boolean _ | .integer _ => True
  | .real x => x.lessThan 1 = true
  | _ => False

/-- Cutting gives the first of the items, or it fails whatever the items are. -/
theorem suggestions_cases (limit : Value) (items : List Text) :
    (Counts limit ∧ ∃ n, suggestions limit items = .ok (items.take n)) ∨
      (¬Counts limit ∧ ∃ fault, suggestions limit items = .error fault) := by
  cases limit with
  | boolean b =>
      refine Or.inl ⟨trivial, ?_⟩
      cases b with
      | false => exact ⟨10, rfl⟩
      | true => exact ⟨1, rfl⟩
  | integer n =>
      refine Or.inl ⟨trivial, (if 1 ≤ n then n else 10).toNat, ?_⟩
      rw [suggestions, usedLimit_integer]
      rfl
  | real x =>
      -- A fraction counts nothing, but one below 1 gives way to the default limit.
      cases hx : x.lessThan 1 with
      | true =>
          refine Or.inl ⟨hx, 10, ?_⟩
          simp [suggestions, usedLimit, isBelowOne, hx, Except.map, Except.bind, defaultLimit,
            takeFirst]
      | false =>
          refine Or.inr ⟨by simp [Counts, hx], .notCount, ?_⟩
          simp [suggestions, usedLimit, isBelowOne, hx, Except.map, Except.bind, takeFirst]
  | _ => exact Or.inr ⟨id, .notOrdered, rfl⟩

theorem mem_of_suggestions {limit : Value} {items taken : List Text}
    (htaken : suggestions limit items = .ok taken) : ∀ t ∈ taken, t ∈ items := by
  intro t ht
  rcases suggestions_cases limit items with ⟨-, n, hfirst⟩ | ⟨-, fault, hfault⟩
  · rw [hfirst] at htaken
    cases htaken
    exact List.mem_of_mem_take ht
  · rw [hfault] at htaken
    cases htaken

def linesOf : Except Fault (List Text) → List String
  | .ok taken => taken.map lineOf
  | .error _ => []

/-! ## The commands -/

section

variable {config : Value} {given : List Value} {names : List Text} {s : Session}
  (hpaths : dictionaryPaths config given = .ok (.list (names.map .text)))
  (hwords : WordList.wordsOf s.files names ≠ []) (hconfig : config.kind = .mapping)
include hpaths hwords hconfig

theorem runOn_runCheck (asked : List String) (only : Bool) :
    ∃ log, (run config (.check asked given only)).runOn s =
      (.ok 0, { s with
        output := s.output ++
          asked.map (verdictLine (WordList.wordsOf s.files names) (onlyFor config only))
        log := log }) := by
  have hlines : (asked.map Text.ofString).map (verdict
      ⟨Trie.ofWords (WordList.wordsOf s.files names) true,
        (WordList.wordsOf s.files names).length, true⟩ (onlyFor config only)) =
      (asked.map (verdictLine (WordList.wordsOf s.files names) (onlyFor config only))).map
        Text.ofString := by
    simp [ofString_verdictLine]
  rw [run, runCheck, runOn_withLexicon hpaths hwords, isDictionaryOnly_of_mapping hconfig,
    Job.runOn_bind (Job.runOn_ofExcept _ _), hlines, Job.runOn_bind (Job.runOn_printAll _ _)]
  exact ⟨_, rfl⟩

theorem runOn_runComplete_any (start : String) (best? : Option Value) (aliases : Bool) :
    let answer := suggestions (limitInForce config best?)
      ((Trie.ofWords (WordList.wordsOf s.files names) true).sortedCompletions start aliases)
    ∃ log, (run config (.complete start given best? aliases)).runOn s =
      (answer.map fun _ => 0, { s with output := s.output ++ linesOf answer, log := log }) := by
  intro answer
  rcases runOn_limitOf_any hconfig best? { s with
    log := s.log ++ WordList.recordsOf s.files names ++
      [Lexicon.loaded (WordList.wordsOf s.files names).length] } with ⟨log, hlimit⟩
  refine ⟨log, ?_⟩
  rw [run, runComplete, runOn_withLexicon hpaths hwords]
  dsimp only
  -- The limit may be no number, or no count. Either way nothing has been printed yet.
  cases hused : usedLimit (limitInForce config best?) with
  | error fault =>
      have hanswer : answer = .error fault := by
        simp only [answer, suggestions, hused, Except.bind]
      rw [hused] at hlimit
      rw [Job.runOn_bind_error hlimit, hanswer]
      simp [linesOf, Except.map]
  | ok limit =>
      have hanswer : answer = takeFirst limit ((Trie.ofWords (WordList.wordsOf s.files names)
          true).sortedCompletions start aliases) := by
        simp only [answer, suggestions, hused, Except.bind]
      rw [hused] at hlimit
      rw [Job.runOn_bind hlimit, Lexicon.completions, ← hanswer]
      cases htaken : answer with
      | error fault =>
          rw [Job.runOn_bind_error (Job.runOn_ofExcept _ _)]
          simp [linesOf, Except.map]
      | ok taken =>
          have hwhole : ∀ t ∈ taken, t.isWhole = true := by
            intro t ht
            have hwanted := ((sortedCompletions_ofWords WordList.isWord_of_mem_wordsOf start
              aliases).2 t).1 (mem_of_suggestions htaken t ht)
            exact hwanted.isWhole WordList.isWord_of_mem_wordsOf
          rw [Job.runOn_bind (Job.runOn_ofExcept _ _),
            Job.runOn_bind (runOn_printAll_of_isWhole hwhole _)]
          rfl

end

/-! ## Dictionaries in any order -/

section

variable {s ready : Session} {config : Value} {level : Log.Level} {given : List Value}
  {names : List Text}
  (hprepare : prepare.runOn (fresh s) = (.ok (config, level), ready))
  (hpaths : dictionaryPaths config given = .ok (.list (names.map .text)))
  (hwords : WordList.wordsOf ready.files names ≠ [])
include hprepare hpaths hwords

theorem perform_check (verbose : Bool) (asked : List String) (only : Bool) :
    (perform verbose (.check asked given only) s).status = .ok 0 ∧
    (perform verbose (.check asked given only) s).output = Help.text
      (asked.map (verdictLine (WordList.wordsOf ready.files names) (onlyFor config only))) := by
  rcases runOn_runCheck (s := { ready with log := [] }) hpaths hwords
    (mapping_of_prepare hprepare) asked only with ⟨log, hrun⟩
  rw [status_perform hprepare, output_perform hprepare, hrun, output_of_prepare hprepare]
  exact ⟨rfl, rfl⟩

theorem perform_complete (verbose : Bool) (start : String) (best? : Option Value)
    (aliases : Bool) :
    let answer := suggestions (limitInForce config best?)
      ((Trie.ofWords (WordList.wordsOf ready.files names) true).sortedCompletions start aliases)
    (perform verbose (.complete start given best? aliases) s).status = answer.map (fun _ => 0) ∧
    (perform verbose (.complete start given best? aliases) s).output =
      Help.text (linesOf answer) := by
  intro answer
  rcases runOn_runComplete_any (s := { ready with log := [] }) hpaths hwords
    (mapping_of_prepare hprepare) start best? aliases with ⟨log, hrun⟩
  rw [status_perform hprepare, output_perform hprepare, hrun, output_of_prepare hprepare]
  exact ⟨rfl, rfl⟩

end

/-- The same dictionaries in another order, or named more than once, make the same run. Every word
has a line of its own that the other words do not bear on. Suggestions fail only on a limit that no
list can be cut with, and then the order does not matter either. -/
theorem perform_same_dictionaries {s ready : Session} {config : Value} {level : Log.Level}
    {given given' : List Value} {names names' words : List Text}
    (hprepare : prepare.runOn (fresh s) = (.ok (config, level), ready))
    (hpaths : dictionaryPaths config given = .ok (.list (names.map .text)))
    (hpaths' : dictionaryPaths config given' = .ok (.list (names'.map .text)))
    (hnames : ∀ name, name ∈ names ↔ name ∈ names')
    (hload : ((WordList.loadAll (names.map .text)).runOn ready).1 = .ok words)
    (hwords : words ≠ []) (verbose : Bool) :
    (∀ asked only,
      (perform verbose (.check asked given only) s).status = .ok 0 ∧
      (perform verbose (.check asked given' only) s).status = .ok 0 ∧
      (perform verbose (.check asked given only) s).output =
        Help.text (asked.map (verdictLine words (onlyFor config only))) ∧
      (perform verbose (.check asked given' only) s).output =
        (perform verbose (.check asked given only) s).output) ∧
    (∀ first second only,
      (perform verbose (.check (first ++ second) given only) s).output =
        (perform verbose (.check first given only) s).output ++
          (perform verbose (.check second given only) s).output) ∧
    ∀ start best? aliases,
      (perform verbose (.complete start given' best? aliases) s).status =
        (perform verbose (.complete start given best? aliases) s).status ∧
      (perform verbose (.complete start given' best? aliases) s).output =
        (perform verbose (.complete start given best? aliases) s).output ∧
      ((perform verbose (.complete start given best? aliases) s).status = .ok 0 ↔
        Counts (limitInForce config best?)) := by
  rw [WordList.runOn_loadAll] at hload
  cases hload
  have hsame := mem_wordsOf_of_mem_iff hnames ready.files
  have hwords' : WordList.wordsOf ready.files names' ≠ [] := by
    rcases List.exists_mem_of_ne_nil _ hwords with ⟨w, hw⟩
    exact List.ne_nil_of_mem ((hsame w).1 hw)
  have hcheck := perform_check hprepare hpaths hwords verbose
  have hcheck' := perform_check hprepare hpaths' hwords' verbose
  refine ⟨?_, ?_, ?_⟩
  · intro asked only
    refine ⟨(hcheck asked only).1, (hcheck' asked only).1, (hcheck asked only).2, ?_⟩
    have hlines : verdictLine (WordList.wordsOf ready.files names') (onlyFor config only) =
        verdictLine (WordList.wordsOf ready.files names) (onlyFor config only) := by
      funext word
      rw [verdictLine, verdictLine, query_ofWords_of_mem_iff hsame]
    rw [(hcheck asked only).2, (hcheck' asked only).2, hlines]
  · intro first second only
    rw [(hcheck _ only).2, (hcheck _ only).2, (hcheck _ only).2, List.map_append, text_append]
  · intro start best? aliases
    have hitems := sortedCompletions_ofWords_of_mem_iff hsame WordList.isWord_of_mem_wordsOf
      (Text.ofString start) aliases
    rcases perform_complete hprepare hpaths hwords verbose start best? aliases with
      ⟨hstatus, houtput⟩
    rcases perform_complete hprepare hpaths' hwords' verbose start best? aliases with
      ⟨hstatus', houtput'⟩
    rw [hstatus, houtput, hstatus', houtput', hitems]
    refine ⟨rfl, rfl, ?_⟩
    rcases suggestions_cases (limitInForce config best?) ((Trie.ofWords
      (WordList.wordsOf ready.files names') true).sortedCompletions start aliases) with
      ⟨hcounts, n, htaken⟩ | ⟨hcounts, fault, hfault⟩
    · simp [htaken, hcounts, Except.map]
    · simp [hfault, hcounts, Except.map]

/-- Two dictionaries and no configuration at all. -/
def twoSession : Session where
  files := {
    entries := [(["a"], .file "lá\n".toUTF8), (["b"], .file "la\n".toUTF8)]
    working := [] }
  environment := ⟨none, none, none, "", ""⟩
  log := []
  output := []

theorem perform_same_dictionaries_two :
    let names : List Text := [Text.ofString "a", Text.ofString "b"]
    let names' : List Text := [Text.ofString "b", Text.ofString "a", Text.ofString "b"]
    (∀ name, name ∈ names ↔ name ∈ names') ∧
    ((WordList.loadAll (names.map .text)).runOn twoSession).1 =
      .ok [Text.ofString "lá", Text.ofString "la"] ∧
    (perform false (.check ["LÁ", "l"] (names.map .text) true) twoSession).status = .ok 0 ∧
    (perform false (.check ["LÁ", "l"] (names'.map .text) true) twoSession).output =
      (perform false (.check ["LÁ", "l"] (names.map .text) true) twoSession).output ∧
    (perform false (.complete "l" (names.map .text) none true) twoSession).status = .ok 0 ∧
    (perform false (.complete "l" (names'.map .text) none true) twoSession).output =
      (perform false (.complete "l" (names.map .text) none true) twoSession).output := by
  intro names names'
  let ready := (prepare.runOn (fresh twoSession)).2
  have hprepare : prepare.runOn (fresh twoSession) = (.ok (.object [], .warning), ready) := rfl
  have hpaths : dictionaryPaths (.object []) (names.map .text) =
      .ok (.list (names.map .text)) := rfl
  have hpaths' : dictionaryPaths (.object []) (names'.map .text) =
      .ok (.list (names'.map .text)) := rfl
  have hnames : ∀ name, name ∈ names ↔ name ∈ names' := by
    intro name
    simp only [names, names', List.mem_cons, List.not_mem_nil, or_false]
    tauto
  have hwords : WordList.wordsOf twoSession.files names =
      [Text.ofString "lá", Text.ofString "la"] := by
    decide
  have hload : ∀ s : Session, s.files = twoSession.files →
      ((WordList.loadAll (names.map .text)).runOn s).1 =
        .ok [Text.ofString "lá", Text.ofString "la"] := by
    intro s hs
    rw [WordList.runOn_loadAll, hs, hwords]
  rcases perform_same_dictionaries hprepare hpaths hpaths' hnames (hload ready rfl)
    (List.cons_ne_nil _ _) false with ⟨hcheck, -, hcomplete⟩
  rcases hcheck ["LÁ", "l"] true with ⟨hstatus, -, -, houtput⟩
  rcases hcomplete "l" none true with ⟨-, hsuggested, hcounts⟩
  exact ⟨hnames, hload twoSession rfl, hstatus, houtput, hcounts.2 trivial, hsuggested⟩

/-- A default configuration is trusted, even where its limit is no number. -/
def tenDefaults : List (Text × Value) :=
  [("dictionaries", .list []), ("max_suggestions", .text "ten")]

def tenSession : Session where
  files := {
    entries := [(["d"], .directory),
      (["d", "config.json"], .file (Json.stored (.object tenDefaults)).1.toUTF8),
      (["u"], .directory), (["u", "vn-ime-core"], .directory),
      (["u", "vn-ime-core", "config.json"], .file (Json.stored (.object tenDefaults)).1.toUTF8),
      (["a"], .file "lá\n".toUTF8)]
    working := [] }
  environment := ⟨some "/d", some "/u", none, "", ""⟩
  log := []
  output := []

theorem plain_tenDefaults : Json.Plain (.object tenDefaults) := by
  refine Json.Plain.object _ (by simp [tenDefaults]) (by decide) ?_
  simp only [tenDefaults, List.forall_mem_cons]
  exact ⟨Json.Plain.list [] (by simp), Json.Plain.text _, by simp⟩

/-- There is a word to complete, and yet the command fails. -/
theorem complete_fails_ten :
    ((WordList.loadAll [.text "a"]).runOn tenSession).1 = .ok [Text.ofString "lá"] ∧
    (perform false (.complete "l" [.text "a"] none false) tenSession).status ≠ .ok 0 := by
  have hdefault : Document.document? (fresh tenSession).files
      (fresh tenSession).environment.defaultConfigPath = .ok (.object tenDefaults) :=
    Document.document?_of_stored plain_tenDefaults rfl
  have huser : Document.document? (fresh tenSession).files
      (fresh tenSession).environment.userConfigPath = .ok (.object tenDefaults) :=
    Document.document?_of_stored plain_tenDefaults rfl
  have hnames : Config.NamesDictionaries tenDefaults := ⟨[], by simp [tenDefaults]⟩
  have hconfig := Config.runOn_load hdefault huser plain_tenDefaults.distinct
    plain_tenDefaults.distinct (Config.sameKinds_self _) hnames
  have hprepare : prepare.runOn (fresh tenSession) =
      (.ok (.object tenDefaults, .warning), fresh tenSession) := runOn_prepare hconfig rfl
  have hwords : WordList.wordsOf tenSession.files [Text.ofString "a"] = [Text.ofString "lá"] := by
    decide
  have hsome : WordList.wordsOf (fresh tenSession).files [Text.ofString "a"] ≠ [] := by
    change WordList.wordsOf tenSession.files [Text.ofString "a"] ≠ []
    rw [hwords]
    exact List.cons_ne_nil _ _
  have hload := WordList.runOn_loadAll [Text.ofString "a"] tenSession
  rw [hwords] at hload
  have hpaths : dictionaryPaths (.object tenDefaults) [.text "a"] =
      .ok (.list ([Text.ofString "a"].map .text)) := rfl
  refine ⟨congrArg Prod.fst hload, ?_⟩
  rw [(perform_complete hprepare hpaths hsome false "l" none false).1]
  rcases suggestions_cases (limitInForce (.object tenDefaults) none) ((Trie.ofWords
    (WordList.wordsOf (fresh tenSession).files [Text.ofString "a"]) true).sortedCompletions
      (Text.ofString "l") false) with ⟨hcounts, -⟩ | ⟨-, fault, hfault⟩
  · exact hcounts.elim
  · rw [hfault]
    rintro ⟨⟩

end Command
end CommandLine
end QuocNgu
