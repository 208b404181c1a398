import QuocNgu.Proofs.Document.Reading
import QuocNgu.Proofs.Json.Parsing
import QuocNgu.Proofs.WordList.Contents
import QuocNgu.Proofs.WordList.Loading

/-!
# Proofs.WordList.Files — the words of a file are loaded all or not at all

* `Holds`, `Fails`  : the words that a file holds, and why it cannot be read
* `holds_or_fails`  : every path either leads to words or fails
* `load_written`    : a file in any format is loaded as the words it was written with
* `load_total`      : loading never faults, logs once, and leaves no part of a file that fails
-/

namespace QuocNgu
namespace WordList

/-! ## Files that can be read -/

/-- The words of a file are those of its lines, or those of the document in it. -/
inductive Holds (fs : FileSystem) (name : Text) : List Text → Prop where
  | lines {path text : String} {ws : List Text} (hname : FileSystem.pathOf? name = some path)
      (hkind : isJsonPath path = false) (hread : fs.read path = .ok text.toUTF8)
      (hws : Lists ws text) : Holds fs name ws
  | document {path text : String} {v : Value} {ws : List Text}
      (hname : FileSystem.pathOf? name = some path) (hkind : isJsonPath path = true)
      (hread : fs.read path = .ok text.toUTF8) (hv : Json.Document Json.strict text v)
      (hws : Names v ws) : Holds fs name ws

/-- The ways in which a path leads to no words, each with how grave its record is. -/
inductive Fails (fs : FileSystem) (name : Text) : Log.Level → Prop where
  | noPath (hname : FileSystem.pathOf? name = none) : Fails fs name .warning
  | missing {path : String} (hname : FileSystem.pathOf? name = some path)
      (hmissing : fs.exists? path = false) : Fails fs name .warning
  | directory {path : String} (hname : FileSystem.pathOf? name = some path)
      (hexists : fs.exists? path = true) (hread : fs.read path = .error .isDirectory) :
      Fails fs name .error
  | notUtf8 {path : String} {content : ByteArray} (hname : FileSystem.pathOf? name = some path)
      (hread : fs.read path = .ok content) (hcontent : ∀ text : String, content ≠ text.toUTF8) :
      Fails fs name .error
  | malformed {path text : String} (hname : FileSystem.pathOf? name = some path)
      (hkind : isJsonPath path = true) (hread : fs.read path = .ok text.toUTF8)
      (hdocument : ∀ v, ¬Json.Document Json.strict text v) : Fails fs name .error
  | wrongShape {path text : String} {v : Value} (hname : FileSystem.pathOf? name = some path)
      (hkind : isJsonPath path = true) (hread : fs.read path = .ok text.toUTF8)
      (hv : Json.Document Json.strict text v) (hlist : v.kind ≠ .list)
      (hmapping : v.kind ≠ .mapping) : Fails fs name .warning

/-! ## What is read of a file -/

section

variable {fs : FileSystem} {name : Text}

theorem reading_of_read {path : String} {content : ByteArray}
    (hname : FileSystem.pathOf? name = some path) (hread : fs.read path = .ok content) :
    reading fs name = if isJsonPath path then readJson content else readLines content := by
  rw [reading, hname]
  dsimp only
  rw [readFile, if_pos (FileSystem.exists?_of_read hread), hread]

theorem readLines_toUTF8 (text : String) : readLines text.toUTF8 = .words (ofLines text) := by
  rw [readLines, Document.fromUTF8?_toUTF8]

theorem readJson_words {text : String} {v : Value} {ws : List Text}
    (hv : Json.Document Json.strict text v) (hws : ofValue v = some ws) :
    readJson text.toUTF8 = .words ws := by
  have hread := Json.read_eq_ok_iff.2 hv
  simp only [readJson, Document.fromUTF8?_toUTF8, hread, hws]

theorem readJson_wrongShape {text : String} {v : Value}
    (hv : Json.Document Json.strict text v) (hnone : ofValue v = none) :
    readJson text.toUTF8 = .wrongShape := by
  have hread := Json.read_eq_ok_iff.2 hv
  simp only [readJson, Document.fromUTF8?_toUTF8, hread, hnone]

theorem eq_toUTF8_of_fromUTF8? {content : ByteArray} {text : String}
    (htext : String.fromUTF8? content = some text) : content = text.toUTF8 := by
  rw [String.fromUTF8?] at htext
  split at htext
  · cases htext
    rfl
  · cases htext

theorem fromUTF8?_eq_none {content : ByteArray}
    (hcontent : ∀ text : String, content ≠ text.toUTF8) : String.fromUTF8? content = none := by
  cases htext : String.fromUTF8? content with
  | none => rfl
  | some text => exact absurd (eq_toUTF8_of_fromUTF8? htext) (hcontent text)

theorem read_of_exists? {path : String} (hexists : fs.exists? path = true) :
    (∃ content, fs.read path = .ok content) ∨ fs.read path = .error .isDirectory := by
  rw [FileSystem.exists?] at hexists
  rw [FileSystem.read]
  cases hlocate : fs.locate path with
  | error problem =>
      rw [hlocate] at hexists
      cases hexists
  | ok place =>
      rw [hlocate] at hexists
      dsimp only at hexists
      cases hentry : fs.entry? place with
      | none =>
          rw [hentry] at hexists
          cases hexists
      | some e =>
          -- What is there is a file or a directory, and only a file has content.
          cases e with
          | file content => exact Or.inl ⟨content, by simp [hentry, bind, Except.bind]; rfl⟩
          | directory => exact Or.inr (by simp [hentry, bind, Except.bind])

theorem reading_of_holds {ws : List Text} (hholds : Holds fs name ws) :
    reading fs name = .words ws := by
  cases hholds with
  | lines hname hkind hread hws =>
      rw [reading_of_read hname hread, hkind, if_neg Bool.false_ne_true, readLines_toUTF8,
        hws.ofLines_eq]
  | document hname hkind hread hv hws =>
      rw [reading_of_read hname hread, if_pos hkind, readJson_words hv (names_iff.1 hws)]

def Reading.failed : Reading → Bool
  | .words _ => false
  | _ => true

theorem words?_of_failed {found : Reading} (hfailed : found.failed = true) :
    found.words? = [] := by
  cases found with
  | words ws => cases hfailed
  | _ => rfl

theorem reading_of_fails {level : Log.Level} (hfails : Fails fs name level) :
    (reading fs name).failed = true ∧ ((reading fs name).record name).level = level := by
  cases hfails with
  | noPath hname =>
      rw [reading, hname]
      exact ⟨rfl, rfl⟩
  | missing hname hmissing =>
      rw [reading, hname]
      dsimp only
      rw [readFile, hmissing, if_neg Bool.false_ne_true]
      exact ⟨rfl, rfl⟩
  | directory hname hexists hread =>
      rw [reading, hname]
      dsimp only
      rw [readFile, if_pos hexists, hread]
      exact ⟨rfl, rfl⟩
  | notUtf8 hname hread hcontent =>
      rw [reading_of_read hname hread, readJson, readLines, fromUTF8?_eq_none hcontent]
      split <;> exact ⟨rfl, rfl⟩
  | malformed hname hkind hread hdocument =>
      rw [reading_of_read hname hread, if_pos hkind, readJson, Document.fromUTF8?_toUTF8]
      dsimp only
      split
      · exact ⟨rfl, rfl⟩
      · next hv => exact absurd (Json.read_eq_ok_iff.1 hv) (hdocument _)
  | @wrongShape _ _ v hname hkind hread hv hlist hmapping =>
      have hshape : ofValue v = none := by
        cases v with
        | list items => exact absurd rfl hlist
        | object fields => exact absurd rfl hmapping
        | _ => rfl
      rw [reading_of_read hname hread, if_pos hkind, readJson_wrongShape hv hshape]
      exact ⟨rfl, rfl⟩

/-- A document with no words is neither a list nor a mapping. -/
theorem kind_of_ofValue {text : String} {v : Value} (hv : Json.Document Json.strict text v)
    (hws : ofValue v = none) : v.kind ≠ .list ∧ v.kind ≠ .mapping := by
  rcases Json.rows?_of_read (Json.read_eq_ok_iff.2 hv) with ⟨fields, rfl⟩ | ⟨-, hmapping⟩
  · cases hws
  · refine ⟨?_, hmapping⟩
    cases v with
    | list items => cases hws
    | _ => simp_all [Value.kind]

/-- Every path leads to words or fails: the cases are the steps of reading a file. -/
theorem holds_or_fails (fs : FileSystem) (name : Text) :
    (∃ ws, Holds fs name ws) ∨ ∃ level, Fails fs name level := by
  cases hname : FileSystem.pathOf? name with
  | none => exact Or.inr ⟨_, .noPath hname⟩
  | some path =>
      cases hexists : fs.exists? path with
      | false => exact Or.inr ⟨_, .missing hname hexists⟩
      | true =>
          rcases read_of_exists? hexists with ⟨content, hread⟩ | hread
          · by_cases hutf8 : ∃ text : String, content = text.toUTF8
            · rcases hutf8 with ⟨text, rfl⟩
              cases hkind : isJsonPath path with
              | false => exact Or.inl ⟨_, .lines hname hkind hread (lists_ofLines text)⟩
              | true =>
                  by_cases hdocument : ∃ v, Json.Document Json.strict text v
                  · rcases hdocument with ⟨v, hv⟩
                    cases hws : ofValue v with
                    | some ws => exact Or.inl ⟨ws, .document hname hkind hread hv (names_iff.2 hws)⟩
                    | none =>
                        rcases kind_of_ofValue hv hws with ⟨hlist, hmapping⟩
                        exact Or.inr ⟨_, .wrongShape hname hkind hread hv hlist hmapping⟩
                  · exact Or.inr ⟨_, .malformed hname hkind hread (not_exists.1 hdocument)⟩
            · exact Or.inr ⟨_, .notUtf8 hname hread (not_exists.1 hutf8)⟩
          · exact Or.inr ⟨_, .directory hname hexists hread⟩

/-- No words can be loaded from a path. -/
def Failing (fs : FileSystem) (name : Text) : Prop := ∃ level, Fails fs name level

theorem failing_iff : Failing fs name ↔ (reading fs name).failed = true := by
  constructor
  · rintro ⟨level, hfails⟩
    exact (reading_of_fails hfails).1
  · intro hfailed
    rcases holds_or_fails fs name with ⟨ws, hholds⟩ | hfails
    · rw [reading_of_holds hholds] at hfailed
      cases hfailed
    · exact hfails

instance : DecidablePred (Failing fs) := fun _ => decidable_of_iff _ failing_iff.symm

theorem Holds.trimmed {ws : List Text} (hholds : Holds fs name ws) : ∀ w ∈ ws, w.Trimmed := by
  cases hholds with
  | lines _ _ _ hws => exact hws.trimmed
  | document _ _ _ _ hws => exact hws.trimmed

/-- Paths that fail add nothing to the words of the others. -/
theorem wordsOf_filter (names : List Text) :
    wordsOf fs (names.filter fun name => ¬Failing fs name) = wordsOf fs names := by
  induction names with
  | nil => rfl
  | cons name names ih =>
      by_cases hfailing : Failing fs name
      · have hnone : (reading fs name).words? = [] := words?_of_failed (failing_iff.1 hfailing)
        rw [List.filter_cons_of_neg (by simpa using hfailing), ih]
        simp [wordsOf, hnone]
      · rw [List.filter_cons_of_pos (by simpa using hfailing)]
        simp only [wordsOf, List.flatMap_cons] at ih ⊢
        rw [ih]

end

/-! ## Loading -/

theorem level_of_fails {fs : FileSystem} {name : Text} {level : Log.Level}
    (hfails : Fails fs name level) : level = .warning ∨ level = .error := by
  cases hfails <;> simp

/-- Loading a file gives all its words or, if it fails, none; either way it adds one record and
changes nothing else. Of several paths those that fail can be left out. -/
theorem load_total (s : Session) :
    (∀ name, ∃ ws record,
      (load name).runOn s = (.ok ws, { s with log := s.log ++ [record] }) ∧
      (Holds s.files name ws ∧ record.level = .info ∨
        ws = [] ∧ Fails s.files name record.level ∧
          (record.level = .warning ∨ record.level = .error)) ∧
      (∀ ws', Holds s.files name ws' → ws' = ws ∧ ¬Failing s.files name) ∧
      ∀ w ∈ ws, w.Trimmed) ∧
    ∀ names : List Text, ∃ ws,
      ((loadAll (names.map .text)).runOn s).1 = .ok ws ∧
      ((loadAll ((names.filter fun name => ¬Failing s.files name).map .text)).runOn s).1 =
        .ok ws := by
  constructor
  · intro name
    refine ⟨_, _, runOn_load name s, ?_⟩
    rcases holds_or_fails s.files name with ⟨ws, hholds⟩ | ⟨level, hfails⟩
    · -- A file holds one list of words at most, the one that is read.
      have hwords := reading_of_holds hholds
      rw [hwords]
      refine ⟨Or.inl ⟨hholds, rfl⟩, ?_, hholds.trimmed⟩
      intro ws' hholds'
      rw [reading_of_holds hholds', Reading.words.injEq] at hwords
      refine ⟨hwords, ?_⟩
      rw [failing_iff, reading_of_holds hholds']
      exact Bool.false_ne_true
    · -- The record is as grave as the failure, and no words come with it.
      rcases reading_of_fails hfails with ⟨hfailed, hlevel⟩
      rw [words?_of_failed hfailed, hlevel]
      refine ⟨Or.inr ⟨rfl, hfails, level_of_fails hfails⟩, ?_, by simp⟩
      intro ws' hholds'
      rw [reading_of_holds hholds'] at hfailed
      cases hfailed
  · intro names
    refine ⟨wordsOf s.files names, ?_, ?_⟩
    · rw [runOn_loadAll]
    · rw [runOn_loadAll, wordsOf_filter]

/-- Whatever format a list of trimmed words is written in, it is loaded again: in lines, as a list
or as the keys of a mapping. A document follows the standard, within the limits of the strict
reader. -/
theorem load_written {s : Session} {name : Text} {path text : String}
    (hname : FileSystem.pathOf? name = some path) (hread : s.files.read path = .ok text.toUTF8)
    (ws : List Text) :
    (isJsonPath path = false → Lists ws text → ((load name).runOn s).1 = .ok ws) ∧
    (isJsonPath path = true → (∃ v, Json.Document Json.strict text v) →
      (∀ items, Json.Document Json.standard text (.list items) → Items items ws →
        ((load name).runOn s).1 = .ok ws) ∧
      ∀ fields, Json.Document Json.standard text (.object fields) → fields.map Prod.fst = ws →
        (∀ w ∈ ws, w.Trimmed) → ((load name).runOn s).1 = .ok ws) := by
  have hloaded : Holds s.files name ws → ((load name).runOn s).1 = .ok ws := by
    intro hholds
    rw [runOn_load, reading_of_holds hholds]
    rfl
  constructor
  · intro hkind hws
    exact hloaded (.lines hname hkind hread hws)
  · intro hkind hstrict
    constructor
    · intro items hitems hws
      exact hloaded (.document hname hkind hread (hitems.toStrict hstrict) (.list hws))
    · intro fields hfields hkeys hws
      have hnames : Items (fields.map fun field => .text field.1) ws := by
        have htexts := items_texts hws
        rw [← hkeys, List.map_map] at htexts
        rw [← hkeys]
        exact htexts
      exact hloaded (.document hname hkind hread (hfields.toStrict hstrict) (.object hnames))

/-! ## One list of words in every format -/

/-- Lines with ends of every kind. A line separator stands inside a word. -/
def linesText : String := "# chữ\r\n\u3000lá\u2028lành\t\r \n\rba"

def listText : String := "[null,\"\u2003lá\u2028lành\",\" \",\"ba\"]"

def keysText : String := "\x7b\"lá\u2028lành\":[],\"ba\":null\x7d"

def formatsSession : Session where
  files := {
    entries := [(["words"], .file linesText.toUTF8), (["list.json"], .file listText.toUTF8),
      (["keys.json"], .file keysText.toUTF8)]
    working := [] }
  environment := ⟨none, none, none, "", ""⟩
  log := []
  output := []

def listItems : List Value :=
  [.null, .text (Text.ofString "\u2003lá\u2028lành"), .text (Text.ofString " "),
    .text (Text.ofString "ba")]

def keysFields : List (Text × Value) :=
  [(Text.ofString "lá\u2028lành", .list []), (Text.ofString "ba", .null)]

theorem nests_one : Json.Nests Json.strict 1 := by
  simp [Json.Nests, Json.strict]

theorem written_null : Json.Written Json.strict 1 (.element .null) ['n', 'u', 'l', 'l'] :=
  .bare (.word (by simp [Json.words]))

theorem document_listText : Json.Document Json.strict listText (.list listItems) := by
  have htext : ∀ {cs : List Char}, cs.all Json.isPlain = true →
      Json.Written Json.strict 1 (.element (.text (cs.map .char))) ('"' :: (cs ++ ['"'])) :=
    fun hcs => .bare (.text (Json.quoted_plain Json.strict hcs))
  have hfirst := @htext ['\u2003', 'l', 'á', '\u2028', 'l', 'à', 'n', 'h'] rfl
  have hblank := @htext [' '] rfl
  have hlast := @htext ['b', 'a'] rfl
  have helements := Json.Written.moreElements written_null
    (.moreElements hfirst (.moreElements hblank (.oneElement hlast)))
  have hchars : listText.toList =
      ['[', 'n', 'u', 'l', 'l', ',', '"', '\u2003', 'l', 'á', '\u2028', 'l', 'à', 'n', 'h', '"',
        ',', '"', ' ', '"', ',', '"', 'b', 'a', '"', ']'] := by
    decide +kernel
  rw [Json.Document, hchars]
  exact .bare (.list nests_one helements)

theorem document_keysText : Json.Document Json.strict keysText (.object keysFields) := by
  have hnothing : Json.Spaces [] := fun c hc => by cases hc
  have hdepth : Json.Nests Json.strict 2 := by
    simp [Json.Nests, Json.strict]
  have hempty : Json.Written Json.strict 1 (.element (.list [])) ['[', ']'] :=
    .bare (.emptyList hdepth hnothing)
  have hfirst := @Json.quoted_plain Json.strict ['l', 'á', '\u2028', 'l', 'à', 'n', 'h'] rfl
  have hlast := @Json.quoted_plain Json.strict ['b', 'a'] rfl
  have hmembers := Json.Written.moreMembers (.member hnothing hfirst hnothing hempty)
    (.oneMember (.member hnothing hlast hnothing written_null))
  have hchars : keysText.toList =
      ['\x7b', '"', 'l', 'á', '\u2028', 'l', 'à', 'n', 'h', '"', ':', '[', ']', ',',
        '"', 'b', 'a', '"', ':', 'n', 'u', 'l', 'l', '\x7d'] := by
    decide +kernel
  rw [Json.Document, hchars]
  exact .bare (.object nests_one hmembers)

/-- Each of the three files is loaded as the same two words. -/
theorem load_written_formats :
    let ws := [Text.ofString "lá\u2028lành", Text.ofString "ba"]
    ((load "words").runOn formatsSession).1 = .ok ws ∧
    ((load "list.json").runOn formatsSession).1 = .ok ws ∧
    ((load "keys.json").runOn formatsSession).1 = .ok ws := by
  intro ws
  have hlines : FileSystem.pathOf? "words" = some "words" := by
    decide +kernel
  have hlist : FileSystem.pathOf? "list.json" = some "list.json" := by
    decide +kernel
  have hkeys : FileSystem.pathOf? "keys.json" = some "keys.json" := by
    decide +kernel
  have hlists : Lists ws linesText := lists_iff.2 (by decide +kernel)
  have hitems : Items listItems ws := items_iff.2 (by decide)
  have hnames : keysFields.map Prod.fst = ws := by
    decide
  have hws : ∀ w ∈ ws, w.Trimmed := hlists.trimmed
  refine ⟨?_, ?_, ?_⟩
  · exact (load_written (s := formatsSession) hlines rfl ws).1 (by decide) hlists
  · have hload := (load_written (s := formatsSession) hlist rfl ws).2 (by decide)
      ⟨_, document_listText⟩
    exact hload.1 listItems document_listText.toStandard hitems
  · have hload := (load_written (s := formatsSession) hkeys rfl ws).2 (by decide)
      ⟨_, document_keysText⟩
    exact hload.2 keysFields document_keysText.toStandard hnames hws

/-! ## A list that is not read -/

/-- A number that no reader can hold stands in a list of words. -/
def overflowText : String := "[\"a\",1e999]"

def overflowSession : Session where
  files := { entries := [(["words.json"], .file overflowText.toUTF8)], working := [] }
  environment := ⟨none, none, none, "", ""⟩
  log := []
  output := []

def overflowNumeral : Json.Numeral := ⟨false, ['1'], [], some ⟨'e', [], ['9', '9', '9']⟩⟩

theorem regular_overflowNumeral : overflowNumeral.Regular := by
  refine ⟨List.cons_ne_nil _ _, List.all_eq_true.1 rfl, (fun h => by cases h),
    List.all_eq_true.1 rfl, ?_⟩
  intro e he
  cases he
  exact ⟨Or.inl rfl, List.mem_cons_self, List.cons_ne_nil _ _, List.all_eq_true.1 rfl⟩

def overflowItems : List Value := [.text (Text.ofString "a"), overflowNumeral.value]

theorem document_overflowText :
    Json.Document Json.standard overflowText (.list overflowItems) := by
  have hfits : overflowNumeral.Fits Json.standard := Or.inl rfl
  have hword : Json.Written Json.standard 1 (.element (.text (Text.ofString "a")))
      ['"', 'a', '"'] := .bare (.text (@Json.quoted_plain Json.standard ['a'] rfl))
  have helements := Json.Written.moreElements hword
    (.oneElement (.bare (.number regular_overflowNumeral hfits)))
  have hdepth : Json.Nests Json.standard 1 := by
    simp [Json.Nests, Json.standard]
  have hchars : overflowText.toList =
      ['[', '"', 'a', '"', ',', '1', 'e', '9', '9', '9', ']'] := by
    decide +kernel
  rw [Json.Document, hchars]
  exact .bare (.list hdepth helements)

/-- A standard list can hold a number beyond the strict reader, which then gives none of its
words. -/
theorem load_refuses_overflow :
    Json.Document Json.standard overflowText (.list overflowItems) ∧
    Items overflowItems [Text.ofString "a"] ∧
    FileSystem.pathOf? "words.json" = some "words.json" ∧ isJsonPath "words.json" = true ∧
    overflowSession.files.read "words.json" = .ok overflowText.toUTF8 ∧
    ((load "words.json").runOn overflowSession).1 ≠ .ok [Text.ofString "a"] := by
  have hitems : Items overflowItems [Text.ofString "a"] := items_iff.2 rfl
  have hfailed : (reading overflowSession.files "words.json").failed = true := by
    decide +kernel
  refine ⟨document_overflowText, hitems, by decide +kernel, by decide, rfl, ?_⟩
  rw [runOn_load, words?_of_failed hfailed]
  simp

end WordList
end QuocNgu
