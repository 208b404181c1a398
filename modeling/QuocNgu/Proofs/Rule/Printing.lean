import Mathlib.Data.Set.List
import QuocNgu.Proofs.Rule.Lines

/-!
# Proofs.Rule.Printing — what is printed of compiled rules tells them apart

* `Act`                   : what the own line of a compiled rule says after the key
* `Entry`                 : an act and the letters appended below it, with `rule` and `lines`
* `exists_entries`        : under a key of one letter a spec compiles to the rules of entries
* `outlineAll_rules`      : the rules of entries have the lines of the entries
* `rules_eq_of_lines_eq`  : lines can be read back, entry by entry
* `printed_rules_eq_iff`  : two compiled lists of rules are the same if their lines are

A line shows the target only of rules that append or mark, the result only of those that mark and
the effect only of those that mark or set a tone. Compiled rules hold nothing new in the fields that
are not shown. Keys and letters may be any code points, blanks and signs among them; but each takes
one place, so the fifth letter of a line tells what the line is about.
-/

namespace QuocNgu

/-! ## Words of marks and tones -/

def Mark.word (m : Mark) : Text := (Mark.codeName? m.code).getD ""

def Tone.word (t : Tone) : Text := (Tone.codeName? t.code).getD ""

theorem Mark.word_injective : Function.Injective Mark.word := by
  have look : ∀ m ∈ Mark.all, ∀ n ∈ Mark.all, m.word = n.word → m = n := by decide
  intro m n hword
  exact look m m.mem_all n n.mem_all hword

theorem Tone.word_injective : Function.Injective Tone.word := by
  have look : ∀ t ∈ Tone.all, ∀ u ∈ Tone.all, t.word = u.word → t = u := by decide
  intro t u hword
  exact look t t.mem_all u u.mem_all hword

namespace Rule

/-! ## Acts -/

/-- What a compiled rule does, the letters appended below it apart. -/
inductive Act where
  | append (p : Point)
  | mark (m : Mark) (source result : Point)
  | tone (t : Tone)

namespace Act

def rule (key : Value) (following : Text) : Act → Rule
  | append p => Rule.append key p (appendEach key following)
  | mark m source result => Rule.mark key m [source] result (appendEach key following)
  | tone t => { Rule.tone key t with appended := appendEach key following }

/-- What the line of a rule says after its key. -/
def words : Act → Text
  | append p => Text.ofString "Appending " ++ [p]
  | mark m source result =>
      Text.ofString "MarkTransformation " ++ [source] ++ " -> " ++ [result] ++ " mark=" ++ m.word
  | tone t => Text.ofString "ToneTransformation tone=" ++ t.word

theorem line_rule (k : Point) (following : Text) (act : Act) :
    (act.rule (.text [k]) following).line = .ok ([k] ++ " " ++ act.words) := by
  cases act with
  | append p => rfl
  | mark m source result => cases m <;> rfl
  | tone t => cases t <;> rfl

theorem words_injective : Function.Injective words := by
  intro act other hwords
  -- Words of different kinds differ in their first letter.
  cases act with
  | append p =>
      cases other with
      | append q =>
          have hletter : [p] = [q] := List.append_cancel_left hwords
          simpa using hletter
      | mark => cases hwords
      | tone => cases hwords
  | mark m source result =>
      cases other with
      | append => cases hwords
      | mark n source' result' =>
          have hparts : source = source' ∧ result = result' ∧ m.word = n.word := by
            simpa [words, Text.ofString] using hwords
          obtain ⟨rfl, rfl, hword⟩ := hparts
          exact congrArg (mark · source result) (Mark.word_injective hword)
      | tone => cases hwords
  | tone t =>
      cases other with
      | append => cases hwords
      | mark => cases hwords
      | tone u =>
          have hword : t.word = u.word := List.append_cancel_left hwords
          exact congrArg tone (Tone.word_injective hword)

end Act

/-! ## Entries -/

/-- An act, and the letters that are appended below its rule. -/
abbrev Entry := Act × Text

namespace Entry

def rule (key : Value) (entry : Entry) : Rule := entry.1.rule key entry.2

/-- The line of the rule itself. -/
def top (k : Point) (act : Act) : Text := margin ++ ([k] ++ " " ++ act.words)

/-- The line of a letter that is appended below it. -/
def nested (k p : Point) : Text := margin ++ step ++ ([k] ++ " " ++ (Act.append p).words)

def lines (k : Point) (entry : Entry) : List Text := top k entry.1 :: entry.2.map (nested k)

section

variable {k k' : Point}

theorem top_inj {act act' : Act} (htop : top k act = top k' act') : k = k' ∧ act = act' := by
  have hparts : k = k' ∧ act.words = act'.words := by
    simpa [top, Text.ofString] using htop
  exact ⟨hparts.1, Act.words_injective hparts.2⟩

theorem nested_injective (k : Point) : Function.Injective (nested k) := by
  intro p q hnested
  have hwords : (Act.append p).words = (Act.append q).words := by
    simpa [nested] using hnested
  simpa using Act.words_injective hwords

end

/-! ## The lines of entries -/

theorem outlineAll_appendEach (k : Point) (following : Text) :
    outlineAll (margin ++ step) (appendEach (.text [k]) following) =
      .ok (following.map (nested k)) := by
  induction following with
  | nil => rfl
  | cons p following ih =>
      have hfirst : outline (margin ++ step) (append (.text [k]) p []) = .ok [nested k p] := rfl
      calc
        outlineAll (margin ++ step) (appendEach (.text [k]) (p :: following))
            = (do
                let lines ← outline (margin ++ step) (append (.text [k]) p [])
                let more ← outlineAll (margin ++ step) (appendEach (.text [k]) following)
                return lines ++ more) := rfl
        _ = .ok ((p :: following).map (nested k)) := by
              simp only [hfirst, ih]
              rfl

theorem outline_rule (k : Point) (entry : Entry) :
    outline margin (rule (.text [k]) entry) = .ok (lines k entry) := by
  obtain ⟨act, following⟩ := entry
  -- All kinds of rules have the same letters below them.
  have happended : (act.rule (.text [k]) following).appended =
      appendEach (.text [k]) following := by
    cases act <;> rfl
  simp only [rule, outline_eq, act.line_rule, happended, outlineAll_appendEach]
  rfl

theorem outlineAll_rules (k : Point) (entries : List Entry) :
    outlineAll margin (entries.map (rule (.text [k]))) = .ok (entries.flatMap (lines k)) := by
  induction entries with
  | nil => rfl
  | cons entry entries ih =>
      simp only [List.map_cons, List.flatMap_cons, outlineAll, outline_rule, ih]
      rfl

/-! ## Reading lines back -/

/-- The lines of appended letters bear a sign where those of their rules have their first word. -/
def isNested (line : Text) : Bool := (line.drop 4).head? = some (Point.char '+')

theorem isNested_nested (k p : Point) : isNested (nested k p) = true := rfl

theorem isNested_top (k : Point) (act : Act) : isNested (top k act) = false := by
  cases act <;> rfl

/-- The lines of the letters below a rule end where the next rule begins. -/
theorem takeWhile_lines (k : Point) (following : Text) (entries : List Entry) :
    (following.map (nested k) ++ entries.flatMap (lines k)).takeWhile isNested =
      following.map (nested k) := by
  have hnested : ∀ line ∈ following.map (nested k), isNested line = true := by
    intro line hline
    obtain ⟨p, -, rfl⟩ := List.mem_map.1 hline
    exact isNested_nested k p
  have hstop : (entries.flatMap (lines k)).takeWhile isNested = [] := by
    cases entries with
    | nil => rfl
    | cons entry entries => simp [lines, isNested_top]
  simp [List.takeWhile_append_of_pos hnested, hstop]

/-- Lines are those of one list of rules only. -/
theorem rules_eq_of_lines_eq {k k' : Point} {entries entries' : List Entry}
    (hlines : entries.flatMap (lines k) = entries'.flatMap (lines k')) :
    entries.map (rule (.text [k])) = entries'.map (rule (.text [k'])) := by
  -- Both lists are read from the front: a first line, the lines below it, and the rest.
  induction entries generalizing entries' with
  | nil =>
      cases entries' with
      | nil => rfl
      | cons entry' entries' => cases hlines
  | cons entry entries ih =>
      cases entries' with
      | nil => cases hlines
      | cons entry' entries' =>
          obtain ⟨act, following⟩ := entry
          obtain ⟨act', following'⟩ := entry'
          obtain ⟨htop, hrest⟩ := List.cons.inj hlines
          obtain ⟨rfl, rfl⟩ := top_inj htop
          have hbelow : following.map (nested k) = following'.map (nested k) := by
            calc
              following.map (nested k)
                  = (following.map (nested k) ++ entries.flatMap (lines k)).takeWhile isNested :=
                    (takeWhile_lines k following entries).symm
              _ = (following'.map (nested k) ++ entries'.flatMap (lines k)).takeWhile isNested :=
                    congrArg (List.takeWhile isNested) hrest
              _ = following'.map (nested k) := takeWhile_lines k following' entries'
          obtain rfl : following = following' :=
            List.map_injective_iff.2 (nested_injective k) hbelow
          have hmore := ih (List.append_cancel_left hrest)
          simp only [List.map_cons, hmore]

end Entry

end Rule

namespace Spec

/-! ## Compiled rules -/

section

variable {key : Value} {spec : Text} {r : Rule}

theorem Origin.exists_entry (horigin : Origin key r) :
    ∃ entry : Rule.Entry, entry.rule key = r := by
  -- The letter to mark is small and in the table, so it is one letter.
  have hsource : r.kind? = some .mark → ∃ p : Point, r.target = .text [p] := by
    intro hkind
    obtain ⟨source, -, -, -, htarget, -⟩ := horigin.letters hkind
    exact ⟨source.toChar, htarget⟩
  cases horigin with
  | append p following => exact ⟨(.append p, following), rfl⟩
  | @pair source target m found =>
      obtain ⟨p, htarget⟩ := hsource rfl
      have hlower : Text.lower [source] = [p] := Value.text.inj htarget
      exact ⟨(.mark m p target, []), by rw [hlower]; rfl⟩
  | @final first following marked =>
      obtain ⟨p, htarget⟩ := hsource rfl
      have hlower : Text.lower [Letter.stripped first] = [p] := Value.text.inj htarget
      exact ⟨(.mark (Letter.markOf [first]) p first, following), by rw [hlower]; rfl⟩

theorem exists_entry (hr : r ∈ (compile key (.text spec)).rules) :
    ∃ entry : Rule.Entry, entry.rule key = r := by
  by_cases htone : (toneNamed? spec).isSome = true
  · obtain ⟨t, hnamed⟩ := Option.isSome_iff_exists.1 htone
    obtain rfl : r = Rule.tone key t := by simpa [compile, compileTone, hnamed] using hr
    exact ⟨(.tone t, []), rfl⟩
  · simp only [compile, if_neg htone] at hr
    exact (origin_of_mem hr).exists_entry

end

theorem exists_entries (key : Value) (spec : Text) :
    ∃ entries : List Rule.Entry, entries.map (·.rule key) = (compile key (.text spec)).rules := by
  have hentries : (compile key (.text spec)).rules ∈
      {rules : List Rule | ∀ r ∈ rules, r ∈ Set.range fun entry : Rule.Entry => entry.rule key} :=
    fun r hr => exists_entry hr
  rwa [← Set.range_list_map] at hentries

/-- Under keys of one letter all rules can be printed, and their lines are the same only if the
rules are, with all their fields and all that is appended to them. -/
theorem printed_rules_eq_iff (k₁ k₂ : Point) (spec₁ spec₂ : Text) :
    ∃ lines₁ lines₂,
      Rule.outlineAll Rule.margin (compile (.text [k₁]) (.text spec₁)).rules = .ok lines₁ ∧
      Rule.outlineAll Rule.margin (compile (.text [k₂]) (.text spec₂)).rules = .ok lines₂ ∧
      (lines₁ = lines₂ ↔
        (compile (.text [k₁]) (.text spec₁)).rules =
          (compile (.text [k₂]) (.text spec₂)).rules) := by
  obtain ⟨entries₁, hrules₁⟩ := exists_entries (.text [k₁]) spec₁
  obtain ⟨entries₂, hrules₂⟩ := exists_entries (.text [k₂]) spec₂
  have hlines₁ := Rule.Entry.outlineAll_rules k₁ entries₁
  have hlines₂ := Rule.Entry.outlineAll_rules k₂ entries₂
  simp only [← hrules₁, ← hrules₂]
  refine ⟨_, _, hlines₁, hlines₂, Rule.Entry.rules_eq_of_lines_eq, ?_⟩
  intro hrules
  rw [hrules, hlines₂] at hlines₁
  exact (Except.ok.inj hlines₁).symm

end Spec
end QuocNgu
