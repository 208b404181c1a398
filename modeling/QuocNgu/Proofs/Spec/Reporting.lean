import Mathlib.Algebra.GroupWithZero.Nat
import QuocNgu.Proofs.Spec.Appending

/-!
# Proofs.Spec.Reporting — nothing that a spec asks for is lost without a word

* `Reads`                   : the pairs and the final run of a spec, as its text shows them
* `places`                  : the letters that pairs set against each other, two by two
* `marks_leadRules`, `notes_items` : a place gives its rule or its note, in the order of the places
* `diagnoses`, `diagnosis`  : why a whole spec gives no rule, and the record that says so
* `exists_notes`            : the log of a spec is its notes, and after them a diagnosis if need be
* `compile_accounts`        : the places add up, and a diagnosis stands exactly where no rule does

A note names two letters and the key, a diagnosis the key and the whole spec. Their texts open
differently, so that none of them passes for the other whatever the key and the spec hold.
-/

namespace QuocNgu
namespace Spec

/-! ## Reading a spec -/

/-- The pairs are the runs of the body two by two, and a final run needs a doubled separator. -/
inductive Reads (spec : Text) : List (Text × Text) → Text → Prop where
  | whole (hspec : Undoubled spec) : Reads spec (pairUp (Text.splitAll separator spec)) []
  | final {body run : Text} (hfinal : HasFinal spec body run) :
      Reads spec (pairUp (Text.splitAll separator body))
        (if body = [] then run else Text.lower run)

theorem exists_reads (spec : Text) : ∃ pairs final, Reads spec pairs final := by
  by_cases hspec : Undoubled spec
  · exact ⟨_, _, .whole hspec⟩
  · obtain ⟨body, run, hfinal⟩ := exists_hasFinal hspec
    exact ⟨_, _, .final hfinal⟩

theorem Reads.runsOf_eq {spec final : Text} {pairs : List (Text × Text)}
    (hreads : Reads spec pairs final) : runsOf spec = ⟨pairs, final⟩ := by
  cases hreads with
  | whole hspec => exact runsOf_undoubled hspec
  | final hfinal => exact hfinal.runsOf_eq

/-! ## Places -/

/-- The places of some pairs; a pair has as many as its shorter side has letters. -/
def places (pairs : List (Text × Text)) : List (Point × Point) :=
  pairs.flatMap fun (source, target) => source.zip target

/-- The rule of a place whose letters share a base. -/
def placeRule (key : Value) (place : Point × Point) : Rule :=
  Rule.mark key (Letter.markOf [place.2]) (Text.lower [place.1]) place.2 []

/-- What is noted of a place whose letters share none. -/
def placeNote (key : Value) (place : Point × Point) : Log.Entry :=
  warn (s!"Cannot derive a mark from \"{Text.shown [place.1]}\" to \"{Text.shown [place.2]}\" " ++
    s!"(key \"{key.shown}\")")

def isMark (r : Rule) : Bool := r.kind? = some .mark

def sharesBase (place : Point × Point) : Bool := Letter.sharesBase place.1 place.2

section

variable (key : Value) (pair : Text × Text)

theorem marks_pairRules :
    (pairRules key pair).filter isMark =
      ((pair.1.zip pair.2).filter sharesBase).map (placeRule key) := by
  obtain ⟨source, target⟩ := pair
  by_cases hsource : source = []
  · -- Without a source the target is appended, and there is no place.
    subst hsource
    simp [pairRules_nil, Rule.appendEach, isMark]
  · have hrules : pairRules key (source, target) =
        ((source.zip target).filter sharesBase).map (placeRule key) :=
      pairRules_eq key target hsource
    have hmarks : ∀ r ∈ pairRules key (source, target), isMark r = true := by
      intro r hr
      simp only [hrules, List.mem_map] at hr
      obtain ⟨place, -, rfl⟩ := hr
      simp [isMark, placeRule]
    exact (List.filter_eq_self.2 hmarks).trans hrules

theorem notes_pairItems :
    (pairItems key pair.1 pair.2).filterMap (Item.warning? key) =
      ((pair.1.zip pair.2).filter (!sharesBase ·)).map (placeNote key) := by
  obtain ⟨source, target⟩ := pair
  by_cases hsource : source = []
  · subst hsource
    simp [pairItems, Item.warning?]
  · have hplace : ∀ place : Point × Point,
        (markItem key place.1 place.2).warning? key =
          if !sharesBase place then some (placeNote key place) else none := by
      intro place
      cases hshared : Letter.sharesBase place.1 place.2 with
      | true => simp [markItem, Letter.markBetween?_eq, sharesBase, hshared, Item.warning?]
      | false =>
          simp [markItem, Letter.markBetween?_eq, sharesBase, hshared, Item.warning?, placeNote]
    have hitems : pairItems key source target =
        (source.zip target).map fun place => markItem key place.1 place.2 := by
      simp [pairItems, hsource]
    calc
      (pairItems key source target).filterMap (Item.warning? key)
          = (source.zip target).filterMap fun place =>
              if !sharesBase place then some (placeNote key place) else none := by
            simp only [hitems, List.filterMap_map, Function.comp_def, hplace]
      _ = ((source.zip target).filter (!sharesBase ·)).map (placeNote key) := by
            simp [← List.filterMap_eq_filter, List.map_filterMap, Option.guard, apply_ite]

end

/-- The places with a common base give the mark rules of the pairs, in their order. -/
theorem marks_leadRules (key : Value) (spec : Text) :
    (leadRules key spec).filter isMark =
      ((places (runsOf spec).pairs).filter sharesBase).map (placeRule key) := by
  simp only [leadRules, places, List.filter_flatMap, List.map_flatMap, marks_pairRules]

/-- All other places are noted, in their order. -/
theorem notes_items (key : Value) (spec : Text) :
    (items key (runsOf spec)).filterMap (Item.warning? key) =
      ((places (runsOf spec).pairs).filter (!sharesBase ·)).map (placeNote key) := by
  simp only [items, places, List.filterMap_flatMap, List.filter_flatMap, List.map_flatMap,
    notes_pairItems]

/-- The places of pairs with two filled sides are all there are. -/
theorem length_places (pairs : List (Text × Text)) :
    (places pairs).length =
      ((pairs.filter fun pair => !pair.1.isEmpty && !pair.2.isEmpty).map
        fun pair => min pair.1.length pair.2.length).sum := by
  unfold places
  induction pairs with
  | nil => rfl
  | cons pair pairs ih =>
      obtain ⟨source, target⟩ := pair
      -- An empty side leaves no place, so the pair can be left out of the sum.
      cases source with
      | nil => simpa using ih
      | cons p source =>
          cases target with
          | nil => simpa using ih
          | cons q target =>
              simp only [List.flatMap_cons, List.length_append, List.length_zip, ih]
              simp

/-! ## Notes and diagnoses -/

/-- The words with which every note on a place opens. -/
def noteOpening : String := "Cannot derive a mark from \""

def isNote (e : Log.Entry) : Bool := noteOpening.toList.isPrefixOf e.message.toList

section

variable (key spec : Value)

def notText : Log.Entry :=
  warn s!"Rule spec for key \"{key.shown}\" is not a string: {spec.quoted}"

def notRecognized : Log.Entry :=
  warn s!"Unrecognized rule spec for key \"{key.shown}\": \"{spec.shown}\""

def fruitless : Log.Entry :=
  warn s!"Rule spec for key \"{key.shown}\" produced no rules: \"{spec.shown}\""

/-- The warnings that name a key and its whole spec. -/
def diagnoses : List Log.Entry := [notText key spec, notRecognized key spec, fruitless key spec]

/-- The one of them that is due where a spec gives no rule. -/
def diagnosis : Log.Entry :=
  match spec with
  | .text t => if t.contains separator then fruitless key spec else notRecognized key spec
  | _ => notText key spec

end

theorem diagnosis_mem (key spec : Value) : diagnosis key spec ∈ diagnoses key spec := by
  unfold diagnosis
  split
  · split <;> simp [diagnoses]
  · simp [diagnoses]

theorem isNote_placeNote (key : Value) (place : Point × Point) :
    isNote (placeNote key place) = true := by
  have hopens : ∃ rest, (placeNote key place).message = noteOpening ++ rest := by
    simp only [placeNote, warn, Log.warn, String.append_assoc]
    exact ⟨_, rfl⟩
  obtain ⟨rest, hmessage⟩ := hopens
  simp [isNote, hmessage, String.toList_append]

/-- A message that opens with another letter is no note. -/
theorem not_isNote {e : Log.Entry} {opening : String}
    (hopening : ∃ c cs, opening.toList = c :: cs ∧ c ≠ 'C')
    (hmessage : ∃ rest, e.message = opening ++ rest) : isNote e = false := by
  obtain ⟨c, cs, hcs, hc⟩ := hopening
  obtain ⟨rest, hrest⟩ := hmessage
  simp [isNote, hrest, hcs, noteOpening, List.isPrefixOf, Ne.symm hc]

theorem not_isNote_of_mem_diagnoses {key spec : Value} {e : Log.Entry}
    (he : e ∈ diagnoses key spec) : isNote e = false := by
  have hrule : ∃ c cs, "Rule spec for key \"".toList = c :: cs ∧ c ≠ 'C' :=
    ⟨_, _, rfl, by decide⟩
  have hunrecognized : ∃ c cs, "Unrecognized rule spec for key \"".toList = c :: cs ∧ c ≠ 'C' :=
    ⟨_, _, rfl, by decide⟩
  simp only [diagnoses, List.mem_cons, List.not_mem_nil, or_false] at he
  obtain rfl | rfl | rfl := he
  · refine not_isNote hrule ?_
    simp only [notText, warn, Log.warn, String.append_assoc]
    exact ⟨_, rfl⟩
  · refine not_isNote hunrecognized ?_
    simp only [notRecognized, warn, Log.warn, String.append_assoc]
    exact ⟨_, rfl⟩
  · refine not_isNote hrule ?_
    simp only [fruitless, warn, Log.warn, String.append_assoc]
    exact ⟨_, rfl⟩

/-! ## The log of a spec -/

theorem log_compileRuns (key : Value) (spec : Text) :
    (compileRuns key spec).log =
      (items key (runsOf spec)).filterMap (Item.warning? key) ++
        if (compileRuns key spec).rules = [] then [fruitless key (.text spec)] else [] := by
  have hrules := rules_compileRuns key spec
  by_cases hnone : (compileRuns key spec).rules = []
  · have hempty := List.isEmpty_iff.2 (hrules.symm.trans hnone)
    simp only [hnone, if_true]
    simp only [compileRuns, hempty, if_true]
    rfl
  · have hfilled := mt List.isEmpty_iff.1 (mt hrules.trans hnone)
    simp only [hnone, if_false, List.append_nil]
    simp only [compileRuns, if_neg hfilled]

/-- A text of one run sets no letters against each other. -/
theorem places_of_not_mem {spec : Text} (hspec : separator ∉ spec) :
    places (runsOf spec).pairs = [] := by
  have hundoubled : Undoubled spec := by
    intro hdoubled
    exact hspec (hdoubled.subset List.mem_cons_self)
  simp [places, runsOf_undoubled hundoubled, Text.splitAll_of_not_mem hspec, pairUp]

/-- The log of a mark spec is the notes on its places, and a diagnosis if it gives no rule. -/
theorem log_compileMark (key : Value) (spec : Text) :
    (compileMark key (.text spec)).log =
      ((places (runsOf spec).pairs).filter (!sharesBase ·)).map (placeNote key) ++
        if (compileMark key (.text spec)).rules = [] then [diagnosis key (.text spec)] else [] := by
  by_cases hseparator : spec.contains separator = true
  · have hlog := log_compileRuns key spec
    simp only [notes_items] at hlog
    simp only [compileMark, diagnosis, hseparator, if_true]
    exact hlog
  · have hplaces : places (runsOf spec).pairs = [] := places_of_not_mem (by simpa using hseparator)
    simp only [compileMark, diagnosis, if_neg hseparator, hplaces]
    rfl

/-- The diagnosis is none of the notes. -/
theorem filter_isNote_log (key : Value) (spec : Text) :
    (compileMark key (.text spec)).log.filter isNote =
      ((places (runsOf spec).pairs).filter (!sharesBase ·)).map (placeNote key) := by
  have hnotes : ∀ e ∈ ((places (runsOf spec).pairs).filter (!sharesBase ·)).map (placeNote key),
      isNote e = true := by
    intro e he
    obtain ⟨place, -, rfl⟩ := List.mem_map.1 he
    exact isNote_placeNote key place
  have hdiagnosis : isNote (diagnosis key (.text spec)) = false :=
    not_isNote_of_mem_diagnoses (diagnosis_mem key (.text spec))
  simp only [log_compileMark, List.filter_append, List.filter_eq_self.2 hnotes]
  split
  · simp [hdiagnosis]
  · simp

/-- The log of any spec is notes on places, and after them a diagnosis if there is no rule. -/
theorem exists_notes (key spec : Value) :
    ∃ notes : List Log.Entry, (∀ e ∈ notes, isNote e = true) ∧
      (compile key spec).log =
        notes ++ if (compile key spec).rules = [] then [diagnosis key spec] else [] := by
  cases spec with
  | text t =>
      by_cases htone : (toneNamed? t).isSome = true
      · -- A tone name gives its rule, and nothing is logged.
        obtain ⟨tone, hnamed⟩ := Option.isSome_iff_exists.1 htone
        refine ⟨[], List.forall_mem_nil _, ?_⟩
        simp [compile, compileTone, hnamed]
      · refine ⟨((places (runsOf t).pairs).filter (!sharesBase ·)).map (placeNote key), ?_, ?_⟩
        · intro e he
          obtain ⟨place, -, rfl⟩ := List.mem_map.1 he
          exact isNote_placeNote key place
        · simp only [compile, if_neg htone]
          exact log_compileMark key t
  | _ => exact ⟨[], List.forall_mem_nil _, rfl⟩

section

variable {key spec : Value}

theorem not_mem_diagnoses_of_notes {notes : List Log.Entry}
    (hnotes : ∀ e ∈ notes, isNote e = true) : ∀ e ∈ notes, e ∉ diagnoses key spec := by
  intro e he hdiagnosis
  have hnote := hnotes e he
  rw [not_isNote_of_mem_diagnoses hdiagnosis] at hnote
  cases hnote

/-- Without a rule the diagnosis is the last record and the only one of its kind. -/
theorem diagnosed (hnone : (compile key spec).rules = []) :
    (compile key spec).log.getLast? = some (diagnosis key spec) ∧
      (compile key spec).log.countP (· ∈ diagnoses key spec) = 1 := by
  obtain ⟨notes, hnotes, hlog⟩ := exists_notes key spec
  simp only [hnone, if_true] at hlog
  have hapart : notes.countP (· ∈ diagnoses key spec) = 0 := by
    refine List.countP_eq_zero.2 ?_
    simpa using not_mem_diagnoses_of_notes hnotes
  constructor
  · simp [hlog]
  · simp [hlog, List.countP_append, hapart, diagnosis_mem]

/-- With a rule there is none. -/
theorem not_diagnosed (hrules : (compile key spec).rules ≠ []) :
    ∀ e ∈ (compile key spec).log, e ∉ diagnoses key spec := by
  obtain ⟨notes, hnotes, hlog⟩ := exists_notes key spec
  simp only [hrules, if_false, List.append_nil] at hlog
  simpa [hlog] using not_mem_diagnoses_of_notes hnotes

end

/-! ## Accounts -/

/-- The places of a mark spec give mark rules and notes in their order, as many as there are places:
the shorter side of every pair with two filled sides. Any spec gives no rule exactly if the last
record names the key and the spec, and then no other record does. -/
theorem compile_accounts (key : Value) :
    (∀ spec : Text, ∃ pairs final lead, Reads spec pairs final ∧
      (compileMark key (.text spec)).rules = lead ++ finalRules key final ∧
      lead.filter isMark = ((places pairs).filter sharesBase).map (placeRule key) ∧
      (compileMark key (.text spec)).log.filter isNote =
        ((places pairs).filter (!sharesBase ·)).map (placeNote key) ∧
      (lead.filter isMark).length + ((compileMark key (.text spec)).log.filter isNote).length =
        ((pairs.filter fun pair => !pair.1.isEmpty && !pair.2.isEmpty).map
          fun pair => min pair.1.length pair.2.length).sum) ∧
    ∀ spec : Value,
      ((compile key spec).rules = [] ↔
        ∃ e ∈ diagnoses key spec, (compile key spec).log.getLast? = some e) ∧
      ((compile key spec).rules = [] →
        (compile key spec).log.getLast? = some (diagnosis key spec) ∧
          (compile key spec).log.countP (· ∈ diagnoses key spec) = 1) ∧
      ((compile key spec).rules ≠ [] → ∀ e ∈ (compile key spec).log, e ∉ diagnoses key spec) := by
  constructor
  · intro spec
    obtain ⟨pairs, final, hreads⟩ := exists_reads spec
    have hrules : (compileMark key (.text spec)).rules =
        leadRules key spec ++ finalRules key (runsOf spec).final := markRules_eq key spec
    have hmarks := marks_leadRules key spec
    have hnotes := filter_isNote_log key spec
    simp only [hreads.runsOf_eq] at hrules hmarks hnotes
    refine ⟨pairs, final, leadRules key spec, hreads, hrules, hmarks, hnotes, ?_⟩
    calc
      ((leadRules key spec).filter isMark).length +
          ((compileMark key (.text spec)).log.filter isNote).length
          = ((places pairs).filter sharesBase).length +
              ((places pairs).filter (!sharesBase ·)).length := by
            simp only [hmarks, hnotes, List.length_map]
      _ = (places pairs).length := (List.length_eq_length_filter_add sharesBase).symm
      _ = _ := length_places pairs
  · intro spec
    refine ⟨⟨?_, ?_⟩, diagnosed, not_diagnosed⟩
    · intro hnone
      exact ⟨diagnosis key spec, diagnosis_mem key spec, (diagnosed hnone).1⟩
    · intro hlast
      obtain ⟨e, he, hlast⟩ := hlast
      by_contra hrules
      exact not_diagnosed hrules e (List.mem_of_getLast? hlast) he

end Spec
end QuocNgu
