import Mathlib.Data.List.Induction
import Mathlib.Data.List.Infix
import Mathlib.Data.List.Nodup
import QuocNgu.Layout
import QuocNgu.Proofs.List.Basic
import QuocNgu.Proofs.Spec.Marking
import QuocNgu.Proofs.Value.Rows

/-!
# Proofs.Layout.Indexing — the rules of a layout agree with the keys they are filed under

* `key_of_mem_compile`  : every rule of a spec belongs to the key that it was compiled for
* `rowOf_extendRow`     : what filing rules under one key does to the rules of every key
* `firstKeys`           : the keys of some bindings, each where it first occurs
* `Indexed`             : everything a layout keeps, read off the bindings it was made of
* `layout_indexes_bindings` : layouts made key by key or from a definition are indexed so

A binding may come again for a key that is filed already: the rules of the key grow, and the key
itself joins at most the lists of special kinds.
-/

namespace QuocNgu

/-! ## Rules and records of one spec -/

namespace Spec

theorem key_of_mem_compile {key : Value} {spec : Text} {r : Rule}
    (hr : r ∈ (compile key (.text spec)).rules) : r.key = key := by
  simp only [compile, compileTone] at hr
  split at hr
  · split at hr
    · simp only [List.mem_singleton] at hr
      rw [hr]
      rfl
    · cases hr
  · cases origin_of_mem hr <;> rfl

theorem source_of_mem_log {key : Value} {spec : Text} {e : Log.Entry}
    (he : e ∈ (compile key (.text spec)).log) : e.source = .spec := by
  have hwarn : ∀ message, (warn message).source = .spec := fun _ => rfl
  have hitems : ∀ items : List Item, ∀ e ∈ items.filterMap (Item.warning? key),
      e.source = .spec := by
    intro items e he
    rcases List.mem_filterMap.1 he with ⟨item, -, hitem⟩
    cases item with
    | rule r => cases hitem
    | unmarked s t =>
        cases hitem
        rfl
  simp only [compile, compileTone, compileMark, compileRuns, unrecognized] at he
  split at he
  · split at he <;> simp_all
  · split at he
    · split at he
      · rcases List.mem_append.1 he with he | he
        · exact hitems _ e he
        · rw [List.mem_singleton.1 he]
          rfl
      · exact hitems _ e he
    · rw [List.mem_singleton.1 he]
      rfl

end Spec

namespace Layout

/-! ## Rows of rules -/

/-- The rules in the row of a key. -/
def rowOf (rows : List (Value × List Rule)) (key : Value) : List Rule :=
  ((rows.find? (·.1.sameScalar key)).map (·.2)).getD []

theorem rowOf_extendRow (key : Text) (rules : List Rule) (rows : List (Value × List Rule))
    (asked : Value) :
    rowOf (extendRow (.text key) rules rows) asked =
      rowOf rows asked ++ if (Value.text key).sameScalar asked then rules else [] := by
  induction rows with
  | nil =>
      by_cases hasked : (Value.text key).sameScalar asked = true
      · simp [extendRow, rowOf, hasked]
      · simp [extendRow, rowOf, hasked]
  | cons row rest ih =>
      rcases row with ⟨k, old⟩
      by_cases hk : k.sameScalar (.text key) = true
      · obtain rfl := Value.sameScalar_text_iff.1 hk
        by_cases hasked : (Value.text key).sameScalar asked = true
        · simp [extendRow, rowOf, hk, hasked]
        · simp [extendRow, rowOf, hk, hasked]
      · by_cases hrow : k.sameScalar asked = true
        · -- The row is asked for, and it is not the one that grows.
          have hother : ¬(Value.text key).sameScalar asked = true := by
            intro hasked
            rw [Value.text_sameScalar_iff.1 hasked] at hrow
            exact hk hrow
          simp [extendRow, rowOf, hk, hrow, hother]
        · simpa [extendRow, rowOf, hk, hrow] using ih

theorem filter_sameScalar {key : Text} {rules : List Rule}
    (hrules : ∀ r ∈ rules, r.key = .text key) (asked : Value) :
    rules.filter (·.key.sameScalar asked) =
      if (Value.text key).sameScalar asked then rules else [] := by
  split
  · next hasked =>
      apply List.filter_eq_self.2
      intro r hr
      rw [hrules r hr]
      exact hasked
  · next hasked =>
      apply List.filter_eq_nil_iff.2
      intro r hr
      rw [hrules r hr]
      exact hasked

/-! ## Lists of keys -/

abbrev Binding := Text × Text

/-- The keys of the bindings that `p` holds of, each where it first occurs. -/
def firstKeys (p : Binding → Bool) (bindings : List Binding) : List Value :=
  ((bindings.filter p).map (·.1)).eraseDups.map .text

theorem hasKey_map_text (keys : List Text) (key : Text) :
    hasKey (keys.map .text) (.text key) = true ↔ key ∈ keys := by
  simp [hasKey, Value.sameScalar_text_iff]

theorem noteKeyIf_firstKeys (p : Binding → Bool) (bindings : List Binding) (b : Binding) :
    noteKeyIf (p b) (firstKeys p bindings) (.text b.1) = firstKeys p (bindings ++ [b]) := by
  by_cases hb : p b = true
  · have hkey := hasKey_map_text ((bindings.filter p).map (·.1)).eraseDups b.1
    rw [List.mem_eraseDups] at hkey
    simp only [noteKeyIf, hb, if_true, noteKey, firstKeys, hkey, List.filter_append,
      List.filter_cons_of_pos, List.filter_nil, List.map_append, List.map_cons, List.map_nil,
      eraseDups_concat]
    split
    · rfl
    · rw [List.map_append]
      rfl
  · simp [noteKeyIf, hb, firstKeys]

theorem nodup_firstKeys (p : Binding → Bool) (bindings : List Binding) :
    (firstKeys p bindings).Nodup := by
  have hkeys := nodup_eraseDups ((bindings.filter p).map (·.1))
  exact List.Nodup.map (fun _ _ h => Value.text.inj h) hkeys

theorem firstKeys_subset (p : Binding → Bool) (bindings : List Binding) :
    firstKeys p bindings ⊆ firstKeys (fun _ => true) bindings := by
  intro key hkey
  simp only [firstKeys, List.mem_map, List.mem_eraseDups, List.mem_filter] at hkey ⊢
  rcases hkey with ⟨t, ⟨b, ⟨hb, -⟩, hfirst⟩, htext⟩
  exact ⟨t, ⟨b, ⟨hb, trivial⟩, hfirst⟩, htext⟩

/-! ## Layouts and the bindings they are made of -/

def rulesOfBinding (b : Binding) : List Rule := (Spec.compile (.text b.1) (.text b.2)).rules

def bindsTone (b : Binding) : Bool := (rulesOfBinding b).any (·.kind? == some .tone)

def bindsAppending (b : Binding) : Bool := (rulesOfBinding b).any (·.kind? == some .append)

def bindsSuper (b : Binding) : Bool := decide ((['u', 'o'] : Text) <:+: b.2.lower)

/-- Adds bindings one after the other. -/
def addAll (bindings : List Binding) (l : Layout) : Layout :=
  bindings.foldl (fun l b => (l.addValue (.text b.1) (.text b.2)).layout) l

/-- What a layout keeps is what its bindings say, rule by rule and key by key. -/
structure Indexed (bindings : List Binding) (l : Layout) : Prop where
  rules : l.rules = bindings.flatMap rulesOfBinding
  rulesOf : ∀ key, l.rulesOf key =
    if key.isKey then .ok (l.rules.filter (·.key.sameScalar key)) else .error .notKey
  keys : l.keys = firstKeys (fun _ => true) bindings
  toneKeys : l.toneKeys = firstKeys bindsTone bindings
  appendingKeys : l.appendingKeys = firstKeys bindsAppending bindings
  superKeys : l.superKeys = firstKeys bindsSuper bindings

theorem rulesOf_eq (l : Layout) (key : Value) :
    l.rulesOf key = if key.isKey then .ok (rowOf l.byKey key) else .error .notKey := rfl

theorem indexed_empty (name : Value) : Indexed [] (empty name) where
  rules := rfl
  rulesOf := fun _ => rfl
  keys := rfl
  toneKeys := rfl
  appendingKeys := rfl
  superKeys := rfl

theorem isSuper_eq (b : Binding) : isSuper b.2 = bindsSuper b := by
  have hpart : isSuper b.2 = true ↔ bindsSuper b = true := by
    rw [isSuper, Text.isPart_iff, bindsSuper, decide_eq_true_eq]
  exact Bool.eq_iff_iff.2 hpart

theorem rulesOf_filter {l : Layout} (hl : ∀ key, l.rulesOf key =
    if key.isKey then .ok (l.rules.filter (·.key.sameScalar key)) else .error .notKey)
    {key : Value} (hkey : key.isKey = true) :
    rowOf l.byKey key = l.rules.filter (·.key.sameScalar key) := by
  have hrow := hl key
  simpa [rulesOf_eq, hkey] using hrow

/-- One more binding keeps everything in step. -/
theorem indexed_addValue {bindings : List Binding} {l : Layout} (hl : Indexed bindings l)
    (b : Binding) :
    Indexed (bindings ++ [b]) (l.addValue (.text b.1) (.text b.2)).layout := by
  have hnew : ∀ r ∈ rulesOfBinding b, r.key = .text b.1 := fun r hr => Spec.key_of_mem_compile hr
  have hnote : ∀ p : Binding → Bool,
      noteKeyIf (p b) (firstKeys p bindings) (.text b.1) = firstKeys p (bindings ++ [b]) :=
    fun p => noteKeyIf_firstKeys p bindings b
  constructor
  case rules =>
    change l.rules ++ rulesOfBinding b = _
    rw [hl.rules, List.flatMap_append, List.flatMap_singleton]
  case rulesOf =>
    intro key
    change (if key.isKey then
        Except.ok (rowOf (extendRow (.text b.1) (rulesOfBinding b) l.byKey) key)
      else Except.error Fault.notKey) = if key.isKey then
        .ok ((l.rules ++ rulesOfBinding b).filter (·.key.sameScalar key)) else .error .notKey
    by_cases hkey : key.isKey = true
    · rw [if_pos hkey, if_pos hkey, rowOf_extendRow, rulesOf_filter hl.rulesOf hkey,
        List.filter_append, filter_sameScalar hnew]
    · rw [if_neg hkey, if_neg hkey]
  case keys =>
    change noteKey l.keys (.text b.1) = _
    rw [hl.keys]
    exact hnote fun _ => true
  case toneKeys =>
    change noteKeyIf (bindsTone b) l.toneKeys (.text b.1) = _
    rw [hl.toneKeys, hnote]
  case appendingKeys =>
    change noteKeyIf (bindsAppending b) l.appendingKeys (.text b.1) = _
    rw [hl.appendingKeys, hnote]
  case superKeys =>
    change noteKeyIf (isSuper b.2) l.superKeys (.text b.1) = _
    rw [hl.superKeys, isSuper_eq, hnote]

theorem indexed_addAll (name : Value) (bindings : List Binding) :
    Indexed bindings (addAll bindings (empty name)) := by
  -- By induction from the back: the last binding is added to the layout of all before it.
  induction bindings using List.reverseRecOn with
  | nil =>
      exact indexed_empty name
  | append_singleton bindings b ih =>
      rw [addAll, List.foldl_append]
      exact indexed_addValue ih b

theorem Indexed.nodup {bindings : List Binding} {l : Layout} (hl : Indexed bindings l) :
    ∀ keys ∈ [l.keys, l.toneKeys, l.appendingKeys, l.superKeys], keys.Nodup := by
  simp [hl.keys, hl.toneKeys, hl.appendingKeys, hl.superKeys, nodup_firstKeys]

theorem Indexed.subset {bindings : List Binding} {l : Layout} (hl : Indexed bindings l) :
    ∀ keys ∈ [l.toneKeys, l.appendingKeys, l.superKeys], keys ⊆ l.keys := by
  simp [hl.keys, hl.toneKeys, hl.appendingKeys, hl.superKeys, firstKeys_subset]

/-! ## Layouts of definitions -/

/-- The binding that an entry of a definition makes: its key shortened to one code point. -/
def binding? : Text × Value → Option Binding
  | (p :: _, .text spec) => some ([p], spec)
  | _ => none

def addBinding? (l : Layout) (field : Text × Value) : Layout :=
  match binding? field with
  | some b => (l.addValue (.text b.1) (.text b.2)).layout
  | none => l

/-- What an entry of a definition logs: the records of its spec, or that it was skipped. -/
def entryLog (name : Value) (field : Text × Value) : List Log.Entry :=
  match binding? field with
  | some b => (Spec.compile (.text b.1) (.text b.2)).log
  | none => [skipped name (.text field.1) field.2]

theorem runOn_addEntry (l : Layout) (field : Text × Value) (log : List Log.Entry) :
    (l.addEntry (.text field.1) field.2).runOn log =
      (.ok (l.addBinding? field), log ++ entryLog l.name field) := by
  rcases field with ⟨key, spec⟩
  cases spec with
  | text rule =>
      cases key with
      | nil => rfl
      | cons p rest => rfl
  | _ => cases key <;> rfl

theorem name_addBinding? (l : Layout) (field : Text × Value) :
    (l.addBinding? field).name = l.name := by
  unfold addBinding?
  split
  · rfl
  · rfl

theorem foldl_addBinding? (fields : List (Text × Value)) (l : Layout) :
    fields.foldl addBinding? l = addAll (fields.filterMap binding?) l := by
  induction fields generalizing l with
  | nil =>
      rfl
  | cons field rest ih =>
      rw [List.foldl_cons, ih]
      cases hb : binding? field with
      | none => simp [addBinding?, hb]
      | some b => simp [addBinding?, hb, addAll]

theorem runOn_compile (name : Value) (fields : List (Text × Value)) (log : List Log.Entry) :
    (compile name (.object fields)).runOn log =
      let l := addAll (fields.filterMap binding?) (empty name)
      (.ok l, log ++ (fields.flatMap (entryLog name) ++ [compiled l])) := by
  have hentries : entriesOf (.object fields) =
      .ok (fields.map fun field => (.text field.1, field.2)) := by
    cases fields with
    | nil => rfl
    | cons field rest => rfl
  have hfold : Report.runOn
      (fields.foldlM (fun l field => addEntry l (.text field.1) field.2) (empty name)) log =
        (.ok (fields.foldl addBinding? (empty name)), log ++ fields.flatMap (entryLog name)) := by
    -- The records name the layout, and no entry changes its name.
    refine Report.runOn_foldlM (P := fun l => l.name = name) ?_ ?_ fields rfl log
    · intro l field log hname
      rw [runOn_addEntry, hname]
    · intro l field hname
      exact (name_addBinding? l field).trans hname
  rw [foldl_addBinding?] at hfold
  rw [compile, hentries, Report.runOn_bind (Report.runOn_ofExcept _ log), List.foldlM_map,
    Report.runOn_bind hfold, Report.runOn_bind (Report.runOn_log _ _), List.append_assoc]
  rfl

theorem collect_compile (name : Value) (fields : List (Text × Value)) :
    (compile name (.object fields)).collect =
      let l := addAll (fields.filterMap binding?) (empty name)
      (.ok l, fields.flatMap (entryLog name) ++ [compiled l]) :=
  runOn_compile name fields []

/-- The warnings about entries, apart from what the specs of the others report. -/
def skips (log : List Log.Entry) : List Log.Entry :=
  log.filter fun e => e.source == .layout && e.level == .warning

theorem skips_entryLog (name : Value) (field : Text × Value) :
    skips (entryLog name field) =
      if (binding? field).isNone then [skipped name (.text field.1) field.2] else [] := by
  cases hb : binding? field with
  | none =>
      simp only [entryLog, hb]
      rfl
  | some b =>
      have hspec : skips (entryLog name field) = [] := by
        apply List.filter_eq_nil_iff.2
        intro e he
        simp only [entryLog, hb] at he
        simp [Spec.source_of_mem_log he]
      rw [hspec]
      rfl

theorem skips_compile (name : Value) (fields : List (Text × Value)) :
    skips (compile name (.object fields)).collect.2 =
      (fields.filter fun field => (binding? field).isNone).map
        fun field => skipped name (.text field.1) field.2 := by
  have hdone : ∀ l, skips [compiled l] = [] := fun _ => rfl
  have hentries : skips (fields.flatMap (entryLog name)) =
      (fields.filter fun field => (binding? field).isNone).map
        fun field => skipped name (.text field.1) field.2 := by
    induction fields with
    | nil =>
        rfl
    | cons field rest ih =>
        have hfield := skips_entryLog name field
        simp only [skips] at hfield ih ⊢
        rw [List.flatMap_cons, List.filter_append, hfield, ih]
        by_cases hb : (binding? field).isNone = true <;> simp [hb]
  rw [collect_compile]
  simp only [skips, List.filter_append] at hdone hentries ⊢
  rw [hdone, hentries, List.append_nil]

/-- A layout keeps its bindings in step, whether they were added one by one, which never fails, or
taken from a definition, which skips every other entry with one warning each. -/
theorem layout_indexes_bindings (name : Value) :
    (∀ (l : Layout) (key spec : Text),
      (l.addValue (.text key) (.text spec)).fault?.isNone = true) ∧
    (∀ bindings : List Binding,
      let l := addAll bindings (empty name)
      Indexed bindings l ∧
        (∀ keys ∈ [l.keys, l.toneKeys, l.appendingKeys, l.superKeys], keys.Nodup) ∧
        ∀ keys ∈ [l.toneKeys, l.appendingKeys, l.superKeys], keys ⊆ l.keys) ∧
    ∀ fields : List (Text × Value),
      (compile name (.object fields)).collect.1 =
        .ok (addAll (fields.filterMap binding?) (empty name)) ∧
      skips (compile name (.object fields)).collect.2 =
        (fields.filter fun field => (binding? field).isNone).map
          fun field => skipped name (.text field.1) field.2 := by
  refine ⟨fun l key spec => rfl, ?_, ?_⟩
  · intro bindings l
    have hl : Indexed bindings l := indexed_addAll name bindings
    exact ⟨hl, hl.nodup, hl.subset⟩
  · intro fields
    refine ⟨?_, skips_compile name fields⟩
    rw [collect_compile]

end Layout
end QuocNgu
