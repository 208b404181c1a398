import QuocNgu.Proofs.Layout.Indexing

/-!
# Proofs.Layout.Failing — what a key that cannot be added leaves behind

* `Alike`, `Unchanged`   : layouts that agree in all but their keys, and in everything
* `rowOf_extendRow_nil`  : filing no rules under a key changes the rules of no key
* `Leaves`               : the three ways in which adding a key ends, and the layout after each
* `alike_addValues`      : in a run, the specs that fail leave nothing but their keys
* `addValue_unchanged_iff` : exactly when a failure leaves the layout as it was

A spec that is no text gives no rules, and it is found out after its key was filed. A key that can
file nothing is found out after its rules have joined the others.
-/

namespace QuocNgu
namespace Layout

/-! ## Layouts that answer alike -/

/-- The layouts agree in everything but the list of their keys. -/
structure Alike (l l' : Layout) : Prop where
  name : l'.name = l.name
  rules : l'.rules = l.rules
  toneKeys : l'.toneKeys = l.toneKeys
  appendingKeys : l'.appendingKeys = l.appendingKeys
  superKeys : l'.superKeys = l.superKeys
  rulesOf : ∀ key, l'.rulesOf key = l.rulesOf key

/-- No question can tell the layouts apart. -/
structure Unchanged (l l' : Layout) : Prop extends Alike l l' where
  keys : l'.keys = l.keys

theorem Alike.refl (l : Layout) : Alike l l := ⟨rfl, rfl, rfl, rfl, rfl, fun _ => rfl⟩

theorem Alike.trans {l l' l'' : Layout} (h : Alike l l') (h' : Alike l' l'') : Alike l l'' where
  name := h'.name.trans h.name
  rules := h'.rules.trans h.rules
  toneKeys := h'.toneKeys.trans h.toneKeys
  appendingKeys := h'.appendingKeys.trans h.appendingKeys
  superKeys := h'.superKeys.trans h.superKeys
  rulesOf := fun key => (h'.rulesOf key).trans (h.rulesOf key)

theorem Alike.symm {l l' : Layout} (h : Alike l l') : Alike l' l :=
  ⟨h.name.symm, h.rules.symm, h.toneKeys.symm, h.appendingKeys.symm, h.superKeys.symm,
    fun key => (h.rulesOf key).symm⟩

theorem Alike.rowOf_eq {l l' : Layout} (h : Alike l l') {key : Value} (hkey : key.isKey = true) :
    rowOf l'.byKey key = rowOf l.byKey key := by
  have hrules := h.rulesOf key
  simpa [rulesOf_eq, hkey] using hrules

/-! ## Filing no rules -/

/-- An old row keeps its rules, and a new one answers as a missing one does. -/
theorem rowOf_extendRow_nil (key : Value) (rows : List (Value × List Rule)) (asked : Value) :
    rowOf (extendRow key [] rows) asked = rowOf rows asked := by
  induction rows with
  | nil =>
      cases hasked : key.sameScalar asked <;> simp [extendRow, rowOf, hasked]
  | cons row rest ih =>
      rcases row with ⟨k, old⟩
      by_cases hk : k.sameScalar key = true
      · simp [extendRow, hk]
      · by_cases hrow : k.sameScalar asked = true
        · simp [extendRow, rowOf, hk, hrow]
        · simpa [extendRow, rowOf, hk, hrow] using ih

theorem alike_file_nil (l : Layout) (key : Value) : Alike l (l.file key []) where
  name := rfl
  rules := List.append_nil l.rules
  toneKeys := rfl
  appendingKeys := rfl
  superKeys := rfl
  rulesOf := by
    intro asked
    rw [rulesOf_eq, rulesOf_eq]
    change (if asked.isKey then Except.ok (rowOf (extendRow key [] l.byKey) asked) else _) = _
    rw [rowOf_extendRow_nil]

theorem noteKey_eq_self_iff {keys : List Value} {key : Value} :
    noteKey keys key = keys ↔ hasKey keys key = true := by
  unfold noteKey
  split
  · next hkey => simp [hkey]
  · next hkey => simp [hkey]

/-! ## The ways in which adding a key ends -/

/-- A key and a spec that can be added, a spec that is no text, and a key that can file nothing;
each with the layout it leaves. -/
inductive Leaves (l : Layout) (key spec : Value) : Added → Prop where
  | done {t : Text} {log : List Log.Entry} (hspec : spec = .text t) (hkey : key.isKey = true) :
      Leaves l key spec ⟨l.add key t, log, none⟩
  | notText {log : List Log.Entry} (hspec : spec.kind ≠ .text) (hkey : key.isKey = true) :
      Leaves l key spec ⟨l.file key [], log, some .notText⟩
  | notKey {log : List Log.Entry} (hkey : key.isKey = false) :
      Leaves l key spec
        ⟨{ l with rules := l.rules ++ (Spec.compile key spec).rules }, log, some .notKey⟩

theorem leaves_addValue (l : Layout) (key spec : Value) :
    Leaves l key spec (l.addValue key spec) := by
  unfold addValue
  by_cases hkey : key.isKey = true
  · rw [if_pos hkey]
    cases spec with
    | text t => exact .done rfl hkey
    | _ => exact .notText (by simp [Value.kind]) hkey
  · rw [if_neg hkey]
    exact .notKey (Bool.eq_false_iff.2 hkey)

/-! ## Runs in which some specs fail -/

/-- Adds text keys with specs of any shape; a spec that fails does not end the run. -/
def addValues (calls : List (Text × Value)) (l : Layout) : Layout :=
  calls.foldl (fun l call => (l.addValue (.text call.1) call.2).layout) l

/-- A spec that can be added does the same to layouts that answer alike. -/
theorem Alike.add {l l' : Layout} (h : Alike l l') (key spec : Text) :
    Alike (l.add (.text key) spec) (l'.add (.text key) spec) where
  name := h.name
  rules := congrArg (· ++ rulesOfBinding (key, spec)) h.rules
  toneKeys := congrArg (noteKeyIf (bindsTone (key, spec)) · (.text key)) h.toneKeys
  appendingKeys := congrArg (noteKeyIf (bindsAppending (key, spec)) · (.text key)) h.appendingKeys
  superKeys := congrArg (noteKeyIf (isSuper spec) · (.text key)) h.superKeys
  rulesOf := by
    intro asked
    change (if asked.isKey then Except.ok (rowOf (extendRow (.text key)
        (rulesOfBinding (key, spec)) l'.byKey) asked) else _) =
      if asked.isKey then Except.ok (rowOf (extendRow (.text key)
        (rulesOfBinding (key, spec)) l.byKey) asked) else _
    by_cases hasked : asked.isKey = true
    · rw [if_pos hasked, if_pos hasked, rowOf_extendRow, rowOf_extendRow, h.rowOf_eq hasked]
    · rw [if_neg hasked, if_neg hasked]

theorem alike_addValues (calls : List (Text × Value)) {l l' : Layout} (h : Alike l l') :
    Alike (addValues calls l) (addValues (calls.filter (·.2.kind = .text)) l') := by
  induction calls generalizing l l' with
  | nil => exact h
  | cons call rest ih =>
      rcases call with ⟨key, spec⟩
      cases spec with
      | text t => exact ih (h.add key t)
      -- The second run leaves this call out, and the first files no rule for it.
      | _ => exact ih ((alike_file_nil l (.text key)).symm.trans h)

/-! ## Failures that leave everything as it was -/

/-- Adding a key succeeds exactly if the key can file rules and its spec is a text. A spec that
fails leaves its key behind and nothing else, so the layout is as it was exactly if the key was
there before; a key that fails leaves its rules among the others and nothing else. In a run, the
specs that fail leave nothing but their keys. -/
theorem addValue_unchanged_iff (l : Layout) :
    (∀ key spec : Value,
      let added := l.addValue key spec
      (added.fault?.isNone = true ↔ key.isKey = true ∧ spec.kind = .text) ∧
      (added.fault?.isSome = true → key.isKey = true →
        Alike l added.layout ∧ added.layout.keys = noteKey l.keys key ∧
          (Unchanged l added.layout ↔ hasKey l.keys key = true)) ∧
      (added.fault?.isSome = true → key.isKey = false →
        added.layout = { l with rules := l.rules ++ (Spec.compile key spec).rules } ∧
          (Unchanged l added.layout ↔ (Spec.compile key spec).rules = []))) ∧
    ∀ calls : List (Text × Value),
      Alike (addValues calls l) (addValues (calls.filter (·.2.kind = .text)) l) := by
  refine ⟨fun key spec => ?_, fun calls => alike_addValues calls (Alike.refl l)⟩
  dsimp only
  generalize hadded : l.addValue key spec = added
  have hleaves := leaves_addValue l key spec
  rw [hadded] at hleaves
  cases hleaves with
  | @done t log hspec hkey =>
      subst hspec
      simp [hkey, Value.kind]
  | @notText log hspec hkey =>
      -- All that is left is an empty row for the key, which answers as a missing one does.
      have halike := alike_file_nil l key
      have hkeys : (l.file key []).keys = l.keys ↔ hasKey l.keys key = true := noteKey_eq_self_iff
      refine ⟨by simp [hspec], fun _ _ => ⟨halike, rfl, ?_⟩, fun _ hnot => ?_⟩
      · exact ⟨fun h => hkeys.1 h.keys, fun h => ⟨halike, hkeys.2 h⟩⟩
      · rw [hkey] at hnot
        cases hnot
  | @notKey log hkey =>
      -- The rules were added before the key was found to be none.
      refine ⟨by simp [hkey], fun _ his => ?_, fun _ _ => ⟨rfl, ?_⟩⟩
      · rw [hkey] at his
        cases his
      · constructor
        · intro h
          simpa using h.rules
        · intro h
          exact ⟨⟨rfl, by simp [h], rfl, rfl, rfl, fun _ => rfl⟩, rfl⟩

/-- A number as the spec of a key that is there already, and as the spec of a list. -/
theorem addValue_unchanged_number :
    let l := (empty (.text ['X'])).add (.text ['s']) "DauSac"
    (((l.addValue (.text ['s']) (.integer 5)).fault?.isSome = true ∧
        (Value.text ['s']).isKey = true) ∧
      Unchanged l (l.addValue (.text ['s']) (.integer 5)).layout) ∧
    (((l.addValue (.list []) (.integer 5)).fault?.isSome = true ∧
        (Value.list []).isKey = false) ∧
      Unchanged l (l.addValue (.list []) (.integer 5)).layout) := by
  intro l
  rcases addValue_unchanged_iff l with ⟨hstep, -⟩
  have hfiled : hasKey l.keys (.text ['s']) = true := rfl
  refine ⟨⟨⟨rfl, rfl⟩, ?_⟩, ⟨rfl, rfl⟩, ?_⟩
  · exact ((hstep (.text ['s']) (.integer 5)).2.1 rfl rfl).2.2.2 hfiled
  · exact ((hstep (.list []) (.integer 5)).2.2 rfl rfl).2.2 rfl

/-- A number as the spec of a new key fails, and the key stays. -/
theorem addValue_keeps_failed_key :
    ∃ l : Layout, l = addValues [] (empty (.text ['X'])) ∧
      (l.addValue (.text ['s']) (.integer 5)).fault?.isSome = true ∧
      ¬Unchanged l (l.addValue (.text ['s']) (.integer 5)).layout := by
  refine ⟨empty (.text ['X']), rfl, rfl, ?_⟩
  intro hsame
  have hkeys : [Value.text ['s']] = [] := hsame.keys
  cases hkeys

end Layout
end QuocNgu
