import Mathlib.Data.List.Basic
import QuocNgu.Config
import QuocNgu.Proofs.Value.Rows

/-!
# Proofs.Config.Repairing — what a repair makes of a user's configuration

* `keptOr`, `chosen?` : the value that a key ends with
* `notes`, `dropped`  : the warnings about a key, and about the items of the dictionaries
* `mend`, `repaired`  : the fields after one key of the default, and after all of them
* `runOn_repair`      : a repair gives these fields and these warnings
* `warningsFor_eq_nil_iff` : it warns of nothing exactly if it changes nothing

A repair changes the configuration that it goes through. What it finds at a key is what the user has
there nevertheless: the keys of the default are distinct, and no step touches a key of another.
-/

namespace QuocNgu
namespace Config

/-! ## What becomes of a key -/

/-- The user's value at a key if its kind is that of the default value, and else the default
value. -/
def keptOr (fields : List (Text × Value)) (key : Text) (default : Value) : Value :=
  match (Value.object fields).field? key with
  | some own => if own.kind = default.kind then own else default
  | none => default

/-- The value that a key ends with, as long as the items of lists are left alone. -/
def chosen? (defaults fields : List (Text × Value)) (key : Text) : Option Value :=
  match (Value.object defaults).field? key with
  | some default => some (keptOr fields key default)
  | none => (Value.object fields).field? key

/-- The warning about a key of the default, if there is something to repair. -/
def notes (directory : String) (fields : List (Text × Value)) (default : Text × Value) :
    List String :=
  match (Value.object fields).field? default.1 with
  | some own =>
      if own.kind = default.2.kind then [] else [mismatch directory (.text default.1)]
  | none => [missing directory (.text default.1)]

def mend (fields : List (Text × Value)) (default : Text × Value) : List (Text × Value) :=
  Value.assignField default.1 (keptOr fields default.1 default.2) fields

theorem kind_keptOr (fields : List (Text × Value)) (key : Text) (default : Value) :
    (keptOr fields key default).kind = default.kind := by
  unfold keptOr
  split
  · split
    · next hkind => exact hkind
    · rfl
  · rfl

theorem field?_mend (fields : List (Text × Value)) (key asked : Text) (default : Value) :
    (Value.object (mend fields (key, default))).field? asked =
      if key = asked then some (keptOr fields key default)
      else (Value.object fields).field? asked :=
  Value.field?_assignField _ _ _ _

/-- Nothing is noted about a key exactly if the user's value stays. -/
theorem notes_eq_nil_iff {directory : String} {fields : List (Text × Value)} {key : Text}
    {default : Value} :
    notes directory fields (key, default) = [] ↔
      (Value.object fields).field? key = some (keptOr fields key default) := by
  cases hown : (Value.object fields).field? key with
  | none => simp [notes, hown]
  | some own =>
      by_cases hkind : own.kind = default.kind
      · simp [notes, keptOr, hown, hkind]
      · have hother : ¬own = default := fun h => hkind (congrArg Value.kind h)
        simp [notes, keptOr, hown, hkind, hother]

theorem chosen?_of_field? {defaults : List (Text × Value)} {key : Text} {default : Value}
    (fields : List (Text × Value))
    (hdefault : (Value.object defaults).field? key = some default) :
    chosen? defaults fields key = some (keptOr fields key default) := by
  simp [chosen?, hdefault]

/-- Where the default has a list, some list is chosen. -/
theorem exists_list_of_chosen? {defaults : List (Text × Value)} {key : Text} {items : List Value}
    (hdefault : (Value.object defaults).field? key = some (.list items))
    (fields : List (Text × Value)) :
    ∃ items, chosen? defaults fields key = some (.list items) := by
  have hkind := kind_keptOr fields key (.list items)
  cases hkept : keptOr fields key (.list items) with
  | list kept =>
      refine ⟨kept, ?_⟩
      rw [chosen?_of_field? fields hdefault, hkept]
  | _ =>
      rw [hkept] at hkind
      cases hkind

/-- A value of the user's that the default has no objection to stays. -/
theorem chosen?_of_own {defaults fields : List (Text × Value)} {key : Text} {own : Value}
    (hown : (Value.object fields).field? key = some own)
    (hkind : ∀ default, (Value.object defaults).field? key = some default →
      own.kind = default.kind) :
    chosen? defaults fields key = some own := by
  cases hdefault : (Value.object defaults).field? key with
  | none => simp [chosen?, hdefault, hown]
  | some default => simp [chosen?, hdefault, keptOr, hown, hkind default hdefault]

/-- A key that ends with a value of the kind that the user has there ends with the user's value. -/
theorem eq_own_of_chosen? {defaults fields : List (Text × Value)} {key : Text} {own value : Value}
    (hown : (Value.object fields).field? key = some own)
    (hvalue : chosen? defaults fields key = some value) (hkind : own.kind = value.kind) :
    value = own := by
  cases hdefault : (Value.object defaults).field? key with
  | none =>
      have hsame : some own = some value := by
        simpa [chosen?, hdefault, hown] using hvalue
      exact (Option.some.inj hsame).symm
  | some default =>
      rw [chosen?_of_field? fields hdefault] at hvalue
      have hkept : keptOr fields key default = value := Option.some.inj hvalue
      have hdefaultKind : own.kind = default.kind := by
        rw [hkind, ← hkept, kind_keptOr]
      simpa [keptOr, hown, hdefaultKind] using hkept.symm

/-! ## What becomes of the dictionaries -/

def dropped (items : List Value) : List String :=
  if items.all isText then [] else ["Dropping non-string entries from \"dictionaries\"."]

theorem dropped_eq_nil_iff {items : List Value} :
    dropped items = [] ↔ items.filter isText = items := by
  simp [dropped, List.filter_eq_self]

/-! ## All keys -/

theorem keptOr_congr {fields fields' : List (Text × Value)} {key : Text} (default : Value)
    (hfield : (Value.object fields).field? key = (Value.object fields').field? key) :
    keptOr fields key default = keptOr fields' key default := by
  simp [keptOr, hfield]

theorem notes_congr {fields fields' : List (Text × Value)} {key : Text} (directory : String)
    (default : Value)
    (hfield : (Value.object fields).field? key = (Value.object fields').field? key) :
    notes directory fields (key, default) = notes directory fields' (key, default) := by
  simp [notes, hfield]

/-- No step touches a key of another. -/
theorem field?_mend_of_ne (fields : List (Text × Value)) {key asked : Text} (default : Value)
    (hasked : key ≠ asked) :
    (Value.object (mend fields (key, default))).field? asked =
      (Value.object fields).field? asked := by
  simp [field?_mend, hasked]

section

variable {defaults : List (Text × Value)}

/-- What is noted about the keys to come does not depend on the key that was mended. -/
theorem flatMap_notes_mend {directory : String} {fields : List (Text × Value)} {key : Text}
    {default : Value} (hkey : key ∉ defaults.map Prod.fst) :
    defaults.flatMap (notes directory (mend fields (key, default))) =
      defaults.flatMap (notes directory fields) := by
  refine List.flatMap_congr ?_
  rintro ⟨asked, value⟩ hmem
  have hasked : key ≠ asked := by
    rintro rfl
    exact hkey (List.mem_map_of_mem hmem)
  exact notes_congr directory value (field?_mend_of_ne fields default hasked)

variable (hdefaults : (defaults.map Prod.fst).Nodup)
include hdefaults

theorem field?_foldl_mend (fields : List (Text × Value)) (asked : Text) :
    (Value.object (defaults.foldl mend fields)).field? asked = chosen? defaults fields asked := by
  induction defaults generalizing fields with
  | nil => rfl
  | cons default rest ih =>
      rcases default with ⟨key, value⟩
      rw [List.map_cons, List.nodup_cons] at hdefaults
      have hrest := ih hdefaults.2 (mend fields (key, value))
      rw [List.foldl_cons, hrest]
      by_cases hasked : key = asked
      · -- The key does not come again, so the step that mends it has the last word.
        subst hasked
        have hnone := Value.field?_eq_none_iff.2 hdefaults.1
        simp [chosen?, hnone, Value.field?_cons, field?_mend]
      · have hfield := field?_mend_of_ne fields value hasked
        have hkept := fun default => keptOr_congr default hfield
        simp [chosen?, Value.field?_cons, hasked, hfield, hkept]

theorem keys_foldl_mend (fields : List (Text × Value)) :
    (defaults.foldl mend fields).map Prod.fst =
      fields.map Prod.fst ++ (defaults.map Prod.fst).filter (· ∉ fields.map Prod.fst) := by
  induction defaults generalizing fields with
  | nil => simp
  | cons default rest ih =>
      rcases default with ⟨key, value⟩
      rw [List.map_cons, List.nodup_cons] at hdefaults
      have hrest := ih hdefaults.2 (mend fields (key, value))
      by_cases hkey : key ∈ fields.map Prod.fst
      · have hkeys : (mend fields (key, value)).map Prod.fst = fields.map Prod.fst :=
          (Value.keys_assignField _ _ _).trans (if_pos hkey)
        rw [List.foldl_cons, hrest, hkeys, List.map_cons,
          List.filter_cons_of_neg (by simpa using hkey)]
      · have hkeys : (mend fields (key, value)).map Prod.fst = fields.map Prod.fst ++ [key] :=
          (Value.keys_assignField _ _ _).trans (if_neg hkey)
        -- The new key is none of those to come, which are new or old as before.
        have hothers : (rest.map Prod.fst).filter (· ∉ fields.map Prod.fst ++ [key]) =
            (rest.map Prod.fst).filter (· ∉ fields.map Prod.fst) := by
          refine List.filter_congr ?_
          intro k hk
          have hne : k ≠ key := by
            rintro rfl
            exact hdefaults.1 hk
          simp [hne]
        rw [List.foldl_cons, hrest, hkeys, hothers, List.map_cons,
          List.filter_cons_of_pos (by simpa using hkey), List.append_assoc, List.singleton_append]

end

/-- The fields after a repair in which the dictionaries came to be the given list. -/
def repaired (defaults fields : List (Text × Value)) (items : List Value) : List (Text × Value) :=
  Value.assignField "dictionaries" (.list (items.filter isText)) (defaults.foldl mend fields)

/-- The warnings of a repair: key by key in the order of the default, the dictionaries last. -/
def warningsFor (directory : String) (defaults fields : List (Text × Value))
    (items : List Value) : List String :=
  defaults.flatMap (notes directory fields) ++ dropped items

section

variable {defaults fields : List (Text × Value)} {items : List Value}
  (hdefaults : (defaults.map Prod.fst).Nodup)
  (hitems : chosen? defaults fields "dictionaries" = some (.list items))
include hdefaults hitems

variable (fields items) in
omit hitems in
theorem field?_repaired (asked : Text) :
    (Value.object (repaired defaults fields items)).field? asked =
      if asked = "dictionaries" then some (.list (items.filter isText))
      else chosen? defaults fields asked := by
  rw [repaired, Value.field?_assignField, field?_foldl_mend hdefaults]
  simp [eq_comm (a := asked)]

/-- The keys of the user stand first, and the keys that the user lacks follow. -/
theorem keys_repaired :
    (repaired defaults fields items).map Prod.fst =
      fields.map Prod.fst ++ (defaults.map Prod.fst).filter (· ∉ fields.map Prod.fst) := by
  have hfield := field?_foldl_mend hdefaults fields "dictionaries"
  rw [hitems] at hfield
  have hmem : (Text.ofString "dictionaries") ∈ (defaults.foldl mend fields).map Prod.fst := by
    by_contra hnone
    rw [Value.field?_eq_none_iff.2 hnone] at hfield
    cases hfield
  rw [repaired, Value.keys_assignField, if_pos hmem, keys_foldl_mend hdefaults]

theorem repaired_of_warningsFor {directory : String}
    (hwarnings : warningsFor directory defaults fields items = []) :
    repaired defaults fields items = fields := by
  have hmended := field?_foldl_mend hdefaults fields "dictionaries"
  rcases List.append_eq_nil_iff.1 hwarnings with ⟨hnotes, hdropped⟩
  have hkept : defaults.foldl mend fields = fields := by
    -- Without a note no step mends anything.
    refine List.foldlRecOn (motive := fun mended => mended = fields) defaults mend rfl ?_
    rintro mended rfl ⟨key, default⟩ hmem
    have hnote := List.flatMap_eq_nil_iff.1 hnotes _ hmem
    exact Value.assignField_of_field? (notes_eq_nil_iff.1 hnote)
  rw [hkept, hitems] at hmended
  rw [repaired, hkept, dropped_eq_nil_iff.1 hdropped]
  exact Value.assignField_of_field? hmended

theorem warningsFor_of_repaired {directory : String}
    (hrepaired : repaired defaults fields items = fields) :
    warningsFor directory defaults fields items = [] := by
  have hfield := field?_repaired fields items hdefaults
  rw [hrepaired] at hfield
  -- The user has a list of texts already, and so it is the list that was chosen.
  have hown : (Value.object fields).field? "dictionaries" = some (.list (items.filter isText)) := by
    simpa using hfield "dictionaries"
  have hitemsSame : items = items.filter isText := by
    simpa using eq_own_of_chosen? hown hitems rfl
  have hall : ∀ key, (Value.object fields).field? key = chosen? defaults fields key := by
    intro key
    rw [hfield key, ← hitemsSame, ← hitems]
    split
    · next hkey => rw [hkey]
    · rfl
  refine List.append_eq_nil_iff.2 ⟨List.flatMap_eq_nil_iff.2 ?_, ?_⟩
  · rintro ⟨key, default⟩ hmem
    have hdefault := (Value.field?_eq_some_iff hdefaults).2 hmem
    exact notes_eq_nil_iff.2 ((hall key).trans (chosen?_of_field? fields hdefault))
  · exact dropped_eq_nil_iff.2 hitemsSame.symm

/-- A repair warns of nothing exactly if it leaves the configuration as it is. -/
theorem warningsFor_eq_nil_iff {directory : String} :
    warningsFor directory defaults fields items = [] ↔
      repaired defaults fields items = fields :=
  ⟨repaired_of_warningsFor hdefaults hitems, warningsFor_of_repaired hdefaults hitems⟩

end

/-! ## Repairing -/

section

variable {defaults fields : List (Text × Value)} {directory : String} {warnings : List String}
  {log : List Log.Entry}

/-- The records of warnings in the log. -/
def recordsOf (warnings : List String) : List Log.Entry := warnings.map (Log.warn .files)

theorem runOn_warn (st : Repaired) (message : String) (log : List Log.Entry) :
    (warn st message).runOn log =
      (.ok { st with warnings := st.warnings ++ [message] }, log ++ recordsOf [message]) := rfl

theorem put_textRows (key : Text) (value : Value) :
    Repaired.put ⟨Value.textRows fields, warnings⟩ (.text key) value =
      ⟨Value.textRows (Value.assignField key value fields), warnings⟩ := by
  rw [Repaired.put, Value.assign_textRows]

theorem runOn_repairKey (hdefaults : (defaults.map Prod.fst).Nodup) {key : Text} {default : Value}
    (hdefault : (key, default) ∈ defaults) :
    (repairKey directory (.object defaults) ⟨Value.textRows fields, warnings⟩
        (.text key)).runOn log =
      (.ok ⟨Value.textRows (mend fields (key, default)),
          warnings ++ notes directory fields (key, default)⟩,
        log ++ recordsOf (notes directory fields (key, default))) := by
  have hrow := Value.findRow?_textRows_eq key fields
  have hsub := Value.subscript_object hdefaults hdefault
  have hkey : (Value.text key).isKey = true := rfl
  cases hown : (Value.object fields).field? key with
  | none =>
      have hnotes : notes directory fields (key, default) = [missing directory (.text key)] := by
        simp [notes, hown]
      have hmend : mend fields (key, default) = Value.assignField key default fields := by
        simp [mend, keptOr, hown]
      simp only [repairKey, hkey, hrow, hown, hsub, Bool.not_true, Bool.false_eq_true, if_false]
      rw [Report.runOn_bind (runOn_warn _ _ _), Report.runOn_bind (Report.runOn_ofExcept _ _),
        put_textRows, hnotes, hmend]
      rfl
  | some own =>
      simp only [repairKey, hkey, hrow, hown, hsub, Bool.not_true, Bool.false_eq_true, if_false]
      rw [Report.runOn_bind (Report.runOn_ofExcept _ _)]
      by_cases hkind : own.kind = default.kind
      · -- A value of the right kind is put nowhere, and so the fields must not change.
        have hkept : keptOr fields key default = own := by
          simp [keptOr, hown, hkind]
        have hnotes : notes directory fields (key, default) = [] := by
          simp [notes, hown, hkind]
        have hmend : mend fields (key, default) = fields := by
          rw [mend, hkept]
          exact Value.assignField_of_field? hown
        rw [if_pos hkind, hnotes, hmend]
        simp [recordsOf]
      · have hnotes : notes directory fields (key, default) =
            [mismatch directory (.text key)] := by
          simp [notes, hown, hkind]
        have hmend : mend fields (key, default) = Value.assignField key default fields := by
          simp [mend, keptOr, hown, hkind]
        rw [if_neg hkind, Report.runOn_bind (runOn_warn _ _ _), put_textRows, hnotes, hmend]
        rfl

theorem runOn_foldlM_repairKey (hdefaults : (defaults.map Prod.fst).Nodup)
    {keys : List (Text × Value)} (hkeys : keys ⊆ defaults) (hdistinct : (keys.map Prod.fst).Nodup) :
    ((keys.map fun (k, _) => Value.text k).foldlM (repairKey directory (.object defaults))
        ⟨Value.textRows fields, warnings⟩).runOn log =
      (.ok ⟨Value.textRows (keys.foldl mend fields),
          warnings ++ keys.flatMap (notes directory fields)⟩,
        log ++ recordsOf (keys.flatMap (notes directory fields))) := by
  -- The fields change from key to key, while the notes are to be those of the first fields.
  induction keys generalizing fields warnings log with
  | nil => simp [recordsOf]
  | cons default rest ih =>
      rcases default with ⟨key, value⟩
      rcases List.cons_subset.1 hkeys with ⟨hkey, hrest⟩
      rw [List.map_cons, List.nodup_cons] at hdistinct
      rw [List.map_cons, List.foldlM_cons, Report.runOn_bind (runOn_repairKey hdefaults hkey),
        ih hrest hdistinct.2, flatMap_notes_mend hdistinct.1]
      simp [recordsOf, List.append_assoc]

theorem runOn_dropOthers {items : List Value}
    (hitems : (Value.object fields).field? "dictionaries" = some (.list items)) :
    (dropOthers ⟨Value.textRows fields, warnings⟩).runOn log =
      (.ok ⟨Value.textRows (Value.assignField "dictionaries" (.list (items.filter isText)) fields),
          warnings ++ dropped items⟩,
        log ++ recordsOf (dropped items)) := by
  have hrow : Value.findRow? dictionariesKey (Value.textRows fields) = some (.list items) :=
    (Value.findRow?_textRows_eq _ fields).trans hitems
  simp only [dropOthers, hrow, Value.elements]
  rw [Report.runOn_bind (Report.runOn_ofExcept _ log)]
  by_cases hall : items.all isText = true
  · have hdropped : dropped items = [] := if_pos hall
    have hsame := Value.assignField_of_field? hitems
    rw [if_pos hall, dropped_eq_nil_iff.1 hdropped, hdropped, hsame]
    simp [recordsOf]
  · have hdropped : dropped items = ["Dropping non-string entries from \"dictionaries\"."] :=
      if_neg hall
    rw [if_neg hall, Report.runOn_bind (runOn_warn _ _ _), dictionariesKey, put_textRows, hdropped]
    rfl

/-- Where the dictionaries come to be a list, a repair succeeds. -/
theorem runOn_repair (hdefaults : (defaults.map Prod.fst).Nodup) {items : List Value}
    (hitems : chosen? defaults fields "dictionaries" = some (.list items)) :
    (repair directory (.object defaults) (Value.textRows fields)).runOn log =
      (.ok ⟨Value.textRows (repaired defaults fields items),
          warningsFor directory defaults fields items⟩,
        log ++ recordsOf (warningsFor directory defaults fields items)) := by
  have hkeys : (Value.object defaults).elements = .ok (defaults.map fun (k, _) => .text k) := rfl
  have hmended := (field?_foldl_mend hdefaults fields "dictionaries").trans hitems
  rw [repair, hkeys, Report.runOn_bind (Report.runOn_ofExcept _ log), Report.runOn_bind
    (runOn_foldlM_repairKey hdefaults (List.Subset.refl defaults) hdefaults),
    runOn_dropOthers hmended]
  simp [repaired, warningsFor, recordsOf, List.append_assoc]

end

end Config
end QuocNgu
