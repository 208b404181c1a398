import QuocNgu.Value

/-!
# Proofs.Value.Rows — mappings with text keys as rows

* `sameScalar_text_iff` : only a text agrees with a text
* `findRow?_textRows`   : the row of a key that is not repeated
* `ofRows_textRows`     : the rows of a mapping make the mapping again
* `field?_assignField`, `keys_assignField` : the fields and the keys after one field was set
-/

namespace QuocNgu
namespace Value

theorem sameScalar_text_iff {v : Value} {t : Text} :
    v.sameScalar (.text t) = true ↔ v = .text t := by
  cases v <;> simp [sameScalar, integer?]

theorem text_sameScalar_iff {v : Value} {t : Text} :
    (Value.text t).sameScalar v = true ↔ v = .text t := by
  cases v with
  | text s => simp [sameScalar, eq_comm (a := t)]
  | _ => simp [sameScalar, integer?]

/-- The rows of a mapping with text keys. -/
def textRows (fields : List (Text × Value)) : List (Value × Value) :=
  fields.map fun (k, v) => (.text k, v)

theorem findRow?_cons (key k v : Value) (rest : List (Value × Value)) :
    findRow? key ((k, v) :: rest) = if k.sameScalar key then some v else findRow? key rest := by
  rw [findRow?, List.find?_cons]
  cases k.sameScalar key <;> rfl

theorem findRow?_textRows {fields : List (Text × Value)} (hdistinct : (fields.map Prod.fst).Nodup)
    {key : Text} {value : Value} (hfield : (key, value) ∈ fields) :
    findRow? (.text key) (textRows fields) = some value := by
  induction fields with
  | nil => cases hfield
  | cons field rest ih =>
      rcases field with ⟨k, v⟩
      rw [List.map_cons, List.nodup_cons] at hdistinct
      have hrow : findRow? (.text key) (textRows ((k, v) :: rest)) =
          if (Value.text k).sameScalar (.text key) then some v
          else findRow? (.text key) (textRows rest) := findRow?_cons _ _ _ _
      rw [hrow]
      rcases List.mem_cons.1 hfield with hsame | hrest
      · cases hsame
        exact if_pos (sameScalar_text_iff.2 rfl)
      · have hkey : key ∈ rest.map Prod.fst := List.mem_map_of_mem hrest
        have hother : ¬(Value.text k).sameScalar (.text key) = true := by
          intro hsame
          cases sameScalar_text_iff.1 hsame
          exact hdistinct.1 hkey
        rw [if_neg hother, ih hdistinct.2 hrest]

theorem ofRows_textRows (fields : List (Text × Value)) :
    ofRows (textRows fields) = .object fields := by
  unfold ofRows textRows
  rw [List.filterMap_map]
  change (if (fields.filterMap some).length = _ then object (fields.filterMap some) else _) = _
  rw [List.filterMap_some]
  exact if_pos (List.length_map _).symm

theorem subscript_object {fields : List (Text × Value)} (hdistinct : (fields.map Prod.fst).Nodup)
    {k : Text} {v : Value} (hfield : (k, v) ∈ fields) :
    (Value.object fields).subscript (.text k) = .ok v := by
  have hrow : findRow? (.text k) (fields.map fun (k, v) => (.text k, v)) = some v :=
    findRow?_textRows hdistinct hfield
  have hkey : (Value.text k).isKey = true := rfl
  simp only [subscript, rows?, hkey, if_true, hrow]

/-! ## Fields -/

theorem field?_cons (key k : Text) (v : Value) (rest : List (Text × Value)) :
    (object ((k, v) :: rest)).field? key =
      if k = key then some v else (object rest).field? key := by
  by_cases hk : k = key
  · simp [field?, hk]
  · have hother : (k == key) = false := beq_false_of_ne hk
    simp [field?, hk, hother]

theorem findRow?_textRows_eq (key : Text) (fields : List (Text × Value)) :
    findRow? (.text key) (textRows fields) = (object fields).field? key := by
  induction fields with
  | nil => rfl
  | cons field rest ih =>
      rcases field with ⟨k, v⟩
      have hrow : findRow? (.text key) (textRows ((k, v) :: rest)) =
          if (Value.text k).sameScalar (.text key) then some v
          else findRow? (.text key) (textRows rest) := findRow?_cons _ _ _ _
      rw [hrow, ih, field?_cons]
      simp [sameScalar_text_iff]

theorem field?_eq_none_iff {key : Text} {fields : List (Text × Value)} :
    (object fields).field? key = none ↔ key ∉ fields.map Prod.fst := by
  induction fields with
  | nil => simp [field?]
  | cons field rest ih =>
      rcases field with ⟨k, v⟩
      rw [field?_cons]
      by_cases hk : k = key
      · simp [hk]
      · simp [hk, ih, Ne.symm hk]

theorem field?_eq_some_iff {fields : List (Text × Value)} (hdistinct : (fields.map Prod.fst).Nodup)
    {key : Text} {value : Value} :
    (object fields).field? key = some value ↔ (key, value) ∈ fields := by
  constructor
  · intro hfield
    rcases Option.map_eq_some_iff.1 hfield with ⟨⟨k, v⟩, hfound, rfl⟩
    have hkey : k = key := by simpa using List.find?_some hfound
    rw [← hkey]
    exact List.mem_of_find?_eq_some hfound
  · intro hmem
    rw [← findRow?_textRows_eq]
    exact findRow?_textRows hdistinct hmem

/-! ## Setting a field -/

theorem assign_textRows (key : Text) (value : Value) (fields : List (Text × Value)) :
    assign sameScalar (.text key) value (textRows fields) =
      textRows (assignField key value fields) := by
  induction fields with
  | nil => rfl
  | cons field rest ih =>
      rcases field with ⟨k, v⟩
      by_cases hk : k = key
      · simp [textRows, assign, assignField, sameScalar, hk]
      · simpa [textRows, assign, assignField, sameScalar, hk] using ih

theorem field?_assignField (key asked : Text) (value : Value) (fields : List (Text × Value)) :
    (object (assignField key value fields)).field? asked =
      if key = asked then some value else (object fields).field? asked := by
  induction fields with
  | nil => simp [assignField, assign, field?_cons]
  | cons field rest ih =>
      rcases field with ⟨k, v⟩
      by_cases hk : k = key
      · by_cases hasked : key = asked <;> simp [assignField, assign, field?_cons, hk, hasked]
      · by_cases hasked : k = asked
        · have hother : ¬key = asked := fun h => hk (hasked.trans h.symm)
          simp [assignField, assign, field?_cons, hasked, hother, Ne.symm hother]
        · simpa [assignField, assign, field?_cons, hk, hasked] using ih

/-- Setting a field to what it holds changes nothing. -/
theorem assignField_of_field? {key : Text} {value : Value} {fields : List (Text × Value)}
    (hfield : (object fields).field? key = some value) :
    assignField key value fields = fields := by
  induction fields with
  | nil => simp [field?] at hfield
  | cons field rest ih =>
      rcases field with ⟨k, v⟩
      rw [field?_cons] at hfield
      by_cases hk : k = key
      · have hvalue : v = value := by simpa [hk] using hfield
        simp [assignField, assign, hk, hvalue]
      · have hrest := ih (by simpa [hk] using hfield)
        simpa [assignField, assign, hk] using hrest

theorem keys_assignField (key : Text) (value : Value) (fields : List (Text × Value)) :
    (assignField key value fields).map Prod.fst =
      if key ∈ fields.map Prod.fst then fields.map Prod.fst
      else fields.map Prod.fst ++ [key] := by
  induction fields with
  | nil => rfl
  | cons field rest ih =>
      rcases field with ⟨k, v⟩
      by_cases hk : k = key
      · simp [assignField, assign, hk]
      · have hrest : (assignField key value ((k, v) :: rest)).map Prod.fst =
            k :: (assignField key value rest).map Prod.fst := by
          simp [assignField, assign, hk]
        rw [hrest, ih]
        by_cases hmem : key ∈ rest.map Prod.fst
        · simp [hmem]
        · simp [hmem, Ne.symm hk]

theorem nodup_assignField {key : Text} {value : Value} {fields : List (Text × Value)}
    (hdistinct : (fields.map Prod.fst).Nodup) :
    ((assignField key value fields).map Prod.fst).Nodup := by
  rw [keys_assignField]
  split
  · exact hdistinct
  · next hnew =>
      refine List.nodup_append.2 ⟨hdistinct, by simp, ?_⟩
      rintro k hk k' hk' rfl
      rw [List.mem_singleton.1 hk'] at hk
      exact hnew hk

theorem member_text (fields : List (Text × Value)) (key : Text) :
    (object fields).member (.text key) = .ok ((object fields).field? key).isSome := by
  have hrow : findRow? (.text key) (fields.map fun (k, v) => (.text k, v)) =
      (object fields).field? key := findRow?_textRows_eq key fields
  simp [member, rows?, isKey, kind, hrow]

theorem subscript_of_field? {fields : List (Text × Value)} {key : Text} {v : Value}
    (hfield : (object fields).field? key = some v) :
    (object fields).subscript (.text key) = .ok v := by
  have hrow : findRow? (.text key) (fields.map fun (k, v) => (.text k, v)) = some v :=
    (findRow?_textRows_eq key fields).trans hfield
  simp [subscript, rows?, isKey, kind, hrow]

theorem fieldOr_of_field? {v : Value} {key : Text} {found? : Option Value}
    (hv : v.kind = .mapping) (hfield : v.field? key = found?) (default : Value) :
    v.fieldOr key default = .ok (found?.getD default) := by
  rw [fieldOr, hv, hfield]

/-- Texts can be joined. -/
theorem joined_map_text (separator : Text) (texts : List Text) :
    joined separator (texts.map .text) = .ok (separator.intercalate texts) := by
  have hmapped : ∀ f : Value → Option Text, (∀ t, f (.text t) = some t) →
      (texts.map Value.text).mapM f = some texts := by
    intro f hf
    induction texts with
    | nil => rfl
    | cons t texts ih => simp [List.mapM_cons, hf, ih]
  rw [joined, hmapped _ fun _ => rfl]

end Value
end QuocNgu
