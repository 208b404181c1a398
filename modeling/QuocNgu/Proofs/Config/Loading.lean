import QuocNgu.Proofs.Config.Repairing
import QuocNgu.Proofs.Document.Reading

/-!
# Proofs.Config.Loading — which configuration a load gives

* `runOn_default?`       : the default configuration, if there is one
* `runOn_load_of_exists`, `runOn_load_of_new` : a user with a configuration, and one without
* `runOn_loadUser_object` : the user's configuration is repaired
* `load_repairs`         : what becomes of it key by key, and the warnings about it

The warnings are one text, a line for each. No warning is empty, so that the text is empty only if
there is none.
-/

namespace QuocNgu
namespace Config

/-! ## The default configuration -/

theorem runOn_default?_value {s : Session} {default : Value}
    (hdefault : Document.document? s.files s.environment.defaultConfigPath = .ok default)
    (hnull : default ≠ .null) : default?.runOn s = (.ok (some default), s) := by
  have hexists := Document.exists?_of_document? hdefault
  unfold default?
  rw [Job.runOn_bind (Job.runOn_environment s), Job.runOn_bind (Job.runOn_files s)]
  simp only [hexists, Bool.not_true, Bool.false_eq_true, if_false]
  rw [hdefault]
  split
  · next hvalue => exact absurd (Except.ok.inj hvalue) hnull
  · next hvalue =>
      cases hvalue
      rfl
  · next hvalue => cases hvalue

theorem runOn_default? {s : Session} {fields : List (Text × Value)}
    (hdefault : Document.document? s.files s.environment.defaultConfigPath = .ok (.object fields)) :
    default?.runOn s = (.ok (some (.object fields)), s) :=
  runOn_default?_value hdefault (by simp)

/-- A default configuration that is missing, cannot be read or is null is reported at most. -/
theorem runOn_default?_none {s : Session}
    (hnone : ∀ v, Document.document? s.files s.environment.defaultConfigPath = .ok v → v = .null) :
    ∃ log, default?.runOn s = (.ok none, { s with log := log }) := by
  unfold default?
  rw [Job.runOn_bind (Job.runOn_environment s), Job.runOn_bind (Job.runOn_files s)]
  split
  · exact ⟨_, rfl⟩
  · split
    · exact ⟨_, rfl⟩
    · next v hnull hvalue => exact absurd (hnone v hvalue) hnull
    · exact ⟨_, rfl⟩

/-! ## The configuration of a user -/

section

variable {s : Session} {default : Value}

theorem runOn_load_of_exists (hdefault : default?.runOn s = (.ok (some default), s))
    (hexists : s.files.exists? s.environment.userConfigPath = true) :
    load.runOn s = (loadUser s.environment default).runOn s := by
  unfold load
  rw [Job.runOn_bind (Job.runOn_environment s), Job.runOn_bind hdefault]
  dsimp only
  rw [Job.runOn_bind (Job.runOn_files s), hexists]
  rfl

/-- What a user without a configuration is told. -/
def firstUse (env : Environment) : String :=
  s!"config.json is not found under {env.userDirectory} . " ++
    s!"Copying the default config.json from {env.defaultConfigPath} .."

theorem runOn_load_of_new (hdefault : default?.runOn s = (.ok (some default), s))
    (hnew : s.files.exists? s.environment.userConfigPath = false) :
    load.runOn s = (save default >>= fun _ =>
      pure (⟨default, firstUse s.environment⟩ : Loaded)).runOn { s with
        log := s.log ++ [⟨.warning, .files, firstUse s.environment⟩] } := by
  have hwarn : (warnAlone default (firstUse s.environment)).runOn s =
      (.ok ⟨default, firstUse s.environment⟩, { s with
        log := s.log ++ [⟨.warning, .files, firstUse s.environment⟩] }) := rfl
  unfold load
  rw [Job.runOn_bind (Job.runOn_environment s), Job.runOn_bind hdefault]
  dsimp only
  rw [Job.runOn_bind (Job.runOn_files s), hnew]
  simp only [Bool.false_eq_true, if_false]
  change (warnAlone default (firstUse s.environment) >>= fun loaded => _).runOn s = _
  rw [Job.runOn_bind hwarn]

end

/-- A mapping is repaired wherever the dictionaries come to be a list. -/
theorem runOn_loadUser_object {s : Session} {defaults fields : List (Text × Value)}
    {items : List Value}
    (huser : Document.document? s.files s.environment.userConfigPath = .ok (.object fields))
    (hdefaults : (defaults.map Prod.fst).Nodup)
    (hitems : chosen? defaults fields "dictionaries" = some (.list items)) :
    (loadUser s.environment (.object defaults)).runOn s =
      let warnings := warningsFor s.environment.userDirectory defaults fields items
      (.ok ⟨.object (repaired defaults fields items), "\n".intercalate warnings⟩,
        { s with log := s.log ++ recordsOf warnings }) := by
  unfold loadUser
  rw [Job.runOn_bind (Document.runOn_openJob huser)]
  change (Job.ofReport (repair s.environment.userDirectory (.object defaults)
    (Value.textRows fields)) >>= fun st => _).runOn s = _
  rw [Job.runOn_bind (Job.runOn_ofReport (runOn_repair hdefaults hitems)), Value.ofRows_textRows]
  rfl

/-! ## Warnings -/

theorem missing_ne_empty (directory : String) (key : Value) : missing directory key ≠ "" := by
  intro hempty
  have hend := (String.append_eq_empty_iff.1 hempty).2
  exact absurd hend (by decide)

theorem mismatch_ne_empty (directory : String) (key : Value) : mismatch directory key ≠ "" := by
  intro hempty
  have hend := (String.append_eq_empty_iff.1 hempty).2
  exact absurd hend (by decide)

theorem ne_empty_of_mem_warningsFor {directory : String} {defaults fields : List (Text × Value)}
    {items : List Value} {warning : String}
    (hwarning : warning ∈ warningsFor directory defaults fields items) : warning ≠ "" := by
  rcases List.mem_append.1 hwarning with hnote | hdropped
  · rcases List.mem_flatMap.1 hnote with ⟨⟨key, default⟩, -, hnote⟩
    unfold notes at hnote
    split at hnote
    · split at hnote
      · cases hnote
      · rw [List.mem_singleton.1 hnote]
        exact mismatch_ne_empty _ _
    · rw [List.mem_singleton.1 hnote]
      exact missing_ne_empty _ _
  · unfold dropped at hdropped
    split at hdropped
    · cases hdropped
    · rw [List.mem_singleton.1 hdropped]
      decide

theorem intercalate_eq_empty_iff {separator : String} {lines : List String}
    (hlines : ∀ line ∈ lines, line ≠ "") : separator.intercalate lines = "" ↔ lines = [] := by
  cases lines with
  | nil => simp
  | cons line rest =>
      have hline := hlines line List.mem_cons_self
      cases rest with
      | nil => simpa using hline
      | cons next rest => simp [String.intercalate_cons_cons, hline]

/-! ## The repair of a user's configuration -/

/-- Each key of the user stays where it was and the missing ones follow. A value of the wrong kind
gives way to the default one, the dictionaries are left with their texts, and every repair is warned
of once. Values are told apart with their kinds, so that `1` in place of `true` is a repair. -/
theorem load_repairs {s : Session} {defaults fields : List (Text × Value)}
    {dictionaries : List Value}
    (hdefault : Document.document? s.files s.environment.defaultConfigPath =
      .ok (.object defaults))
    (hdictionaries : (Value.object defaults).field? "dictionaries" = some (.list dictionaries))
    (huser : Document.document? s.files s.environment.userConfigPath = .ok (.object fields)) :
    ∃ (result : List (Text × Value)) (items : List Value) (warnings : List String),
      load.runOn s = (.ok ⟨.object result, "\n".intercalate warnings⟩,
        { s with log := s.log ++ recordsOf warnings }) ∧
      result.map Prod.fst =
        fields.map Prod.fst ++ (defaults.map Prod.fst).filter (· ∉ fields.map Prod.fst) ∧
      chosen? defaults fields "dictionaries" = some (.list items) ∧
      (∀ key, (Value.object result).field? key =
        if key = "dictionaries" then some (.list (items.filter isText))
        else chosen? defaults fields key) ∧
      warnings = defaults.flatMap (notes s.environment.userDirectory fields) ++ dropped items ∧
      ("\n".intercalate warnings = "" ↔ result = fields) := by
  have hdistinct := Document.nodup_of_document? hdefault
  rcases exists_list_of_chosen? hdictionaries fields with ⟨items, hitems⟩
  refine ⟨repaired defaults fields items, items,
    warningsFor s.environment.userDirectory defaults fields items, ?_,
    keys_repaired hdistinct hitems, hitems, field?_repaired fields items hdistinct, rfl, ?_⟩
  · rw [runOn_load_of_exists (runOn_default? hdefault) (Document.exists?_of_document? huser)]
    exact runOn_loadUser_object huser hdistinct hitems
  · rw [intercalate_eq_empty_iff fun _ => ne_empty_of_mem_warningsFor]
    exact warningsFor_eq_nil_iff hdistinct hitems

def unrulyDefaults : List (Text × Value) :=
  [("max_suggestions", .integer 10), ("dictionaries", .list []),
    ("logging_level", .text "WARNING")]

/-- A configuration of a user that needs every sort of repair. -/
def unrulyFields : List (Text × Value) :=
  [("dictionaries", .list [.text "từ", .integer 7]), ("note", .null),
    ("max_suggestions", .boolean true)]

def unrulySession : Session where
  files := {
    entries := [(["d"], .directory),
      (["d", "config.json"], .file (Json.stored (.object unrulyDefaults)).1.toUTF8),
      (["u"], .directory), (["u", "vn-ime-core"], .directory),
      (["u", "vn-ime-core", "config.json"], .file (Json.stored (.object unrulyFields)).1.toUTF8)]
    working := [] }
  environment := ⟨some "/d", some "/u", none, "", ""⟩
  log := []
  output := []

theorem plain_unrulyDefaults : Json.Plain (.object unrulyDefaults) := by
  refine Json.Plain.object _ (by simp [unrulyDefaults]) (by decide) ?_
  simp only [unrulyDefaults, List.forall_mem_cons]
  exact ⟨Json.Plain.integer 10 (by decide), Json.Plain.list [] (by simp), Json.Plain.text _,
    by simp⟩

theorem plain_unrulyFields : Json.Plain (.object unrulyFields) := by
  refine Json.Plain.object _ (by simp [unrulyFields]) (by decide) ?_
  simp only [unrulyFields, List.forall_mem_cons]
  refine ⟨Json.Plain.list _ ?_, Json.Plain.null, Json.Plain.boolean true, by simp⟩
  simp only [List.forall_mem_cons]
  exact ⟨Json.Plain.text _, Json.Plain.integer 7 (by decide), by simp⟩

theorem load_repairs_unruly :
    Document.document? unrulySession.files unrulySession.environment.defaultConfigPath =
        .ok (.object unrulyDefaults) ∧
      Document.document? unrulySession.files unrulySession.environment.userConfigPath =
        .ok (.object unrulyFields) ∧
      ∃ result warnings,
        (load.runOn unrulySession).1 = .ok ⟨.object result, "\n".intercalate warnings⟩ ∧
        result.map Prod.fst = ["dictionaries", "note", "max_suggestions", "logging_level"] ∧
        (Value.object result).field? "dictionaries" = some (.list [.text "từ"]) ∧
        (Value.object result).field? "note" = some .null ∧
        (Value.object result).field? "max_suggestions" = some (.integer 10) ∧
        warnings = [mismatch "/u/vn-ime-core" (.text "max_suggestions"),
          missing "/u/vn-ime-core" (.text "logging_level"),
          "Dropping non-string entries from \"dictionaries\"."] := by
  have hdefault : Document.document? unrulySession.files
      unrulySession.environment.defaultConfigPath = .ok (.object unrulyDefaults) :=
    Document.document?_of_stored plain_unrulyDefaults rfl
  have huser : Document.document? unrulySession.files unrulySession.environment.userConfigPath =
      .ok (.object unrulyFields) := Document.document?_of_stored plain_unrulyFields rfl
  rcases load_repairs hdefault rfl huser with
    ⟨result, items, warnings, hload, hkeys, hitems, hresult, hwarnings, -⟩
  have hchosen : chosen? unrulyDefaults unrulyFields "dictionaries" =
      some (.list [.text "từ", .integer 7]) := rfl
  rw [hchosen] at hitems
  cases hitems
  refine ⟨hdefault, huser, result, warnings, congrArg Prod.fst hload, hkeys, ?_, ?_, ?_, hwarnings⟩
  · exact hresult "dictionaries"
  · exact hresult "note"
  · exact hresult "max_suggestions"

end Config
end QuocNgu
