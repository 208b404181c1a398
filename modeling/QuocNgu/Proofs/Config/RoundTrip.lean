import QuocNgu.Proofs.Config.Loading

/-!
# Proofs.Config.RoundTrip — a configuration that was saved is loaded as it is

* `SameKinds`, `NamesDictionaries` : what makes a configuration conform to the default one
* `repaired_conforming`   : repairing such a configuration changes nothing and warns of nothing
* `written_of_save`       : a save that succeeds has written its file and spared the others
* `written_cases`         : writing makes the directories of the user, and then the file
* `load_after_save`       : every load after a save gives the configuration that was saved

The default configuration may be the very file that is written. It then reads as the saved
configuration, which conforms to itself.
-/

namespace QuocNgu

namespace Config

/-! ## Repairing -/

/-- At every key of the default, a value of the kind that the default has there. -/
def SameKinds (defaults fields : List (Text × Value)) : Prop :=
  ∀ k v, (k, v) ∈ defaults → ∃ own, (k, own) ∈ fields ∧ own.kind = v.kind

/-- The dictionaries are a list of texts. -/
def NamesDictionaries (fields : List (Text × Value)) : Prop :=
  ∃ names : List Text, (Text.ofString "dictionaries", .list (names.map .text)) ∈ fields

theorem sameKinds_self (fields : List (Text × Value)) : SameKinds fields fields :=
  fun _ v hv => ⟨v, hv, rfl⟩

/-- A configuration that conforms to the default one is left as it is, without a warning. -/
theorem repaired_conforming {defaults fields : List (Text × Value)} (directory : String)
    (hdefaults : (defaults.map Prod.fst).Nodup) (hfields : (fields.map Prod.fst).Nodup)
    (hkinds : SameKinds defaults fields) (hnames : NamesDictionaries fields) :
    ∃ items, chosen? defaults fields "dictionaries" = some (.list items) ∧
      warningsFor directory defaults fields items = [] ∧
      repaired defaults fields items = fields := by
  rcases hnames with ⟨names, hnames⟩
  have hown : ∀ key default, (key, default) ∈ defaults →
      ∃ own, (Value.object fields).field? key = some own ∧ own.kind = default.kind := by
    intro key default hdefault
    rcases hkinds key default hdefault with ⟨own, hown, hkind⟩
    exact ⟨own, (Value.field?_eq_some_iff hfields).2 hown, hkind⟩
  have hitems : chosen? defaults fields "dictionaries" = some (.list (names.map .text)) := by
    refine chosen?_of_own ((Value.field?_eq_some_iff hfields).2 hnames) ?_
    intro default hdefault
    rcases hown _ default ((Value.field?_eq_some_iff hdefaults).1 hdefault) with ⟨own, hown, hkind⟩
    rw [(Value.field?_eq_some_iff hfields).2 hnames] at hown
    cases hown
    exact hkind
  have hwarnings : warningsFor directory defaults fields (names.map .text) = [] := by
    refine List.append_eq_nil_iff.2 ⟨List.flatMap_eq_nil_iff.2 ?_, ?_⟩
    · rintro ⟨key, default⟩ hdefault
      rcases hown key default hdefault with ⟨own, hown, hkind⟩
      simp [notes, hown, hkind]
    · simp [dropped, isText, Value.kind]
  exact ⟨_, hitems, hwarnings, repaired_of_warningsFor hdefaults hitems hwarnings⟩

/-! ## Loading -/

/-- A file that conforms to the default configuration is the configuration. -/
theorem runOn_load {s : Session} {defaults fields : List (Text × Value)}
    (hdefault : Document.document? s.files s.environment.defaultConfigPath =
      .ok (.object defaults))
    (huser : Document.document? s.files s.environment.userConfigPath = .ok (.object fields))
    (hdefaults : (defaults.map Prod.fst).Nodup) (hfields : (fields.map Prod.fst).Nodup)
    (hkinds : SameKinds defaults fields) (hnames : NamesDictionaries fields) :
    load.runOn s = (.ok ⟨.object fields, ""⟩, s) := by
  rcases repaired_conforming s.environment.userDirectory hdefaults hfields hkinds hnames with
    ⟨items, hitems, hwarnings, hrepaired⟩
  rw [runOn_load_of_exists (runOn_default? hdefault) (Document.exists?_of_document? huser),
    runOn_loadUser_object huser hdefaults hitems, hwarnings, hrepaired]
  simp [recordsOf]

/-- Loads one after another. -/
def loads : Nat → Job (List Loaded)
  | 0 => return []
  | n + 1 => do
      let loaded ← load
      return loaded :: (← loads n)

theorem runOn_loads {s : Session} {loaded : Loaded} (hload : load.runOn s = (.ok loaded, s))
    (n : Nat) : (loads n).runOn s = (.ok (List.replicate n loaded), s) := by
  induction n with
  | zero => rfl
  | succ n ih =>
      rw [loads, Job.runOn_bind hload, Job.runOn_bind ih]
      rfl

/-! ## Saving -/

def saved (env : Environment) : Log.Entry :=
  ⟨.info, .files, s!"Configuration saved successfully to {env.userConfigPath}"⟩

theorem runOn_save {v : Value} (hv : Json.Plain v) {s : Session}
    (hwritten : (written s.files s.environment (Json.stored v).1).2 = none) :
    (save v).runOn s = (.ok true, { s with
      files := (written s.files s.environment (Json.stored v).1).1
      log := s.log ++ [saved s.environment] }) := by
  have hcomplete : (Json.stored v).2 = true := hv.writable.complete
  unfold save
  rw [Job.runOn_bind (Job.runOn_environment s)]
  dsimp only
  rw [Job.runOn_bind (Job.runOn_files s), Job.runOn_bind (Job.runOn_setFiles _ s), hwritten,
    hcomplete]
  rfl

theorem save_succeeds {v : Value} (hv : Json.Plain v) (s : Session)
    (hwritten : (written s.files s.environment (Json.stored v).1).2 = none) :
    ((save v).runOn s).1 = .ok true ∧ ((save v).runOn s).2.environment = s.environment := by
  rw [runOn_save hv hwritten]
  exact ⟨rfl, rfl⟩

/-- A save says what became of the writing, unless a text has no written form. The files are those
that were written, even if it fails. -/
theorem exists_runOn_save (v : Value) (s : Session) :
    ∃ log, (save v).runOn s =
      (match (written s.files s.environment (Json.stored v).1).2 with
        | none => if (Json.stored v).2 then .ok true else .error .unwritable
        | some _ => .ok false,
        { s with files := (written s.files s.environment (Json.stored v).1).1, log := log }) := by
  unfold save
  rw [Job.runOn_bind (Job.runOn_environment s)]
  dsimp only
  rw [Job.runOn_bind (Job.runOn_files s), Job.runOn_bind (Job.runOn_setFiles _ s)]
  cases (written s.files s.environment (Json.stored v).1).2 with
  | none => cases (Json.stored v).2 <;> exact ⟨_, rfl⟩
  | some problem => exact ⟨_, rfl⟩

/-- A save that succeeds is one that could write its file. -/
theorem written_of_save {v : Value} {s : Session}
    (hsave : ((save v).runOn s).1 = .ok true) :
    (written s.files s.environment (Json.stored v).1).2 = none := by
  obtain ⟨log, hrun⟩ := exists_runOn_save v s
  cases hproblem : (written s.files s.environment (Json.stored v).1).2 with
  | none => rfl
  | some problem => simp [hrun, hproblem] at hsave

/-- The directories of the user are made first, and a failure there is the end of it. -/
theorem written_cases (fs : FileSystem) (env : Environment) (text : String) :
    (∃ problem, written fs env text =
        ((fs.makeDirectories env.userDirectory).1, some problem)) ∨
      written fs env text =
        (fs.makeDirectories env.userDirectory).1.write env.userConfigPath text.toUTF8 := by
  unfold written
  split
  · next made problem hmade => exact Or.inl ⟨problem, by rw [hmade]⟩
  · next made hmade => exact Or.inr (by rw [hmade])

/-- What was written can be read, and any other file reads as before or as what was written. -/
theorem read_written {fs : FileSystem} {env : Environment} {text : String}
    (hwritten : (written fs env text).2 = none) :
    (written fs env text).1.read env.userConfigPath = .ok text.toUTF8 ∧
      ∀ path content, fs.read path = .ok content →
        (written fs env text).1.read path = .ok content ∨
          (written fs env text).1.read path = .ok text.toUTF8 := by
  have hgrows := FileSystem.grows_makeDirectories fs env.userDirectory
  obtain ⟨problem, hfailed⟩ | hwrite := written_cases fs env text
  · rw [hfailed] at hwritten
    cases hwritten
  · rw [hwrite] at hwritten ⊢
    exact ⟨FileSystem.read_write hwritten, fun path content hread =>
      FileSystem.read_write_other hwritten (FileSystem.read_grows hgrows hread)⟩

/-! ## Saving and loading -/

section

variable {s s' : Session} {defaults fields : List (Text × Value)}
  (hdefault : Document.document? s.files s.environment.defaultConfigPath = .ok (.object defaults))
  (hdefaults : (defaults.map Prod.fst).Nodup)
include hdefault hdefaults

/-- In whatever session the files are those that the save left, a load gives what was saved. -/
theorem runOn_load_of_written (hplain : Json.Plain (.object fields))
    (hkinds : SameKinds defaults fields) (hnames : NamesDictionaries fields)
    (hwritten : (written s.files s.environment (Json.stored (.object fields)).1).2 = none)
    (hfiles : s'.files = (written s.files s.environment (Json.stored (.object fields)).1).1)
    (henvironment : s'.environment = s.environment) :
    load.runOn s' = (.ok ⟨.object fields, ""⟩, s') := by
  rcases read_written hwritten with ⟨hread, hothers⟩
  rw [← hfiles, ← henvironment] at hread
  have huser : Document.document? s'.files s'.environment.userConfigPath = .ok (.object fields) :=
    Document.document?_of_stored hplain hread
  have hfields := hplain.distinct
  rcases Document.exists_read_of_document? hdefault with ⟨content, hcontent⟩
  have hdefaultRead := hothers _ content hcontent
  rw [← hfiles, ← henvironment] at hdefaultRead
  rcases hdefaultRead with hkept | hreplaced
  · have hsame : Document.document? s'.files s'.environment.defaultConfigPath =
        .ok (.object defaults) := by
      rw [← hdefault, ← henvironment]
      apply Document.document?_congr
      rw [hkept, henvironment, hcontent]
    exact runOn_load hsame huser hdefaults hfields hkinds hnames
  · -- The default file was the file of the user.
    have hown : Document.document? s'.files s'.environment.defaultConfigPath =
        .ok (.object fields) := Document.document?_of_stored hplain hreplaced
    exact runOn_load hown huser hfields hfields (sameKinds_self fields) hnames

end

/-- On first use the default configuration is saved, and it is the configuration. -/
theorem runOn_load_first {s : Session} {defaults : List (Text × Value)}
    (hdefault : Document.document? s.files s.environment.defaultConfigPath = .ok (.object defaults))
    (hplain : Json.Plain (.object defaults))
    (hnew : s.files.exists? s.environment.userConfigPath = false)
    (hwritten : (written s.files s.environment (Json.stored (.object defaults)).1).2 = none) :
    load.runOn s = (.ok ⟨.object defaults, firstUse s.environment⟩, { s with
      files := (written s.files s.environment (Json.stored (.object defaults)).1).1
      log := s.log ++ [⟨.warning, .files, firstUse s.environment⟩] ++ [saved s.environment] }) := by
  have hsave := runOn_save hplain hwritten (s := { s with
    log := s.log ++ [⟨.warning, .files, firstUse s.environment⟩] })
  rw [runOn_load_of_new (runOn_default? hdefault) hnew, Job.runOn_bind hsave]
  rfl

/-- Every load after a save gives the configuration that was saved and no warning, as long as
nothing else is written. On first use the default configuration is saved in this way. -/
theorem load_after_save {s : Session} {defaults : List (Text × Value)}
    (hdefault : Document.document? s.files s.environment.defaultConfigPath = .ok (.object defaults))
    (hplain : Json.Plain (.object defaults)) (hnames : NamesDictionaries defaults) :
    (∀ fields, Json.Plain (.object fields) → SameKinds defaults fields →
      NamesDictionaries fields → ((save (.object fields)).runOn s).1 = .ok true →
      ∀ s', s'.files = ((save (.object fields)).runOn s).2.files →
        s'.environment = s.environment →
        ∀ n, (loads n).runOn s' = (.ok (List.replicate n ⟨.object fields, ""⟩), s')) ∧
    (s.files.exists? s.environment.userConfigPath = false →
      ((save (.object defaults)).runOn s).1 = .ok true →
      (∃ warnings, (load.runOn s).1 = .ok ⟨.object defaults, warnings⟩) ∧
      ∀ s', s'.files = (load.runOn s).2.files → s'.environment = s.environment →
        ∀ n, (loads n).runOn s' = (.ok (List.replicate n ⟨.object defaults, ""⟩), s')) := by
  have hdefaults := hplain.distinct
  constructor
  · intro fields hown hkinds hown_names hsave s' hfiles henvironment n
    have hwritten := written_of_save hsave
    rw [runOn_save hown hwritten] at hfiles
    exact runOn_loads (runOn_load_of_written hdefault hdefaults hown hkinds hown_names hwritten
      hfiles henvironment) n
  · intro hnew hsave
    have hwritten := written_of_save hsave
    rw [runOn_load_first hdefault hplain hnew hwritten]
    refine ⟨⟨_, rfl⟩, ?_⟩
    intro s' hfiles henvironment n
    exact runOn_loads (runOn_load_of_written hdefault hdefaults hplain (sameKinds_self defaults)
      hnames hwritten hfiles henvironment) n

/-- A default configuration, and one of a user with an order, a key and texts of their own. -/
def fewDefaults : List (Text × Value) :=
  [("max_suggestions", .integer 10), ("dictionaries", .list [])]

def fewFields : List (Text × Value) :=
  [("dictionaries", .list [.text "từ"]), ("note", .list [.null, .text "\r\n"]),
    ("max_suggestions", .integer (-3))]

def fewSession : Session where
  files := {
    entries := [(["d"], .directory),
      (["d", "config.json"], .file (Json.stored (.object fewDefaults)).1.toUTF8)]
    working := [] }
  environment := ⟨some "/d", some "/u", none, "", ""⟩
  log := []
  output := []

theorem plain_fewDefaults : Json.Plain (.object fewDefaults) := by
  refine Json.Plain.object _ ?_ (by decide) ?_
  · simp [fewDefaults]
  · simp only [fewDefaults, List.forall_mem_cons]
    exact ⟨Json.Plain.integer 10 (by decide), Json.Plain.list [] (by simp), by simp⟩

theorem plain_fewFields : Json.Plain (.object fewFields) := by
  refine Json.Plain.object _ ?_ (by decide) ?_
  · simp [fewFields]
  · simp only [fewFields, List.forall_mem_cons]
    refine ⟨Json.Plain.list _ ?_, Json.Plain.list _ ?_, Json.Plain.integer _ (by decide), by simp⟩
    · simp only [List.forall_mem_cons]
      exact ⟨Json.Plain.text _, by simp⟩
    · simp only [List.forall_mem_cons]
      exact ⟨Json.Plain.null, Json.Plain.text _, by simp⟩

theorem load_after_save_few :
    ((save (.object fewFields)).runOn fewSession).1 = .ok true ∧
    (∀ n, (loads n).runOn ((save (.object fewFields)).runOn fewSession).2 =
      (.ok (List.replicate n ⟨.object fewFields, ""⟩),
        ((save (.object fewFields)).runOn fewSession).2)) ∧
    (∃ warnings, (load.runOn fewSession).1 = .ok ⟨.object fewDefaults, warnings⟩) ∧
    ∀ n, (loads n).runOn { fewSession with files := (load.runOn fewSession).2.files } =
      (.ok (List.replicate n ⟨.object fewDefaults, ""⟩),
        { fewSession with files := (load.runOn fewSession).2.files }) := by
  have hdefault : Document.document? fewSession.files fewSession.environment.defaultConfigPath =
      .ok (.object fewDefaults) := Document.document?_of_stored plain_fewDefaults rfl
  have hnames : NamesDictionaries fewDefaults := ⟨[], by simp [fewDefaults]⟩
  have hown : NamesDictionaries fewFields := ⟨["từ"], by simp [fewFields]⟩
  have hkinds : SameKinds fewDefaults fewFields := by
    intro k v hv
    simp only [fewDefaults, List.mem_cons, List.not_mem_nil, or_false] at hv
    rcases hv with hv | hv
    · cases hv
      exact ⟨.integer (-3), by simp [fewFields], rfl⟩
    · cases hv
      exact ⟨.list [.text "từ"], by simp [fewFields], rfl⟩
  have hnew : fewSession.files.exists? fewSession.environment.userConfigPath = false := by
    decide
  rcases save_succeeds plain_fewFields fewSession (by decide +kernel) with ⟨hsaved, hsame⟩
  rcases save_succeeds plain_fewDefaults fewSession (by decide +kernel) with ⟨hsavedDefaults, -⟩
  rcases load_after_save hdefault plain_fewDefaults hnames with ⟨hafter, hfirst⟩
  rcases hfirst hnew hsavedDefaults with ⟨hloaded, hlater⟩
  refine ⟨hsaved, ?_, hloaded, ?_⟩
  · exact hafter fewFields plain_fewFields hkinds hown hsaved _ rfl hsame
  · -- With the files as a variable, nothing is evaluated to compare the sessions.
    have hfiles : ∀ fs, ({ fewSession with files := fs } : Session).files = fs := fun _ => rfl
    exact hlater _ (hfiles _) rfl

end Config
end QuocNgu
