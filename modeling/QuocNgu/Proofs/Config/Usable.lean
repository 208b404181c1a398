import QuocNgu.Installed
import QuocNgu.Proofs.Config.RoundTrip

/-!
# Proofs.Config.Usable — when a load gives a configuration to work with

* `Usable`      : a mapping whose dictionaries, if it has any, are texts
* `Conforming`  : what a configuration has in common with the default one
* `exists_load` : a load gives such a configuration, whatever is wrong with the user's file
* `loadsUsable_cases` : when a load gives a usable one, by what the two files hold

A file that cannot be read is answered with the default configuration, with one exception: an
integer with too many digits is a fault of the load. The default configuration itself is trusted.
-/

namespace QuocNgu
namespace Config

/-! ## Configurations to work with -/

/-- A mapping whose dictionaries, if it has any, are texts. -/
def Usable (config : Value) : Prop :=
  config.kind = .mapping ∧
    ∀ v, config.field? "dictionaries" = some v → ∃ names : List Text, v = .list (names.map .text)

/-- A load succeeds, and its configuration is usable. -/
def LoadsUsable (s : Session) : Prop :=
  ∃ loaded, (load.runOn s).1 = .ok loaded ∧ Usable loaded.config

/-- A configuration with all keys of the default one, and at them values of the same kinds. -/
structure Conforming (defaults fields : List (Text × Value)) : Prop where
  distinct : (fields.map Prod.fst).Nodup
  kinds : SameKinds defaults fields
  names : NamesDictionaries fields

theorem Conforming.usable {defaults fields : List (Text × Value)}
    (hconforming : Conforming defaults fields) : Usable (.object fields) := by
  rcases hconforming.names with ⟨names, hnames⟩
  refine ⟨rfl, ?_⟩
  intro v hv
  rw [(Value.field?_eq_some_iff hconforming.distinct).2 hnames] at hv
  exact ⟨names, (Option.some.inj hv).symm⟩

theorem usable_empty : Usable (.object []) := by
  refine ⟨rfl, ?_⟩
  intro v hv
  cases hv

theorem LoadsUsable.of_runOn {s s' : Session} {loaded : Loaded}
    (hload : load.runOn s = (.ok loaded, s')) (husable : Usable loaded.config) : LoadsUsable s :=
  ⟨loaded, congrArg Prod.fst hload, husable⟩

/-- The configuration of a load that is known decides whether the load is usable. -/
theorem loadsUsable_iff_of_runOn {s s' : Session} {loaded : Loaded}
    (hload : load.runOn s = (.ok loaded, s')) : LoadsUsable s ↔ Usable loaded.config := by
  constructor
  · rintro ⟨other, hother, husable⟩
    rw [hload] at hother
    cases hother
    exact husable
  · exact LoadsUsable.of_runOn hload

theorem not_loadsUsable_of_fault {s s' : Session} {fault : Fault}
    (hload : load.runOn s = (.error fault, s')) : ¬LoadsUsable s := by
  rintro ⟨loaded, hloaded, -⟩
  rw [hload] at hloaded
  cases hloaded

/-! ## Repairs conform -/

theorem exists_texts (items : List Value) :
    ∃ names : List Text, items.filter isText = names.map .text := by
  induction items with
  | nil => exact ⟨[], rfl⟩
  | cons item items ih =>
      rcases ih with ⟨names, hnames⟩
      cases item with
      | text t =>
          refine ⟨t :: names, ?_⟩
          simpa [isText, Value.kind] using hnames
      | _ => exact ⟨names, hnames⟩

theorem conforming_repaired {defaults fields : List (Text × Value)} {items : List Value}
    (hdefaults : (defaults.map Prod.fst).Nodup) (hfields : (fields.map Prod.fst).Nodup)
    (hitems : chosen? defaults fields "dictionaries" = some (.list items)) :
    Conforming defaults (repaired defaults fields items) := by
  have hdistinct : ((repaired defaults fields items).map Prod.fst).Nodup := by
    rw [keys_repaired hdefaults hitems]
    -- What is added are keys that the user lacks.
    refine List.nodup_append.2 ⟨hfields, hdefaults.filter _, ?_⟩
    rintro key hkey new hnew rfl
    have hlacks := (List.mem_filter.1 hnew).2
    exact of_decide_eq_true hlacks hkey
  have hfield := field?_repaired fields items hdefaults
  refine ⟨hdistinct, ?_, ?_⟩
  · intro key default hdefault
    have hchosen := chosen?_of_field? fields ((Value.field?_eq_some_iff hdefaults).2 hdefault)
    have hkind := kind_keptOr fields key default
    by_cases hkey : key = "dictionaries"
    · subst hkey
      -- The default has a list there as well, for a list was chosen.
      have hlist : keptOr fields "dictionaries" default = .list items :=
        Option.some.inj (hchosen.symm.trans hitems)
      refine ⟨.list (items.filter isText), ?_, ?_⟩
      · exact (Value.field?_eq_some_iff hdistinct).1 ((hfield _).trans (if_pos rfl))
      · simpa [hlist, Value.kind] using hkind
    · refine ⟨keptOr fields key default, ?_, hkind⟩
      exact (Value.field?_eq_some_iff hdistinct).1
        ((hfield key).trans ((if_neg hkey).trans hchosen))
  · rcases exists_texts items with ⟨names, hnames⟩
    refine ⟨names, (Value.field?_eq_some_iff hdistinct).1 ?_⟩
    rw [← hnames]
    exact (hfield _).trans (if_pos rfl)

/-! ## Files that hold no mapping -/

section

variable {s : Session} {default : Value}

theorem runOn_load_none (hnone : ∀ v,
      Document.document? s.files s.environment.defaultConfigPath = .ok v → v = .null) :
    ∃ warnings log, load.runOn s = (.ok ⟨.object [], warnings⟩, { s with log := log }) := by
  rcases runOn_default?_none hnone with ⟨log, hdefault⟩
  refine
    ⟨s!"Default config.json is missing or invalid under {s.environment.dataDirectory}", log, ?_⟩
  unfold load
  rw [Job.runOn_bind (Job.runOn_environment s), Job.runOn_bind hdefault]
  rfl

variable (default) in
/-- Where the user has no mapping, the default configuration stands in, whatever it is. -/
theorem exists_loadUser_default (hother : ∀ fields,
      Document.document? s.files s.environment.userConfigPath ≠ .ok (.object fields))
    (hshort : Document.document? s.files s.environment.userConfigPath ≠
      .error (.json .longInteger)) :
    ∃ warnings s', (loadUser s.environment default).runOn s = (.ok ⟨default, warnings⟩, s') := by
  unfold loadUser
  cases hdocument : Document.document? s.files s.environment.userConfigPath with
  | error problem =>
      have hproblem : problem ≠ .json .longInteger := by
        rintro rfl
        exact hshort hdocument
      rw [Job.runOn_bind (Document.runOn_openJob_error hdocument hproblem)]
      exact ⟨_, _, rfl⟩
  | ok v =>
      rcases Document.rows?_of_document? hdocument with ⟨fields, rfl⟩ | ⟨hrows, -⟩
      · exact absurd hdocument (hother fields)
      · rw [Job.runOn_bind (Document.runOn_openJob hdocument)]
        dsimp only
        rw [hrows]
        exact ⟨_, _, rfl⟩

/-- What has a written form is saved or not, without a fault. -/
theorem exists_save {config : Value} (hstored : (Json.stored config).2 = true) (s : Session) :
    ∃ done files log,
      (save config).runOn s = (.ok done, { s with files := files, log := log }) := by
  obtain ⟨log, hrun⟩ := exists_runOn_save config s
  cases hproblem : (written s.files s.environment (Json.stored config).1).2 with
  | none => exact ⟨true, _, log, by simpa [hproblem, hstored] using hrun⟩
  | some problem => exact ⟨false, _, log, by simpa [hproblem] using hrun⟩

theorem exists_load_default
    (hdefault : Document.document? s.files s.environment.defaultConfigPath = .ok default)
    (hnull : default ≠ .null) (hstored : (Json.stored default).2 = true)
    (hother : ∀ fields,
      Document.document? s.files s.environment.userConfigPath ≠ .ok (.object fields))
    (hshort : Document.document? s.files s.environment.userConfigPath ≠
      .error (.json .longInteger)) :
    ∃ warnings s', load.runOn s = (.ok ⟨default, warnings⟩, s') := by
  have hread := runOn_default?_value hdefault hnull
  -- Without a file of the user's the default is copied first; with one it only stands in.
  cases hexists : s.files.exists? s.environment.userConfigPath with
  | true =>
      rcases exists_loadUser_default default hother hshort with ⟨warnings, s', huser⟩
      exact ⟨warnings, s', (runOn_load_of_exists hread hexists).trans huser⟩
  | false =>
      rcases exists_save hstored { s with
        log := s.log ++ [⟨.warning, .files, firstUse s.environment⟩] } with
        ⟨done, files, log, hsave⟩
      rw [runOn_load_of_new hread hexists, Job.runOn_bind hsave]
      exact ⟨_, _, rfl⟩

/-- An integer with too many digits ends the load. -/
theorem runOn_load_long
    (hdefault : Document.document? s.files s.environment.defaultConfigPath = .ok default)
    (hnull : default ≠ .null)
    (hlong : Document.document? s.files s.environment.userConfigPath =
      .error (.json .longInteger)) :
    load.runOn s = (.error .longInteger, s) := by
  have hexists : s.files.exists? s.environment.userConfigPath = true :=
    Document.exists?_of_long hlong
  rw [runOn_load_of_exists (runOn_default?_value hdefault hnull) hexists]
  exact Job.runOn_bind_error (Document.runOn_openJob_long hlong) _

end

/-! ## Any file of the user's -/

/-- Under a sound default configuration a load gives one that conforms to it. -/
theorem exists_load {s : Session} {defaults : List (Text × Value)}
    (hdefault : Document.document? s.files s.environment.defaultConfigPath = .ok (.object defaults))
    (hnames : NamesDictionaries defaults) (hstored : (Json.stored (.object defaults)).2 = true)
    (hshort : Document.document? s.files s.environment.userConfigPath ≠
      .error (.json .longInteger)) :
    ∃ fields warnings s', load.runOn s = (.ok ⟨.object fields, warnings⟩, s') ∧
      Conforming defaults fields := by
  have hdistinct := Document.nodup_of_document? hdefault
  by_cases hmapping : ∃ fields,
      Document.document? s.files s.environment.userConfigPath = .ok (.object fields)
  · rcases hmapping with ⟨fields, huser⟩
    rcases hnames with ⟨names, hmem⟩
    have hfield := (Value.field?_eq_some_iff hdistinct).2 hmem
    rcases exists_list_of_chosen? hfield fields with ⟨items, hitems⟩
    have hload := (runOn_load_of_exists (runOn_default? hdefault)
      (Document.exists?_of_document? huser)).trans (runOn_loadUser_object huser hdistinct hitems)
    exact ⟨_, _, _, hload,
      conforming_repaired hdistinct (Document.nodup_of_document? huser) hitems⟩
  · have hother : ∀ fields,
        Document.document? s.files s.environment.userConfigPath ≠ .ok (.object fields) := by
      intro fields huser
      exact hmapping ⟨fields, huser⟩
    rcases exists_load_default hdefault (by simp) hstored hother hshort with ⟨warnings, s', hload⟩
    exact ⟨defaults, warnings, s', hload, hdistinct, sameKinds_self defaults, hnames⟩

/-- The user's configuration holds an integer with too many digits where it is read that far. -/
def HoldsLong (s : Session) : Prop :=
  Document.document? s.files s.environment.userConfigPath = .error (.json .longInteger)

/-- Without a default configuration a load is usable. With one that has a written form, a load is
usable if the user has a mapping and the default is sound, or if the user has no mapping and the
default is usable itself, as long as the user's file holds no integer with too many digits. -/
theorem loadsUsable_cases (s : Session) :
    ((∀ v, Document.document? s.files s.environment.defaultConfigPath = .ok v → v = .null) →
      LoadsUsable s) ∧
    ∀ default, Document.document? s.files s.environment.defaultConfigPath = .ok default →
      default ≠ .null → (Json.stored default).2 = true →
      ((∀ fields,
          Document.document? s.files s.environment.userConfigPath ≠ .ok (.object fields)) →
        (LoadsUsable s ↔ Usable default ∧ ¬HoldsLong s)) ∧
      ∀ defaults, default = .object defaults → NamesDictionaries defaults →
        (LoadsUsable s ↔ ¬HoldsLong s) := by
  constructor
  · intro hnone
    rcases runOn_load_none hnone with ⟨warnings, log, hload⟩
    exact .of_runOn hload usable_empty
  · intro default hdefault hnull hstored
    have hlong : HoldsLong s → ¬LoadsUsable s := by
      intro hlong
      exact not_loadsUsable_of_fault (runOn_load_long hdefault hnull hlong)
    constructor
    · intro hother
      by_cases hshort : HoldsLong s
      · simp [hshort, hlong hshort]
      · rcases exists_load_default hdefault hnull hstored hother hshort with ⟨warnings, s', hload⟩
        simpa [hshort] using loadsUsable_iff_of_runOn hload
    · rintro defaults rfl hnames
      refine ⟨fun husable hholds => hlong hholds husable, ?_⟩
      intro hshort
      rcases exists_load hdefault hnames hstored hshort with
        ⟨fields, warnings, s', hload, hconforming⟩
      exact .of_runOn hload hconforming.usable

theorem plain_installed : Json.Plain Installed.config := by
  refine Json.Plain.object _ (by simp) (by decide) ?_
  simp only [List.forall_mem_cons]
  exact ⟨Json.Plain.text _, Json.Plain.list [] (by simp), Json.Plain.boolean false,
    Json.Plain.integer 10 (by decide), Json.Plain.text _, by simp⟩

/-- The installed configuration, and a configuration of the user with the given text. -/
def sessionWith (content : String) : Session where
  files := {
    entries := [(["d"], .directory),
      (["d", "config.json"], .file (Json.stored Installed.config).1.toUTF8),
      (["u"], .directory), (["u", "vn-ime-core"], .directory),
      (["u", "vn-ime-core", "config.json"], .file content.toUTF8)]
    working := [] }
  environment := ⟨some "/d", some "/u", none, "", ""⟩
  log := []
  output := []

/-- A list in place of the user's configuration is no obstacle. -/
theorem loadsUsable_cases_list :
    (Json.stored Installed.config).2 = true ∧
    (∀ fields, Document.document? (sessionWith "[]").files
      (sessionWith "[]").environment.userConfigPath ≠ .ok (.object fields)) ∧
    LoadsUsable (sessionWith "[]") := by
  have hlist : Document.document? (sessionWith "[]").files
      (sessionWith "[]").environment.userConfigPath = .ok (.list []) :=
    Document.document?_of_stored (Json.Plain.list [] (by simp)) rfl
  have hdefault : Document.document? (sessionWith "[]").files
      (sessionWith "[]").environment.defaultConfigPath = .ok Installed.config :=
    Document.document?_of_stored plain_installed rfl
  have hstored : (Json.stored Installed.config).2 = true := by
    rw [Json.stored_plain plain_installed]
  have hshort : ¬HoldsLong (sessionWith "[]") := by
    intro hlong
    rw [HoldsLong, hlist] at hlong
    cases hlong
  have hnull : Installed.config ≠ .null := by rintro ⟨⟩
  rcases (loadsUsable_cases (sessionWith "[]")).2 _ hdefault hnull hstored with ⟨-, hsound⟩
  refine ⟨hstored, ?_, (hsound _ rfl ⟨[], by simp⟩).2 hshort⟩
  intro fields huser
  rw [hlist] at huser
  cases huser

/-- A number of 4301 digits. -/
def longNumber : String := String.ofList (List.replicate 4301 '1')

theorem read_longNumber : Json.read Json.lenient longNumber = .error .longInteger := by
  have hlong : 4300 < ('1' :: List.replicate 4300 '1').length := by
    rw [List.length_cons, List.length_replicate]
    decide
  refine Json.read_long (by decide) (by decide) ?_ hlong
  intro d hd
  rw [List.eq_of_mem_replicate hd]
  decide

/-- In place of the user's configuration it ends the load. -/
theorem not_loadsUsable_longNumber : ¬LoadsUsable (sessionWith longNumber) := by
  have hdefault : Document.document? (sessionWith longNumber).files
      (sessionWith longNumber).environment.defaultConfigPath = .ok Installed.config :=
    Document.document?_of_stored plain_installed rfl
  have hlong : Document.document? (sessionWith longNumber).files
      (sessionWith longNumber).environment.userConfigPath = .error (.json .longInteger) :=
    Document.document?_of_read_error read_longNumber rfl
  have hnull : Installed.config ≠ .null := by rintro ⟨⟩
  exact not_loadsUsable_of_fault (runOn_load_long hdefault hnull hlong)

end Config
end QuocNgu
