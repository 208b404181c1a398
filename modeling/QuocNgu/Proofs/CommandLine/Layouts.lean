import QuocNgu.Proofs.CommandLine.Performing
import QuocNgu.Proofs.Layout.Indexing
import QuocNgu.Proofs.Rule.Lines

/-!
# Proofs.CommandLine.Layouts — how the command `im` ends

* `Job.Ends`     : a job that gives the same result from any session
* `Printable`    : definitions with keys and specs that have a written form
* `ends_showLayout`, `ends_listLayouts` : the layouts of such definitions are shown, and so are
  their names
* `perform_im`   : the exit status, by what the file of definitions holds

A definition that holds something, but is no mapping, is a fault of the program, and so are an
integer with too many digits and a line with half a surrogate pair. Everything else ends with a
status.
-/

namespace QuocNgu

/-! ## Jobs that end -/

namespace Job

variable {α β : Type}

/-- From any session a job gives the same result. -/
def Ends (job : Job α) (a : α) : Prop := ∀ s, ∃ s', job.runOn s = (.ok a, s')

theorem Ends.bind {job : Job α} {next : α → Job β} {a : α} {b : β} (hjob : Ends job a)
    (hnext : Ends (next a) b) : Ends (job >>= next) b := by
  intro s
  rcases hjob s with ⟨s', hs⟩
  rw [runOn_bind hs]
  exact hnext s'

theorem ends_pure (a : α) : Ends (pure a : Job α) a := fun s => ⟨s, rfl⟩

theorem ends_ofExcept {result : Except Fault α} {a : α} (hresult : result = .ok a) :
    Ends (ofExcept result) a := by
  rintro s
  rw [hresult]
  exact ⟨s, rfl⟩

theorem ends_ofReport {r : Report α} {a : α} (hr : ∀ log, ∃ log', r.runOn log = (.ok a, log')) :
    Ends (ofReport r) a := by
  intro s
  rcases hr s.log with ⟨log', hlog⟩
  exact ⟨_, runOn_ofReport hlog⟩

theorem ends_print {t : Text} (ht : t.isWhole = true) : Ends (print t) () := by
  intro s
  rcases Text.exists_ofString ht with ⟨line, rfl⟩
  exact ⟨_, runOn_print line s⟩

theorem ends_forM {xs : List α} {f : α → Job Unit} (hf : ∀ x ∈ xs, Ends (f x) ()) :
    Ends (xs.forM f) () := by
  induction xs with
  | nil => exact ends_pure ()
  | cons x xs ih =>
      rcases List.forall_mem_cons.1 hf with ⟨hx, hrest⟩
      exact hx.bind (ih hrest)

theorem ends_printAll {lines : List Text} (hlines : ∀ t ∈ lines, t.isWhole = true) :
    Ends (printAll lines) () := ends_forM fun t ht => ends_print (hlines t ht)

end Job

open Job

/-! ## Layouts with a written form -/

namespace Layout

/-- The keys and the specs of a definition have a written form. -/
def Printable (entries : List (Text × Value)) : Prop :=
  ∀ entry ∈ entries, entry.1.isWhole = true ∧ ∀ spec, entry.2 = .text spec → spec.isWhole = true

/-- A definition holds nothing, or it is a mapping that can be printed. -/
def Sound (definition : Value) : Prop :=
  definition.isTruthy = true → ∃ entries, definition = .object entries ∧ Printable entries

theorem isWhole_of_binding? {entries : List (Text × Value)} (hentries : Printable entries) :
    ∀ b ∈ entries.filterMap binding?, b.1.isWhole = true ∧ b.2.isWhole = true := by
  intro b hb
  rcases List.mem_filterMap.1 hb with ⟨⟨key, spec⟩, hentry, hbinding⟩
  rcases hentries _ hentry with ⟨hkey, hspec⟩
  cases spec with
  | text t =>
      cases key with
      | nil => cases hbinding
      | cons p rest =>
          cases hbinding
          exact ⟨Text.isWhole_cons.2 ⟨(Text.isWhole_cons.1 hkey).1, rfl⟩, hspec t rfl⟩
  | _ => cases key <;> cases hbinding

section

variable {bindings : List Binding}
  (hbindings : ∀ b ∈ bindings, b.1.isWhole = true ∧ b.2.isWhole = true)
include hbindings

theorem exists_keyText (p : Binding → Bool) :
    ∃ t, keyText (firstKeys p bindings) = .ok t ∧ t.isWhole = true := by
  refine ⟨_, Value.joined_map_text [] _, Text.isWhole_intercalate Text.isWhole_nil ?_⟩
  intro t ht
  rw [List.mem_eraseDups] at ht
  rcases List.mem_map.1 ht with ⟨b, hb, rfl⟩
  exact (hbindings b (List.mem_of_mem_filter hb)).1

theorem hasLines_of_mem_rules {l : Layout} (hl : Indexed bindings l) :
    ∀ r ∈ l.rules, r.HasLines := by
  intro r hr
  rw [hl.rules] at hr
  rcases List.mem_flatMap.1 hr with ⟨b, hb, hrule⟩
  rcases hbindings b hb with ⟨hkey, hspec⟩
  exact Spec.hasLines_of_mem_compile hkey hspec hrule

end

theorem name_addAll (bindings : List Binding) (l : Layout) :
    (addAll bindings l).name = l.name := by
  refine List.foldlRecOn (motive := fun made : Layout => made.name = l.name) bindings _ rfl ?_
  intro made hmade b _
  exact hmade

/-- A definition that holds nothing makes the layout of an empty mapping. -/
theorem exists_compile_eq (name : Value) {definition : Value} (hdefinition : Sound definition) :
    ∃ entries, compile name definition = compile name (.object entries) ∧ Printable entries := by
  by_cases htruthy : definition.isTruthy = true
  · rcases hdefinition htruthy with ⟨entries, rfl, hentries⟩
    exact ⟨entries, rfl, hentries⟩
  · refine ⟨[], ?_, List.forall_mem_nil _⟩
    have hentries : entriesOf definition = entriesOf (.object []) := if_neg htruthy
    rw [compile, compile, hentries]

/-- A layout that can be printed: its name stands, its keys and its rules have a written form. -/
structure Shows (name : Text) (l : Layout) : Prop where
  name : l.name = .text name
  toneKeys : ∃ t, keyText l.toneKeys = .ok t ∧ t.isWhole = true
  appendingKeys : ∃ t, keyText l.appendingKeys = .ok t ∧ t.isWhole = true
  superKeys : ∃ t, keyText l.superKeys = .ok t ∧ t.isWhole = true
  rules : ∀ r ∈ l.rules, r.HasLines

theorem shows_addAll {bindings : List Binding}
    (hbindings : ∀ b ∈ bindings, b.1.isWhole = true ∧ b.2.isWhole = true) (name : Text) :
    Shows name (addAll bindings (empty (.text name))) := by
  have hl := indexed_addAll (.text name) bindings
  refine ⟨name_addAll _ _, ?_, ?_, ?_, hasLines_of_mem_rules hbindings hl⟩
  · rw [hl.toneKeys]
    exact exists_keyText hbindings _
  · rw [hl.appendingKeys]
    exact exists_keyText hbindings _
  · rw [hl.superKeys]
    exact exists_keyText hbindings _

section

variable {fields : List (Text × Value)} {name : Text}

/-- The layout of a sound definition is found and can be printed. -/
theorem exists_load? {definition : Value}
    (hfield : (Value.object fields).field? name = some definition) (hsound : Sound definition) :
    ∃ l, Shows name l ∧ ∀ log, ∃ log',
      (load? (.text name) (.object fields)).runOn log = (.ok (some l), log') := by
  rcases exists_compile_eq (.text name) hsound with ⟨entries, hcompile, hprintable⟩
  refine ⟨_, shows_addAll (isWhole_of_binding? hprintable) name, fun log => ?_⟩
  have hmember : (Value.object fields).member (.text name) = .ok true := by
    rw [Value.member_text, hfield]
    rfl
  unfold load?
  rw [hmember, Report.runOn_bind (Report.runOn_ofExcept _ log), Value.subscript_of_field? hfield]
  simp only [if_true]
  rw [Report.runOn_bind (Report.runOn_ofExcept _ log), hcompile,
    Report.runOn_bind (runOn_compile _ entries log)]
  exact ⟨_, rfl⟩

/-- A name without a definition is reported. -/
theorem runOn_load?_none (hfield : (Value.object fields).field? name = none)
    (log : List Log.Entry) :
    ∃ log', (load? (.text name) (.object fields)).runOn log = (.ok none, log') := by
  have hmember : (Value.object fields).member (.text name) = .ok false := by
    rw [Value.member_text, hfield]
    rfl
  have hnames : (Value.object fields).elements = .ok ((fields.map Prod.fst).map .text) := by
    rw [List.map_map]
    rfl
  unfold load?
  rw [hmember, Report.runOn_bind (Report.runOn_ofExcept _ log), hnames]
  simp only [Bool.false_eq_true, if_false]
  change ∃ log', (Report.ofExcept (Value.joined ", " ((fields.map Prod.fst).map .text)) >>=
    fun available => _).runOn log = _
  rw [Value.joined_map_text, Report.runOn_bind (Report.runOn_ofExcept _ log),
    Report.runOn_bind (Report.runOn_log _ log)]
  exact ⟨_, rfl⟩

/-- A definition that holds something and is no mapping cannot be compiled. -/
theorem runOn_load?_fault {definition : Value}
    (hfield : (Value.object fields).field? name = some definition)
    (htruthy : definition.isTruthy = true) (hkind : definition.kind ≠ .mapping)
    (log : List Log.Entry) :
    (load? (.text name) (.object fields)).runOn log = (.error .notMapping, log) := by
  have hmember : (Value.object fields).member (.text name) = .ok true := by
    rw [Value.member_text, hfield]
    rfl
  have hentries : entriesOf definition = .error .notMapping := by
    rw [entriesOf, if_pos htruthy]
    cases definition with
    | object _ => exact absurd rfl hkind
    | table _ => exact absurd rfl hkind
    | _ => rfl
  unfold load?
  rw [hmember, Report.runOn_bind (Report.runOn_ofExcept _ log), Value.subscript_of_field? hfield]
  simp only [if_true]
  rw [Report.runOn_bind (Report.runOn_ofExcept _ log), compile, hentries]
  rfl

end

end Layout

/-! ## The file of definitions -/

namespace Definitions

variable {s : Session}

theorem runOn_load?_object {fields : List (Text × Value)}
    (hdocument : Document.document? s.files (path s.files s.environment) = .ok (.object fields)) :
    load?.runOn s = (.ok (some (.object fields)), s) := by
  unfold load?
  rw [Job.runOn_bind (Job.runOn_files s), Job.runOn_bind (Job.runOn_environment s)]
  dsimp only
  rw [Job.runOn_bind (Document.runOn_openJob hdocument)]
  rfl

theorem runOn_load?_other
    (hother : ∀ fields,
      Document.document? s.files (path s.files s.environment) ≠ .ok (.object fields))
    (hshort : Document.document? s.files (path s.files s.environment) ≠
      .error (.json .longInteger)) :
    ∃ s', load?.runOn s = (.ok none, s') := by
  unfold load?
  rw [Job.runOn_bind (Job.runOn_files s), Job.runOn_bind (Job.runOn_environment s)]
  dsimp only
  cases hdocument : Document.document? s.files (path s.files s.environment) with
  | error problem =>
      have hproblem : problem ≠ .json .longInteger := by
        rintro rfl
        exact hshort hdocument
      rw [Job.runOn_bind (Document.runOn_openJob_error hdocument hproblem)]
      exact ⟨_, rfl⟩
  | ok v =>
      rcases Document.rows?_of_document? hdocument with ⟨fields, rfl⟩ | ⟨-, hkind⟩
      · exact absurd hdocument (hother fields)
      · rw [Job.runOn_bind (Document.runOn_openJob hdocument)]
        dsimp only
        rw [if_neg hkind]
        exact ⟨_, rfl⟩

theorem runOn_load?_long
    (hlong : Document.document? s.files (path s.files s.environment) =
      .error (.json .longInteger)) :
    load?.runOn s = (.error .longInteger, s) := by
  unfold load?
  rw [Job.runOn_bind (Job.runOn_files s), Job.runOn_bind (Job.runOn_environment s)]
  exact Job.runOn_bind_error (Document.runOn_openJob_long hlong) _

end Definitions

/-! ## What the command shows -/

namespace CommandLine
namespace Command

theorem ends_printRules {rules : List Rule} (hrules : ∀ r ∈ rules, r.HasLines) :
    Ends (printRules rules) () := by
  refine ends_forM ?_
  intro r hr
  rcases hrules r hr Rule.margin (Text.isWhole_ofString _) with ⟨lines, hlines, hwhole⟩
  exact (ends_ofExcept hlines).bind (ends_printAll hwhole)

/-- A line that lists keys, and what comes after it. -/
theorem ends_keyLine (label : String) {keys : List Value}
    (hkeys : ∃ t, Layout.keyText keys = .ok t ∧ t.isWhole = true) {next : Job Nat} {status : Nat}
    (hnext : Ends next status) :
    Ends (do
      Job.print (label ++ (← Job.ofExcept (Layout.keyText keys)))
      next) status := by
  rcases hkeys with ⟨t, ht, hwhole⟩
  have hline : Ends (Job.print (label ++ t)) () :=
    ends_print (Text.isWhole_append.2 ⟨Text.isWhole_ofString _, hwhole⟩)
  exact (ends_ofExcept ht).bind (hline.bind hnext)

section

variable {fields : List (Text × Value)} {name : String}

theorem ends_showLayout {definition : Value}
    (hfield : (Value.object fields).field? name = some definition)
    (hsound : Layout.Sound definition) : Ends (showLayout name (.object fields)) 0 := by
  rcases Layout.exists_load? hfield hsound with ⟨l, hshows, hload⟩
  have hname : l.name.display.isWhole = true := by
    rw [hshows.name]
    exact Text.isWhole_ofString name
  refine (ends_ofReport hload).bind ?_
  refine (ends_print (Text.isWhole_append.2 ⟨hname, Text.isWhole_ofString _⟩)).bind ?_
  refine ends_keyLine _ hshows.toneKeys ?_
  refine ends_keyLine _ hshows.appendingKeys ?_
  refine ends_keyLine _ hshows.superKeys ?_
  refine (ends_print (Text.isWhole_ofString _)).bind ?_
  exact (ends_printRules hshows.rules).bind (ends_pure 0)

theorem ends_showLayout_unknown (hfield : (Value.object fields).field? name = none) :
    Ends (showLayout name (.object fields)) 1 := by
  refine (ends_ofReport (Layout.runOn_load?_none hfield)).bind ?_
  exact (ends_print (Text.isWhole_ofString _)).bind (ends_pure 1)

theorem ends_listLayouts {config : Value} (hconfig : config.kind = .mapping)
    (hnames : ∀ field ∈ fields, field.1.isWhole = true) :
    Ends (listLayouts config (.object fields)) 0 := by
  refine (ends_ofExcept (Value.fieldOr_of_field? hconfig rfl _)).bind ?_
  have hkeys : Layout.names (.object fields) = .ok (fields.map fun field => .text field.1) := by
    change Except.ok ((fields.map fun field => (Value.text field.1, field.2)).map (·.1)) = _
    rw [List.map_map]
    rfl
  refine (ends_ofExcept hkeys).bind ((ends_forM ?_).bind (ends_pure 0))
  intro v hv
  rcases List.mem_map.1 hv with ⟨field, hfield, rfl⟩
  refine ends_print (Text.isWhole_append.2 ⟨Text.isWhole_ofString _, ?_⟩)
  exact hnames field hfield

theorem runOn_showLayout_fault {definition : Value}
    (hfield : (Value.object fields).field? name = some definition)
    (htruthy : definition.isTruthy = true) (hkind : definition.kind ≠ .mapping) (s : Session) :
    ((showLayout name (.object fields)).runOn s).1 = .error .notMapping := by
  have hload := runOn_ofReport (Layout.runOn_load?_fault hfield htruthy hkind s.log)
  rw [showLayout, runOn_bind_error hload]

end

end Command

/-! ## How the command ends -/

/-- What the file of definitions holds when the command comes to it. -/
def definitionsOf (s : Session) : Except Document.Problem Value :=
  let ready := (prepare.runOn (fresh s)).2
  Document.document? ready.files (Definitions.path ready.files ready.environment)

section

variable {s ready : Session} {config : Value} {level : Log.Level}
  (hprepare : prepare.runOn (fresh s) = (.ok (config, level), ready)) (verbose : Bool)
include hprepare

theorem definitionsOf_eq : definitionsOf s =
    Document.document? ready.files (Definitions.path ready.files ready.environment) := by
  rw [definitionsOf, hprepare]

theorem status_im_object {fields : List (Text × Value)}
    (hdefinitions : definitionsOf s = .ok (.object fields)) (name? : Option String) :
    (perform verbose (.im name?) s).status = ((match name? with
      | none => Command.listLayouts config (.object fields)
      | some name =>
          if name.isEmpty then Command.listLayouts config (.object fields)
          else Command.showLayout name (.object fields)).runOn { ready with log := [] }).1 := by
  rw [definitionsOf_eq hprepare] at hdefinitions
  have hload : Definitions.load?.runOn { ready with log := [] } =
      (.ok (some (.object fields)), { ready with log := [] }) :=
    Definitions.runOn_load?_object hdefinitions
  rw [status_perform hprepare]
  exact congrArg Prod.fst (Job.runOn_bind hload _)

theorem status_im_name {fields : List (Text × Value)}
    (hdefinitions : definitionsOf s = .ok (.object fields)) {name : String} (hname : name ≠ "") :
    (perform verbose (.im (some name)) s).status =
      ((Command.showLayout name (.object fields)).runOn { ready with log := [] }).1 := by
  have hempty : ¬name.isEmpty = true := by
    simpa [String.isEmpty_iff] using hname
  refine (status_im_object hprepare verbose hdefinitions (some name)).trans ?_
  dsimp only
  rw [if_neg hempty]

theorem status_im_other (hother : ∀ fields, definitionsOf s ≠ .ok (.object fields))
    (hshort : definitionsOf s ≠ .error (.json .longInteger)) (name? : Option String) :
    (perform verbose (.im name?) s).status = .ok 1 := by
  rw [definitionsOf_eq hprepare] at hother hshort
  have hload : ∃ s', Definitions.load?.runOn { ready with log := [] } = (.ok none, s') :=
    Definitions.runOn_load?_other hother hshort
  rcases hload with ⟨s', hload⟩
  have hfails : Ends (do
      Job.print "ERROR: Input method definitions could not be loaded"
      return 1) 1 := (ends_print (Text.isWhole_ofString _)).bind (ends_pure 1)
  rcases hfails s' with ⟨s'', hend⟩
  rw [status_perform hprepare]
  change ((Command.runIm config name?).runOn _).1 = _
  rw [Command.runIm, Job.runOn_bind hload]
  exact congrArg Prod.fst hend

theorem status_im_long (hlong : definitionsOf s = .error (.json .longInteger))
    (name? : Option String) :
    (perform verbose (.im name?) s).status = .error .longInteger := by
  rw [definitionsOf_eq hprepare] at hlong
  have hload : Definitions.load?.runOn { ready with log := [] } =
      (.error .longInteger, { ready with log := [] }) := Definitions.runOn_load?_long hlong
  rw [status_perform hprepare]
  change ((Command.runIm config name?).runOn _).1 = _
  rw [Command.runIm, Job.runOn_bind_error hload]

/-- Without a name the names are listed. -/
theorem status_im_list {name? : Option String} (hname : name? = none ∨ name? = some "")
    (hshort : definitionsOf s ≠ .error (.json .longInteger))
    (hnames : ∀ fields, definitionsOf s = .ok (.object fields) →
      ∀ field ∈ fields, field.1.isWhole = true) :
    let status := (perform verbose (.im name?) s).status
    (status = .ok 0 ∨ status = .ok 1) ∧
      (status = .ok 0 ↔ ∃ fields, definitionsOf s = .ok (.object fields)) := by
  intro status
  by_cases hmapping : ∃ fields, definitionsOf s = .ok (.object fields)
  · have hzero : status = .ok 0 := by
      rcases hmapping with ⟨fields, hdefinitions⟩
      have hlist := Command.ends_listLayouts (mapping_of_prepare hprepare)
        (hnames fields hdefinitions)
      rcases hlist { ready with log := [] } with ⟨s', hend⟩
      refine (status_im_object hprepare verbose hdefinitions name?).trans ?_
      rcases hname with rfl | rfl
      · exact congrArg Prod.fst hend
      · exact congrArg Prod.fst hend
    simp [hzero, hmapping]
  · have hone : status = .ok 1 := by
      refine status_im_other hprepare verbose ?_ hshort name?
      intro fields hdefinitions
      exact hmapping ⟨fields, hdefinitions⟩
    simp [hone, hmapping]

/-- With a name its layout is shown, if it has one. -/
theorem status_im_show {name : String} (hname : name ≠ "")
    (hshort : definitionsOf s ≠ .error (.json .longInteger))
    (hsound : ∀ fields definition, definitionsOf s = .ok (.object fields) →
      (Value.object fields).field? name = some definition → Layout.Sound definition) :
    let status := (perform verbose (.im (some name)) s).status
    (status = .ok 0 ∨ status = .ok 1) ∧
      (status = .ok 0 ↔ ∃ fields, definitionsOf s = .ok (.object fields) ∧
        Text.ofString name ∈ fields.map Prod.fst) := by
  intro status
  by_cases hmapping : ∃ fields, definitionsOf s = .ok (.object fields)
  · rcases hmapping with ⟨fields, hdefinitions⟩
    have hshow := status_im_name hprepare verbose hdefinitions hname
    -- Fields are looked up by their key, so a name without a definition is no key.
    have hkey : (Value.object fields).field? name = none ↔
        Text.ofString name ∉ fields.map Prod.fst := Value.field?_eq_none_iff
    cases hfield : (Value.object fields).field? name with
    | some definition =>
        rcases Command.ends_showLayout hfield (hsound fields definition hdefinitions hfield)
          { ready with log := [] } with ⟨s', hend⟩
        have hzero : status = .ok 0 := hshow.trans (congrArg Prod.fst hend)
        have hmem : Text.ofString name ∈ fields.map Prod.fst := by
          by_contra hmissing
          rw [hkey.2 hmissing] at hfield
          cases hfield
        exact ⟨Or.inl hzero, fun _ => ⟨fields, hdefinitions, hmem⟩, fun _ => hzero⟩
    | none =>
        rcases Command.ends_showLayout_unknown hfield { ready with log := [] } with ⟨s', hend⟩
        have hone : status = .ok 1 := hshow.trans (congrArg Prod.fst hend)
        have hmissing := hkey.1 hfield
        have hnowhere : ¬∃ fields, definitionsOf s = .ok (.object fields) ∧
            Text.ofString name ∈ fields.map Prod.fst := by
          rintro ⟨other, hother, hmem⟩
          rw [hdefinitions] at hother
          cases hother
          exact hmissing hmem
        simp only [hone, hnowhere]
        simp
  · have hone : status = .ok 1 := by
      refine status_im_other hprepare verbose ?_ hshort (some name)
      intro fields hdefinitions
      exact hmapping ⟨fields, hdefinitions⟩
    have hnowhere : ¬∃ fields, definitionsOf s = .ok (.object fields) ∧
        Text.ofString name ∈ fields.map Prod.fst := by
      rintro ⟨fields, hdefinitions, -⟩
      exact hmapping ⟨fields, hdefinitions⟩
    simp only [hone, hnowhere]
    simp

end

/-- With the installed default configuration the command ends with status 0 or 1, and with 0 for a
name exactly if it is defined, as long as the definition is sound and no integer has too many
digits. A definition that holds something and is no mapping is a fault, and so is such an integer.
-/
theorem perform_im {s : Session}
    (hdefault : Document.document? s.files s.environment.defaultConfigPath = .ok Installed.config)
    (hshort : ¬Config.HoldsLong s) (verbose : Bool) :
    let status := fun name? => (perform verbose (.im name?) s).status
    (∀ name?, name? = none ∨ name? = some "" →
      definitionsOf s ≠ .error (.json .longInteger) →
      (∀ fields, definitionsOf s = .ok (.object fields) →
        ∀ field ∈ fields, field.1.isWhole = true) →
      (status name? = .ok 0 ∨ status name? = .ok 1) ∧
      (status name? = .ok 0 ↔ ∃ fields, definitionsOf s = .ok (.object fields))) ∧
    (∀ name : String, name ≠ "" →
      definitionsOf s ≠ .error (.json .longInteger) →
      (∀ fields definition, definitionsOf s = .ok (.object fields) →
        (Value.object fields).field? name = some definition → Layout.Sound definition) →
      (status (some name) = .ok 0 ∨ status (some name) = .ok 1) ∧
      (status (some name) = .ok 0 ↔ ∃ fields, definitionsOf s = .ok (.object fields) ∧
        Text.ofString name ∈ fields.map Prod.fst)) ∧
    (∀ (name : String) fields definition, name ≠ "" → definitionsOf s = .ok (.object fields) →
      (Value.object fields).field? name = some definition → definition.isTruthy = true →
      definition.kind ≠ .mapping → status (some name) = .error .notMapping) ∧
    (definitionsOf s = .error (.json .longInteger) →
      ∀ name?, status name? = .error .longInteger) := by
  intro status
  have hready : ∃ config level ready,
      prepare.runOn (fresh s) = (.ok (config, level), ready) := exists_prepare hdefault hshort
  rcases hready with ⟨config, level, ready, hprepare⟩
  refine ⟨?_, ?_, ?_, status_im_long hprepare verbose⟩
  · intro name? hname
    exact status_im_list hprepare verbose hname
  · intro name hname
    exact status_im_show hprepare verbose hname
  · intro name fields definition hname hdefinitions hfield htruthy hkind
    have hshow := status_im_name hprepare verbose hdefinitions hname
    exact hshow.trans (Command.runOn_showLayout_fault hfield htruthy hkind _)

/-- The installed configuration, and layouts of the user's own. -/
def layoutSession (layouts : Value) : Session where
  files := {
    entries := [(["d"], .directory),
      (["d", "config.json"], .file (Json.stored Installed.config).1.toUTF8),
      (["u"], .directory), (["u", "vn-ime-core"], .directory),
      (["u", "vn-ime-core", "config.json"], .file (Json.stored Installed.config).1.toUTF8),
      (["u", "vn-ime-core", "input_methods.json"], .file (Json.stored layouts).1.toUTF8)]
    working := [] }
  environment := ⟨some "/d", some "/u", none, "", ""⟩
  log := []
  output := []

theorem prepare_installed {s : Session}
    (hdefault : Document.document? s.files s.environment.defaultConfigPath = .ok Installed.config)
    (huser : Document.document? s.files s.environment.userConfigPath = .ok Installed.config) :
    prepare.runOn s = (.ok (Installed.config, .warning), s) := by
  have hdistinct := Document.nodup_of_document? hdefault
  have hload := Config.runOn_load hdefault huser hdistinct hdistinct (Config.sameKinds_self _)
    ⟨[], by simp⟩
  exact runOn_prepare hload rfl

section

variable (layouts : Value)

-- The paths are computed only where the layouts do not stand in them.
theorem environment_layoutSession :
    (layoutSession layouts).environment = ⟨some "/d", some "/u", none, "", ""⟩ := rfl

theorem default_layoutSession :
    Document.document? (layoutSession layouts).files
      (layoutSession layouts).environment.defaultConfigPath = .ok Installed.config := by
  rw [environment_layoutSession]
  exact Document.document?_of_stored Config.plain_installed rfl

theorem user_layoutSession :
    Document.document? (layoutSession layouts).files
      (layoutSession layouts).environment.userConfigPath = .ok Installed.config := by
  rw [environment_layoutSession]
  exact Document.document?_of_stored Config.plain_installed rfl

theorem prepare_layoutSession : prepare.runOn (fresh (layoutSession layouts)) =
    (.ok (Installed.config, .warning), layoutSession layouts) :=
  prepare_installed (default_layoutSession layouts) (user_layoutSession layouts)

theorem definitionsOf_layoutSession {layouts : Value} (hlayouts : Json.Plain layouts) :
    definitionsOf (layoutSession layouts) = .ok layouts := by
  have hpath : Definitions.path (layoutSession layouts).files
      (layoutSession layouts).environment = "/u/vn-ime-core/input_methods.json" := by
    rw [environment_layoutSession]
    rfl
  rw [definitionsOf_eq (prepare_layoutSession layouts), hpath]
  exact Document.document?_of_stored hlayouts rfl

end

def tonesOnly : Value := .object [("X", .object [("s", .text "DauSac")])]

theorem plain_tonesOnly : Json.Plain tonesOnly := by
  refine Json.Plain.object _ (by simp) (by decide) ?_
  simp only [List.forall_mem_cons]
  refine ⟨Json.Plain.object _ (by simp) (by decide) ?_, by simp⟩
  simp only [List.forall_mem_cons]
  exact ⟨Json.Plain.text _, by simp⟩

theorem perform_im_tones :
    Document.document? (layoutSession tonesOnly).files
      (layoutSession tonesOnly).environment.defaultConfigPath = .ok Installed.config ∧
    ¬Config.HoldsLong (layoutSession tonesOnly) ∧
    (perform false (.im (some "X")) (layoutSession tonesOnly)).status = .ok 0 ∧
    (perform false (.im (some "Y")) (layoutSession tonesOnly)).status = .ok 1 ∧
    (perform false (.im none) (layoutSession tonesOnly)).status = .ok 0 := by
  have hdefault := default_layoutSession tonesOnly
  have hdefinitions := definitionsOf_layoutSession plain_tonesOnly
  have hconfig : ¬Config.HoldsLong (layoutSession tonesOnly) := by
    rw [Config.HoldsLong, user_layoutSession]
    rintro ⟨⟩
  have hshort : definitionsOf (layoutSession tonesOnly) ≠ .error (.json .longInteger) := by
    rw [hdefinitions]
    rintro ⟨⟩
  have hsound : ∀ (name : String) fields definition,
      definitionsOf (layoutSession tonesOnly) = .ok (.object fields) →
      (Value.object fields).field? name = some definition → Layout.Sound definition := by
    intro name fields definition hfields hfield _
    rw [hdefinitions] at hfields
    cases hfields
    -- The only definition is the one of X.
    by_cases hname : Text.ofString "X" = Text.ofString name
    · refine ⟨[("s", .text "DauSac")], ?_, ?_⟩
      · simpa [Value.field?_cons, hname, eq_comm] using hfield
      · simp [Layout.Printable, Text.isWhole_ofString]
    · rw [Value.field?_cons, if_neg hname] at hfield
      cases hfield
  have hnames : ∀ fields, definitionsOf (layoutSession tonesOnly) = .ok (.object fields) →
      ∀ field ∈ fields, field.1.isWhole = true := by
    intro fields hfields
    rw [hdefinitions] at hfields
    cases hfields
    simp [Text.isWhole_ofString]
  rcases perform_im hdefault hconfig false with ⟨hlist, hshow, -, -⟩
  rcases hshow "X" (by decide) hshort (hsound "X") with ⟨-, hx⟩
  rcases hshow "Y" (by decide) hshort (hsound "Y") with ⟨hy, hyZero⟩
  refine ⟨hdefault, hconfig, hx.2 ⟨_, hdefinitions, by simp⟩, hy.resolve_left ?_, ?_⟩
  · intro hzero
    rcases hyZero.1 hzero with ⟨fields, hfields, hmem⟩
    rw [hdefinitions] at hfields
    cases hfields
    exact absurd hmem (by decide)
  · exact (hlist none (Or.inl rfl) hshort hnames).2.2 ⟨_, hdefinitions⟩

/-- The number five in place of a definition. -/
def numberOnly : Value := .object [("X", .integer 5)]

theorem plain_numberOnly : Json.Plain numberOnly := by
  refine Json.Plain.object _ (by simp) (by decide) ?_
  simp only [List.forall_mem_cons]
  exact ⟨Json.Plain.integer 5 (by decide), by simp⟩

/-- The name is defined, and yet the command ends with a fault. -/
theorem im_fails_number :
    definitionsOf (layoutSession numberOnly) = .ok numberOnly ∧
    (perform false (.im (some "X")) (layoutSession numberOnly)).status = .error .notMapping := by
  have hprepare := prepare_layoutSession numberOnly
  have hdefinitions := definitionsOf_layoutSession plain_numberOnly
  have hname : "X" ≠ "" := by decide
  refine ⟨hdefinitions, (status_im_name hprepare false hdefinitions hname).trans ?_⟩
  exact Command.runOn_showLayout_fault rfl rfl (by decide) _

end CommandLine
end QuocNgu
