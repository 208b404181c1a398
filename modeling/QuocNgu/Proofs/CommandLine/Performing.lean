import QuocNgu.Proofs.Config.Usable
import QuocNgu.Proofs.Session.Quiet

/-!
# Proofs.CommandLine.Performing — a command after the configuration was read

* `status_perform`, `output_perform` : what a run of the program takes from the run of its command
* `mapping_of_prepare` : a configuration that tells the level of the log is a mapping
* `exists_prepare`     : with the installed defaults a run comes to its command
* `lineOf`, `runOn_printAll_of_isWhole` : the lines that whole texts are printed as
* `text_append`        : lines printed one after another make one text
-/

namespace QuocNgu
namespace CommandLine

/-! ## The outcome -/

/-- The session in which a run reads the configuration. -/
def fresh (s : Session) : Session := { s with log := [], output := [] }

section

variable {s ready : Session} {config : Value} {level : Log.Level}
  (hprepare : prepare.runOn (fresh s) = (.ok (config, level), ready))
include hprepare

theorem status_perform (verbose : Bool) (command : Command) :
    (perform verbose command s).status =
      ((command.run config).runOn { ready with log := [] }).1 := by
  have hprepare' : prepare.runOn { s with log := [], output := [] } =
      (.ok (config, level), ready) := hprepare
  simp only [perform, hprepare']

theorem output_perform (verbose : Bool) (command : Command) :
    (perform verbose command s).output =
      Help.text ((command.run config).runOn { ready with log := [] }).2.output := by
  have hprepare' : prepare.runOn { s with log := [], output := [] } =
      (.ok (config, level), ready) := hprepare
  simp only [perform, hprepare']

/-- Nothing is printed before the command runs. -/
theorem output_of_prepare : ready.output = [] := by
  have hquiet := (quiet_prepare (fresh s)).1
  rw [hprepare] at hquiet
  exact hquiet

end

/-- A configuration that is no mapping does not even tell the level of the log. -/
theorem runOn_level_of_ne {config : Value} (hconfig : config.kind ≠ .mapping)
    (log : List Log.Entry) : (Config.level config).runOn log = (.error .notMapping, log) := by
  have hfield : config.fieldOr "logging_level" (.text "WARNING") = .error .notMapping := by
    cases config with
    | object _ => exact absurd rfl hconfig
    | table _ => exact absurd rfl hconfig
    | _ => rfl
  unfold Config.level
  rw [hfield]
  rfl

theorem runOn_prepare {s loaded : Session} {config : Value} {warnings : String}
    {level : Log.Level} {log : List Log.Entry}
    (hload : Config.load.runOn s = (.ok ⟨config, warnings⟩, loaded))
    (hlevel : (Config.level config).runOn loaded.log = (.ok level, log)) :
    prepare.runOn s = (.ok (config, level), { loaded with log := log }) := by
  rw [prepare, Job.runOn_bind hload, Job.runOn_bind (Job.runOn_ofReport hlevel)]
  rfl

/-- What a run reads before its command: a configuration, and from it the level of the log. -/
theorem exists_of_prepare {s ready : Session} {config : Value} {level : Log.Level}
    (hprepare : prepare.runOn s = (.ok (config, level), ready)) :
    ∃ warnings loaded, Config.load.runOn s = (.ok ⟨config, warnings⟩, loaded) ∧
      (Config.level config).runOn loaded.log = (.ok level, ready.log) ∧
      ready = { loaded with log := ready.log } := by
  cases hload : Config.load.runOn s with
  | mk result loaded =>
      cases result with
      | error fault =>
          rw [prepare, Job.runOn_bind_error hload] at hprepare
          cases hprepare
      | ok found =>
          rw [prepare, Job.runOn_bind hload] at hprepare
          cases hlevel : (Config.level found.config).runOn loaded.log with
          | mk result log =>
              have hreport := Job.runOn_ofReport hlevel
              cases result with
              | error fault =>
                  rw [Job.runOn_bind_error hreport] at hprepare
                  cases hprepare
              | ok found =>
                  rw [Job.runOn_bind hreport] at hprepare
                  cases hprepare
                  exact ⟨_, loaded, rfl, hlevel, rfl⟩

theorem mapping_of_prepare {s ready : Session} {config : Value} {level : Log.Level}
    (hprepare : prepare.runOn s = (.ok (config, level), ready)) : config.kind = .mapping := by
  rcases exists_of_prepare hprepare with ⟨warnings, loaded, -, hlevel, -⟩
  by_cases hconfig : config.kind = .mapping
  · exact hconfig
  · rw [runOn_level_of_ne hconfig] at hlevel
    cases hlevel

/-! ## The installed configuration -/

/-- A level that could be a key is a level, known or not. -/
theorem exists_level {config : Value} (hconfig : config.kind = .mapping)
    (hkey : ∀ v, config.field? "logging_level" = some v → v.isKey = true) (log : List Log.Entry) :
    ∃ level log', (Config.level config).runOn log = (.ok level, log') := by
  have hasked : ((config.field? "logging_level").getD (.text "WARNING")).isKey = true := by
    cases hfield : config.field? "logging_level" with
    | none => rfl
    | some v => exact hkey v hfield
  unfold Config.level
  rw [Value.fieldOr_of_field? hconfig rfl, Report.runOn_bind (Report.runOn_ofExcept _ log), hasked]
  simp only [Bool.not_true, Bool.false_eq_true, if_false]
  split
  · exact ⟨_, _, rfl⟩
  · exact ⟨_, _, rfl⟩

/-- With the installed default configuration a run comes to its command, whatever the user's file
holds but an integer with too many digits. -/
theorem exists_prepare {s : Session}
    (hdefault : Document.document? s.files s.environment.defaultConfigPath = .ok Installed.config)
    (hshort : ¬Config.HoldsLong s) :
    ∃ config level ready, prepare.runOn s = (.ok (config, level), ready) := by
  have hstored : (Json.stored Installed.config).2 = true := by
    rw [Json.stored_plain Config.plain_installed]
  rcases Config.exists_load hdefault ⟨[], by simp⟩ hstored hshort with
    ⟨fields, warnings, s', hload, hconforming⟩
  have hlevel : ∃ own, (Text.ofString "logging_level", own) ∈ fields ∧ own.kind = .text :=
    hconforming.kinds "logging_level" (.text "WARNING") (by simp)
  rcases hlevel with ⟨own, hown, hkind⟩
  have hkey : ∀ v, (Value.object fields).field? "logging_level" = some v → v.isKey = true := by
    intro v hv
    rw [(Value.field?_eq_some_iff hconforming.distinct).2 hown] at hv
    cases hv
    rw [Value.isKey, hkind]
  rcases exists_level rfl hkey s'.log with ⟨level, log, hlog⟩
  exact ⟨_, level, _, runOn_prepare hload hlog⟩

/-! ## Printed text -/

/-- The line of a whole text. -/
def lineOf (t : Text) : String := String.ofList t.chars

theorem ofString_lineOf {t : Text} (ht : t.isWhole = true) : Text.ofString (lineOf t) = t := by
  rcases Text.exists_ofString ht with ⟨s, rfl⟩
  have hline : lineOf (Text.ofString s) = s := by
    rw [lineOf, Text.ofString, Text.chars_map_char, String.ofList_toList]
  rw [hline]

theorem runOn_printAll_of_isWhole {texts : List Text} (htexts : ∀ t ∈ texts, t.isWhole = true)
    (s : Session) : (Job.printAll texts).runOn s =
      (.ok (), { s with output := s.output ++ texts.map lineOf }) := by
  have hlines : (texts.map lineOf).map Text.ofString = texts := by
    have hself : texts.map (Text.ofString ∘ lineOf) = texts.map id :=
      List.map_congr_left fun t ht => ofString_lineOf (htexts t ht)
    rw [List.map_map, hself, List.map_id]
  have hprint := Job.runOn_printAll (texts.map lineOf) s
  rw [hlines] at hprint
  exact hprint

theorem text_append (lines lines' : List String) :
    Help.text (lines ++ lines') = Help.text lines ++ Help.text lines' := by
  rw [Help.text, List.map_append, String.join_append]
  rfl

end CommandLine
end QuocNgu
