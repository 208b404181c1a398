import QuocNgu.CommandLine

/-!
# Proofs.Session.Quiet — jobs that print nothing

* `Logs`          : a job that changes nothing but the log
* `Quiet`         : a job that leaves the printed lines and the environment alone
* `logs_default?`, `logs_loadUser` : reading a configuration is logged at most
* `quiet_load`, `quiet_prepare` : making a copy of the default configuration is quiet as well

Jobs in a row log or are quiet if each of them is, so that a job is what its parts are.
-/

namespace QuocNgu
namespace Job

variable {α β : Type}

/-! ## Jobs that log -/

/-- A job changes nothing but the log, even if it fails. -/
def Logs (job : Job α) : Prop := ∀ s, ∃ log, (job.runOn s).2 = { s with log := log }

theorem logs_pure (a : α) : Logs (pure a : Job α) := fun s => ⟨s.log, rfl⟩

theorem logs_files : Logs files := fun s => ⟨s.log, rfl⟩

theorem logs_environment : Logs environment := fun s => ⟨s.log, rfl⟩

theorem logs_log (level : Log.Level) (message : String) : Logs (log level message) :=
  fun _ => ⟨_, rfl⟩

theorem logs_fail (fault : Fault) : Logs (fail fault : Job α) := fun s => ⟨s.log, rfl⟩

theorem logs_ofReport (r : Report α) : Logs (ofReport r) := by
  intro s
  exact ⟨_, congrArg Prod.snd (runOn_ofReport (r := r) (s := s) rfl)⟩

theorem Logs.bind {job : Job α} {next : α → Job β} (hjob : Logs job)
    (hnext : ∀ a, Logs (next a)) : Logs (job >>= next) := by
  intro s
  obtain ⟨log, hs⟩ := hjob s
  rw [runOn_bind_eq]
  cases hrun : job.runOn s with
  | mk result s' =>
      obtain rfl : s' = { s with log := log } := by simpa [hrun] using hs
      cases result with
      | ok a => exact hnext a { s with log := log }
      | error fault => exact ⟨log, rfl⟩

theorem Logs.files {job : Job α} (hjob : Logs job) (s : Session) :
    (job.runOn s).2.files = s.files := by
  obtain ⟨log, hs⟩ := hjob s
  rw [hs]

/-! ## Quiet jobs -/

/-- The printed lines and the environment are the same after a job, even if it fails. -/
def Quiet (job : Job α) : Prop :=
  ∀ s, (job.runOn s).2.output = s.output ∧ (job.runOn s).2.environment = s.environment

theorem quiet_pure (a : α) : Quiet (pure a : Job α) := fun _ => ⟨rfl, rfl⟩

theorem quiet_setFiles (fs : FileSystem) : Quiet (setFiles fs) := fun _ => ⟨rfl, rfl⟩

theorem Logs.quiet {job : Job α} (hjob : Logs job) : Quiet job := by
  intro s
  obtain ⟨log, hs⟩ := hjob s
  rw [hs]
  exact ⟨rfl, rfl⟩

theorem Quiet.bind {job : Job α} {next : α → Job β} (hjob : Quiet job)
    (hnext : ∀ a, Quiet (next a)) : Quiet (job >>= next) := by
  intro s
  have hs := hjob s
  rw [runOn_bind_eq]
  cases hrun : job.runOn s with
  | mk result s' =>
      rw [hrun] at hs
      cases result with
      | ok a =>
          have hs' := hnext a s'
          exact ⟨hs'.1.trans hs.1, hs'.2.trans hs.2⟩
      | error fault => exact hs

end Job

/-! ## Reading the configuration -/

open Job

theorem logs_openJob (path : String) : Logs (Document.openJob path) := by
  unfold Document.openJob
  refine logs_files.bind fun fs => ?_
  split
  · exact logs_fail _
  · exact logs_pure _

namespace Config

theorem logs_default? : Logs default? := by
  unfold default?
  refine logs_environment.bind fun env => logs_files.bind fun fs => ?_
  split
  · exact (logs_log _ _).bind fun _ => logs_pure _
  · split
    · exact logs_pure _
    · exact logs_pure _
    · exact (logs_log _ _).bind fun _ => (logs_log _ _).bind fun _ => logs_pure _

theorem logs_warnAlone (config : Value) (message : String) : Logs (warnAlone config message) :=
  (logs_log _ _).bind fun _ => logs_pure _

theorem logs_loadUser (env : Environment) (default : Value) : Logs (loadUser env default) := by
  unfold loadUser
  refine (logs_openJob _).bind fun document => ?_
  split
  · exact (logs_log _ _).bind fun _ => (logs_log _ _).bind fun _ =>
      (logs_log _ _).bind fun _ => logs_pure _
  · split
    · exact logs_warnAlone _ _
    · exact (logs_ofReport _).bind fun _ => logs_pure _

theorem quiet_save (config : Value) : Quiet (save config) := by
  unfold save
  refine logs_environment.quiet.bind fun env => logs_files.quiet.bind fun fs =>
    (quiet_setFiles _).bind fun _ => Logs.quiet ?_
  split
  · split
    · exact (logs_fail _).bind fun _ => (logs_log _ _).bind fun _ => logs_pure _
    · exact (logs_log _ _).bind fun _ => logs_pure _
  · exact (logs_log _ _).bind fun _ => (logs_log _ _).bind fun _ => logs_pure _

theorem quiet_load : Quiet load := by
  unfold load
  refine logs_environment.quiet.bind fun env => logs_default?.quiet.bind fun default => ?_
  split
  · exact quiet_pure _
  · refine logs_files.quiet.bind fun fs => ?_
    split
    · exact (logs_loadUser _ _).quiet
    · exact (logs_warnAlone _ _).quiet.bind fun loaded => (quiet_save _).bind fun _ => quiet_pure _

end Config

theorem quiet_prepare : Quiet CommandLine.prepare :=
  Config.quiet_load.bind fun _ => (logs_ofReport _).quiet.bind fun _ => quiet_pure _

end QuocNgu
