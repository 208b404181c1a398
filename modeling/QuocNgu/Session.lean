import QuocNgu.FileSystem
import QuocNgu.Report

/-!
# Session — what a command can see and change

* `Environment` : the settings that say where files are
* `Session`     : files, environment, log and printed lines
* `Job`         : a computation on a session that can fail; a fault keeps what was done before it
-/

namespace QuocNgu

structure Environment where
  /-- The data directory that replaces the installed one, unless it is empty. -/
  dataOverride? : Option String
  configHome? : Option String
  home? : Option String
  installedData : String
  /-- The home directory of the account, where the environment names none. -/
  accountHome : String
  deriving Repr

structure Session where
  files : FileSystem
  environment : Environment
  log : List Log.Entry
  output : List String

abbrev Job (α : Type) := ExceptT Fault (StateM Session) α

namespace Job

def fail {α : Type} (fault : Fault) : Job α := throw fault

def ofExcept {α : Type} (result : Except Fault α) : Job α := ExceptT.mk (pure result)

/-- Runs a report on the log of the session. -/
def ofReport {α : Type} (r : Report α) : Job α :=
  ExceptT.mk fun s =>
    let (result, log) := r.run.run s.log
    (result, { s with log := log })

def log (level : Log.Level) (message : String) : Job Unit :=
  modify fun s => { s with log := s.log ++ [⟨level, .files, message⟩] }

/-- Prints a line, which has to have a written form. -/
def print (line : Text) : Job Unit :=
  match line.toString? with
  | some written => modify fun s => { s with output := s.output ++ [written] }
  | none => fail .unwritable

def printAll (lines : List Text) : Job Unit := lines.forM print

def files : Job FileSystem := return (← get).files

def environment : Job Environment := return (← get).environment

def setFiles (fs : FileSystem) : Job Unit := modify fun s => { s with files := fs }

/-- The result of a job and the session after it. -/
def runOn {α : Type} (t : Job α) (s : Session) : Except Fault α × Session := t.run.run s

/-! ## Running jobs -/

section

variable {α β : Type} {s s' : Session}

@[simp]
theorem runOn_pure (a : α) (s : Session) : runOn (pure a) s = (.ok a, s) := rfl

@[simp]
theorem runOn_files (s : Session) : runOn files s = (.ok s.files, s) := rfl

@[simp]
theorem runOn_environment (s : Session) : runOn environment s = (.ok s.environment, s) := rfl

@[simp]
theorem runOn_setFiles (fs : FileSystem) (s : Session) :
    runOn (setFiles fs) s = (.ok (), { s with files := fs }) := rfl

@[simp]
theorem runOn_log (level : Log.Level) (message : String) (s : Session) :
    runOn (log level message) s = (.ok (), { s with log := s.log ++ [⟨level, .files, message⟩] }) :=
  rfl

@[simp]
theorem runOn_fail (fault : Fault) (s : Session) :
    runOn (fail fault : Job α) s = (.error fault, s) := rfl

@[simp]
theorem runOn_ofExcept (result : Except Fault α) (s : Session) :
    runOn (ofExcept result) s = (result, s) := rfl

theorem runOn_ofReport {r : Report α} {result : Except Fault α} {log : List Log.Entry}
    (hr : r.runOn s.log = (result, log)) :
    runOn (ofReport r) s = (result, { s with log := log }) := by
  have hr' : StateT.run (ExceptT.run r) s.log = (result, log) := hr
  change (match StateT.run (ExceptT.run r) s.log with
    | (result, log) => (result, { s with log := log })) = _
  rw [hr']

theorem runOn_bind {r : Job α} {a : α} (hr : r.runOn s = (.ok a, s')) (next : α → Job β) :
    runOn (r >>= next) s = (next a).runOn s' := by
  have hr' : StateT.run (ExceptT.run r) s = (.ok a, s') := hr
  simp only [runOn, ExceptT.run_bind, StateT.run_bind, hr']
  rfl

/-- The run of two jobs in a row, whether or not the first one fails. -/
theorem runOn_bind_eq (job : Job α) (next : α → Job β) (s : Session) :
    (job >>= next).runOn s =
      match job.runOn s with
      | (.ok a, s') => (next a).runOn s'
      | (.error fault, s') => (.error fault, s') := by
  cases hrun : job.runOn s with
  | mk result s' =>
      cases result with
      | ok a => exact runOn_bind hrun next
      | error fault =>
          have hrun' : StateT.run (ExceptT.run job) s = (.error fault, s') := hrun
          simp only [runOn, ExceptT.run_bind, StateT.run_bind, hrun']
          rfl

theorem runOn_bind_error {job : Job α} {s s' : Session} {fault : Fault}
    (hjob : job.runOn s = (.error fault, s')) (next : α → Job β) :
    (job >>= next).runOn s = (.error fault, s') := by
  rw [runOn_bind_eq, hjob]

theorem runOn_print (line : String) (s : Session) :
    runOn (print line) s = (.ok (), { s with output := s.output ++ [line] }) := by
  rw [print, Text.toString?_ofString]
  rfl

theorem runOn_printAll (lines : List String) (s : Session) :
    runOn (printAll (lines.map Text.ofString)) s =
      (.ok (), { s with output := s.output ++ lines }) := by
  induction lines generalizing s with
  | nil =>
      rw [List.append_nil]
      rfl
  | cons line rest ih =>
      have hrest := ih { s with output := s.output ++ [line] }
      rw [List.append_assoc] at hrest
      change runOn (print (Text.ofString line) >>= fun _ => printAll (rest.map Text.ofString)) s = _
      rw [runOn_bind (runOn_print line s), hrest]
      rfl

end

end Job
end QuocNgu
