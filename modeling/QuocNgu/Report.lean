import QuocNgu.Log
import QuocNgu.Value

/-!
# Report — computations that log and can fail

What was logged before a fault stays logged.
-/

namespace QuocNgu

abbrev Report (α : Type) := ExceptT Fault (StateM (List Log.Entry)) α

namespace Report

def log (e : Log.Entry) : Report Unit := modify (· ++ [e])

def logAll (es : List Log.Entry) : Report Unit := modify (· ++ es)

def ofExcept {α : Type} (result : Except Fault α) : Report α := ExceptT.mk (pure result)

/-- The result of a report and everything that it logs. -/
def collect {α : Type} (r : Report α) : Except Fault α × List Log.Entry := r.run.run []

/-! ## Running reports -/

/-- The result of a report after a log, and the longer log. -/
def runOn {α : Type} (r : Report α) (log : List Log.Entry) : Except Fault α × List Log.Entry :=
  r.run.run log

@[simp]
theorem runOn_pure {α : Type} (a : α) (log : List Log.Entry) :
    runOn (pure a) log = (.ok a, log) := rfl

@[simp]
theorem runOn_log (e : Log.Entry) (log : List Log.Entry) :
    runOn (Report.log e) log = (.ok (), log ++ [e]) := rfl

@[simp]
theorem runOn_logAll (es log : List Log.Entry) :
    runOn (logAll es) log = (.ok (), log ++ es) := rfl

@[simp]
theorem runOn_ofExcept {α : Type} (result : Except Fault α) (log : List Log.Entry) :
    runOn (ofExcept result) log = (result, log) := rfl

theorem runOn_bind {α β : Type} {r : Report α} {log log' : List Log.Entry} {a : α}
    (hr : r.runOn log = (.ok a, log')) (next : α → Report β) :
    runOn (r >>= next) log = (next a).runOn log' := by
  have hr' : StateT.run (ExceptT.run r) log = (.ok a, log') := hr
  simp only [runOn, ExceptT.run_bind, StateT.run_bind, hr']
  rfl

/-- Steps that succeed wherever `P` holds make a run that succeeds and logs what each of them
logs. -/
theorem runOn_foldlM {α β : Type} {step : β → α → Report β} {next : β → α → β}
    {logged : α → List Log.Entry} {P : β → Prop}
    (hstep : ∀ b a log, P b → (step b a).runOn log = (.ok (next b a), log ++ logged a))
    (hkept : ∀ b a, P b → P (next b a)) (items : List α) {b : β} (hb : P b)
    (log : List Log.Entry) :
    runOn (items.foldlM step b) log =
      (.ok (items.foldl next b), log ++ items.flatMap logged) := by
  induction items generalizing b log with
  | nil =>
      simp
  | cons a rest ih =>
      have hrest := ih (hkept b a hb) (log ++ logged a)
      rw [List.foldlM_cons, runOn_bind (hstep b a log hb), hrest, List.foldl_cons,
        List.flatMap_cons, List.append_assoc]

end Report
end QuocNgu
