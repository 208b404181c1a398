import QuocNgu.Text

/-!
# Log — records of what an operation reports beside its result
-/

namespace QuocNgu
namespace Log

/-- How grave a record is, in rising order. -/
inductive Level where
  | debug
  | info
  | warning
  | error
  | critical
  deriving DecidableEq, Repr

def Level.all : List Level := [.debug, .info, .warning, .error, .critical]

def Level.severity : Level → Nat
  | .debug => 10
  | .info => 20
  | .warning => 30
  | .error => 40
  | .critical => 50

def Level.name : Level → String
  | .debug => "DEBUG"
  | .info => "INFO"
  | .warning => "WARNING"
  | .error => "ERROR"
  | .critical => "CRITICAL"

def Level.ofName? (name : Text) : Option Level := Level.all.find? (Text.ofString ·.name == name)

/-- The part of the program that reports. -/
inductive Source where
  | spec
  | layout
  | lexicon
  | files
  | commandLine
  deriving DecidableEq, Repr

structure Entry where
  level : Level
  source : Source
  message : String
  deriving DecidableEq, Repr

def Entry.atLeast (level : Level) (e : Entry) : Bool := level.severity ≤ e.level.severity

def warn (source : Source) (message : String) : Entry := ⟨.warning, source, message⟩

end Log
end QuocNgu
