import QuocNgu.Document
import QuocNgu.Json.Writer
import QuocNgu.Locations
import QuocNgu.Value.Display

/-!
# Config — the user's configuration, checked against the default one

* `default?` : the default configuration, if it can be read and is not null
* `save`     : writes a configuration to the user's directory
* `repair`   : gives a configuration every key of the default, with a value of the same kind
* `load`     : the configuration to use, with its warnings
* `level`    : the level of the log that a configuration asks for
-/

namespace QuocNgu
namespace Config

/-! ## The default configuration -/

def default? : Job (Option Value) := do
  let env ← Job.environment
  let fs ← Job.files
  if !fs.exists? env.defaultConfigPath then
    Job.log .error (s!"config.json is not found under {env.dataDirectory}. " ++
      "Please check that installation was done without problem!")
    return none
  match Document.document? fs env.defaultConfigPath with
  | .ok .null => return none
  | .ok config => return some config
  | .error problem =>
      Job.log .error s!"Error loading the default config.json under {env.dataDirectory}"
      Job.log .error problem.label
      return none

/-! ## Saving -/

def written (fs : FileSystem) (env : Environment) (text : String) :
    FileSystem × Option FileSystem.Problem :=
  match fs.makeDirectories env.userDirectory with
  | (fs, some problem) => (fs, some problem)
  | (fs, none) => fs.write env.userConfigPath text.toUTF8

/-- Writes a configuration, and says whether it could be written. A configuration that has no
written form leaves the file with what came before the fault. -/
def save (config : Value) : Job Bool := do
  let env ← Job.environment
  let (text, complete) := Json.stored config
  let (fs, problem) := written (← Job.files) env text
  Job.setFiles fs
  match problem with
  | none =>
      if !complete then Job.fail .unwritable
      Job.log .info s!"Configuration saved successfully to {env.userConfigPath}"
      return true
  | some problem =>
      Job.log .error s!"Error saving config.json to {env.userConfigPath}"
      Job.log .error (Document.fileLabel problem)
      return false

/-! ## Repairing -/

/-- A configuration under repair and the warnings about it so far. -/
structure Repaired where
  rows : List (Value × Value)
  warnings : List String

def warn (st : Repaired) (message : String) : Report Repaired := do
  Report.log (Log.warn .files message)
  return { st with warnings := st.warnings ++ [message] }

def missing (directory : String) (key : Value) : String :=
  s!"The key \"{key.shown}\" was not found in the config.json under {directory} . " ++
    "Copying the default key-value"

def mismatch (directory : String) (key : Value) : String :=
  s!"Type mismatch found for the key \"{key.shown}\" between config.json under {directory} " ++
    "and default config.json. Replacing the value of this key with the value in default config.json"

def Repaired.put (st : Repaired) (key value : Value) : Repaired :=
  { st with rows := Value.assign Value.sameScalar key value st.rows }

/-- A key that the user lacks, or holds with a value of another kind, gets the default value. -/
def repairKey (directory : String) (default : Value) (st : Repaired) (key : Value) :
    Report Repaired := do
  if !key.isKey then throw .notKey
  match Value.findRow? key st.rows with
  | none =>
      let st ← warn st (missing directory key)
      return st.put key (← Report.ofExcept (default.subscript key))
  | some own =>
      let value ← Report.ofExcept (default.subscript key)
      if own.kind = value.kind then return st
      else
        let st ← warn st (mismatch directory key)
        return st.put key value

def isText (v : Value) : Bool := v.kind = .text

def dictionariesKey : Value := .text "dictionaries"

/-- Only texts name dictionaries. -/
def dropOthers (st : Repaired) : Report Repaired := do
  match Value.findRow? dictionariesKey st.rows with
  | none => throw (.missingKey dictionariesKey)
  | some value =>
      let items ← Report.ofExcept value.elements
      if items.all isText then return st
      else
        let st ← warn st "Dropping non-string entries from \"dictionaries\"."
        return st.put dictionariesKey (.list (items.filter isText))

/-- Goes through the keys of the default in order; keys that only the user has are kept. -/
def repair (directory : String) (default : Value) (rows : List (Value × Value)) :
    Report Repaired := do
  let keys ← Report.ofExcept default.elements
  let st ← keys.foldlM (repairKey directory default) ⟨rows, []⟩
  dropOthers st

/-! ## Loading -/

/-- A configuration and the lines of warning that came with it. -/
structure Loaded where
  config : Value
  warnings : String

def warnAlone (config : Value) (message : String) : Job Loaded := do
  Job.log .warning message
  return ⟨config, message⟩

/-- A user's configuration that cannot be read is left alone, and the default one is used. -/
def loadUser (env : Environment) (default : Value) : Job Loaded := do
  match ← Document.openJob env.userConfigPath with
  | .error problem =>
      Job.log .error s!"Error loading the config.json under {env.userDirectory}"
      Job.log .error problem.label
      Job.log .error
        s!"Using (but not copying) the default config.json from {env.defaultConfigPath} .."
      return ⟨default, ""⟩
  | .ok config =>
      match config.rows? with
      | none =>
          warnAlone default (s!"config.json under {env.userDirectory} is not a JSON object. " ++
            "Using the default config.json")
      | some rows =>
          let st ← Job.ofReport (repair env.userDirectory default rows)
          return ⟨Value.ofRows st.rows, "\n".intercalate st.warnings⟩

/-- A user without a configuration gets a copy of the default one. -/
def load : Job Loaded := do
  let env ← Job.environment
  match ← default? with
  | none =>
      return ⟨.object [],
        s!"Default config.json is missing or invalid under {env.dataDirectory}"⟩
  | some default =>
      if (← Job.files).exists? env.userConfigPath then loadUser env default
      else
        let loaded ← warnAlone default
          (s!"config.json is not found under {env.userDirectory} . " ++
            s!"Copying the default config.json from {env.defaultConfigPath} ..")
        let _ ← save default
        return loaded

/-! ## The log level -/

/-- A level without a known name counts as WARNING. -/
def level (config : Value) : Report Log.Level := do
  let asked ← Report.ofExcept (config.fieldOr "logging_level" (.text "WARNING"))
  if !asked.isKey then throw .notKey
  let known := match asked with
    | .text name => Log.Level.ofName? name
    | _ => none
  match known with
  | some level => return level
  | none =>
      Report.log (Log.warn .files (s!"Specified logging level {asked.shown} is not " ++
        "recognized. Using the default WARNING level."))
      return .warning

end Config
end QuocNgu
