import QuocNgu.Document
import QuocNgu.Locations

/-!
# Definitions — the layouts that the program knows by name

A file in the user's directory takes the place of the installed one.
-/

namespace QuocNgu
namespace Definitions

def fileName : String := "input_methods.json"

def path (fs : FileSystem) (env : Environment) : String :=
  let own := joinPath env.userDirectory fileName
  if fs.exists? own then own else joinPath env.dataDirectory fileName

def load? : Job (Option Value) := do
  let path := path (← Job.files) (← Job.environment)
  match ← Document.openJob path with
  | .error problem =>
      Job.log .error s!"Error in loading input method file: {path}"
      Job.log .error problem.label
      return none
  | .ok definitions =>
      if definitions.kind = .mapping then return some definitions
      else
        Job.log .error s!"Invalid input method file (expected an object): {path}"
        return none

/-- The definitions, or none at all if they cannot be read. -/
def loadOrEmpty : Job Value := return (← load?).getD (.object [])

end Definitions
end QuocNgu
