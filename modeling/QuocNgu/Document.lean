import QuocNgu.Json.Reader
import QuocNgu.Session

/-!
# Document — reading texts and JSON documents from files

* `Problem`  : why a document cannot be read, with the label under which log lines name it
* `text?`    : the text of a file
* `document?`: the value of a JSON file
-/

namespace QuocNgu
namespace Document

inductive Problem where
  | file (problem : FileSystem.Problem)
  | notUtf8
  | json (problem : Json.Problem)
  deriving DecidableEq, Repr

def fileLabel : FileSystem.Problem → String
  | .notFound => "<FileNotFoundError>"
  | .notDirectory => "<NotADirectoryError>"
  | .isDirectory => "<IsADirectoryError>"
  | .alreadyExists => "<FileExistsError>"
  | .nameTooLong => "<OSError>"
  | .notPath => "<ValueError>"
  | .brokenOff => "<OSError>"

def Problem.label : Problem → String
  | .file problem => fileLabel problem
  | .notUtf8 => "<UnicodeDecodeError>"
  | .json .malformed => "<JSONDecodeError>"
  | .json .longInteger => "<ValueError>"

def text? (fs : FileSystem) (path : String) : Except Problem String :=
  match fs.read path with
  | .error problem => .error (.file problem)
  | .ok content =>
      match String.fromUTF8? content with
      | some text => .ok text
      | none => .error .notUtf8

def document? (fs : FileSystem) (path : String) : Except Problem Value :=
  match text? fs path with
  | .error problem => .error problem
  | .ok text =>
      match Json.read Json.lenient text with
      | .ok v => .ok v
      | .error problem => .error (.json problem)

/-- An integer with too many digits is a fault of the program; all other problems are answers. -/
def openJob (path : String) : Job (Except Problem Value) := do
  match document? (← Job.files) path with
  | .error (.json .longInteger) => Job.fail .longInteger
  | result => return result

end Document
end QuocNgu
