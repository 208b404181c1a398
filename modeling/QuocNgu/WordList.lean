import QuocNgu.Document
import QuocNgu.Text.Blank
import QuocNgu.Value.Display

/-!
# WordList — the words of dictionary files

* `ofLines` : one word a line; blank lines and lines that start with `#` hold none
* `ofValue` : a list of words, or a mapping with words as keys
* `load`    : the words of a file, none if it cannot be read, and exactly one log record
* `loadAll` : the words of several files in order
-/

namespace QuocNgu
namespace WordList

/-! ## Contents -/

def lineWord? (line : Text) : Option Text :=
  match line.trim with
  | [] => none
  | p :: rest => if p = '#' then none else some (p :: rest)

def ofLines (text : Text) : List Text := text.lines.filterMap lineWord?

/-- A value that is no text, or blank, is no word. -/
def itemWord? : Value → Option Text
  | .text t =>
      match t.trim with
      | [] => none
      | word => some word
  | _ => none

def ofValue : Value → Option (List Text)
  | .list items => some (items.filterMap itemWord?)
  | .object fields => some (fields.filterMap fun (k, _) => itemWord? (.text k))
  | _ => none

/-! ## Files -/

/-- What reading a dictionary file gives. -/
inductive Reading where
  | words (ws : List Text)
  | missing
  | wrongShape
  | malformed
  | unreadable (problem : Document.Problem)

def readJson (content : ByteArray) : Reading :=
  match String.fromUTF8? content with
  | none => .malformed
  | some text =>
      match Json.read Json.strict text with
      | .error _ => .malformed
      | .ok v =>
          match ofValue v with
          | some ws => .words ws
          | none => .wrongShape

def readLines (content : ByteArray) : Reading :=
  match String.fromUTF8? content with
  | none => .unreadable .notUtf8
  | some text => .words (ofLines text)

def isJsonPath (path : String) : Bool := ".json".toList.isSuffixOf path.toList

def readFile (fs : FileSystem) (path : String) : Reading :=
  if fs.exists? path then
    match fs.read path with
    | .error problem => .unreadable (.file problem)
    | .ok content => if isJsonPath path then readJson content else readLines content
  else .missing

/-- A text that can be no path names no file. -/
def reading (fs : FileSystem) (name : Text) : Reading :=
  match FileSystem.pathOf? name with
  | some path => readFile fs path
  | none => .missing

def Reading.words? : Reading → List Text
  | .words ws => ws
  | _ => []

def Reading.record (name : Text) : Reading → Log.Entry
  | .words ws => ⟨.info, .files, s!"Loaded dictionary: {name.shown} ({ws.length} words)"⟩
  | .missing => ⟨.warning, .files, s!"Dictionary file not found: {name.shown}"⟩
  | .wrongShape =>
      ⟨.warning, .files, s!"Invalid dictionary format (expected list or dict): {name.shown}"⟩
  | .malformed =>
      let label := (Document.Problem.json .malformed).label
      ⟨.error, .files, s!"Failed to parse dictionary JSON: {name.shown} - {label}"⟩
  | .unreadable problem =>
      ⟨.error, .files, s!"Failed to load dictionary: {name.shown} - {problem.label}"⟩

/-- Either every word of the file or, with the reason in the log, none. -/
def load (name : Text) : Job (List Text) := do
  let found := reading (← Job.files) name
  let record := found.record name
  Job.log record.level record.message
  return found.words?

/-! ## Paths of any shape -/

/-- Three files are open when the program starts; no other number names one. -/
def isOpenHandle (n : Int) : Bool := 0 ≤ n && n < 3

def isHandle (n : Int) : Bool := -0x80000000 ≤ n && n < 0x80000000

def loadHandle (path : Value) (n : Int) : Job (List Text) := do
  if !isHandle n then Job.fail .hugeHandle
  else if isOpenHandle n then Job.fail .notText
  else
    Job.log .warning s!"Dictionary file not found: {path.shown}"
    return []

def loadValue (path : Value) : Job (List Text) :=
  match path with
  | .text name => load name
  | .integer n => loadHandle path n
  | .boolean b => loadHandle path (if b then 1 else 0)
  | _ => Job.fail .notPath

def loadAll (paths : List Value) : Job (List Text) := do
  return (← paths.mapM loadValue).flatten

/-- Loads the word lists of the elements of a value. -/
def loadElements (paths : Value) : Job (List Text) := do
  loadAll (← Job.ofExcept paths.elements)

end WordList
end QuocNgu
