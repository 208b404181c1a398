import QuocNgu.CommandLine.Request

/-!
# CommandLine — one run of the program

* `Outcome` : exit status, printed text and error text of a run
* `run`     : answers a command line on a session

The configuration is read first. What is logged meanwhile goes to the error text as bare messages,
warnings and worse; after that the configuration decides what is shown, with the level in front.
-/

namespace QuocNgu
namespace CommandLine

structure Outcome where
  status : Except Fault Nat
  output : String
  /-- Usage lines, ahead of the error text if the arguments are wrong. -/
  usage : String
  errors : String
  files : FileSystem

def padTo (width : Nat) (s : String) : String :=
  s ++ String.ofList (List.replicate (width - s.length) ' ')

def bareLine (e : Log.Entry) : String := e.message ++ "\n"

def levelLine (e : Log.Entry) : String := padTo 8 e.level.name ++ " " ++ e.message ++ "\n"

def showLog (least : Log.Level) (line : Log.Entry → String) (log : List Log.Entry) : String :=
  String.join ((log.filter (·.atLeast least)).map line)

def prepare : Job (Value × Log.Level) := do
  let config := (← Config.load).config
  return (config, ← Job.ofReport (Config.level config))

def perform (verbose : Bool) (command : Command) (s : Session) : Outcome :=
  let (prepared, s) := prepare.runOn { s with log := [], output := [] }
  let early := showLog .warning bareLine s.log
  match prepared with
  | .error fault => ⟨.error fault, "", "", early, s.files⟩
  | .ok (config, level) =>
      let (status, s) := (command.run config).runOn { s with log := [] }
      let late := showLog (if verbose then .debug else level) levelLine s.log
      ⟨status, Help.text s.output, "", early ++ late, s.files⟩

def run (args : List String) (s : Session) : Outcome :=
  match Request.parse args with
  | .error (.shown help) => ⟨.ok 0, help, "", "", s.files⟩
  | .error (.refused g message) =>
      ⟨.ok 2, "", Help.usage g.help, s!"{g.program}: error: {message}\n", s.files⟩
  | .ok ⟨_, none⟩ => ⟨.ok 1, Help.program, "", "", s.files⟩
  | .ok ⟨verbose, some command⟩ => perform verbose command s

/-! ## Files of a run -/

def pathOf? (v : Value) : Option String := v.asText.toOption.bind FileSystem.pathOf?

/-- The texts among the dictionaries that a command names or the configuration gives. -/
def Command.dictionaryFiles (config : Value) : Command → List String
  | .check _ given _ | .complete _ given _ _ =>
      match dictionaryPaths config given with
      | .ok paths => (paths.elements.toOption.getD []).filterMap pathOf?
      | .error _ => []
  | _ => []

/-- The dictionary files that a run reads. -/
def dictionaryFiles (args : List String) (s : Session) : List String :=
  match Request.parse args, (prepare.runOn s).1 with
  | .ok ⟨_, some command⟩, .ok (config, _) => command.dictionaryFiles config
  | _, _ => []

end CommandLine
end QuocNgu
