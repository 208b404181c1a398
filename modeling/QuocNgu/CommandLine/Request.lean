import QuocNgu.Arguments
import QuocNgu.CommandLine.Command
import QuocNgu.CommandLine.Help

/-!
# CommandLine.Request — the request that a command line makes

* `Request`  : a command, if there is one, and whether to log everything
* `parse`    : the request of a command line, or the reason to stop
-/

namespace QuocNgu
namespace CommandLine

open Arguments

structure Request where
  verbose : Bool
  command? : Option Command

/-! ## Grammars -/

def helpSwitch : Switch := ⟨["-h", "--help"], false⟩

def verboseSwitch : Switch := ⟨["-v", "--verbose"], false⟩

def dictionarySwitch : Switch := ⟨["-d", "--dictionary"], true⟩

def dictionaryOnlySwitch : Switch := ⟨["--dictionary-only"], false⟩

def bestSwitch : Switch := ⟨["-n", "--nbest"], true⟩

def aliasesSwitch : Switch := ⟨["--aliases"], false⟩

def programGrammar : Grammar :=
  ⟨"vn-ime-core", Help.program, [helpSwitch, verboseSwitch], [⟨"command", .rest⟩]⟩

def rulesGrammar : Grammar :=
  ⟨"vn-ime-core rules", Help.rules, [helpSwitch], [⟨"key", .one⟩, ⟨"spec", .one⟩]⟩

def imGrammar : Grammar :=
  ⟨"vn-ime-core im", Help.im, [helpSwitch], [⟨"name", .optional⟩]⟩

def checkGrammar : Grammar :=
  ⟨"vn-ime-core check", Help.check, [helpSwitch, dictionarySwitch, dictionaryOnlySwitch],
    [⟨"words", .many⟩]⟩

def completeGrammar : Grammar :=
  ⟨"vn-ime-core complete", Help.complete,
    [helpSwitch, dictionarySwitch, bestSwitch, aliasesSwitch], [⟨"prefix", .one⟩]⟩

/-! ## Arguments of the commands -/

/-- Everything that switches and positionals can set. -/
structure Settings where
  verbose : Bool
  dictionaries : List Value
  dictionaryOnly : Bool
  best? : Option Value
  aliases : Bool
  positionals : List (List String)

def Settings.initial : Settings := ⟨false, [], false, none, false, []⟩

/-- A switch or a positional whose only argument was dropped as a divider is an empty list. -/
def asValue : List String → Value
  | [arg] => .text arg
  | args => .list (args.map fun (arg : String) => .text arg)

def positive (g : Grammar) (arg : String) : Except Halt Int :=
  match Text.numeral? arg with
  | none => g.refuseSwitch bestSwitch s!"invalid positive_int value: {Text.quote arg}"
  | some n =>
      if n < 1 then g.refuseSwitch bestSwitch s!"must be at least 1: {arg}" else .ok n

def bestOf (g : Grammar) : List String → Except Halt Value
  | [arg] => return .integer (← positive g arg)
  | args => .ok (asValue args)

def settle (g : Grammar) (st : Settings) : Event → Except Halt Settings
  | .switch s values => do
      if s = helpSwitch then .error (.shown g.help)
      else if s = verboseSwitch then return { st with verbose := true }
      else if s = dictionarySwitch then
        return { st with dictionaries := st.dictionaries ++ [asValue values] }
      else if s = dictionaryOnlySwitch then return { st with dictionaryOnly := true }
      else if s = bestSwitch then return { st with best? := some (← bestOf g values) }
      else return { st with aliases := true }
  | .positional _ values => .ok { st with positionals := st.positionals ++ [values] }

def asText (args : List String) : String := args.headD ""

/-- The grammar of a command and the command that its settings make. -/
def commandNamed? : String → Option (Grammar × (Settings → Command))
  | "rules" =>
      some (rulesGrammar, fun st =>
        .rules (asText (st.positionals.getD 0 [])) (asValue (st.positionals.getD 1 [])))
  | "im" => some (imGrammar, fun st => .im (st.positionals.flatten.head?))
  | "check" =>
      some (checkGrammar, fun st =>
        .check st.positionals.flatten st.dictionaries st.dictionaryOnly)
  | "complete" =>
      some (completeGrammar, fun st =>
        .complete (asText st.positionals.flatten) st.dictionaries st.best? st.aliases)
  | _ => none

def parseCommand (name : String) (args : List String) : Except Halt (Command × List String) :=
  match commandNamed? name with
  | none =>
      .error (.refused programGrammar (s!"argument command: invalid choice: {Text.quote name} " ++
        "(choose from 'rules', 'im', 'check', 'complete')"))
  | some (g, build) => do
      let (st, extras) ← Arguments.parse g (settle g) Settings.initial args
      return (build st, extras)

/-! ## The request -/

/-- A request under way, with the arguments that its command did not take. -/
structure Draft where
  request : Request
  extras : List String

def draft (d : Draft) : Event → Except Halt Draft
  | .switch s _ =>
      if s = helpSwitch then .error (.shown Help.program)
      else .ok { d with request := { d.request with verbose := true } }
  | .positional _ [] => .ok d
  | .positional _ (name :: args) => do
      let (command, extras) ← parseCommand name args
      return { request := { d.request with command? := some command }, extras := extras }

def Request.parse (args : List String) : Except Halt Request := do
  let (d, extras) ← Arguments.parse programGrammar draft ⟨⟨false, none⟩, []⟩ args
  let unknown := extras ++ d.extras
  if unknown.isEmpty then return d.request
  else
    .error (.refused programGrammar ("unrecognized arguments: " ++ " ".intercalate unknown))

end CommandLine
end QuocNgu
