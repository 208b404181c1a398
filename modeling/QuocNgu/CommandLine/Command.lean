import QuocNgu.Config
import QuocNgu.Definitions
import QuocNgu.Layout
import QuocNgu.Lexicon
import QuocNgu.Rule.Outline
import QuocNgu.WordList

/-!
# CommandLine.Command — what each command does

* `Command` : the commands with their arguments
* `run`     : prints the answer of a command and gives its exit status

Dictionaries and limits that are not given come from the configuration.

Words, names and starts are strings, and so arguments whose bytes are not UTF-8 are left out. As
texts they would hold halves of surrogate pairs, which have no written form and cannot be printed.
-/

namespace QuocNgu
namespace CommandLine

inductive Command where
  | rules (key : String) (spec : Value)
  | im (name? : Option String)
  | check (words : List String) (dictionaries : List Value) (dictionaryOnly : Bool)
  | complete (start : String) (dictionaries : List Value) (best? : Option Value) (aliases : Bool)

namespace Command

/-! ## Rules -/

def printRules (rules : List Rule) : Job Unit :=
  rules.forM fun r => do
    Job.printAll (← Job.ofExcept (r.outline Rule.margin))

def runRules (key : Text) (spec : Value) : Job Nat :=
  match key with
  | [] => do
      Job.print "ERROR: Empty key"
      return 1
  | p :: _ => do
      let compiled := Spec.compile (.text [p]) spec
      Job.ofReport (Report.logAll compiled.log)
      if compiled.rules.isEmpty then
        Job.print ("No rules compiled from \"" ++ spec.display ++ "\"")
        return 1
      else
        printRules compiled.rules
        return 0

/-! ## Input methods -/

def listLayouts (config definitions : Value) : Job Nat := do
  let chosen ← Job.ofExcept (config.fieldOr "input_method" (.text "Telex"))
  let names ← Job.ofExcept (Layout.names definitions)
  names.forM fun name =>
    Job.print (Text.ofString (if name.same chosen then "* " else "  ") ++ name.display)
  return 0

def showLayout (name : String) (definitions : Value) : Job Nat := do
  match ← Job.ofReport (Layout.load? (.text name) definitions) with
  | none =>
      Job.print s!"ERROR: Unknown input method: {name}"
      return 1
  | some l =>
      Job.print (l.name.display ++ s!": {l.keys.length} keys, {l.rules.length} rules")
      Job.print ("  tone keys:      " ++ (← Job.ofExcept (Layout.keyText l.toneKeys)))
      Job.print ("  appending keys: " ++ (← Job.ofExcept (Layout.keyText l.appendingKeys)))
      Job.print ("  super keys:     " ++ (← Job.ofExcept (Layout.keyText l.superKeys)))
      Job.print (String.ofList (List.replicate 60 '-'))
      printRules l.rules
      return 0

def runIm (config : Value) (name? : Option String) : Job Nat := do
  match ← Definitions.load? with
  | none =>
      Job.print "ERROR: Input method definitions could not be loaded"
      return 1
  | some definitions =>
      match name? with
      | none => listLayouts config definitions
      | some name =>
          if name.isEmpty then listLayouts config definitions else showLayout name definitions

/-! ## Words -/

/-- The dictionaries given on the command line, or those of the configuration. -/
def dictionaryPaths (config : Value) (given : List Value) : Except Fault Value :=
  if given.isEmpty then config.fieldOr "dictionaries" (.list []) else .ok (.list given)

def loadLexicon (paths : Value) : Job (Option Lexicon) := do
  if !paths.isTruthy then
    Job.print "ERROR: No dictionary given. Use -d or set \"dictionaries\" in config.json"
    return none
  let words ← WordList.loadElements paths
  if words.isEmpty then
    let joined ← Job.ofExcept (do Value.joined ", " (← paths.elements))
    Job.print ("ERROR: No words loaded from: " ++ joined)
    return none
  let l ← Job.ofExcept (Lexicon.ofValues (words.map .text) true)
  Job.ofReport (Report.log (Lexicon.loaded l.count))
  return some l

def withLexicon (config : Value) (given : List Value) (use : Lexicon → Job Nat) : Job Nat := do
  match ← loadLexicon (← Job.ofExcept (dictionaryPaths config given)) with
  | none => return 1
  | some l => use l

def verdict (l : Lexicon) (dictionaryOnly : Bool) (word : Text) : Text :=
  word ++ "\t" ++ (l.query word dictionaryOnly).name

/-- The configuration can ask for what the command line did not. -/
def isDictionaryOnly (config : Value) (asked : Bool) : Except Fault Bool :=
  if asked then .ok true
  else (config.fieldOr "require_dictionary" (.boolean false)).map (·.isTruthy)

def runCheck (config : Value) (words : List Text) (given : List Value) (dictionaryOnly : Bool) :
    Job Nat :=
  withLexicon config given fun l => do
    let only ← Job.ofExcept (isDictionaryOnly config dictionaryOnly)
    Job.printAll (words.map (verdict l only))
    return 0

/-! ## Suggestions -/

def isBelowOne : Value → Except Fault Bool
  | .boolean b => .ok !b
  | .integer n => .ok (n < 1)
  | .real x => .ok (x.lessThan 1)
  | _ => .error .notOrdered

/-- The first items of a list, as many as a positive whole number says. -/
def takeFirst (limit : Value) (items : List Text) : Except Fault (List Text) :=
  match limit with
  | .boolean b => .ok (items.take b.toNat)
  | .integer n => .ok (items.take n.toNat)
  | _ => .error .notCount

def defaultLimit : Value := .integer 10

def limitOf (config : Value) (best? : Option Value) : Job Value := do
  let limit ← match best? with
    | some limit => pure limit
    | none => Job.ofExcept (config.fieldOr "max_suggestions" defaultLimit)
  if ← Job.ofExcept (isBelowOne limit) then
    Job.ofReport (Report.log (Log.warn .commandLine
      s!"Ignoring max_suggestions={limit.shown}; showing 10 suggestions"))
    return defaultLimit
  else return limit

def runComplete (config : Value) (start : Text) (given : List Value) (best? : Option Value)
    (aliases : Bool) : Job Nat :=
  withLexicon config given fun l => do
    let limit ← limitOf config best?
    Job.printAll (← Job.ofExcept (takeFirst limit (l.completions start aliases)))
    return 0

/-! ## Any command -/

def run (config : Value) : Command → Job Nat
  | rules key spec => runRules key spec
  | im name? => runIm config name?
  | check words dictionaries dictionaryOnly =>
      runCheck config (words.map Text.ofString) dictionaries dictionaryOnly
  | complete start dictionaries best? aliases =>
      runComplete config start dictionaries best? aliases

end Command
end CommandLine
end QuocNgu
