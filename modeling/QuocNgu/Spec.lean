import QuocNgu.Log
import QuocNgu.Rule
import QuocNgu.Text.Split
import QuocNgu.Value.Display

/-!
# Spec — compiling the spec of a key into rules

A spec is the name of a tone (`DauSac`) or runs of letters between underscores, read as pairs of a
source and a target (`UOA_ƯƠĂ`), with an optional run to append after a doubled underscore
(`UOA_ƯƠĂ__Ư`).

* `Runs`     : a mark spec taken apart into pairs and a final run
* `Item`     : what one pair of letters gives: a rule, or a note that no mark joins them
* `compile`  : the rules of any spec, in spec order, and what was reported on the way
-/

namespace QuocNgu
namespace Spec

/-- The rules that a spec gives and what was reported on the way. -/
structure Compiled where
  rules : List Rule
  log : List Log.Entry

def warn (message : String) : Log.Entry := Log.warn .spec message

/-! ## Tones -/

def toneNames : List (Text × Tone) :=
  [("XoaDauThanh", .level), ("DauSac", .acute), ("DauHuyen", .grave), ("DauHoi", .hook),
    ("DauNga", .tilde), ("DauNang", .dot)]

def toneNamed? (spec : Text) : Option Tone := (toneNames.find? (·.1 == spec)).map (·.2)

/-- A tone spec gives one rule; anything else gives none and a warning. -/
def compileTone (key spec : Value) : Compiled :=
  let named := match spec with
    | .text t => toneNamed? t
    | _ => none
  match named with
  | some t => ⟨[Rule.tone key t], []⟩
  | none =>
      ⟨[], [warn s!"Unknown tone rule for key \"{key.shown}\": \"{spec.shown}\""]⟩

/-! ## Taking a mark spec apart -/

def separator : Point := '_'

/-- The text before the first doubled separator and, if there is one, the text after it. -/
def cutDoubled : Text → Text × Option Text
  | [] => ([], none)
  | [p] => ([p], none)
  | p :: q :: rest =>
      if p = separator ∧ q = separator then ([], some rest)
      else
        let (body, tail) := cutDoubled (q :: rest)
        (p :: body, tail)

/-- Neighbours two by two; a last one without a neighbour is dropped. -/
def pairUp {α : Type} : List α → List (α × α)
  | a :: b :: rest => (a, b) :: pairUp rest
  | _ => []

structure Runs where
  pairs : List (Text × Text)
  /-- The run to append at the end, empty if there is none. -/
  final : Text
  deriving DecidableEq, Repr

/-- A final run after pairs follows their lower-case targets and is lowered itself. -/
def runsOf (spec : Text) : Runs :=
  let (body, tail) := cutDoubled spec
  let final := match tail with
    | some rest => (Text.splitAll separator rest).headD []
    | none => []
  ⟨pairUp (Text.splitAll separator body), if body.isEmpty then final else Text.lower final⟩

/-! ## Compiling a mark spec -/

inductive Item where
  | rule (r : Rule)
  | unmarked (source target : Point)

def Item.rule? : Item → Option Rule
  | .rule r => some r
  | .unmarked _ _ => none

def Item.warning? (key : Value) : Item → Option Log.Entry
  | .rule _ => none
  | .unmarked s t =>
      some (warn (s!"Cannot derive a mark from \"{Text.shown [s]}\" to \"{Text.shown [t]}\" " ++
        s!"(key \"{key.shown}\")"))

/-- One spec serves both cases, so the target of the rule is the source in lower case. -/
def markItem (key : Value) (source target : Point) : Item :=
  match Letter.markBetween? [source] [target] with
  | some m => .rule (Rule.mark key m (Text.lower [source]) target [])
  | none => .unmarked source target

/-- A pair without a source appends its target letter by letter. -/
def pairItems (key : Value) (source target : Text) : List Item :=
  if source.isEmpty then target.map fun p => .rule (Rule.append key p [])
  else (source.zip target).map fun (s, t) => markItem key s t

/-- The first letter of a final run marks a vowel or is appended; the others follow it. -/
def finalRule (key : Value) (first : Point) (following : Text) : Rule :=
  let appended := following.map fun p => Rule.append key p []
  let m := Letter.markOf [first]
  if following.isEmpty || m = .plain then Rule.append key first appended
  else Rule.mark key m (Text.lower [Letter.stripped first]) first appended

def finalRules (key : Value) : Text → List Rule
  | [] => []
  | first :: following => [finalRule key first following]

def items (key : Value) (runs : Runs) : List Item :=
  runs.pairs.flatMap fun (source, target) => pairItems key source target

/-- Pairs without a mark are warned of and left out; a spec that gives no rule at all is warned of
last. -/
def compileRuns (key : Value) (spec : Text) : Compiled :=
  let runs := runsOf spec
  let made := items key runs
  let rules := made.filterMap Item.rule? ++ finalRules key runs.final
  let warnings := made.filterMap (Item.warning? key)
  if rules.isEmpty then
    let record := s!"Rule spec for key \"{key.shown}\" produced no rules: \"{spec.shown}\""
    ⟨[], warnings ++ [warn record]⟩
  else ⟨rules, warnings⟩

def unrecognized (key spec : Value) : Compiled :=
  ⟨[], [warn s!"Unrecognized rule spec for key \"{key.shown}\": \"{spec.shown}\""]⟩

/-- A text without a separator is no mark spec. -/
def compileMark (key spec : Value) : Compiled :=
  match spec with
  | .text t => if t.contains separator then compileRuns key t else unrecognized key spec
  | _ => unrecognized key spec

/-! ## Any spec -/

/-- Tone names are told apart first; no tone name is a mark spec. -/
def compile (key spec : Value) : Compiled :=
  match spec with
  | .text t => if (toneNamed? t).isSome then compileTone key spec else compileMark key spec
  | _ => ⟨[], [warn s!"Rule spec for key \"{key.shown}\" is not a string: {spec.quoted}"]⟩

end Spec
end QuocNgu
