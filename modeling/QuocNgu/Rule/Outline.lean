import QuocNgu.Rule
import QuocNgu.Value.Display

/-!
# Rule.Outline — rules as indented lines

* `line`        : the line of one rule, without its indent
* `outline`     : one line for each rule of a tree, an appended rule indented below its rule
* `outlineFrom` : the same below an indent of any shape

Compiled rules are nested one deep. Trees made by hand may be deeper, and a limit on the depth of
calls, one for each level, is left out.
-/

namespace QuocNgu
namespace Rule

/-- The name of a code, or the value itself if it is the code of nothing. -/
def effectWord (names : Int → Option String) (effect : Value) : Except Fault Text :=
  if !effect.isKey then .error .notKey
  else
    match effect.integer?.bind names with
    | some name => .ok name
    | none => .ok effect.display

/-- A rule of no known kind has no line. -/
def line (r : Rule) : Except Fault Text :=
  if !r.code.isKey then .error .notKey
  else
    match r.kind? with
    | none => .error (.missingKey r.code)
    | some kind =>
        let head := r.key.display ++ " " ++ kind.name ++ " "
        match kind with
        | .append => .ok (head ++ r.target.display)
        | .mark => do
            let word ← effectWord Mark.codeName? r.effect
            return head ++ r.target.display ++ " -> " ++ r.result.display ++ " mark=" ++ word
        | .tone => do
            let word ← effectWord Tone.codeName? r.effect
            return head ++ "tone=" ++ word

def step : Text := "  + "

mutual

/-- The lines of a rule and, one step further in, of the rules appended to it. -/
def outline (indent : Text) : Rule → Except Fault (List Text)
  | ⟨key, code, effect, target, result, appended⟩ => do
      let own ← line ⟨key, code, effect, target, result, appended⟩
      let below ← outlineAll (indent ++ step) appended
      return (indent ++ own) :: below

def outlineAll (indent : Text) : List Rule → Except Fault (List Text)
  | [] => .ok []
  | r :: rs => do
      let lines ← outline indent r
      let more ← outlineAll indent rs
      return lines ++ more

end

/-- An indent that is no text stands before the first line, but nothing can be added to it. -/
def outlineFrom (indent : Value) (r : Rule) : Except Fault (List Text) :=
  match indent with
  | .text t => r.outline t
  | _ => do
      let own ← r.line
      if r.appended.isEmpty then return [indent.display ++ own] else .error .notJoinable

/-- The indent of a rule that stands on its own. -/
def margin : Text := "  "

end Rule
end QuocNgu
