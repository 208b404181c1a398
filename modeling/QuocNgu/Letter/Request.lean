import QuocNgu.Letter
import QuocNgu.Value

/-!
# Letter.Request — letter operations on values, by name

* `Request` : the operations that can be asked for by name
* `answer`  : the result for arguments of any shape

A value that is no text is no letter, and a code that is no number is the code of no edit. Both are
looked up in tables, so a list or a mapping in their place is a fault.
-/

namespace QuocNgu
namespace Letter

inductive Request where
  | isVowel
  | toneOf
  | markOf
  | markBetween
  | setTone
  | clearTone
  | setMark
  | clearMark
  | strip
  | stripTones
  | stripWord
  deriving DecidableEq, Repr

namespace Request

def lookUp (v : Value) : Except Fault (Option Letter) :=
  match v with
  | .text t => .ok (ofText? t)
  | _ => if v.isKey then .ok none else .error .notKey

/-- Edits a value that is a letter; any other value is given back. -/
def edit (v code : Value) (apply : Text → Int → Text) : Except Fault Value := do
  match v, ← lookUp v with
  | .text t, some _ =>
      if code.isKey then
        match code.integer? with
        | some n => .ok (.text (apply t n))
        | none => .ok v
      else .error .notKey
  | _, _ => .ok v

def wordOf (v : Value) (change : Value → Except Fault Value) : Except Fault Value := do
  let items ← v.elements
  let changed ← items.mapM change
  return .text (← Value.joined "" changed)

def bareValue (v : Value) : Except Fault Value := do
  match ← lookUp v with
  | some l => .ok (.text l.bare.toText)
  | none => .ok v

def untonedValue (v : Value) : Except Fault Value :=
  edit v (.integer 0) Letter.setTone

def answer : Request → List Value → Except Fault Value
  | isVowel, [v] => do
      return .boolean ((← lookUp v).any (·.base.isVowel))
  | toneOf, [v] => do
      return .integer ((← lookUp v).elim Tone.level (·.tone)).code
  | markOf, [v] => do
      return .integer ((← lookUp v).elim Mark.plain (·.mark)).code
  | markBetween, [v, w] => do
      let source ← v.asText
      let target ← w.asText
      match markBetween? source target with
      | some m => return .integer m.code
      | none => return .null
  | setTone, [v, code] => edit v code Letter.setTone
  | clearTone, [v] => untonedValue v
  | setMark, [v, code] => edit v code Letter.setMark
  | clearMark, [v] => edit v (.integer 0) Letter.setMark
  | strip, [v] => bareValue v
  | stripTones, [v] => wordOf v untonedValue
  | stripWord, [v] => wordOf v bareValue
  | _, _ => .error .wrongArity

end Request
end Letter
end QuocNgu
