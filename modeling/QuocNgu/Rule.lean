import QuocNgu.Letter
import QuocNgu.Value

/-!
# Rule — one compiled transformation of a typed word

* `Rule`      : the key that triggers it, what it does, and the rules applied right after it
* `kind?`     : whether it appends, marks or sets a tone
* `toneOf`, `markOf` : the tone or mark that a rule applies
* `same`      : equality of rules, field by field

Specs compile to rules of the three kinds with a tone or mark code as effect and texts as letters. A
rule made by hand may hold any values; it has a kind as long as its code equals one of the three.
-/

namespace QuocNgu

structure Rule where
  key : Value
  /-- The code of the kind. -/
  code : Value
  /-- The mark or tone code; zero for a rule that appends. -/
  effect : Value
  /-- The lower-case letter that the effect applies to, or the text to append. -/
  target : Value
  /-- The letter that results, as the spec writes it. -/
  result : Value
  appended : List Rule
  deriving Inhabited

namespace Rule

/-! ## Kinds -/

/-- What a rule does. -/
inductive Kind where
  | append
  | mark
  | tone
  deriving DecidableEq, Repr, Inhabited

def Kind.all : List Kind := [.append, .mark, .tone]

def Kind.code : Kind → Int
  | .append => 0
  | .mark => 1
  | .tone => 2

def Kind.ofCode? (code : Int) : Option Kind := all.find? (·.code = code)

def Kind.name : Kind → String
  | .append => "Appending"
  | .mark => "MarkTransformation"
  | .tone => "ToneTransformation"

def kind? (r : Rule) : Option Kind := r.code.integer?.bind Kind.ofCode?

theorem Kind.ofCode?_code (k : Kind) : ofCode? k.code = some k := by
  cases k <;> rfl

/-! ## Rules of each kind -/

def append (key : Value) (p : Point) (appended : List Rule) : Rule :=
  ⟨key, .integer Kind.append.code, .integer 0, .text [p], .text [p], appended⟩

def mark (key : Value) (m : Mark) (target : Text) (result : Point) (appended : List Rule) : Rule :=
  ⟨key, .integer Kind.mark.code, .integer m.code, .text target, .text [result], appended⟩

def tone (key : Value) (t : Tone) : Rule :=
  ⟨key, .integer Kind.tone.code, .integer t.code, .text [], .text [], []⟩

/-! ## Effects -/

def toneOf (r : Rule) : Value :=
  if r.kind? = some .tone then r.effect else .integer Tone.level.code

def markOf (r : Rule) : Value :=
  if r.kind? = some .mark then r.effect else .integer Mark.plain.code

/-! ## Equality -/

mutual

def same : Rule → Rule → Bool
  | ⟨key, code, effect, target, result, appended⟩, other =>
      key.same other.key && code.same other.code && effect.same other.effect &&
        target.same other.target && result.same other.result && sameAll appended other.appended

def sameAll : List Rule → List Rule → Bool
  | [], [] => true
  | r :: rs, s :: ss => same r s && sameAll rs ss
  | _, _ => false

end

end Rule
end QuocNgu
