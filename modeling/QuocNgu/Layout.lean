import QuocNgu.Report
import QuocNgu.Spec

/-!
# Layout — the compiled rules of an input method, key by key

* `Layout`    : all rules in order, the same rules by key, and the keys of each special kind
* `add`       : compiles the spec of one more key into a layout
* `addValue`  : the same for a key and a spec of any shape; a fault leaves what was done before it
* `compile`   : the layout of a whole definition
* `load?`     : the layout of a name among definitions
-/

namespace QuocNgu

structure Layout where
  name : Value
  rules : List Rule
  /-- The rules of each key, in the order of the keys. -/
  byKey : List (Value × List Rule)
  keys : List Value
  toneKeys : List Value
  appendingKeys : List Value
  superKeys : List Value

namespace Layout

def empty (name : Value) : Layout := ⟨name, [], [], [], [], [], []⟩

/-! ## Keys -/

def hasKey (keys : List Value) (key : Value) : Bool := keys.any (·.sameScalar key)

def noteKey (keys : List Value) (key : Value) : List Value :=
  if hasKey keys key then keys else keys ++ [key]

def noteKeyIf (condition : Bool) (keys : List Value) (key : Value) : List Value :=
  if condition then noteKey keys key else keys

def extendRow (key : Value) (rules : List Rule) :
    List (Value × List Rule) → List (Value × List Rule)
  | [] => [(key, rules)]
  | (k, old) :: rest =>
      if k.sameScalar key then (k, old ++ rules) :: rest else (k, old) :: extendRow key rules rest

/-! ## Adding a key -/

/-- A spec that writes `uo` next to each other serves both letters with one key. -/
def isSuper (spec : Text) : Bool := Text.isPart ['u', 'o'] spec.lower

/-- Files the rules of a key, whatever its spec was. -/
def file (l : Layout) (key : Value) (rules : List Rule) : Layout :=
  { l with
    rules := l.rules ++ rules
    byKey := extendRow key rules l.byKey
    keys := noteKey l.keys key }

/-- Notes the key among those of each special kind. -/
def classify (l : Layout) (key : Value) (spec : Text) (rules : List Rule) : Layout :=
  { l with
    superKeys := noteKeyIf (isSuper spec) l.superKeys key
    toneKeys := noteKeyIf (rules.any (·.kind? == some .tone)) l.toneKeys key
    appendingKeys := noteKeyIf (rules.any (·.kind? == some .append)) l.appendingKeys key }

/-- The layout with one more key. A key may come again: its new rules follow its old ones. -/
def add (l : Layout) (key : Value) (spec : Text) : Layout :=
  let rules := (Spec.compile key (.text spec)).rules
  (l.file key rules).classify key spec rules

/-- What adding a key leaves behind: the layout, the log and, if it failed, why. -/
structure Added where
  layout : Layout
  log : List Log.Entry
  fault? : Option Fault

/-- Adds a key and a spec of any shape. A spec that is no text fails only after its key is filed,
and a key that cannot be filed fails after its rules have joined the others. -/
def addValue (l : Layout) (key spec : Value) : Added :=
  let compiled := Spec.compile key spec
  if key.isKey then
    match spec with
    | .text t => ⟨l.add key t, compiled.log, none⟩
    | _ => ⟨l.file key compiled.rules, compiled.log, some .notText⟩
  else ⟨{ l with rules := l.rules ++ compiled.rules }, compiled.log, some .notKey⟩

/-! ## Questions -/

/-- The rules that a key triggers, none if the layout lacks it. -/
def rulesOf (l : Layout) (key : Value) : Except Fault (List Rule) :=
  if key.isKey then .ok (((l.byKey.find? (·.1.sameScalar key)).map (·.2)).getD [])
  else .error .notKey

def isToneKey (l : Layout) (key : Value) : Bool := hasKey l.toneKeys key

def keyText (keys : List Value) : Except Fault Text := Value.joined [] keys

def summary (l : Layout) : Except Fault String := do
  let keys ← keyText l.keys
  return "InputMethod(" ++ l.name.quoted ++ ", keys=" ++ keys.quote ++ ")"

/-! ## Compiling definitions -/

def skipped (name key spec : Value) : Log.Entry :=
  Log.warn .layout
    s!"Skipping invalid entry in input method \"{name.shown}\": {key.quoted} -> {spec.quoted}"

def compiled (l : Layout) : Log.Entry :=
  ⟨.debug, .layout, s!"Compiled input method \"{l.name.shown}\": {l.keys.length} keys, " ++
    s!"{l.rules.length} rules"⟩

/-- Only the first code point of a key counts; an entry without a key or a text is skipped. -/
def addEntry (l : Layout) (key spec : Value) : Report Layout :=
  match key, spec with
  | .text name, .text rule =>
      match name with
      | [] => do
          Report.log (skipped l.name key spec)
          return l
      | p :: _ => do
          let added := l.addValue (.text [p]) (.text rule)
          Report.logAll added.log
          return added.layout
  | _, .text _ =>
      if key.isTruthy then Report.ofExcept (.error .notIndexable)
      else do
        Report.log (skipped l.name key spec)
        return l
  | _, _ => do
      Report.log (skipped l.name key spec)
      return l

/-- An empty definition of any shape defines no keys. -/
def entriesOf (definition : Value) : Except Fault (List (Value × Value)) :=
  if definition.isTruthy then definition.asRows else .ok []

/-- The layout of a definition, its entries added in order. -/
def compile (name definition : Value) : Report Layout := do
  let entries ← Report.ofExcept (entriesOf definition)
  let l ← entries.foldlM (fun l (key, spec) => l.addEntry key spec) (empty name)
  Report.log (compiled l)
  return l

/-- The names of a mapping of definitions. -/
def names (definitions : Value) : Except Fault (List Value) := do
  return (← definitions.asRows).map (·.1)

/-- The layout of a name; a name that is not defined is reported with those that are. -/
def load? (name definitions : Value) : Report (Option Layout) := do
  if ← Report.ofExcept (definitions.member name) then
    return some (← compile name (← Report.ofExcept (definitions.subscript name)))
  else
    let available ← Report.ofExcept (do Value.joined ", " (← definitions.elements))
    Report.log ⟨.error, .layout,
      s!"Input method \"{name.shown}\" is not defined. Available: {available.shown}"⟩
    return none

end Layout
end QuocNgu
