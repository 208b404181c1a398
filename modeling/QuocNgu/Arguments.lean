import QuocNgu.Text.Numeral
import QuocNgu.Text.Quoted

/-!
# Arguments — reading a command line by a grammar of switches and positionals

* `Grammar`  : the switches and positionals of a program or one of its commands
* `Item`     : an argument with its role: a switch, a plain argument or the divider `--`
* `Event`    : a switch or a positional that was recognised, with its values
* `parse`    : goes through the events in order and gives what was left over

A switch may be shortened to any unambiguous start, may have its value attached, and short switches
may be written together. Positionals take as many plain arguments as they can, as often as plain
arguments turn up.
-/

namespace QuocNgu
namespace Arguments

structure Switch where
  names : List String
  takesValue : Bool
  deriving DecidableEq, Repr

/-- How many plain arguments a positional takes. -/
inductive Arity where
  | one
  | optional
  | many
  /-- One plain argument and everything after it. -/
  | rest
  deriving DecidableEq, Repr

structure Positional where
  name : String
  arity : Arity
  deriving DecidableEq, Repr

structure Grammar where
  program : String
  help : String
  switches : List Switch
  positionals : List Positional

/-- Why reading ends early: a help text was asked for, or the arguments are wrong. -/
inductive Halt where
  | shown (help : String)
  | refused (g : Grammar) (message : String)

inductive Event where
  | switch (s : Switch) (values : List String)
  | positional (p : Positional) (values : List String)

def Switch.label (s : Switch) : String := "/".intercalate s.names

def Grammar.refuseSwitch {α : Type} (g : Grammar) (s : Switch) (message : String) :
    Except Halt α :=
  .error (.refused g s!"argument {s.label}: {message}")

/-! ## Roles of arguments -/

/-- A switch as written: its name and the text attached to it. -/
structure Written where
  switch : Switch
  name : String
  attached : Option String

inductive Role where
  | switch (w : Written)
  | unknownSwitch
  | plain
  | divider

structure Item where
  text : String
  role : Role

def Item.isSwitch (i : Item) : Bool :=
  match i.role with
  | .switch _ | .unknownSwitch => true
  | _ => false

/-- Every name of every switch, in order. -/
def Grammar.names (g : Grammar) : List (String × Switch) :=
  g.switches.flatMap fun s => s.names.map (·, s)

def Grammar.named? (g : Grammar) (name : String) : Option Switch :=
  (g.names.find? (·.1 == name)).map (·.2)

/-- The text before the first equals sign and, if there is one, the text after it. -/
def cutEquals (arg : String) : String × Option String :=
  match arg.toList.dropWhile (· != '=') with
  | [] => (arg, none)
  | _ :: value => (String.ofList (arg.toList.takeWhile (· != '=')), some (String.ofList value))

/-- The switches that a shortened or joined spelling can mean. -/
def Grammar.candidates (g : Grammar) (arg : String) : List Written :=
  if arg.startsWith "--" then
    let (start, attached) := cutEquals arg
    g.names.filterMap fun (name, s) =>
      if name.startsWith start then some ⟨s, name, attached⟩ else none
  else
    let short := String.ofList (arg.toList.take 2)
    g.names.filterMap fun (name, s) =>
      if name = short then some ⟨s, name, some (String.ofList (arg.toList.drop 2))⟩
      else if name.startsWith arg then some ⟨s, name, none⟩
      else none

/-- A negative number and an argument with a space in it are plain, unless they name a switch. -/
def Grammar.role (g : Grammar) (arg : String) : Except Halt Role :=
  if !arg.startsWith "-" then .ok .plain
  else
    match g.named? arg with
    | some s => .ok (.switch ⟨s, arg, none⟩)
    | none =>
        if arg.length = 1 then .ok .plain
        else
          let (start, attached) := cutEquals arg
          match attached, g.named? start with
          | some value, some s => .ok (.switch ⟨s, start, some value⟩)
          | _, _ =>
              match g.candidates arg with
              | [w] => .ok (.switch w)
              | [] =>
                  if Text.looksNegative arg || arg.contains ' ' then .ok .plain
                  else .ok .unknownSwitch
              | several =>
                  let names := ", ".intercalate (several.map (·.name))
                  .error (.refused g s!"ambiguous option: {arg} could match {names}")

/-- After the divider every argument is plain. -/
def Grammar.items (g : Grammar) : List String → Except Halt (List Item)
  | [] => .ok []
  | "--" :: rest => .ok (⟨"--", .divider⟩ :: rest.map fun arg => ⟨arg, .plain⟩)
  | arg :: rest => do
      let role ← g.role arg
      return ⟨arg, role⟩ :: (← g.items rest)

/-! ## Positionals -/

def isPlain (i : Item) : Bool :=
  match i.role with
  | .plain => true
  | _ => false

def isDivider (i : Item) : Bool :=
  match i.role with
  | .divider => true
  | _ => false

/-- The numbers from `high` down to `low`. -/
def downTo (low high : Nat) : List Nat := ((List.range (high + 1)).drop low).reverse

/-- How many items a positional can take, the most first; dividers go along. -/
def Arity.counts (a : Arity) (items : List Item) : List Nat :=
  let before := (items.takeWhile isDivider).length
  match items.drop before with
  | i :: after =>
      if isPlain i then
        let tail := match a with
          | .one | .optional => (after.takeWhile isDivider).length
          | .many => (after.takeWhile fun j => isPlain j || isDivider j).length
          | .rest => after.length
        downTo (before + 1) (before + 1 + tail) ++
          if a = .optional then downTo 0 before else []
      else if a = .optional then downTo 0 before else []
  | [] => if a = .optional then downTo 0 before else []

/-- The first way to serve all positionals. -/
def countsFor? : List Positional → List Item → Option (List Nat)
  | [], _ => some []
  | p :: ps, items =>
      (p.arity.counts items).findSome? fun n =>
        (countsFor? ps (items.drop n)).map (n :: ·)

/-- The counts for as many of the first positionals as can be served together. -/
def longestCounts (ps : List Positional) (items : List Item) : List Nat :=
  ((downTo 1 ps.length).findSome? fun n => countsFor? (ps.take n) items).getD []

def dropFirstDivider : List String → List String
  | [] => []
  | arg :: rest => if arg = "--" then rest else arg :: dropFirstDivider rest

def positionalEvents : List (Positional × Nat) → List Item → List Event
  | [], _ => []
  | (p, n) :: rest, items =>
      let values := (items.take n).map (·.text)
      let kept := if p.arity = .rest then values else dropFirstDivider values
      .positional p kept :: positionalEvents rest (items.drop n)

/-! ## Switches -/

/-- The events of switches written together, such as `-vh`. -/
structure Joined where
  events : List Event
  /-- How many items after the switch were taken as its value. -/
  taken : Nat

def isShort (name : String) : Bool := !name.startsWith "--"

/-- A switch without an attached value takes the next plain argument if it needs one. -/
def lastSwitch (g : Grammar) (s : Switch) (after : List Item) : Except Halt Joined :=
  if s.takesValue then
    match after with
    | i :: _ =>
        if isPlain i then .ok ⟨[.switch s [i.text]], 1⟩
        else g.refuseSwitch s "expected one argument"
    | [] => g.refuseSwitch s "expected one argument"
  else .ok ⟨[.switch s []], 0⟩

def ignored {α : Type} (g : Grammar) (s : Switch) (value : List Char) : Except Halt α :=
  g.refuseSwitch s s!"ignored explicit argument {Text.quote (String.ofList value)}"

/-- The values of a switch from the text attached to it, which is nothing if it is the divider. -/
def attachedValues (value : List Char) : List String := dropFirstDivider [String.ofList value]

/-- Takes a text attached to a switch as its value or as more short switches. -/
def attachedSwitches (g : Grammar) (after : List Item) (s : Switch) (name : String) :
    List Char → Except Halt Joined
  | [] => if s.takesValue then .ok ⟨[.switch s (attachedValues [])], 0⟩ else ignored g s []
  | c :: value =>
      if s.takesValue then .ok ⟨[.switch s (attachedValues (c :: value))], 0⟩
      else if !isShort name then ignored g s (c :: value)
      else
        let next := String.ofList ['-', c]
        match g.named? next with
        | none => ignored g s (c :: value)
        | some t => do
            let more ←
              if value.isEmpty then lastSwitch g t after
              else attachedSwitches g after t next value
            return { more with events := .switch s [] :: more.events }

def switchEvents (g : Grammar) (w : Written) (after : List Item) : Except Halt Joined :=
  match w.attached with
  | some value => attachedSwitches g after w.switch w.name value.toList
  | none => lastSwitch g w.switch after

/-! ## Whole command lines -/

structure Progress (σ : Type) where
  state : σ
  extras : List String
  /-- The positionals that have not been served. -/
  waiting : List Positional

section

variable {σ : Type} (g : Grammar) (act : σ → Event → Except Halt σ)

def actAll (p : Progress σ) (events : List Event) : Except Halt (Progress σ) := do
  return { p with state := ← events.foldlM act p.state }

/-- Serves positionals from the front of the items; also gives how many items they took. -/
def servePositionals (p : Progress σ) (items : List Item) : Except Halt (Progress σ × Nat) := do
  let counts := longestCounts p.waiting items
  let p' ← actAll act p (positionalEvents (p.waiting.zip counts) items)
  return ({ p' with waiting := p.waiting.drop counts.length }, counts.foldl (· + ·) 0)

def serveSwitch (p : Progress σ) (i : Item) (after : List Item) :
    Except Halt (Progress σ × Nat) :=
  match i.role with
  | .switch w => do
      let joined ← switchEvents g w after
      return (← actAll act p joined.events, joined.taken)
  | _ => .ok ({ p with extras := p.extras ++ [i.text] }, 0)

/-- Serves the last positionals; what they leave is extra. -/
def finish (p : Progress σ) (items : List Item) : Except Halt (Progress σ) := do
  let (p, taken) ← servePositionals act p items
  return { p with extras := p.extras ++ (items.drop taken).map (·.text) }

/-- Serves positionals and switches in turn; each round takes at least one item. -/
def serve (fuel : Nat) (p : Progress σ) (items : List Item) : Except Halt (Progress σ) :=
  match fuel with
  | 0 => finish act p items
  | fuel + 1 =>
      match items.dropWhile (!·.isSwitch) with
      | [] => finish act p items
      | i :: after =>
          let before := items.takeWhile (!·.isSwitch)
          if before.isEmpty then do
            let (p, taken) ← serveSwitch g act p i after
            serve fuel p (after.drop taken)
          else do
            -- positionals see the switches too: one of arity `rest` takes them along
            let (p, taken) ← servePositionals act p items
            if taken = 0 then
              let p := { p with extras := p.extras ++ before.map (·.text) }
              let (p, taken) ← serveSwitch g act p i after
              serve fuel p (after.drop taken)
            else serve fuel p (items.drop taken)

def isRequired (p : Positional) : Bool :=
  match p.arity with
  | .one | .many => true
  | .optional | .rest => false

/-- Reads a command line; the second part of the result is what no switch or positional took. -/
def parse (state : σ) (args : List String) : Except Halt (σ × List String) := do
  let items ← g.items args
  let p ← serve g act (items.length + 1) ⟨state, [], g.positionals⟩ items
  let lacking := p.waiting.filter isRequired
  if lacking.isEmpty then return (p.state, p.extras)
  else
    let names := ", ".intercalate (lacking.map (·.name))
    .error (.refused g s!"the following arguments are required: {names}")

end

end Arguments
end QuocNgu
