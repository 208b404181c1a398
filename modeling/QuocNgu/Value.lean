import QuocNgu.Binary64
import QuocNgu.Text.Part

/-!
# Value — the values of configuration files and requests

* `Value`   : what a JSON text can say, with mappings in insertion order
* `Fault`   : why an operation on a value of the wrong shape fails
* the accessors `chars?`, `rows?`, `elements`, `member`, `subscript` : what each shape offers

A mapping with text keys is an `object`. A mapping with some other scalar among its keys is a
`table`; no JSON text gives one.
-/

namespace QuocNgu

inductive Value where
  | null
  | boolean (b : Bool)
  | integer (n : Int)
  | real (x : Binary64)
  | text (t : Text)
  | list (items : List Value)
  | object (fields : List (Text × Value))
  | table (rows : List (Value × Value))
  deriving Inhabited

inductive Kind where
  | null
  | boolean
  | integer
  | real
  | text
  | list
  | mapping
  deriving DecidableEq, Repr

/-- Why an operation on values fails. -/
inductive Fault where
  /-- A text operation met a value that is no text. -/
  | notText
  /-- A mapping operation met a value that is no mapping. -/
  | notMapping
  /-- A value has no elements to go through. -/
  | notIterable
  /-- A list or a mapping was used as a key. -/
  | notKey
  /-- A value cannot be indexed, or not by this index. -/
  | notIndexable
  /-- A list of texts to be joined holds a value that is no text. -/
  | notJoinable
  /-- A value cannot be compared with a number. -/
  | notOrdered
  /-- A value cannot count the items to keep. -/
  | notCount
  /-- A value cannot name a file. -/
  | notPath
  /-- An operation was given too few or too many arguments. -/
  | wrongArity
  /-- A mapping or a table of names lacks a key. -/
  | missingKey (key : Value)
  /-- A list or a text has no item at this index. -/
  | outOfRange
  /-- An integer has more digits than a reader accepts. -/
  | longInteger
  /-- The number of an open file is beyond every such number. -/
  | hugeHandle
  /-- A text with half a surrogate pair was to be printed or saved. -/
  | unwritable
  deriving Inhabited

namespace Value

def kind : Value → Kind
  | null => .null
  | boolean _ => .boolean
  | integer _ => .integer
  | real _ => .real
  | text _ => .text
  | list _ => .list
  | object _ => .mapping
  | table _ => .mapping

/-! ## Truth and numbers -/

/-- Null, false, zero and everything empty are false. -/
def isTruthy : Value → Bool
  | null => false
  | boolean b => b
  | integer n => n != 0
  | real x => !x.isZero
  | text t => !t.isEmpty
  | list items => !items.isEmpty
  | object fields => !fields.isEmpty
  | table rows => !rows.isEmpty

/-- The integer that a number or a truth value equals, if there is one. -/
def integer? : Value → Option Int
  | boolean b => some (if b then 1 else 0)
  | integer n => some n
  | real x => x.toInteger?
  | _ => none

/-! ## Equality -/

/-- Scalars agree if they are the same number or the same other scalar. -/
def sameScalar : Value → Value → Bool
  | null, null => true
  | text s, text t => s == t
  | real x, real y => x.same y
  | v, w =>
      match v.integer?, w.integer? with
      | some m, some n => m == n
      | _, _ => false

def isKey (v : Value) : Bool :=
  match v.kind with
  | .list | .mapping => false
  | _ => true

/-! ## Mappings -/

/-- Sets a key in place, or at the end if it is new; an old key keeps its spelling. -/
def assign {κ : Type} (same : κ → κ → Bool) (key : κ) (value : Value) :
    List (κ × Value) → List (κ × Value)
  | [] => [(key, value)]
  | (k, v) :: rest =>
      if same k key then (k, value) :: rest else (k, v) :: assign same key value rest

def assignField (key : Text) (value : Value) : List (Text × Value) → List (Text × Value) :=
  assign (· == ·) key value

def rows? : Value → Option (List (Value × Value))
  | object fields => some (fields.map fun (k, v) => (text k, v))
  | table rows => some rows
  | _ => none

/-- The mapping with the given rows, an `object` if all keys are texts. -/
def ofRows (rows : List (Value × Value)) : Value :=
  let fields := rows.filterMap fun
    | (text k, v) => some (k, v)
    | _ => none
  if fields.length = rows.length then object fields else table rows

/-- The mapping with rows that may repeat a key: the first position and the last value stand. -/
def ofEntries (entries : List (Value × Value)) : Value :=
  ofRows (entries.foldl (fun rows (k, v) => assign sameScalar k v rows) [])

def findRow? (key : Value) (rows : List (Value × Value)) : Option Value :=
  (rows.find? fun row => sameScalar row.1 key).map (·.2)

def field? (key : Text) : Value → Option Value
  | object fields => (fields.find? (·.1 == key)).map (·.2)
  | table rows => findRow? (text key) rows
  | _ => none

/-- The value at a text key, or a default; only mappings have keys. -/
def fieldOr (v : Value) (key : Text) (default : Value) : Except Fault Value :=
  match v.kind with
  | .mapping => .ok ((v.field? key).getD default)
  | _ => .error .notMapping

mutual

/-- Equality of whole values: numbers by value, mappings up to the order of their keys. -/
def same : Value → Value → Bool
  | list xs, w =>
      match w with
      | list ys => sameAll xs ys
      | _ => false
  | object fields, w =>
      match w.rows? with
      | some rows => rows.length == fields.length && sameFields fields rows
      | none => false
  | table own, w =>
      match w.rows? with
      | some rows => rows.length == own.length && sameRows own rows
      | none => false
  | v, w => sameScalar v w
termination_by structural v => v

def sameAll : List Value → List Value → Bool
  | [], [] => true
  | x :: xs, y :: ys => same x y && sameAll xs ys
  | _, _ => false
termination_by structural xs => xs

def sameFields : List (Text × Value) → List (Value × Value) → Bool
  | [], _ => true
  | (k, v) :: rest, rows =>
      (match findRow? (text k) rows with
        | some w => same v w
        | none => false) && sameFields rest rows
termination_by structural fields => fields

def sameRows : List (Value × Value) → List (Value × Value) → Bool
  | [], _ => true
  | (k, v) :: rest, rows =>
      (match findRow? k rows with
        | some w => same v w
        | none => false) && sameRows rest rows
termination_by structural own => own

end

/-! ## Accessors that can fail -/

def asText : Value → Except Fault Text
  | text t => .ok t
  | _ => .error .notText

def asRows (v : Value) : Except Fault (List (Value × Value)) :=
  match v.rows? with
  | some rows => .ok rows
  | none => .error .notMapping

/-- Texts are gone through by code point and mappings by key. -/
def elements : Value → Except Fault (List Value)
  | text t => .ok (t.map fun p => text [p])
  | list items => .ok items
  | object fields => .ok (fields.map fun (k, _) => text k)
  | table rows => .ok (rows.map (·.1))
  | _ => .error .notIterable

/-- Membership: an item of a list, a key of a mapping, a part of a text. -/
def member (v item : Value) : Except Fault Bool :=
  match v with
  | list items => .ok (items.any fun x => same x item)
  | text t =>
      match item with
      | text part => .ok (Text.isPart part t)
      | _ => .error .notIndexable
  | _ =>
      match v.rows? with
      | some rows => if item.isKey then .ok (findRow? item rows).isSome else .error .notKey
      | none => .error .notIterable

/-- The index of an item; a negative index counts from the end. -/
def indexOf? (size : Nat) : Value → Option (Option Nat)
  | integer n => some (position n)
  | boolean b => some (position (if b then 1 else 0))
  | _ => none
where
  position (n : Int) : Option Nat :=
    let i := if n < 0 then n + size else n
    if 0 ≤ i && i < size then some i.toNat else none

def itemAt (items : List Value) (index : Value) : Except Fault Value :=
  match indexOf? items.length index with
  | none => .error .notIndexable
  | some none => .error .outOfRange
  | some (some i) =>
      match items[i]? with
      | some item => .ok item
      | none => .error .outOfRange

/-- The item of a list, the code point of a text or the value of a mapping at an index. -/
def subscript (v index : Value) : Except Fault Value :=
  match v with
  | list items => itemAt items index
  | text t => itemAt (t.map fun p => text [p]) index
  | _ =>
      match v.rows? with
      | none => .error .notIndexable
      | some rows =>
          if index.isKey then
            match findRow? index rows with
            | some w => .ok w
            | none => .error (.missingKey index)
          else .error .notKey

/-- Joins texts; every value has to be one. -/
def joined (separator : Text) (items : List Value) : Except Fault Text :=
  match items.mapM (fun item => match item with | text t => some t | _ => none) with
  | some texts => .ok (separator.intercalate texts)
  | none => .error .notJoinable

end Value
end QuocNgu
