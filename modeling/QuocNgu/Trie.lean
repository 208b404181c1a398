import QuocNgu.Letter
import QuocNgu.Text.Order
import QuocNgu.Text.Quoted

/-!
# Trie — a word tree that is blind to marks and tones

* `variants`   : the spellings of one code point: itself, without its tone, without its mark
* `insert`     : adds a word and every spelling made of variants of its code points
* `query`      : whether a spelling is a word, the start of one, or neither
* `walk`       : every path of the tree with the flags at its end
* `gather`     : the paths asked for, taken from a stack of pending nodes
* `completions`: the spellings below a start

A spelling that differs from the inserted word is an alias: it is `full`, but no `entry` and no part
of the dictionary. Words are lowered before they are inserted or looked up.

Inserting goes one call deeper for each code point. A limit on the depth of calls is left out, so
that words may be of any length, not syllables only.
-/

namespace QuocNgu

namespace Trie

/-- What ends at a node: any spelling, a word of the dictionary, a word as inserted. -/
structure Flags where
  full : Bool
  dictionary : Bool
  entry : Bool
  deriving DecidableEq, Repr

def Flags.clear : Flags := ⟨false, false, false⟩

end Trie

inductive Trie where
  | node (flags : Trie.Flags) (children : List (Point × Trie))

namespace Trie

def flags : Trie → Flags
  | node flags _ => flags

def children : Trie → List (Point × Trie)
  | node _ children => children

def empty : Trie := node Flags.clear []

instance : Inhabited Trie := ⟨empty⟩

def child? (t : Trie) (p : Point) : Option Trie := (t.children.find? (·.1 == p)).map (·.2)

/-- Changes the child at a code point in place; a new child comes last. -/
def changeChild (p : Point) (change : Trie → Trie) : List (Point × Trie) → List (Point × Trie)
  | [] => [(p, change empty)]
  | (q, t) :: rest =>
      if q = p then (q, change t) :: rest else (q, t) :: changeChild p change rest

/-! ## Inserting -/

/-- The code point, the same without its tone, and without its mark as well; each once. -/
def variants (p : Point) : List Point :=
  let toneless := Letter.untoned p
  [p, toneless, Letter.unmarked toneless].eraseDups

/-- The flags of a node where a word ends; they are only ever raised. -/
def Flags.raise (f : Flags) (dictionary isAlias : Bool) : Flags :=
  ⟨true, f.dictionary || (dictionary && !isAlias), f.entry || !isAlias⟩

/-- Inserts along every variant of every code point; the flag tells whether a variant was taken that
is not the code point itself. -/
def insertPath (dictionary : Bool) : Text → Bool → Trie → Trie
  | [], isAlias, node flags children => node (flags.raise dictionary isAlias) children
  | p :: rest, isAlias, node flags children =>
      node flags ((variants p).foldl
        (fun children v =>
          changeChild v (insertPath dictionary rest (isAlias || v != p)) children)
        children)

/-- The empty word is no word. -/
def insert (t : Trie) (word : Text) (dictionary : Bool) : Trie :=
  match word.lower with
  | [] => t
  | p :: rest => insertPath dictionary (p :: rest) false t

def ofWords (words : List Text) (dictionary : Bool) : Trie :=
  words.foldl (fun t word => t.insert word dictionary) empty

/-! ## Looking up -/

/-- The node at the end of a path. -/
def findPath? : Text → Trie → Option Trie
  | [], t => some t
  | p :: rest, t => (t.child? p).bind (findPath? rest)

def find? (t : Trie) (start : Text) : Option Trie := findPath? start.lower t

/-- How a spelling stands to the words of a tree. -/
inductive Match where
  | none
  | start
  | full
  deriving DecidableEq, Repr

def Match.code : Match → Int
  | .none => 0
  | .start => 1
  | .full => 2

def Match.name : Match → String
  | .none => "NotMatch"
  | .start => "MatchPrefix"
  | .full => "MatchFull"

def Flags.matched (f : Flags) (dictionary : Bool) : Match :=
  if f.full && (f.dictionary || !dictionary) then .full else .start

def query (t : Trie) (word : Text) (dictionary : Bool) : Match :=
  match t.find? word with
  | some found => found.flags.matched dictionary
  | Option.none => .none

/-! ## Walking -/

mutual

/-- Every path from the root, a node before its children, with the flags at its end. -/
def walk : Trie → List (Text × Flags)
  | node flags children => ([], flags) :: walkChildren children

def walkChildren : List (Point × Trie) → List (Text × Flags)
  | [] => []
  | (p, t) :: rest => (walk t).map (fun (path, f) => (p :: path, f)) ++ walkChildren rest

end

theorem walkChildren_eq_flatMap (children : List (Point × Trie)) :
    walkChildren children =
      children.flatMap fun (p, t) => t.walk.map fun (path, f) => (p :: path, f) := by
  induction children with
  | nil =>
      rfl
  | cons entry rest ih =>
      rw [walkChildren, ih, List.flatMap_cons]

/-! ## Completing -/

/-- Whether the spelling that ends at a node is asked for. -/
def Flags.wanted (f : Flags) (aliases : Bool) : Bool := f.entry || (aliases && f.full)

/-- The nodes still to be visited, each with the path that leads to it. -/
abbrev Pending := List (Text × Trie)

/-- The number of paths at and below the nodes still to be visited. -/
def Pending.size (pending : Pending) : Nat := (pending.flatMap fun (_, t) => t.walk).length

/-- A node with the path to it gives way to its children, the last of them on top. -/
def Pending.push (path : Text) (t : Trie) (pending : Pending) : Pending :=
  (t.children.map fun (p, child) => (path ++ [p], child)).reverse ++ pending

theorem Pending.size_push (path : Text) (t : Trie) (pending : Pending) :
    (pending.push path t).size + 1 = Pending.size ((path, t) :: pending) := by
  cases t with
  | node flags children =>
      simp [size, push, walk, walkChildren_eq_flatMap, Trie.children, Function.comp_def,
        List.length_flatMap, Nat.add_right_comm]

/-- Visits the pending nodes from the top down to the last and adds the paths asked for. -/
def gather (aliases : Bool) (pending : Pending) (found : List Text) : List Text :=
  match pending with
  | [] => found
  | (path, t) :: rest =>
      gather aliases (Pending.push path t rest)
        (if t.flags.wanted aliases then path :: found else found)
termination_by Pending.size pending
decreasing_by
  have hsize := Pending.size_push path t rest
  omega

/-- The spellings below a start, inserted words only unless aliases are asked for. -/
def completions (t : Trie) (start : Text) (aliases : Bool) : List Text :=
  let lowered := start.lower
  match t.find? lowered with
  | some below => gather aliases [(lowered, below)] []
  | Option.none => []

def sortedCompletions (t : Trie) (start : Text) (aliases : Bool) : List Text :=
  Text.sorted (t.completions start aliases)

/-! ## Summaries -/

/-- The numbers of all, full, dictionary and entry nodes. -/
structure Census where
  nodes : Nat
  full : Nat
  dictionary : Nat
  entries : Nat
  deriving DecidableEq, Repr

def census (t : Trie) : Census :=
  let all := t.walk.map (·.2)
  ⟨all.length, all.countP (·.full), all.countP (·.dictionary), all.countP (·.entry)⟩

def flagWord (b : Bool) : String := if b then "True" else "False"

def summary (t : Trie) : String :=
  let labels : Text := t.children.map (·.1)
  "TrieNode(full=" ++ flagWord t.flags.full ++ ", dictionary=" ++ flagWord t.flags.dictionary ++
    ", children=" ++ labels.quote ++ ")"

end Trie
end QuocNgu
