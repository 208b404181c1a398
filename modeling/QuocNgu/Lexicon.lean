import QuocNgu.Log
import QuocNgu.Trie
import QuocNgu.Value

/-!
# Lexicon — a word tree that is replaced as a whole

* `Trie.insertValue` : inserting a value, which has to be a text unless it is empty
* `Lexicon`          : a tree, the number of its words, and whether words were ever loaded
* `load`             : replaces tree, count and readiness together, or fails and changes nothing
-/

namespace QuocNgu

/-! ## Words of any shape -/

namespace Trie

def insertValue (t : Trie) (word : Value) (dictionary : Bool) : Except Fault Trie :=
  if word.isTruthy then
    match word with
    | .text w => .ok (t.insert w dictionary)
    | _ => .error .notText
  else .ok t

def ofValues (words : List Value) (dictionary : Bool) : Except Fault Trie :=
  words.foldlM (fun t word => t.insertValue word dictionary) empty

end Trie

/-! ## Lexicons -/

structure Lexicon where
  root : Trie
  count : Nat
  ready : Bool

namespace Lexicon

def empty : Lexicon := ⟨Trie.empty, 0, false⟩

instance : Inhabited Lexicon := ⟨empty⟩

def loaded (count : Nat) : Log.Entry :=
  ⟨.info, .lexicon, s!"TrieMatcher loaded {count} words"⟩

/-- Empty values are left out before the tree is built. -/
def ofValues (words : List Value) (dictionary : Bool) : Except Fault Lexicon := do
  let kept := words.filter (·.isTruthy)
  return ⟨← Trie.ofValues kept dictionary, kept.length, true⟩

/-- The lexicon after an attempt to load, which leaves the old one in place if it fails. -/
def load (old : Lexicon) (words : List Value) (dictionary : Bool) :
    Lexicon × Except Fault (List Log.Entry) :=
  match ofValues words dictionary with
  | .ok new => (new, .ok [loaded new.count])
  | .error fault => (old, .error fault)

def query (l : Lexicon) (word : Text) (dictionary : Bool) : Trie.Match :=
  l.root.query word dictionary

/-- A word of the dictionary as it was loaded, up to case; aliases do not count. -/
def contains (l : Lexicon) (word : Text) : Bool := l.query word true = .full

def completions (l : Lexicon) (start : Text) (aliases : Bool) : List Text :=
  l.root.sortedCompletions start aliases

end Lexicon
end QuocNgu
