import QuocNgu.Proofs.Trie.Walking

/-!
# Proofs.Trie.Growing — how a tree grows by one word

* `labelsAt`          : the code points below a path, in the order of the children there
* `labelsAt_insertPath` : new children come last, in the order of the variants
* `findPath?_insertPath` : nothing changes below a path that no spelling of the word starts with
* `insert_grows`      : paths, flags and children of any tree after one insertion

An insertion meets a tree that earlier words have left behind. Every statement is about an arbitrary
tree, with arbitrary flags at its nodes, and compares one path before and after.
-/

namespace QuocNgu
namespace Trie

/-! ## The children at a path -/

/-- The code points that the children of a node stand at, in their order. -/
def labels (t : Trie) : List Point := t.children.map Prod.fst

/-- The code points below a path; there are none where there is no node. -/
def labelsAt (t : Trie) (path : Text) : List Point := ((findPath? path t).getD empty).labels

/-! ## One step of an insertion -/

/-- Code points that have a child already keep their places, the others are added in turn. -/
theorem points_foldl_changeChild (change : Point → Trie → Trie) {points : List Point}
    (hpoints : points.Nodup) (children : List (Point × Trie)) :
    (points.foldl (fun cs v => changeChild v (change v) cs) children).map Prod.fst =
      children.map Prod.fst ++ points.filter (· ∉ children.map Prod.fst) := by
  -- By induction along the points, for any children: those added so far belong to the old ones.
  induction points generalizing children with
  | nil => simp
  | cons p points ih =>
      rcases List.nodup_cons.1 hpoints with ⟨hp, hrest⟩
      rw [List.foldl_cons, ih hrest, points_changeChild]
      by_cases hold : p ∈ children.map Prod.fst
      · simp only [List.filter_cons, hold, if_true, not_true_eq_false, decide_false]
        rfl
      · -- The point was added just now; it is not among the points to come.
        have hfresh : ∀ v ∈ points, (v ∉ children.map Prod.fst ++ [p]) =
            (v ∉ children.map Prod.fst) := by
          intro v hv
          have hvp : v ≠ p := fun hvp => hp (hvp ▸ hv)
          simp [hvp]
        have hfilter : points.filter (· ∉ children.map Prod.fst ++ [p]) =
            points.filter (· ∉ children.map Prod.fst) := by
          apply List.filter_congr
          intro v hv
          simp only [hfresh v hv]
        rw [if_neg hold, hfilter]
        calc
          (children.map Prod.fst ++ [p]) ++ points.filter (· ∉ children.map Prod.fst)
              = children.map Prod.fst ++ p :: points.filter (· ∉ children.map Prod.fst) := by
                simp
          _ = children.map Prod.fst ++ (p :: points).filter (· ∉ children.map Prod.fst) := by
                rw [List.filter_cons_of_pos (by simpa using hold)]

theorem labels_insertPath_cons (dictionary isAlias : Bool) (p : Point) (word : Text) (t : Trie) :
    (insertPath dictionary (p :: word) isAlias t).labels =
      t.labels ++ (variants p).filter (· ∉ t.labels) := by
  cases t with
  | node flags children =>
      exact points_foldl_changeChild
        (fun v => insertPath dictionary word (isAlias || v != p)) (variants_nodup p) children

theorem labels_insertPath_nil (dictionary isAlias : Bool) (t : Trie) :
    (insertPath dictionary [] isAlias t).labels = t.labels := by
  cases t with
  | node flags children => rfl

/-! ## One insertion, on and off its paths -/

/-- Along a spelling of its first code points the rest of a word is inserted, into what was there
before. -/
theorem findPath?_insertPath_of_isSpelling {start path : Text} (hspelling : IsSpelling start path)
    (dictionary isAlias : Bool) (rest : Text) (t : Trie) :
    ∃ isAlias', findPath? path (insertPath dictionary (start ++ rest) isAlias t) =
      some (insertPath dictionary rest isAlias' ((findPath? path t).getD empty)) := by
  -- By induction along the path: each of its code points is a variant, so the insertion passes
  -- through the child there.
  induction hspelling generalizing isAlias t with
  | nil => exact ⟨isAlias, rfl⟩
  | @cons p q start path hq _ ih =>
      rcases ih (isAlias || q != p) ((t.child? q).getD empty) with ⟨isAlias', hchild⟩
      refine ⟨isAlias', ?_⟩
      rw [getD_findPath?_cons, ← hchild]
      simp [findPath?, child?_insertPath, hq]

theorem child?_insertPath_nil (dictionary isAlias : Bool) (t : Trie) (q : Point) :
    (insertPath dictionary [] isAlias t).child? q = t.child? q := by
  cases t with
  | node flags children => rfl

/-- Nothing is touched below a path that no spelling of the word starts with. -/
theorem findPath?_insertPath (dictionary isAlias : Bool) {word path : Text} (t : Trie)
    (hpath : ¬StartsSpelling word path) :
    findPath? path (insertPath dictionary word isAlias t) = findPath? path t := by
  -- By induction along the word: the path leaves all its spellings here, or in a child.
  induction word generalizing isAlias t path with
  | nil =>
      cases path with
      | nil => exact absurd (startsSpelling_nil_right []) hpath
      | cons q path => rw [findPath?, findPath?, child?_insertPath_nil]
  | cons p word ih =>
      cases path with
      | nil => exact absurd (startsSpelling_nil_right _) hpath
      | cons q path =>
          rw [findPath?, findPath?, child?_insertPath]
          by_cases hq : q ∈ variants p
          · have hbelow : ¬StartsSpelling word path := by
              intro hstart
              exact hpath (startsSpelling_cons.2 ⟨hq, hstart⟩)
            have hchild := ih (isAlias || q != p) ((t.child? q).getD empty) hbelow
            rw [if_pos hq, Option.bind_some, hchild]
            cases hold : t.child? q with
            | some child => rfl
            | none =>
                -- A new child has no path but the empty one, and that starts every spelling.
                cases path with
                | nil => exact absurd (startsSpelling_nil_right word) hbelow
                | cons r path => simp [findPath?, child?_empty]
          · rw [if_neg hq]

/-- What a spelling starts with is a spelling of the whole word, or of its first code points. -/
theorem startsSpelling_cases {word path : Text} (hstart : StartsSpelling word path) :
    IsSpelling word path ∨ ∃ start p rest, word = start ++ p :: rest ∧ IsSpelling start path := by
  rcases hstart with ⟨spelling, hspelling, ⟨tail, rfl⟩⟩
  -- The path spells as many code points of the word as it has itself.
  have hpath : IsSpelling (word.take path.length) path :=
    List.forall₂_take_append word path tail hspelling
  have hword : word = word.take path.length ++ word.drop path.length :=
    (List.take_append_drop _ _).symm
  cases hrest : word.drop path.length with
  | nil =>
      rw [hrest, List.append_nil] at hword
      rw [← hword] at hpath
      exact Or.inl hpath
  | cons p rest =>
      rw [hrest] at hword
      exact Or.inr ⟨word.take path.length, p, rest, hword, hpath⟩

/-- Where the word goes on, the variants of its next code point come after the old children. -/
theorem labelsAt_insertPath {start path : Text} (hspelling : IsSpelling start path)
    (dictionary isAlias : Bool) (p : Point) (rest : Text) (t : Trie) :
    (insertPath dictionary (start ++ p :: rest) isAlias t).labelsAt path =
      t.labelsAt path ++ (variants p).filter (· ∉ t.labelsAt path) := by
  rcases findPath?_insertPath_of_isSpelling hspelling dictionary isAlias (p :: rest) t with
    ⟨isAlias', hfound⟩
  rw [labelsAt, hfound]
  exact labels_insertPath_cons dictionary isAlias' p rest _

/-- Where the word does not go on, the children stay as they are. -/
theorem labelsAt_insertPath_of_not (dictionary isAlias : Bool) {word path : Text} (t : Trie)
    (hpath : ¬∃ start p rest, word = start ++ p :: rest ∧ IsSpelling start path) :
    (insertPath dictionary word isAlias t).labelsAt path = t.labelsAt path := by
  by_cases hstart : StartsSpelling word path
  · -- The word ends here, and only flags are raised.
    have hspelling : IsSpelling word path := (startsSpelling_cases hstart).resolve_right hpath
    rcases findPath?_insertPath_of_isSpelling hspelling dictionary isAlias [] t with
      ⟨isAlias', hfound⟩
    rw [List.append_nil] at hfound
    rw [labelsAt, hfound]
    exact labels_insertPath_nil dictionary isAlias' _
  · rw [labelsAt, labelsAt, findPath?_insertPath dictionary isAlias t hstart]

/-! ## The effect of an insertion -/

/-- After the insertion of a word, the paths are the old ones and the starts of its spellings, the
full ones the old ones and its spellings, and of these only the word itself becomes an entry and a
part of the dictionary. Children are added at the end, in the order of the variants, and below any
other path the tree is what it was. -/
theorem insert_grows (t : Trie) {word : Text} (hword : word ≠ []) (dictionary : Bool)
    (path : Text) :
    ((t.insert word dictionary).hasPath path = true ↔
      t.hasPath path = true ∨ StartsSpelling word.lower path) ∧
    (((t.insert word dictionary).flagsAt path).full = true ↔
      (t.flagsAt path).full = true ∨ IsSpelling word.lower path) ∧
    (((t.insert word dictionary).flagsAt path).entry = true ↔
      (t.flagsAt path).entry = true ∨ path = word.lower) ∧
    (((t.insert word dictionary).flagsAt path).dictionary = true ↔
      (t.flagsAt path).dictionary = true ∨ dictionary = true ∧ path = word.lower) ∧
    (∀ start p rest, word.lower = start ++ p :: rest → IsSpelling start path →
      (t.insert word dictionary).labelsAt path =
        t.labelsAt path ++ (variants p).filter (· ∉ t.labelsAt path)) ∧
    ((¬∃ start p rest, word.lower = start ++ p :: rest ∧ IsSpelling start path) →
      (t.insert word dictionary).labelsAt path = t.labelsAt path) ∧
    (¬StartsSpelling word.lower path →
      findPath? path (t.insert word dictionary) = findPath? path t) := by
  have hinsert : t.insert word dictionary = insertPath dictionary word.lower false t := by
    rw [insert_eq, if_neg hword]
  have hfull := full_insert t word dictionary path
  have hentry := entry_insert t word dictionary path
  have hdictionary := dictionary_insert t word dictionary path
  refine ⟨?_, ?_, ?_, ?_, ?_, ?_, ?_⟩
  · simpa [hword] using hasPath_insert t word dictionary path
  · simpa [hword] using hfull
  · simpa [hword] using hentry
  · simpa [hword] using hdictionary
  · intro start p rest hlower hspelling
    rw [hinsert, hlower]
    exact labelsAt_insertPath hspelling dictionary false p rest t
  · intro hpath
    rw [hinsert]
    exact labelsAt_insertPath_of_not dictionary false t hpath
  · intro hpath
    rw [hinsert]
    exact findPath?_insertPath dictionary false t hpath

/-- A word in capitals, and a tree with flags that no insertion leaves behind. The `e` that is there
keeps its place before the other two variants. -/
theorem insert_grows_after_alias :
    (['Ế'] : Text) ≠ [] ∧
    ((node ⟨false, true, false⟩ [('e', node ⟨false, false, true⟩ [])]).insert ['Ế'] true).labelsAt
      [] = (['e', 'ế', 'ê'] : Text) ∧
    (((node ⟨false, true, false⟩ [('e', node ⟨false, false, true⟩ [])]).insert ['Ế'] true).flagsAt
      ['ế']).dictionary = true := by
  have hword : (['Ế'] : Text) ≠ [] := by simp
  have hlower : Text.lower ['Ế'] = [] ++ (.char 'ế') :: [] := by decide +kernel
  have hvariants : variants 'ế' = (['ế', 'ê', 'e'] : Text) := by decide +kernel
  rcases insert_grows (node ⟨false, true, false⟩ [('e', node ⟨false, false, true⟩ [])]) hword true
    [] with ⟨-, -, -, -, hchildren, -, -⟩
  rcases insert_grows (node ⟨false, true, false⟩ [('e', node ⟨false, false, true⟩ [])]) hword true
    ['ế'] with ⟨-, -, -, hdictionary, -, -, -⟩
  refine ⟨hword, ?_, hdictionary.2 (Or.inr ⟨rfl, hlower.symm⟩)⟩
  rw [hchildren [] 'ế' [] hlower (isSpelling_self []), hvariants]
  decide

end Trie
end QuocNgu
