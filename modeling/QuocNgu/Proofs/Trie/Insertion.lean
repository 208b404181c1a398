import QuocNgu.Proofs.Text.Lowering
import QuocNgu.Proofs.Trie.Spelling

/-!
# Proofs.Trie.Insertion — what inserting words does at every path of a tree

* `hasPath`, `flagsAt`  : a tree seen as a set of paths with flags
* `child?_insertPath`   : one step of an insertion, seen from a child
* `hasPath_insert`, `flagsAt_insert` : the exact effect of one insertion on any tree
* `insertAll_iff`       : what one insertion adds, a run of insertions adds word by word

The statements about one insertion hold of every tree, whatever was inserted before. A node without
a path counts as a node with no flag raised, so both cases share one equation.
-/

namespace QuocNgu
namespace Trie

/-! ## A tree seen by its paths -/

def hasPath (t : Trie) (path : Text) : Bool := (findPath? path t).isSome

/-- The flags at the end of a path; no flag is raised where there is no node. -/
def flagsAt (t : Trie) (path : Text) : Flags := ((findPath? path t).map flags).getD .clear

@[simp]
theorem hasPath_nil (t : Trie) : t.hasPath [] = true := rfl

theorem hasPath_cons (t : Trie) (q : Point) (path : Text) :
    t.hasPath (q :: path) = (t.child? q).any (·.hasPath path) := by
  cases hchild : t.child? q <;> simp [hasPath, findPath?, hchild]

@[simp]
theorem flagsAt_nil (t : Trie) : t.flagsAt [] = t.flags := rfl

theorem child?_empty (q : Point) : empty.child? q = none := rfl

theorem hasPath_empty (path : Text) : empty.hasPath path = true ↔ path = [] := by
  cases path with
  | nil =>
      simp
  | cons q path =>
      simp [hasPath_cons, child?_empty]

theorem getD_findPath?_empty (path : Text) : (findPath? path empty).getD empty = empty := by
  cases path with
  | nil =>
      rfl
  | cons q path =>
      simp [findPath?, child?_empty]

/-- A missing child counts as an empty one, whatever is looked up below it. -/
theorem getD_findPath?_cons (t : Trie) (q : Point) (path : Text) :
    (findPath? (q :: path) t).getD empty =
      (findPath? path ((t.child? q).getD empty)).getD empty := by
  cases hchild : t.child? q with
  | none =>
      simp [findPath?, hchild, getD_findPath?_empty]
  | some child =>
      simp [findPath?, hchild]

theorem flagsAt_eq (t : Trie) (path : Text) :
    t.flagsAt path = ((findPath? path t).getD empty).flags := by
  cases hfound : findPath? path t with
  | none =>
      simp [flagsAt, hfound, empty, flags]
  | some found =>
      simp [flagsAt, hfound]

theorem flagsAt_empty (path : Text) : empty.flagsAt path = .clear := by
  rw [flagsAt_eq, getD_findPath?_empty]
  rfl

theorem flagsAt_cons (t : Trie) (q : Point) (path : Text) :
    t.flagsAt (q :: path) = ((t.child? q).getD empty).flagsAt path := by
  rw [flagsAt_eq, flagsAt_eq, getD_findPath?_cons]

theorem hasPath_getD_child? (t : Trie) (q : Point) (path : Text) :
    ((t.child? q).getD empty).hasPath path = true ↔ path = [] ∨ t.hasPath (q :: path) = true := by
  rw [hasPath_cons]
  cases hchild : t.child? q with
  | none =>
      simp [hasPath_empty]
  | some child =>
      cases path <;> simp

/-! ## One step of an insertion -/

theorem child?_changeChild (flags : Flags) (children : List (Point × Trie)) (p q : Point)
    (change : Trie → Trie) :
    (node flags (changeChild p change children)).child? q =
      if q = p then some (change (((node flags children).child? q).getD empty))
      else (node flags children).child? q := by
  simp only [child?, Trie.children]
  induction children with
  | nil =>
      by_cases hq : q = p
      · simp [changeChild, hq]
      · simp [changeChild, hq, Ne.symm hq]
  | cons entry rest ih =>
      rcases entry with ⟨r, child⟩
      by_cases hr : r = p
      · by_cases hq : q = p
        · simp [changeChild, hr, hq]
        · simp [changeChild, hr, hq, Ne.symm hq]
      · by_cases hrq : r = q
        · have hqp : ¬q = p := fun hqp => hr (hrq.trans hqp)
          simp [changeChild, hrq, hqp]
        · simpa [changeChild, hr, hrq] using ih

/-- Changes at different code points do not meet, so each child is changed once or not at all. -/
theorem child?_foldl_changeChild (flags : Flags) (change : Point → Trie → Trie)
    {points : List Point} (hpoints : points.Nodup) (children : List (Point × Trie)) (q : Point) :
    (node flags (points.foldl (fun cs v => changeChild v (change v) cs) children)).child? q =
      if q ∈ points then some (change q (((node flags children).child? q).getD empty))
      else (node flags children).child? q := by
  induction points generalizing children with
  | nil =>
      simp
  | cons p points ih =>
      rcases List.nodup_cons.1 hpoints with ⟨hp, hrest⟩
      have hafter := ih hrest (changeChild p (change p) children)
      rw [List.foldl_cons, hafter, child?_changeChild]
      by_cases hqp : q = p
      · -- The child was changed just now and is not among the points to come.
        subst hqp
        simp [hp]
      · simp [hqp]

theorem child?_insertPath (dictionary isAlias : Bool) (p : Point) (word : Text) (t : Trie)
    (q : Point) :
    (insertPath dictionary (p :: word) isAlias t).child? q =
      if q ∈ variants p then
        some (insertPath dictionary word (isAlias || q != p) ((t.child? q).getD empty))
      else t.child? q := by
  cases t with
  | node flags children =>
      rw [insertPath]
      exact child?_foldl_changeChild flags
        (fun v => insertPath dictionary word (isAlias || v != p)) (variants_nodup p) children q

theorem flags_insertPath_cons (dictionary isAlias : Bool) (p : Point) (word : Text) (t : Trie) :
    (insertPath dictionary (p :: word) isAlias t).flags = t.flags := by
  cases t with
  | node flags children =>
      rw [insertPath]
      rfl

/-! ## One insertion -/

/-- An insertion makes the starts of all spellings of the word reachable, and nothing else. -/
theorem hasPath_insertPath (dictionary isAlias : Bool) (word : Text) (t : Trie) (path : Text) :
    (insertPath dictionary word isAlias t).hasPath path = true ↔
      t.hasPath path = true ∨ StartsSpelling word path := by
  -- By induction along the word, for every tree: the step goes on in a child, which may be an old
  -- one that earlier words have passed through.
  induction word generalizing isAlias t path with
  | nil =>
      cases t with
      | node flags children =>
          cases path with
          | nil =>
              simp
          | cons q path =>
              simp [insertPath, hasPath_cons, child?, Trie.children]
  | cons p word ih =>
      cases path with
      | nil =>
          simp
      | cons q path =>
          rw [startsSpelling_cons]
          by_cases hq : q ∈ variants p
          · have hchild : (insertPath dictionary (p :: word) isAlias t).hasPath (q :: path) = true ↔
                ((t.child? q).getD empty).hasPath path = true ∨ StartsSpelling word path := by
              simpa [hasPath_cons, child?_insertPath, hq] using
                ih (isAlias || q != p) ((t.child? q).getD empty) path
            rw [hchild, hasPath_getD_child?]
            constructor
            · intro hpath
              rcases hpath with (rfl | hold) | hnew
              · -- The child itself is new, and the word starts with it.
                exact Or.inr ⟨hq, startsSpelling_nil_right word⟩
              · exact Or.inl hold
              · exact Or.inr ⟨hq, hnew⟩
            · intro hpath
              rcases hpath with hold | ⟨-, hnew⟩
              · exact Or.inl (Or.inr hold)
              · exact Or.inr hnew
          · have hchild : (insertPath dictionary (p :: word) isAlias t).hasPath (q :: path) =
                t.hasPath (q :: path) := by
              simp [hasPath_cons, child?_insertPath, hq]
            simp [hchild, hq]

/-- An insertion raises flags at the spellings of the word, and nowhere else. Only the path that
takes every code point as it is counts as the word itself. -/
theorem flagsAt_insertPath (dictionary isAlias : Bool) (word : Text) (t : Trie) (path : Text) :
    (insertPath dictionary word isAlias t).flagsAt path =
      if IsSpelling word path then (t.flagsAt path).raise dictionary (isAlias || path != word)
      else t.flagsAt path := by
  induction word generalizing isAlias t path with
  | nil =>
      cases t with
      | node flags children =>
          cases path with
          | nil =>
              simp [insertPath, Trie.flags]
          | cons q path =>
              simp [insertPath, flagsAt_cons, child?, Trie.children]
  | cons p word ih =>
      cases path with
      | nil =>
          simp [flags_insertPath_cons]
      | cons q path =>
          -- The path is an alias if its first code point was changed, or one of the others is.
          have halias : (isAlias || q != p || path != word) =
              (isAlias || q :: path != p :: word) := by
            by_cases hqp : q = p <;> simp [hqp, Bool.or_assoc, bne]
          by_cases hq : q ∈ variants p
          · have hchild := ih (isAlias || q != p) ((t.child? q).getD empty) path
            rw [halias, ← flagsAt_cons] at hchild
            simpa [flagsAt_cons (insertPath _ _ _ _), child?_insertPath, hq] using hchild
          · have hchild : (insertPath dictionary (p :: word) isAlias t).flagsAt (q :: path) =
                t.flagsAt (q :: path) := by
              simp [flagsAt_cons, child?_insertPath, hq]
            simp [hchild, hq]

theorem insert_eq (t : Trie) (word : Text) (dictionary : Bool) :
    t.insert word dictionary =
      if word = [] then t else insertPath dictionary word.lower false t := by
  unfold insert
  cases hlower : word.lower with
  | nil =>
      rw [if_pos (Text.lower_eq_nil_iff.1 hlower)]
  | cons p rest =>
      have hword : word ≠ [] := by
        intro hnil
        rw [Text.lower_eq_nil_iff.2 hnil] at hlower
        cases hlower
      rw [if_neg hword]

theorem hasPath_insert (t : Trie) (word : Text) (dictionary : Bool) (path : Text) :
    (t.insert word dictionary).hasPath path = true ↔
      t.hasPath path = true ∨ word ≠ [] ∧ StartsSpelling word.lower path := by
  rw [insert_eq]
  by_cases hword : word = []
  · simp [hword]
  · simp [hword, hasPath_insertPath]

theorem flagsAt_insert (t : Trie) (word : Text) (dictionary : Bool) (path : Text) :
    (t.insert word dictionary).flagsAt path =
      if word ≠ [] ∧ IsSpelling word.lower path then
        (t.flagsAt path).raise dictionary (path != word.lower)
      else t.flagsAt path := by
  rw [insert_eq]
  by_cases hword : word = []
  · simp [hword]
  · simp [hword, flagsAt_insertPath]

theorem full_insert (t : Trie) (word : Text) (dictionary : Bool) (path : Text) :
    ((t.insert word dictionary).flagsAt path).full = true ↔
      (t.flagsAt path).full = true ∨ word ≠ [] ∧ IsSpelling word.lower path := by
  rw [flagsAt_insert]
  by_cases hspelling : word ≠ [] ∧ IsSpelling word.lower path
  · simp [hspelling, Flags.raise]
  · rw [if_neg hspelling]
    simp only [hspelling, or_false]

theorem not_word_of_not_spelling {word path : Text}
    (hspelling : ¬(word ≠ [] ∧ IsSpelling word.lower path)) :
    ¬(word ≠ [] ∧ path = word.lower) := by
  intro hself
  rcases hself with ⟨hword, rfl⟩
  exact hspelling ⟨hword, isSpelling_self _⟩

/-- Of all spellings of a word, the word itself is the one that becomes an entry. -/
theorem entry_insert (t : Trie) (word : Text) (dictionary : Bool) (path : Text) :
    ((t.insert word dictionary).flagsAt path).entry = true ↔
      (t.flagsAt path).entry = true ∨ word ≠ [] ∧ path = word.lower := by
  rw [flagsAt_insert]
  by_cases hspelling : word ≠ [] ∧ IsSpelling word.lower path
  · simp [hspelling, Flags.raise]
  · rw [if_neg hspelling]
    simp only [not_word_of_not_spelling hspelling, or_false]

theorem dictionary_insert (t : Trie) (word : Text) (dictionary : Bool) (path : Text) :
    ((t.insert word dictionary).flagsAt path).dictionary = true ↔
      (t.flagsAt path).dictionary = true ∨
        dictionary = true ∧ word ≠ [] ∧ path = word.lower := by
  rw [flagsAt_insert]
  by_cases hspelling : word ≠ [] ∧ IsSpelling word.lower path
  · simp [hspelling, Flags.raise]
  · rw [if_neg hspelling]
    simp only [not_word_of_not_spelling hspelling, and_false, or_false]

/-! ## Runs of insertions -/

/-- A word to insert, and whether it belongs to the dictionary. -/
structure Insertion where
  word : Text
  dictionary : Bool
  deriving DecidableEq, Repr

def insertAll (insertions : List Insertion) (t : Trie) : Trie :=
  insertions.foldl (fun t e => t.insert e.word e.dictionary) t

/-- The tree after a run of insertions into an empty one. -/
def ofInsertions (insertions : List Insertion) : Trie := insertAll insertions empty

/-- What every insertion keeps, a run keeps. -/
theorem insertAll_induction {P : Trie → Prop}
    (hstep : ∀ (t : Trie) (word : Text) (dictionary : Bool), P t → P (t.insert word dictionary))
    (insertions : List Insertion) {t : Trie} (ht : P t) : P (insertAll insertions t) := by
  induction insertions generalizing t with
  | nil =>
      exact ht
  | cons e rest ih =>
      exact ih (hstep t e.word e.dictionary ht)

/-- What holds after one insertion if it held before or the word brings it about, holds after a run
if it held before or some word of the run brings it about. -/
theorem insertAll_iff {P : Trie → Prop} {Q : Insertion → Prop}
    (hstep : ∀ (t : Trie) (e : Insertion), P (t.insert e.word e.dictionary) ↔ P t ∨ Q e)
    (insertions : List Insertion) (t : Trie) :
    P (insertAll insertions t) ↔ P t ∨ ∃ e ∈ insertions, Q e := by
  induction insertions generalizing t with
  | nil =>
      simp [insertAll]
  | cons e rest ih =>
      have hrest : P (insertAll (e :: rest) t) ↔
          P (t.insert e.word e.dictionary) ∨ ∃ e ∈ rest, Q e :=
        ih (t.insert e.word e.dictionary)
      rw [hrest, hstep, or_assoc, List.exists_mem_cons_iff]

section OfInsertions

variable (insertions : List Insertion) (path : Text)

theorem hasPath_ofInsertions :
    (ofInsertions insertions).hasPath path = true ↔
      path = [] ∨ ∃ e ∈ insertions, e.word ≠ [] ∧ StartsSpelling e.word.lower path := by
  have hrun := insertAll_iff (P := fun t => t.hasPath path = true)
    (fun t e => hasPath_insert t e.word e.dictionary path) insertions empty
  simpa [ofInsertions, hasPath_empty] using hrun

theorem full_ofInsertions :
    ((ofInsertions insertions).flagsAt path).full = true ↔
      ∃ e ∈ insertions, e.word ≠ [] ∧ IsSpelling e.word.lower path := by
  have hrun := insertAll_iff (P := fun t => (t.flagsAt path).full = true)
    (fun t e => full_insert t e.word e.dictionary path) insertions empty
  simpa [ofInsertions, flagsAt_empty, Flags.clear] using hrun

theorem entry_ofInsertions :
    ((ofInsertions insertions).flagsAt path).entry = true ↔
      ∃ e ∈ insertions, e.word ≠ [] ∧ path = e.word.lower := by
  have hrun := insertAll_iff (P := fun t => (t.flagsAt path).entry = true)
    (fun t e => entry_insert t e.word e.dictionary path) insertions empty
  simpa [ofInsertions, flagsAt_empty, Flags.clear] using hrun

theorem dictionary_ofInsertions :
    ((ofInsertions insertions).flagsAt path).dictionary = true ↔
      ∃ e ∈ insertions, e.dictionary = true ∧ e.word ≠ [] ∧ path = e.word.lower := by
  have hrun := insertAll_iff (P := fun t => (t.flagsAt path).dictionary = true)
    (fun t e => dictionary_insert t e.word e.dictionary path) insertions empty
  simpa [ofInsertions, flagsAt_empty, Flags.clear] using hrun

end OfInsertions

end Trie
end QuocNgu
