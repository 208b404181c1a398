import Mathlib.Data.List.Nodup
import QuocNgu.Proofs.Trie.Insertion

/-!
# Proofs.Trie.Walking — trees whose children stand at different code points, and their walks

* `Trie.induction`       : from the children of a node to the node
* `Distinct`             : no node of the tree has two children at one code point
* `distinct_insert`      : insertions keep a tree distinct
* `mem_walk_iff`         : the walk of a distinct tree is its paths with their flags
* `nodup_paths`          : no path is walked twice

The type of trees allows a second child at a code point, which no look-up would ever see. The walk
would see it, so every statement about walks asks for a distinct tree.
-/

namespace QuocNgu

@[elab_as_elim]
theorem Trie.induction {motive : Trie → Prop}
    (node : ∀ (flags : Trie.Flags) (children : List (Point × Trie)),
      (∀ entry ∈ children, motive entry.2) → motive (.node flags children)) :
    ∀ t, motive t
  | .node flags children =>
      node flags children fun entry _ => Trie.induction node entry.2
decreasing_by
  have hentry : sizeOf entry < sizeOf children := List.sizeOf_lt_of_mem ‹_›
  have hchild : sizeOf entry.2 < sizeOf entry := by
    cases entry
    simp only [Prod.mk.sizeOf_spec]
    omega
  simp only [Trie.node.sizeOf_spec]
  omega

namespace Trie

/-! ## Distinct trees -/

/-- No node has two children at one code point. -/
inductive Distinct : Trie → Prop where
  | node {flags : Flags} {children : List (Point × Trie)}
      (points : (children.map Prod.fst).Nodup)
      (below : ∀ entry ∈ children, Distinct entry.2) : Distinct (node flags children)

theorem distinct_node_iff {flags : Flags} {children : List (Point × Trie)} :
    Distinct (node flags children) ↔
      (children.map Prod.fst).Nodup ∧ ∀ entry ∈ children, Distinct entry.2 := by
  constructor
  · intro h
    cases h with
    | node hpoints hbelow =>
        exact ⟨hpoints, hbelow⟩
  · intro h
    exact .node h.1 h.2

theorem distinct_empty : Distinct empty := .node (by simp) (by simp)

/-- In a distinct tree the look-up of a child sees every child. -/
theorem child?_eq_some_iff {flags : Flags} {children : List (Point × Trie)}
    (hpoints : (children.map Prod.fst).Nodup) {q : Point} {child : Trie} :
    (node flags children).child? q = some child ↔ (q, child) ∈ children := by
  simp only [child?, Trie.children]
  induction children with
  | nil =>
      simp
  | cons entry rest ih =>
      rcases entry with ⟨r, other⟩
      rcases List.nodup_cons.1 hpoints with ⟨hr, hrest⟩
      by_cases hq : r = q
      · -- The first child is at `q`, so no later one is.
        subst hq
        have hfresh : ∀ found, (r, found) ∉ rest := by
          intro found hfound
          exact hr (List.mem_map.2 ⟨(r, found), hfound, rfl⟩)
        simp [hfresh, eq_comm]
      · have hother : ¬(q = r ∧ child = other) := fun h => hq h.1.symm
        simpa [hq, hother] using ih hrest

theorem points_changeChild (p : Point) (change : Trie → Trie) (children : List (Point × Trie)) :
    (changeChild p change children).map Prod.fst =
      if p ∈ children.map Prod.fst then children.map Prod.fst
      else children.map Prod.fst ++ [p] := by
  induction children with
  | nil =>
      simp [changeChild]
  | cons entry rest ih =>
      rcases entry with ⟨q, child⟩
      by_cases hq : q = p
      · simp [changeChild, hq]
      · rw [changeChild, if_neg hq, List.map_cons, ih]
        by_cases hp : p ∈ rest.map Prod.fst <;> simp [hp, Ne.symm hq]

/-- A changed list of children holds old children, old children changed, and an empty one
changed. -/
theorem mem_changeChild {p : Point} {change : Trie → Trie} {children : List (Point × Trie)}
    {entry : Point × Trie} (hentry : entry ∈ changeChild p change children) :
    entry ∈ children ∨ (∃ old ∈ children, entry.2 = change old.2) ∨ entry.2 = change empty := by
  induction children with
  | nil =>
      obtain rfl : entry = (p, change empty) := by simpa [changeChild] using hentry
      exact Or.inr (Or.inr rfl)
  | cons first rest ih =>
      rcases first with ⟨q, child⟩
      by_cases hq : q = p
      · rw [changeChild, if_pos hq, List.mem_cons] at hentry
        rcases hentry with rfl | hrest
        · exact Or.inr (Or.inl ⟨(q, child), by simp, rfl⟩)
        · exact Or.inl (List.mem_cons_of_mem _ hrest)
      · rw [changeChild, if_neg hq, List.mem_cons] at hentry
        rcases hentry with rfl | hrest
        · exact Or.inl (by simp)
        · rcases ih hrest with hold | ⟨old, hold, hchange⟩ | hnew
          · exact Or.inl (List.mem_cons_of_mem _ hold)
          · exact Or.inr (Or.inl ⟨old, List.mem_cons_of_mem _ hold, hchange⟩)
          · exact Or.inr (Or.inr hnew)

theorem distinct_changeChild {flags : Flags} {children : List (Point × Trie)} (p : Point)
    {change : Trie → Trie} (hchange : ∀ t, Distinct t → Distinct (change t))
    (hnode : Distinct (node flags children)) :
    Distinct (node flags (changeChild p change children)) := by
  rcases distinct_node_iff.1 hnode with ⟨hpoints, hbelow⟩
  refine distinct_node_iff.2 ⟨?_, ?_⟩
  · rw [points_changeChild]
    split
    · exact hpoints
    · next hp =>
        have hfresh : ∀ q ∈ children.map Prod.fst, q ≠ p := by
          intro q hq hqp
          exact hp (hqp ▸ hq)
        exact List.nodup_append.2 ⟨hpoints, by simp, by simpa using hfresh⟩
  · intro entry hentry
    rcases mem_changeChild hentry with hold | ⟨old, hold, hnew⟩ | hnew
    · exact hbelow entry hold
    · rw [hnew]
      exact hchange _ (hbelow old hold)
    · rw [hnew]
      exact hchange _ distinct_empty

theorem distinct_insertPath (dictionary isAlias : Bool) (word : Text) {t : Trie}
    (ht : Distinct t) : Distinct (insertPath dictionary word isAlias t) := by
  induction word generalizing isAlias t with
  | nil =>
      cases t with
      | node flags children =>
          -- Only the flags of the node change.
          exact distinct_node_iff.2 (distinct_node_iff.1 ht)
  | cons p word ih =>
      cases t with
      | node flags children =>
          rw [insertPath]
          -- Whatever the variants are, each change keeps the node distinct.
          generalize variants p = points
          induction points generalizing children with
          | nil =>
              exact ht
          | cons v points ihPoints =>
              have hchanged := distinct_changeChild v (fun _ => ih (isAlias || v != p)) ht
              exact ihPoints _ hchanged

theorem distinct_insert {t : Trie} (word : Text) (dictionary : Bool) (ht : Distinct t) :
    Distinct (t.insert word dictionary) := by
  rw [insert_eq]
  split
  · exact ht
  · exact distinct_insertPath dictionary false word.lower ht

theorem distinct_ofInsertions (insertions : List Insertion) :
    Distinct (ofInsertions insertions) := by
  refine insertAll_induction ?_ insertions distinct_empty
  intro t word dictionary ht
  exact distinct_insert word dictionary ht

/-! ## Below a path -/

theorem findPath?_append (path rest : Text) (t : Trie) :
    findPath? (path ++ rest) t = (findPath? path t).bind (findPath? rest) := by
  induction path generalizing t with
  | nil =>
      rfl
  | cons q path ih =>
      cases hchild : t.child? q with
      | none =>
          simp [findPath?, hchild]
      | some child =>
          simpa [findPath?, hchild] using ih child

theorem flagsAt_append {t below : Trie} {path : Text} (hbelow : findPath? path t = some below)
    (rest : Text) : t.flagsAt (path ++ rest) = below.flagsAt rest := by
  simp [flagsAt, findPath?_append, hbelow]

theorem distinct_of_findPath? {t below : Trie} {path : Text} (ht : Distinct t)
    (hbelow : findPath? path t = some below) : Distinct below := by
  induction path generalizing t with
  | nil =>
      obtain rfl : t = below := by simpa [findPath?] using hbelow
      exact ht
  | cons q path ih =>
      rcases Option.bind_eq_some_iff.1 hbelow with ⟨child, hchild, hrest⟩
      cases ht with
      | node hpoints hchildren =>
          have hmem := (child?_eq_some_iff hpoints).1 hchild
          exact ih (hchildren (q, child) hmem) hrest

/-! ## Walks -/

theorem mem_walkChildren {children : List (Point × Trie)} {path : Text} {f : Flags} :
    (path, f) ∈ walkChildren children ↔
      ∃ q rest, path = q :: rest ∧ ∃ child, (q, child) ∈ children ∧ (rest, f) ∈ child.walk := by
  rw [walkChildren_eq_flatMap]
  constructor
  · intro hmem
    rcases List.mem_flatMap.1 hmem with ⟨⟨q, child⟩, hchild, hwalk⟩
    rcases List.mem_map.1 hwalk with ⟨⟨rest, f'⟩, hrest, heq⟩
    rcases Prod.mk.inj heq with ⟨rfl, rfl⟩
    exact ⟨q, rest, rfl, child, hchild, hrest⟩
  · intro h
    rcases h with ⟨q, rest, rfl, child, hchild, hrest⟩
    have hwalk : (q :: rest, f) ∈ child.walk.map fun row => (q :: row.1, row.2) :=
      List.mem_map.2 ⟨(rest, f), hrest, rfl⟩
    exact List.mem_flatMap.2 ⟨(q, child), hchild, hwalk⟩

theorem mem_walk_iff {t : Trie} (ht : Distinct t) {path : Text} {f : Flags} :
    (path, f) ∈ t.walk ↔ (findPath? path t).map flags = some f := by
  -- By induction on the tree: the walk goes through all children, the look-up into one, and in a
  -- distinct tree only this one can give the path.
  induction t using Trie.induction generalizing path with
  | node flags children ih =>
      rcases distinct_node_iff.1 ht with ⟨hpoints, hbelow⟩
      rw [walk, List.mem_cons, mem_walkChildren]
      cases path with
      | nil =>
          simp [findPath?, Trie.flags, eq_comm]
      | cons q rest =>
          have hchild : ∀ child, (q, child) ∈ children →
              ((rest, f) ∈ child.walk ↔ (findPath? rest child).map Trie.flags = some f) := by
            intro child hmem
            exact ih (q, child) hmem (hbelow (q, child) hmem)
          cases hfind : (node flags children).child? q with
          | none =>
              have hnone : ∀ child, (q, child) ∉ children := by
                intro child hmem
                rw [(child?_eq_some_iff hpoints).2 hmem] at hfind
                cases hfind
              simp [findPath?, hfind, hnone]
          | some child =>
              have hmem := (child?_eq_some_iff hpoints).1 hfind
              have hunique : ∀ other, (q, other) ∈ children ↔ other = child := by
                intro other
                have hlook : (node flags children).child? q = some other ↔ (q, other) ∈ children :=
                  child?_eq_some_iff hpoints
                rw [← hlook, hfind, Option.some.injEq, eq_comm]
              simp [findPath?, hfind, hunique, hchild child hmem]

theorem nodup_paths {t : Trie} (ht : Distinct t) : (t.walk.map Prod.fst).Nodup := by
  induction t using Trie.induction with
  | node flags children ih =>
      rcases distinct_node_iff.1 ht with ⟨hpoints, hbelow⟩
      have hnil : [] ∉ (walkChildren children).map Prod.fst := by
        -- Below a child every path starts with the code point of the child.
        intro hmem
        rcases List.mem_map.1 hmem with ⟨⟨path, f⟩, hwalk, rfl⟩
        rcases mem_walkChildren.1 hwalk with ⟨q, rest, heq, -⟩
        cases heq
      have hchildren : ((walkChildren children).map Prod.fst).Nodup := by
        rw [walkChildren_eq_flatMap, List.map_flatMap, List.nodup_flatMap]
        constructor
        · intro entry hentry
          have hpaths := ih entry hentry (hbelow entry hentry)
          simpa [Function.comp_def] using hpaths.map (List.cons_injective (a := entry.1))
        · -- The paths below different children differ in their first code point.
          have hheads : ∀ (entry : Point × Trie) (path : Text),
              path ∈ (entry.2.walk.map fun row => (entry.1 :: row.1, row.2)).map Prod.fst →
                path.head? = some entry.1 := by
            intro entry path hpath
            simp only [List.map_map, List.mem_map, Function.comp_apply] at hpath
            rcases hpath with ⟨row, -, rfl⟩
            rfl
          refine (List.pairwise_map.1 hpoints).imp ?_
          intro first second hne
          show List.Disjoint _ _
          intro path hfirst hsecond
          have hsame : some first.1 = some second.1 := by
            calc
              some first.1 = path.head? := (hheads first path hfirst).symm
              _ = some second.1 := hheads second path hsecond
          exact hne (Option.some.inj hsame)
      rw [walk, List.map_cons]
      exact List.nodup_cons.2 ⟨hnil, hchildren⟩

end Trie
end QuocNgu
