import Mathlib.Data.List.Perm.Basic
import QuocNgu.Proofs.Trie.Walking

/-!
# Proofs.Trie.Completion — completions are exactly the stored spellings below a start

* `gather_perm`      : the loop over pending nodes visits what the walks below them visit
* `mem_completions`  : a completion is a path below the lowered start whose flags are asked for
* `completions_ofInsertions` : the completions of any start after any run of insertions

The loop takes a node from the top of a stack and puts its children there, so its order is not the
order of a walk. What it gathers is the same up to order, and nothing is gathered twice.
-/

namespace QuocNgu
namespace Trie

/-! ## The loop over pending nodes -/

/-- The paths asked for at and below a node, in the order of its walk. -/
def wantedBelow (aliases : Bool) (path : Text) (t : Trie) : List Text :=
  (t.walk.filter (·.2.wanted aliases)).map fun (rest, _) => path ++ rest

theorem wantedBelow_node (aliases : Bool) (path : Text) (flags : Flags)
    (children : List (Point × Trie)) :
    wantedBelow aliases path (node flags children) =
      (if flags.wanted aliases then [path] else []) ++
        children.flatMap fun (p, child) => wantedBelow aliases (path ++ [p]) child := by
  have hchildren : ((walkChildren children).filter (·.2.wanted aliases)).map
      (fun found => path ++ found.1) =
        children.flatMap fun (p, child) => wantedBelow aliases (path ++ [p]) child := by
    rw [walkChildren_eq_flatMap, List.filter_flatMap, List.map_flatMap]
    refine congrArg (List.flatMap · children) (funext fun (p, child) => ?_)
    simp [wantedBelow, List.filter_map, Function.comp_def]
  by_cases hwanted : flags.wanted aliases = true
  · simpa [wantedBelow, walk, hwanted] using hchildren
  · simpa [wantedBelow, walk, hwanted] using hchildren

/-- The paths asked for at and below every pending node. -/
def Pending.wanted (aliases : Bool) (pending : Pending) : List Text :=
  pending.flatMap fun (path, t) => wantedBelow aliases path t

theorem Pending.wanted_cons (aliases : Bool) (path : Text) (t : Trie) (pending : Pending) :
    Pending.wanted aliases ((path, t) :: pending) =
      wantedBelow aliases path t ++ Pending.wanted aliases pending := rfl

/-- A node on the stack stands for its own path and for its children put there in its place. -/
theorem Pending.wanted_push (aliases : Bool) (path : Text) (t : Trie) (pending : Pending) :
    (Pending.wanted aliases ((path, t) :: pending)).Perm
      ((if t.flags.wanted aliases then [path] else []) ++
        Pending.wanted aliases (Pending.push path t pending)) := by
  cases t with
  | node flags children =>
      have hpush : Pending.wanted aliases (Pending.push path (node flags children) pending) =
          (children.map fun (p, child) => (path ++ [p], child)).reverse.flatMap
              (fun (path, t) => wantedBelow aliases path t) ++
            Pending.wanted aliases pending := by
        simp [Pending.wanted, Pending.push, Trie.children]
      -- The last child comes to lie on top, so the children are taken in reverse.
      have hchildren :
          ((children.map fun (p, child) => (path ++ [p], child)).reverse.flatMap
            fun (path, t) => wantedBelow aliases path t).Perm
              (children.flatMap fun (p, child) => wantedBelow aliases (path ++ [p]) child) := by
        have hreverse := (List.reverse_perm (children.map fun (p, child) =>
          (path ++ [p], child))).flatMap_right fun (path, t) => wantedBelow aliases path t
        simpa [List.flatMap_map] using hreverse
      rw [hpush, Pending.wanted_cons, wantedBelow_node, List.append_assoc]
      exact (hchildren.symm.append_right _).append_left _

/-- The loop ends with what it had found and every path asked for at and below a pending node. -/
theorem gather_perm (aliases : Bool) (pending : Pending) (found : List Text) :
    (gather aliases pending found).Perm (Pending.wanted aliases pending ++ found) := by
  -- By induction along the loop: each round moves one path from the stack to what was found.
  induction pending, found using gather.induct aliases with
  | case1 found =>
      simp [gather, Pending.wanted]
  | case2 found path t rest ih =>
      have hpush := (Pending.wanted_push aliases path t rest).append_right found
      rw [gather]
      refine ih.trans ?_
      refine List.Perm.trans ?_ hpush.symm
      by_cases hwanted : t.flags.wanted aliases = true
      · -- The path goes to what was found, past all that is still pending.
        simp [hwanted]
      · simp [hwanted]

/-! ## Completions -/

theorem mem_wantedBelow {aliases : Bool} {path s : Text} {t : Trie} (ht : Distinct t) :
    s ∈ wantedBelow aliases path t ↔
      ∃ rest, s = path ++ rest ∧ (t.flagsAt rest).wanted aliases = true := by
  have hwalk : ∀ rest, (∃ f, (rest, f) ∈ t.walk ∧ f.wanted aliases = true) ↔
      (t.flagsAt rest).wanted aliases = true := by
    intro rest
    simp only [mem_walk_iff ht, flagsAt]
    cases (findPath? rest t).map Trie.flags with
    | none =>
        simp [Flags.wanted, Flags.clear]
    | some f =>
        simp
  constructor
  · intro hs
    rcases List.mem_map.1 hs with ⟨⟨rest, f⟩, hrow, rfl⟩
    exact ⟨rest, rfl, (hwalk rest).1 ⟨f, List.mem_filter.1 hrow⟩⟩
  · intro hs
    rcases hs with ⟨rest, rfl, hwanted⟩
    rcases (hwalk rest).2 hwanted with ⟨f, hrow⟩
    exact List.mem_map.2 ⟨(rest, f), List.mem_filter.2 hrow, rfl⟩

theorem nodup_wantedBelow (aliases : Bool) (path : Text) {t : Trie} (ht : Distinct t) :
    (wantedBelow aliases path t).Nodup := by
  have hrows : ((t.walk.filter (·.2.wanted aliases)).map Prod.fst).Nodup :=
    (nodup_paths ht).sublist (List.filter_sublist.map _)
  have hpaths := hrows.map (List.append_right_injective path)
  simpa [wantedBelow, Function.comp_def] using hpaths

/-- Lowering the start a second time before it is looked up changes nothing. -/
theorem completions_eq (t : Trie) (start : Text) (aliases : Bool) :
    t.completions start aliases =
      match findPath? start.lower t with
      | some below => gather aliases [(start.lower, below)] []
      | none => [] := by
  have hfind : t.find? start.lower = findPath? start.lower t := by
    rw [find?, Text.lower_lower]
  cases hbelow : findPath? start.lower t with
  | none =>
      simp [completions, hfind, hbelow]
  | some below =>
      simp [completions, hfind, hbelow]

theorem completions_perm {t below : Trie} {start : Text} (aliases : Bool)
    (hbelow : findPath? start.lower t = some below) :
    (t.completions start aliases).Perm (wantedBelow aliases start.lower below) := by
  have hgather := gather_perm aliases [(start.lower, below)] []
  simpa [completions_eq, hbelow, Pending.wanted] using hgather

theorem mem_completions {t : Trie} (ht : Distinct t) {start s : Text} {aliases : Bool} :
    s ∈ t.completions start aliases ↔
      start.lower <+: s ∧ (t.flagsAt s).wanted aliases = true := by
  cases hfind : findPath? start.lower t with
  | none =>
      -- Nothing is stored below a start that leads nowhere.
      have hclear : ∀ rest, t.flagsAt (start.lower ++ rest) = .clear := by
        intro rest
        simp [flagsAt, findPath?_append, hfind]
      have hnothing : ¬(start.lower <+: s ∧ (t.flagsAt s).wanted aliases = true) := by
        intro hs
        rcases hs with ⟨⟨rest, rfl⟩, hwanted⟩
        simp [hclear rest, Flags.wanted, Flags.clear] at hwanted
      simp [completions_eq, hfind, hnothing]
  | some below =>
      have hbelow := distinct_of_findPath? ht hfind
      rw [(completions_perm aliases hfind).mem_iff, mem_wantedBelow hbelow]
      constructor
      · intro hs
        rcases hs with ⟨rest, rfl, hwanted⟩
        refine ⟨List.prefix_append _ _, ?_⟩
        rw [flagsAt_append hfind]
        exact hwanted
      · intro hs
        rcases hs with ⟨⟨rest, rfl⟩, hwanted⟩
        rw [flagsAt_append hfind] at hwanted
        exact ⟨rest, rfl, hwanted⟩

theorem nodup_completions {t : Trie} (ht : Distinct t) (start : Text) (aliases : Bool) :
    (t.completions start aliases).Nodup := by
  cases hfind : findPath? start.lower t with
  | none =>
      simp [completions_eq, hfind]
  | some below =>
      have hbelow := distinct_of_findPath? ht hfind
      have hnodup := nodup_wantedBelow aliases start.lower hbelow
      exact (completions_perm aliases hfind).nodup_iff.2 hnodup

/-! ## Completions after a run of insertions -/

section OfInsertions

variable (insertions : List Insertion) (start s : Text)

theorem mem_completions_entries :
    s ∈ (ofInsertions insertions).completions start false ↔
      ∃ e ∈ insertions, e.word ≠ [] ∧ s = e.word.lower ∧ start.lower <+: e.word.lower := by
  have hwanted : ((ofInsertions insertions).flagsAt s).wanted false = true ↔
      ∃ e ∈ insertions, e.word ≠ [] ∧ s = e.word.lower := by
    rw [← entry_ofInsertions]
    simp [Flags.wanted]
  rw [mem_completions (distinct_ofInsertions insertions), hwanted]
  constructor
  · intro hs
    rcases hs with ⟨hstart, e, he, hword, rfl⟩
    exact ⟨e, he, hword, rfl, hstart⟩
  · intro hs
    rcases hs with ⟨e, he, hword, rfl, hstart⟩
    exact ⟨hstart, e, he, hword, rfl⟩

/-- With aliases, an entry is asked for twice over: it is one of its own spellings. -/
theorem mem_completions_aliases :
    s ∈ (ofInsertions insertions).completions start true ↔
      start.lower <+: s ∧ ∃ e ∈ insertions, e.word ≠ [] ∧ IsSpelling e.word.lower s := by
  have hwanted : ((ofInsertions insertions).flagsAt s).wanted true = true ↔
      ∃ e ∈ insertions, e.word ≠ [] ∧ IsSpelling e.word.lower s := by
    simp only [Flags.wanted, Bool.true_and, Bool.or_eq_true, entry_ofInsertions,
      full_ofInsertions]
    apply or_iff_right_of_imp
    intro hentry
    rcases hentry with ⟨e, he, hword, rfl⟩
    exact ⟨e, he, hword, isSpelling_self _⟩
  rw [mem_completions (distinct_ofInsertions insertions), hwanted]

end OfInsertions

/-- The completions of any start after any run of insertions. -/
theorem completions_ofInsertions (insertions : List Insertion) (start : Text) :
    ((ofInsertions insertions).completions start false).Nodup ∧
    (∀ s, s ∈ (ofInsertions insertions).completions start false ↔
      ∃ e ∈ insertions, e.word ≠ [] ∧ s = e.word.lower ∧ start.lower <+: e.word.lower) ∧
    ((ofInsertions insertions).completions start true).Nodup ∧
    (∀ s, s ∈ (ofInsertions insertions).completions start true ↔
      start.lower <+: s ∧ ∃ e ∈ insertions, e.word ≠ [] ∧ IsSpelling e.word.lower s) := by
  have hdistinct := distinct_ofInsertions insertions
  exact ⟨nodup_completions hdistinct start false, mem_completions_entries insertions start,
    nodup_completions hdistinct start true, mem_completions_aliases insertions start⟩

/-- The empty word is a spelling of itself and yet no completion, since it is never stored. -/
theorem completions_empty_word :
    ¬∀ s, s ∈ (ofInsertions [⟨[], true⟩]).completions [] true ↔
      Text.lower [] <+: s ∧ ∃ e ∈ [(⟨[], true⟩ : Insertion)], IsSpelling e.word.lower s := by
  intro hclaim
  have hspelling : IsSpelling (Text.lower []) [] := isSpelling_self []
  have hmem := (hclaim []).2 ⟨List.nil_prefix, ⟨[], true⟩, by simp, hspelling⟩
  simp [mem_completions_aliases] at hmem

end Trie
end QuocNgu
