import QuocNgu.Proofs.List.Basic
import QuocNgu.Proofs.Spec.Marking
import QuocNgu.Proofs.Text.Splitting

/-!
# Proofs.Spec.Runs — what a mark spec is taken apart into

* `Undoubled`     : no separator of the text stands right after another
* `undoubled_iff` : seen from the runs, none of them is empty but the first and the last
* `HasFinal`      : a spec with its first doubled separator and the run after it
* `runsOf_undoubled`, `HasFinal.runsOf_eq` : the runs of specs without and with a doubled separator
* `markRules_eq`  : the rules of a spec are those of its pairs, and after them that of its final run

Every other statement about mark specs follows from the two equations for `runsOf`; none of them has
to look at the walk that finds the doubled separator.
-/

namespace QuocNgu
namespace Spec

/-! ## Doubled separators -/

/-- No separator stands right after another. -/
def Undoubled (t : Text) : Prop := ¬[separator, separator] <:+: t

theorem undoubled_nil : Undoubled [] := by
  simp [Undoubled]

theorem undoubled_cons {p : Point} {t : Text} :
    Undoubled (p :: t) ↔ ¬(p = separator ∧ t.head? = some separator) ∧ Undoubled t := by
  rw [Undoubled, pair_infix_cons, not_or, Undoubled]

theorem Undoubled.of_append_left {t u : Text} (htu : Undoubled (t ++ u)) : Undoubled t := by
  intro ht
  exact htu (ht.trans (List.infix_append' [] t u))

/-- Only the first and the last run can be empty where no separator is doubled. -/
theorem undoubled_iff {t : Text} :
    Undoubled t ↔ [] ∉ (Text.splitAll separator t).tail.dropLast := by
  induction t with
  | nil =>
      simp [undoubled_nil, Text.splitAll]
  | cons p t ih =>
      rcases List.exists_cons_of_ne_nil (Text.splitAll_ne_nil separator t) with ⟨run, runs, hruns⟩
      rw [undoubled_cons, ih, Text.head?_eq_separator_iff hruns]
      by_cases hp : p = separator
      · -- The run after this separator comes to lie inside, unless it is the last one.
        cases runs <;> simp [Text.splitAll, hp, hruns, eq_comm]
      · simp [Text.splitAll, hp, hruns]

/-! ## The first doubled separator -/

theorem cutDoubled_undoubled {spec : Text} (hspec : Undoubled spec) :
    cutDoubled spec = (spec, none) := by
  -- Along the walk itself; it can stop at a doubled separator only.
  fun_induction cutDoubled spec with
  | case1 => rfl
  | case2 p => rfl
  | case3 p q rest hdoubled =>
      exact absurd (by simp [hdoubled]) (undoubled_cons.1 hspec).1
  | case4 p q rest hsingle body tail hcut ih =>
      have hrest := ih (undoubled_cons.1 hspec).2
      rw [hcut] at hrest
      simpa using hrest

/-- Up to its last letter and the separator after it, the body holds no doubled separator. -/
theorem cutDoubled_append {body : Text} (hbody : Undoubled (body ++ [separator])) (tail : Text) :
    cutDoubled (body ++ separator :: separator :: tail) = (body, some tail) := by
  -- By induction along the body: the walk looks at two letters at a time, so the last letter of the
  -- body is met together with the first separator.
  induction body with
  | nil => simp [cutDoubled]
  | cons p body ih =>
      rcases undoubled_cons.1 hbody with ⟨hsingle, hrest⟩
      cases body with
      | nil =>
          have hp : p ≠ separator := by simpa using hsingle
          simp [cutDoubled, hp]
      | cons q body =>
          have hpq : ¬(p = separator ∧ q = separator) := by simpa using hsingle
          have hcut := ih hrest
          simp only [List.cons_append] at hcut ⊢
          rw [cutDoubled, if_neg hpq, hcut]

theorem exists_first_doubled {spec : Text} (hspec : ¬Undoubled spec) :
    ∃ body tail, spec = body ++ separator :: separator :: tail ∧
      Undoubled (body ++ [separator]) := by
  induction spec with
  | nil => exact absurd undoubled_nil hspec
  | cons p spec ih =>
      by_cases hstart : p = separator ∧ spec.head? = some separator
      · -- The first one is here, and the body is empty.
        rcases hstart with ⟨rfl, hhead⟩
        rcases List.head?_eq_some_iff.1 hhead with ⟨tail, rfl⟩
        exact ⟨[], tail, rfl, by simp [undoubled_cons, undoubled_nil]⟩
      · -- Not here, so further on.
        have hrest : ¬Undoubled spec := fun hrest => hspec (undoubled_cons.2 ⟨hstart, hrest⟩)
        rcases ih hrest with ⟨body, tail, rfl, hbody⟩
        refine ⟨p :: body, tail, rfl, ?_⟩
        -- The letter after `p` is the same in the spec and in the body.
        refine undoubled_cons.2 ⟨?_, hbody⟩
        cases body <;> simpa using hstart

/-! ## Runs -/

/-- After a run nothing follows, or a separator does. -/
def EndsRun (after : Text) : Prop := ∀ p ∈ after.head?, p = separator

theorem takeWhile_run {run after : Text} (hrun : separator ∉ run) (hafter : EndsRun after) :
    (run ++ after).takeWhile (· ≠ separator) = run := by
  have hrun' : ∀ p ∈ run, decide (p ≠ separator) = true := by
    intro p hp
    simpa using fun hsep : p = separator => hrun (hsep ▸ hp)
  rw [List.takeWhile_append_of_pos hrun']
  cases after with
  | nil => simp
  | cons p after =>
      have hp : p = separator := hafter p rfl
      simp [hp]

theorem exists_run (t : Text) :
    ∃ run after, t = run ++ after ∧ separator ∉ run ∧ EndsRun after := by
  refine ⟨t.takeWhile (· ≠ separator), t.dropWhile (· ≠ separator), ?_, ?_, ?_⟩
  · exact List.takeWhile_append_dropWhile.symm
  · intro hmem
    simpa using List.all_eq_true.1 List.all_takeWhile _ hmem
  · -- What stopped the run is a separator.
    intro p hp
    have hhead := List.head?_dropWhile_not (fun p : Point => decide (p ≠ separator)) t
    rw [Option.mem_def.1 hp] at hhead
    simpa using hhead

/-- Every item of a pair is one of those paired up, and the first of the two is never the last. -/
theorem mem_of_mem_pairUp {α : Type} {items : List α} {a b : α} (hpair : (a, b) ∈ pairUp items) :
    a ∈ items.dropLast ∧ b ∈ items := by
  fun_induction pairUp items with
  | case1 x y rest ih =>
      rcases List.mem_cons.1 hpair with hfirst | hrest
      · cases hfirst
        simp
      · rcases ih hrest with ⟨ha, hb⟩
        cases rest with
        | nil => cases hb
        | cons next rest => simp [ha, hb]
  | case2 => cases hpair

/-- The spec is a body, the first doubled separator, a run, and what the separator after the run
begins. -/
structure HasFinal (spec body run : Text) : Prop where
  written : ∃ after, EndsRun after ∧ spec = body ++ separator :: separator :: (run ++ after)
  first : Undoubled (body ++ [separator])
  single : separator ∉ run

theorem exists_hasFinal {spec : Text} (hspec : ¬Undoubled spec) :
    ∃ body run, HasFinal spec body run := by
  rcases exists_first_doubled hspec with ⟨body, tail, rfl, hbody⟩
  rcases exists_run tail with ⟨run, after, rfl, hrun, hafter⟩
  exact ⟨body, run, ⟨after, hafter, rfl⟩, hbody, hrun⟩

theorem runsOf_undoubled {spec : Text} (hspec : Undoubled spec) :
    runsOf spec = ⟨pairUp (Text.splitAll separator spec), []⟩ := by
  simp [runsOf, cutDoubled_undoubled hspec, Text.lower, Text.lowerFrom]

theorem HasFinal.runsOf_eq {spec body run : Text} (hfinal : HasFinal spec body run) :
    runsOf spec =
      ⟨pairUp (Text.splitAll separator body), if body = [] then run else Text.lower run⟩ := by
  rcases hfinal with ⟨⟨after, hafter, rfl⟩, hbody, hrun⟩
  have hhead : (Text.splitAll separator (run ++ after)).headD [] = run := by
    rw [Text.headD_splitAll]
    exact takeWhile_run hrun hafter
  simp only [runsOf, cutDoubled_append hbody, hhead, List.isEmpty_iff]

/-! ## Rules -/

/-- The rules of a mark spec. -/
def markRules (key : Value) (spec : Text) : List Rule := (compileMark key (.text spec)).rules

/-- The rules of a source and its target. -/
def pairRules (key : Value) (pair : Text × Text) : List Rule :=
  (pairItems key pair.1 pair.2).filterMap Item.rule?

theorem markRules_eq (key : Value) (spec : Text) :
    markRules key spec =
      (runsOf spec).pairs.flatMap (pairRules key) ++ finalRules key (runsOf spec).final := by
  by_cases hspec : separator ∈ spec
  · have hcontains : spec.contains separator = true := by simpa using hspec
    rw [markRules, compileMark, if_pos hcontains, rules_compileRuns, items, List.filterMap_flatMap]
    rfl
  · -- A text of one run has no pairs and no final run either.
    have hcontains : ¬spec.contains separator = true := by simpa using hspec
    have hundoubled : Undoubled spec := by
      intro hdoubled
      exact hspec (hdoubled.subset (by simp))
    rw [markRules, compileMark, if_neg hcontains, runsOf_undoubled hundoubled,
      Text.splitAll_of_not_mem hspec]
    rfl

end Spec
end QuocNgu
