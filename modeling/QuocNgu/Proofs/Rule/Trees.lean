import Mathlib.Data.List.Basic
import QuocNgu.Rule.Outline

/-!
# Proofs.Rule.Trees — the lines of a rule and of all that is appended to it

* `preorder`          : the rules of a tree with their depths, each before those appended to it
* `outline_eq_mapM`   : the lines of a tree are the lines of its rules in this order
* `fault?`, `body`    : why a rule has no line of its own, and what its line says
* `mapM_lineAt`       : rules in a row have lines up to the first that has none
* `exists_missingKey_iff` : where no list is looked up, unknown kinds are the only faults
* `outline_preorder`  : the lines of any tree below any indent, or the fault instead

The indent grows on the way down, and a fault at any depth takes the place of all lines. As one pass
over a list the walk of the tree shows both at a glance: a line is written from the rule and its
depth alone, and the fault is that of the first rule without a line.
-/

namespace QuocNgu
namespace Rule

/-! ## The rules of a tree -/

mutual

/-- The rules of a tree with their depths, each before those appended to it. -/
def preorder (depth : Nat) : Rule → List (Nat × Rule)
  | ⟨key, code, effect, target, result, appended⟩ =>
      (depth, ⟨key, code, effect, target, result, appended⟩) :: preorderAll (depth + 1) appended

def preorderAll (depth : Nat) : List Rule → List (Nat × Rule)
  | [] => []
  | r :: rs => preorder depth r ++ preorderAll depth rs

end

def steps (depth : Nat) : Text := (List.replicate depth step).flatten

theorem steps_succ (depth : Nat) : steps (depth + 1) = steps depth ++ step := by
  simp [steps, List.replicate_succ']

/-- The line of a rule at a depth. -/
def lineAt (indent : Text) (place : Nat × Rule) : Except Fault Text := do
  let own ← place.2.line
  return indent ++ steps place.1 ++ own

mutual

theorem outline_eq_mapM (indent : Text) (depth : Nat) :
    ∀ r : Rule, outline (indent ++ steps depth) r = (preorder depth r).mapM (lineAt indent)
  | ⟨key, code, effect, target, result, appended⟩ => by
      -- Below the rule the indent has one more step, as at the next depth.
      have hbelow := outlineAll_eq_mapM indent (depth + 1) appended
      rw [steps_succ, ← List.append_assoc] at hbelow
      rw [outline, preorder, List.mapM_cons, ← hbelow]
      simp [lineAt]

theorem outlineAll_eq_mapM (indent : Text) (depth : Nat) :
    ∀ rs : List Rule,
      outlineAll (indent ++ steps depth) rs = (preorderAll depth rs).mapM (lineAt indent)
  | [] => rfl
  | r :: rs => by
      have hfirst := outline_eq_mapM indent depth r
      have hrest := outlineAll_eq_mapM indent depth rs
      rw [outlineAll, preorderAll, List.mapM_append, hfirst, hrest]

end

/-! ## The line of one rule -/

/-- The code of a rule is that of no kind. -/
def IsUnknown (r : Rule) : Prop := ∀ k : Kind, r.code.integer? ≠ some k.code

/-- No list or mapping stands where a name is looked up. -/
def HasKeys (r : Rule) : Prop :=
  r.code.isKey = true ∧ (r.kind? = some .mark ∨ r.kind? = some .tone → r.effect.isKey = true)

/-- Why a rule has no line, whatever is appended to it. -/
def fault? (r : Rule) : Option Fault :=
  if !r.code.isKey then some .notKey
  else
    match r.kind? with
    | none => some (.missingKey r.code)
    | some .append => none
    | some _ => if r.effect.isKey then none else some .notKey

/-- What the line of a rule with these fields says. -/
def body (key code effect target result : Value) : Text :=
  (line ⟨key, code, effect, target, result, []⟩).toOption.getD []

theorem isUnknown_iff (r : Rule) : r.IsUnknown ↔ r.kind? = none := by
  unfold IsUnknown kind?
  cases r.code.integer? with
  | none => simp
  | some n =>
      constructor
      · intro hunknown
        refine List.find?_eq_none.2 ?_
        intro k _ hk
        exact hunknown k (congrArg some (of_decide_eq_true hk).symm)
      · intro hnone k hk
        obtain rfl := Option.some.inj hk
        rw [Option.bind_some, Kind.ofCode?_code] at hnone
        cases hnone

theorem effectWord_eq (names : Int → Option String) (effect : Value) :
    effectWord names effect =
      if effect.isKey then .ok ((effect.integer?.bind names).elim effect.display Text.ofString)
      else .error .notKey := by
  unfold effectWord
  cases effect.isKey with
  | false => rfl
  | true => cases effect.integer?.bind names <;> rfl

/-- A rule has a line exactly if it has no fault of its own. -/
theorem line_eq (r : Rule) :
    r.line =
      match r.fault? with
      | some fault => .error fault
      | none => .ok (body r.key r.code r.effect r.target r.result) := by
  have hbody : body r.key r.code r.effect r.target r.result = r.line.toOption.getD [] := rfl
  rw [hbody]
  unfold line fault?
  cases r.code.isKey with
  | false => rfl
  | true =>
      cases r.kind? with
      | none => rfl
      | some kind =>
          -- Rules that append have no name to look up.
          cases kind with
          | append => rfl
          | mark =>
              simp only [effectWord_eq]
              cases r.effect.isKey <;> rfl
          | tone =>
              simp only [effectWord_eq]
              cases r.effect.isKey <;> rfl

theorem fault?_of_hasKeys {r : Rule} (hkeys : r.HasKeys) :
    r.fault? = if r.kind? = none then some (.missingKey r.code) else none := by
  obtain ⟨hcode, heffect⟩ := hkeys
  unfold fault?
  cases hkind : r.kind? with
  | none => simp [hcode]
  | some kind =>
      cases kind with
      | append => simp [hcode]
      | mark => simp [hcode, heffect (Or.inl hkind)]
      | tone => simp [hcode, heffect (Or.inr hkind)]

/-! ## Faults of rules in a row -/

section

variable {places : List (Nat × Rule)} (hkeys : ∀ place ∈ places, place.2.HasKeys)
include hkeys

theorem findSome?_fault?_eq_none_iff :
    places.findSome? (·.2.fault?) = none ↔ ¬∃ place ∈ places, place.2.IsUnknown := by
  have hfault : ∀ place ∈ places, place.2.fault? = none ↔ ¬place.2.IsUnknown := by
    intro place hplace
    rw [fault?_of_hasKeys (hkeys place hplace), isUnknown_iff]
    simp
  simp only [List.findSome?_eq_none_iff, not_exists, not_and]
  exact forall₂_congr hfault

/-- Then an unknown kind is the only fault. -/
theorem exists_missingKey_iff :
    (∃ code, places.findSome? (·.2.fault?) = some (.missingKey code)) ↔
      ∃ place ∈ places, place.2.IsUnknown := by
  constructor
  · rintro ⟨code, hcode⟩
    by_contra hknown
    rw [(findSome?_fault?_eq_none_iff hkeys).2 hknown] at hcode
    cases hcode
  · intro hunknown
    cases hfirst : places.findSome? (·.2.fault?) with
    | none => exact absurd hunknown ((findSome?_fault?_eq_none_iff hkeys).1 hfirst)
    | some fault =>
        obtain ⟨place, hplace, hown⟩ := List.exists_of_findSome?_eq_some hfirst
        rw [fault?_of_hasKeys (hkeys place hplace)] at hown
        split at hown
        · exact ⟨place.2.code, hown.symm⟩
        · cases hown

end

/-! ## The lines of a tree -/

/-- The line of a rule at a depth, if it has one. -/
def written (indent : Text) (place : Nat × Rule) : Text :=
  indent ++ steps place.1 ++
    body place.2.key place.2.code place.2.effect place.2.target place.2.result

theorem lineAt_eq (indent : Text) (place : Nat × Rule) :
    lineAt indent place =
      match place.2.fault? with
      | some fault => .error fault
      | none => .ok (written indent place) := by
  unfold lineAt
  rw [line_eq]
  cases place.2.fault? <;> rfl

/-- Rules in a row have lines up to the first that has none, and then the fault is all. -/
theorem mapM_lineAt (indent : Text) (places : List (Nat × Rule)) :
    places.mapM (lineAt indent) =
      match places.findSome? (·.2.fault?) with
      | some fault => .error fault
      | none => .ok (places.map (written indent)) := by
  induction places with
  | nil => rfl
  | cons place rest ih =>
      rw [List.mapM_cons, lineAt_eq, ih, List.findSome?_cons]
      cases place.2.fault? with
      | some fault => rfl
      | none => cases rest.findSome? (·.2.fault?) <;> rfl

theorem outline_eq_lines (indent : Text) (r : Rule) :
    r.outline indent =
      match (preorder 0 r).findSome? (·.2.fault?) with
      | some fault => .error fault
      | none => .ok ((preorder 0 r).map (written indent)) := by
  have htree := outline_eq_mapM indent 0 r
  rw [mapM_lineAt] at htree
  simpa [steps] using htree

/-- Every rule of a tree has one line, and the lines stand in the order of the tree. The line of a
rule is the indent, a step for every level above it, and a text made of its own fields. If some rule
has no line, then neither has the tree, and the first such rule gives the fault. Where no list or
mapping is looked up, that is a missing key exactly if some rule is of an unknown kind. -/
theorem outline_preorder (indent : Text) (r : Rule) :
    (r.outline indent =
      match (preorder 0 r).findSome? (·.2.fault?) with
      | some fault => .error fault
      | none => .ok ((preorder 0 r).map fun (depth, s) =>
          indent ++ (List.replicate depth step).flatten ++
            body s.key s.code s.effect s.target s.result)) ∧
    ((∀ place ∈ preorder 0 r, place.2.HasKeys) →
      ((∃ code, r.outline indent = .error (.missingKey code)) ↔
        ∃ place ∈ preorder 0 r, place.2.IsUnknown) ∧
      ((¬∃ place ∈ preorder 0 r, place.2.IsUnknown) →
        r.outline indent = .ok ((preorder 0 r).map fun (depth, s) =>
          indent ++ (List.replicate depth step).flatten ++
            body s.key s.code s.effect s.target s.result))) := by
  have hlines := outline_eq_lines indent r
  refine ⟨hlines, fun hkeys => ⟨?_, ?_⟩⟩
  · rw [← exists_missingKey_iff hkeys, hlines]
    cases (preorder 0 r).findSome? (·.2.fault?) with
    | none => simp
    | some fault => simp
  · intro hknown
    rw [(findSome?_fault?_eq_none_iff hkeys).2 hknown] at hlines
    exact hlines

/-- A tree three levels deep, and one with an unknown kind at the bottom. -/
theorem outline_preorder_nested :
    let leaf (code : Int) : Rule :=
      ⟨.text ['k'], .integer code, .integer 2, .text ['x'], .text [], []⟩
    let tree (code : Int) : Rule :=
      mark (.text ['k']) .horn ['u'] 'ư' [append (.text ['k']) 'ơ' [leaf code]]
    ((∀ place ∈ preorder 0 (tree 2), place.2.HasKeys) ∧
      (¬∃ place ∈ preorder 0 (tree 2), place.2.IsUnknown) ∧
      (tree 2).outline margin =
        .ok ["  k MarkTransformation u -> ư mark=HORN", "    + k Appending ơ",
          "    +   + k ToneTransformation tone=ACUTE"]) ∧
    (∀ place ∈ preorder 0 (tree 9), place.2.HasKeys) ∧
      (∃ place ∈ preorder 0 (tree 9), place.2.IsUnknown) ∧
      ∃ code, (tree 9).outline margin = .error (.missingKey code) := by
  intro leaf tree
  have hplaces : ∀ code, preorder 0 (tree code) =
      [(0, tree code), (1, append (.text ['k']) 'ơ' [leaf code]), (2, leaf code)] := fun _ => rfl
  have hkeys : ∀ code, ∀ place ∈ preorder 0 (tree code), place.2.HasKeys := by
    intro code
    simp only [hplaces, List.forall_mem_cons]
    exact ⟨⟨rfl, fun _ => rfl⟩, ⟨rfl, fun _ => rfl⟩, ⟨rfl, fun _ => rfl⟩,
      List.forall_mem_nil _⟩
  have hknown : ¬∃ place ∈ preorder 0 (tree 2), place.2.IsUnknown := by
    rintro ⟨place, hplace, hunknown⟩
    have hkinds : ∀ place ∈ preorder 0 (tree 2), place.2.kind? ≠ none := by
      simp only [hplaces, List.forall_mem_cons]
      exact ⟨Option.some_ne_none Kind.mark, Option.some_ne_none Kind.append,
        Option.some_ne_none Kind.tone, List.forall_mem_nil _⟩
    exact hkinds place hplace ((isUnknown_iff _).1 hunknown)
  have hunknown : ∃ place ∈ preorder 0 (tree 9), place.2.IsUnknown :=
    ⟨(2, leaf 9), by simp [hplaces], (isUnknown_iff _).2 rfl⟩
  obtain ⟨-, hlines⟩ := outline_preorder margin (tree 2)
  obtain ⟨-, hfault⟩ := outline_preorder margin (tree 9)
  refine ⟨⟨hkeys 2, hknown, ?_⟩, hkeys 9, hunknown, ?_⟩
  · refine ((hlines (hkeys 2)).2 hknown).trans (congrArg Except.ok ?_)
    decide +kernel
  · exact (hfault (hkeys 9)).1.2 hunknown

/-- A mark rule with a list for its effect has no line, and no rule below it is seen. -/
theorem outline_list_effect :
    let r (appended : List Rule) : Rule :=
      ⟨.text ['a'], .integer 1, .list [], .text [], .text [], appended⟩
    let unknown : Rule := ⟨.text ['c'], .integer 9, .integer 0, .text [], .text [], []⟩
    ((∃ place ∈ preorder 0 (r [unknown]), place.2.IsUnknown) ∧
      ¬∃ code, (r [unknown]).outline margin = .error (.missingKey code)) ∧
    (¬∃ place ∈ preorder 0 (r []), place.2.IsUnknown) ∧
      ¬∃ lines, (r []).outline margin = .ok lines := by
  intro r unknown
  have hfault : ∀ appended, (r appended).outline margin = .error .notKey := fun _ => rfl
  have hknown : ∀ place ∈ preorder 0 (r []), place.2.kind? = some .mark := by
    intro place hplace
    rw [List.mem_singleton.1 hplace]
    rfl
  refine ⟨⟨⟨(1, unknown), by simp [preorder, preorderAll, r, unknown], ?_⟩, ?_⟩, ?_, ?_⟩
  · exact (isUnknown_iff unknown).2 rfl
  · rintro ⟨code, hcode⟩
    rw [hfault] at hcode
    cases hcode
  · rintro ⟨place, hplace, hunknown⟩
    rw [isUnknown_iff, hknown place hplace] at hunknown
    cases hunknown
  · rintro ⟨lines, hlines⟩
    rw [hfault] at hlines
    cases hlines

end Rule
end QuocNgu
