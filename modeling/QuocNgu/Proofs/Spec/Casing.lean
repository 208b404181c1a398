import Mathlib.Data.List.Forall2
import QuocNgu.Proofs.Rule.Lines
import QuocNgu.Proofs.Spec.Reporting
import QuocNgu.Proofs.Text.Barriers

/-!
# Proofs.Spec.Casing — one spec serves both cases

* `splitAll_lower`   : a lowered text has the runs of the text, lowered one by one
* `runsOf_lower`     : so a lowered spec comes apart where the spec does
* `Rule.Recased`     : rules that differ in the case of what they result in or append, if at all
* `markRules_lower`  : the rules of a spec and of the lowered spec are such rules, one by one

A separator ends the search that a capital sigma makes for its neighbours, and so a run is lowered
in the whole spec as it is lowered alone. Only the dotted capital is left out: it comes to two code
points, and places after it would move.
-/

namespace QuocNgu

/-! ## Letters and their forms -/

namespace Letter

open Text

theorem ofPoint?_of_isForm {p q : Point} (hpq : IsForm p q) :
    ofPoint? q = (ofPoint? p).map small := by
  by_cases hsigma : p = 'Σ'
  · subst hsigma
    have hnone : ofPoint? 'Σ' = none ∧ ofPoint? 'σ' = none ∧ ofPoint? 'ς' = none := by
      decide +kernel
    simp only [IsForm, if_true] at hpq
    rcases hpq with rfl | rfl
    · simp [hnone]
    · simp [hnone]
  · have hform : lowerPoint p = [q] := by simpa [IsForm, hsigma] using hpq
    have hlower : Text.lower [p] = [q] := by simp [Text.lower, lowerFrom, hsigma, hform]
    calc
      ofPoint? q = ofText? (Text.lower [p]) := by
        rw [hlower]
        rfl
      _ = (ofPoint? p).map small := ofText?_lower p

theorem sharesBase_of_isForm {p q p' q' : Point} (hp : IsForm p p') (hq : IsForm q q') :
    sharesBase p' q' = sharesBase p q := by
  simp only [sharesBase, ofPoint?_of_isForm hp, ofPoint?_of_isForm hq]
  cases ofPoint? p with
  | none => rfl
  | some l =>
      cases ofPoint? q with
      | none => rfl
      | some l' => rfl

theorem markOf_of_isForm {p q : Point} (hpq : IsForm p q) : markOf [q] = markOf [p] := by
  simp only [markOf, ofText?, ofPoint?_of_isForm hpq]
  cases ofPoint? p with
  | none => rfl
  | some l => rfl

/-- A letter and its form are lowered to one small letter, and so are the letters under them. -/
theorem lower_of_isForm {p q : Point} (hpq : IsForm p q) (hletter : ofPoint? p ≠ none) :
    Text.lower [q] = Text.lower [p] ∧
      Text.lower [stripped q] = Text.lower [stripped p] := by
  obtain ⟨l, hl⟩ := Option.ne_none_iff_exists'.1 hletter
  have hp : p = .char l.toChar := eq_toChar_of_ofPoint? hl
  have hq : q = .char l.small.toChar := by
    apply eq_toChar_of_ofPoint?
    simp [ofPoint?_of_isForm hpq, hl]
  have hsmall : ∀ l : Letter, Text.lower [.char l.toChar] = l.small.toText := lower_toText
  constructor
  · simp only [hp, hq, hsmall]
    rfl
  · simp only [hp, hq, stripped_toChar, hsmall, small_bare]
    rfl

end Letter

namespace Spec

/-! ## Runs of a lowered spec -/

theorem isBarrier_separator : Text.IsBarrier separator where
  notIgnorable := by decide +kernel
  notCased := by decide +kernel
  lowered := by decide +kernel

theorem lower_append_separator (t u : Text) :
    Text.lower (t ++ separator :: u) = Text.lower t ++ separator :: Text.lower u :=
  Text.lower_append_barrier isBarrier_separator t u

theorem lower_separator_cons (t : Text) :
    Text.lower (separator :: t) = separator :: Text.lower t := lower_append_separator [] t

/-- By induction on the length: a separator of the text splits it into two shorter ones. -/
theorem splitAll_lower (t : Text) :
    Text.splitAll separator t.lower = (Text.splitAll separator t).map Text.lower := by
  by_cases ht : separator ∈ t
  · obtain ⟨u, v, rfl⟩ := List.append_of_mem ht
    have hu := splitAll_lower u
    have hv := splitAll_lower v
    simp only [lower_append_separator, Text.splitAll_append, hu, hv, List.map_append]
  · have hlower := Text.separator_not_mem_lower ht
    simp only [Text.splitAll_of_not_mem ht, Text.splitAll_of_not_mem hlower, List.map_cons,
      List.map_nil]
termination_by t.length

theorem undoubled_lower {t : Text} : Undoubled t.lower ↔ Undoubled t := by
  -- Lowering leaves a run empty exactly if it was.
  have hempty : ∀ runs : List Text, [] ∈ runs.map Text.lower ↔ [] ∈ runs := by
    intro runs
    simp [List.mem_map, Text.lower_eq_nil_iff]
  simp only [undoubled_iff, splitAll_lower, ← List.map_tail, ← List.map_dropLast, hempty]

theorem pairUp_map {α β : Type} (f : α → β) (items : List α) :
    pairUp (items.map f) = (pairUp items).map (Prod.map f f) := by
  fun_induction pairUp items with
  | case1 a b rest ih => simp [pairUp, ih]
  | case2 items hshort =>
      cases items with
      | nil => rfl
      | cons a rest =>
          cases rest with
          | nil => rfl
          | cons b rest => exact absurd rfl (hshort a b rest)

theorem HasFinal.lower {spec body run : Text} (hfinal : HasFinal spec body run) :
    HasFinal spec.lower body.lower run.lower := by
  obtain ⟨⟨after, hafter, rfl⟩, hfirst, hsingle⟩ := hfinal
  refine ⟨?_, ?_, Text.separator_not_mem_lower hsingle⟩
  · -- What follows the run starts with a separator, if anything does.
    cases after with
    | nil =>
        refine ⟨[], hafter, ?_⟩
        simp only [List.append_nil, lower_append_separator, lower_separator_cons]
    | cons p after =>
        obtain rfl : p = separator := hafter p rfl
        refine ⟨separator :: Text.lower after, ?_, ?_⟩
        · intro q hq
          exact (Option.some.inj hq).symm
        · simp only [lower_append_separator, lower_separator_cons]
  · have hbody : body.lower ++ [separator] = Text.lower (body ++ [separator]) := by
      simpa [Text.lower, Text.lowerFrom] using (lower_append_separator body []).symm
    rw [hbody]
    exact undoubled_lower.2 hfirst

/-- A lowered spec comes apart where the spec does, into the lowered parts. -/
theorem runsOf_lower (spec : Text) :
    runsOf spec.lower =
      ⟨(runsOf spec).pairs.map (Prod.map Text.lower Text.lower),
        Text.lower (runsOf spec).final⟩ := by
  by_cases hspec : Undoubled spec
  · simp only [runsOf_undoubled hspec, runsOf_undoubled (undoubled_lower.2 hspec), splitAll_lower,
      pairUp_map]
    rfl
  · obtain ⟨body, run, hfinal⟩ := exists_hasFinal hspec
    have hruns := hfinal.runsOf_eq
    have hlowered := hfinal.lower.runsOf_eq
    simp only [hruns, hlowered, splitAll_lower, pairUp_map, Text.lower_eq_nil_iff]
    -- A final run that is lowered already is lowered once more without effect.
    by_cases hbody : body = []
    · simp only [hbody, if_true]
    · simp only [hbody, if_false, Text.lower_lower]

end Spec

/-! ## Rules up to case -/

open Text (IsForm)

/-- The second rule does what the first does to the same letter; what it results in or appends is a
form of what the first has there. -/
inductive Rule.Recased : Rule → Rule → Prop where
  | append (key : Value) {p q : Point} {below below' : List Rule} (hform : IsForm p q)
      (hbelow : List.Forall₂ Recased below below') :
      Recased (.append key p below) (.append key q below')
  | mark (key : Value) (m : Mark) (target : Text) {p q : Point} {below below' : List Rule}
      (hform : IsForm p q) (hbelow : List.Forall₂ Recased below below') :
      Recased (.mark key m target p below) (.mark key m target q below')

namespace Spec

open Rule (Recased)

variable (key : Value)

theorem recased_appendEach {t u : Text} (htu : List.Forall₂ IsForm t u) :
    List.Forall₂ Recased (Rule.appendEach key t) (Rule.appendEach key u) := by
  simp only [Rule.appendEach, List.forall₂_map_left_iff, List.forall₂_map_right_iff]
  exact htu.imp fun p q hpq => .append key hpq .nil

/-- Places with forms of the letters give the rules again. -/
theorem recased_places {source source' target target' : Text}
    (hsource : List.Forall₂ IsForm source source') (htarget : List.Forall₂ IsForm target target') :
    List.Forall₂ Recased
      (((source.zip target).filter sharesBase).map (placeRule key))
      (((source'.zip target').filter sharesBase).map (placeRule key)) := by
  induction hsource generalizing target target' with
  | nil => exact .nil
  | @cons p p' source source' hp hsource ih =>
      cases htarget with
      | nil => exact .nil
      | @cons q q' target target' hq htarget =>
          have hrest := ih htarget
          have hshared : Letter.sharesBase p' q' = Letter.sharesBase p q :=
            Letter.sharesBase_of_isForm hp hq
          by_cases hplace : Letter.sharesBase p q = true
          · have hletter : Letter.ofPoint? p ≠ none := by
              intro hnone
              simp [Letter.sharesBase, hnone] at hplace
            have hmark : placeRule key (p', q') =
                Rule.mark key (Letter.markOf [q]) (Text.lower [p]) q' [] := by
              have htarget := (Letter.lower_of_isForm hp hletter).1
              simp only [placeRule, Letter.markOf_of_isForm hq, htarget]
            have hrule : Recased (placeRule key (p, q)) (placeRule key (p', q')) := by
              rw [hmark]
              exact .mark key _ _ hq .nil
            simpa [sharesBase, hshared, hplace] using And.intro hrule hrest
          · simpa [sharesBase, hshared, hplace] using hrest

theorem recased_pairRules {source target : Text} (hsource : Point.char '\u0130' ∉ source)
    (htarget : Point.char '\u0130' ∉ target) :
    List.Forall₂ Recased (pairRules key (source, target))
      (pairRules key (source.lower, target.lower)) := by
  have hforms := Text.forall₂_isForm_lower htarget
  by_cases hempty : source = []
  · subst hempty
    have hrules := recased_appendEach key hforms
    rw [← pairRules_nil, ← pairRules_nil] at hrules
    exact hrules
  · have hfilled : Text.lower source ≠ [] := mt Text.lower_eq_nil_iff.1 hempty
    have hrules := recased_places key (Text.forall₂_isForm_lower hsource) hforms
    rw [pairRules_eq key target hempty, pairRules_eq key _ hfilled]
    exact hrules

theorem recased_finalRules {run run' : Text} (hforms : List.Forall₂ IsForm run run') :
    List.Forall₂ Recased (finalRules key run) (finalRules key run') := by
  cases hforms with
  | nil => exact .nil
  | @cons p p' following following' hfirst hfollowing =>
      have hbelow := recased_appendEach key hfollowing
      have hmark : Letter.markOf [p'] = Letter.markOf [p] := Letter.markOf_of_isForm hfirst
      have hempty : following'.isEmpty = following.isEmpty := by
        cases hfollowing <;> rfl
      refine .cons ?_ .nil
      simp only [finalRule, hmark, hempty]
      split
      · exact .append key hfirst hbelow
      · next hmarked =>
          -- The first letter has a mark, so it is one of the table.
          have hletter : Letter.ofPoint? p ≠ none := by
            intro hnone
            simp [Letter.markOf, Letter.ofText?, hnone] at hmarked
          rw [(Letter.lower_of_isForm hfirst hletter).2]
          exact .mark key _ _ hfirst hbelow

/-- No dotted capital is left in a final run: either it was in the spec or it was lowered. -/
theorem dotted_not_mem_final {spec : Text} (hspec : Point.char '\u0130' ∉ spec) :
    Point.char '\u0130' ∉ (runsOf spec).final := by
  obtain ⟨run, hrun, hfinal⟩ := exists_final spec
  rcases hfinal with hfinal | hfinal
  · rw [hfinal]
    exact fun hmem => hspec (hrun hmem)
  · have hgrows : ¬Text.Lowered (.char '\u0130') := by decide +kernel
    rw [hfinal]
    exact fun hmem => hgrows (Text.lowered_of_mem_lower hmem)

theorem recased_markRules {spec : Text} (hspec : Point.char '\u0130' ∉ spec) :
    List.Forall₂ Recased (markRules key spec) (markRules key spec.lower) := by
  have hpairs : List.Forall₂ Recased ((runsOf spec).pairs.flatMap (pairRules key))
      ((runsOf spec.lower).pairs.flatMap (pairRules key)) := by
    have hparts : ∀ pair ∈ (runsOf spec).pairs,
        List.Forall₂ Recased (pairRules key pair)
          (pairRules key (pair.1.lower, pair.2.lower)) := by
      rintro ⟨source, target⟩ hpair
      obtain ⟨hsource, htarget⟩ := subset_of_mem_pairs hpair
      exact recased_pairRules key (fun hmem => hspec (hsource hmem))
        (fun hmem => hspec (htarget hmem))
    simp only [runsOf_lower, List.flatMap_map]
    -- One pair after another, whatever spec they come from.
    generalize (runsOf spec).pairs = pairs at hparts
    induction pairs with
    | nil => exact .nil
    | cons pair pairs ih =>
        obtain ⟨hpair, hrest⟩ := List.forall_mem_cons.1 hparts
        exact List.rel_append hpair (ih hrest)
  have hfinal : List.Forall₂ Recased (finalRules key (runsOf spec).final)
      (finalRules key (runsOf spec.lower).final) := by
    rw [runsOf_lower]
    exact recased_finalRules key (Text.forall₂_isForm_lower (dotted_not_mem_final hspec))
  simp only [markRules_eq]
  exact List.rel_append hpairs hfinal

/-! ## What stays the same -/

theorem map_eq_of_recased {α : Type} {f : Rule → α} (hf : ∀ {r r'}, Recased r r' → f r' = f r)
    {rules lowered : List Rule} (hrules : List.Forall₂ Recased rules lowered) :
    lowered.map f = rules.map f := by
  induction hrules with
  | nil => rfl
  | cons hr _ ih => simp [hf hr, ih]

theorem code_of_recased {r r' : Rule} (hr : Recased r r') : r'.code = r.code := by
  cases hr <;> rfl

theorem length_appended_of_recased {r r' : Rule} (hr : Recased r r') :
    r'.appended.length = r.appended.length := by
  cases hr with
  | append _ _ hbelow => exact hbelow.length_eq.symm
  | mark _ _ _ _ hbelow => exact hbelow.length_eq.symm

/-- The effects and targets of the rules that mark, in their order. -/
def marksOf (rules : List Rule) : List (Value × Value) :=
  (rules.filter isMark).map fun r => (r.effect, r.target)

theorem marksOf_of_recased {rules lowered : List Rule}
    (hrules : List.Forall₂ Recased rules lowered) : marksOf lowered = marksOf rules := by
  unfold marksOf
  induction hrules with
  | nil => rfl
  | cons hr _ ih =>
      cases hr with
      | append _ _ _ => simpa [isMark] using ih
      | @mark key m target p q below below' _ _ =>
          have heffect : (Rule.mark key m target q below').effect =
              (Rule.mark key m target p below).effect := rfl
          have htarget : (Rule.mark key m target q below').target =
              (Rule.mark key m target p below).target := rfl
          simpa [isMark, heffect, htarget] using ih

/-- A lowered spec compiles to as many rules as the spec, of the same kinds and with as many rules
below each; those that mark put the same marks on the same letters. Only what the rules result in
and append may differ, and only by its case. -/
theorem markRules_lower (key : Value) (spec : Text) (hspec : Point.char '\u0130' ∉ spec) :
    (markRules key spec.lower).length = (markRules key spec).length ∧
    (markRules key spec.lower).map (·.code) = (markRules key spec).map (·.code) ∧
    (markRules key spec.lower).map (·.appended.length) =
      (markRules key spec).map (·.appended.length) ∧
    marksOf (markRules key spec.lower) = marksOf (markRules key spec) ∧
    List.Forall₂ Recased (markRules key spec) (markRules key spec.lower) := by
  have hrules := recased_markRules key hspec
  exact ⟨hrules.length_eq.symm, map_eq_of_recased code_of_recased hrules,
    map_eq_of_recased length_appended_of_recased hrules, marksOf_of_recased hrules, hrules⟩

/-- A leading run that ends in a capital sigma, which is lowered to its final form, and a pair. -/
theorem markRules_lower_sigma :
    Point.char '\u0130' ∉ (['_', 'Α', 'Σ', '_', 'U', '_', 'Ừ'] : Text) ∧
    (markRules (.text ['w']) ['_', 'α', 'ς', '_', 'u', '_', 'ừ']).length =
      (markRules (.text ['w']) ['_', 'Α', 'Σ', '_', 'U', '_', 'Ừ']).length ∧
    marksOf (markRules (.text ['w']) ['_', 'α', 'ς', '_', 'u', '_', 'ừ']) =
      marksOf (markRules (.text ['w']) ['_', 'Α', 'Σ', '_', 'U', '_', 'Ừ']) ∧
    List.Forall₂ Recased (markRules (.text ['w']) ['_', 'Α', 'Σ', '_', 'U', '_', 'Ừ'])
      (markRules (.text ['w']) ['_', 'α', 'ς', '_', 'u', '_', 'ừ']) := by
  have hdotted : Point.char '\u0130' ∉ (['_', 'Α', 'Σ', '_', 'U', '_', 'Ừ'] : Text) := by decide
  have hlower : Text.lower ['_', 'Α', 'Σ', '_', 'U', '_', 'Ừ'] =
      (['_', 'α', 'ς', '_', 'u', '_', 'ừ'] : Text) := by
    decide +kernel
  have hrules := markRules_lower (.text ['w']) _ hdotted
  rw [hlower] at hrules
  exact ⟨hdotted, hrules.1, hrules.2.2.2.1, hrules.2.2.2.2⟩

end Spec
end QuocNgu
