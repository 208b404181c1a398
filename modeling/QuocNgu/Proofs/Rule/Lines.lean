import QuocNgu.Proofs.Spec.Runs
import QuocNgu.Proofs.Text.Whole
import QuocNgu.Rule.Outline

/-!
# Proofs.Rule.Lines — rules that can be printed

* `HasLines`        : below any indent a rule has lines, and all of them have a written form
* `subset_of_mem_pairs`, `exists_final` : taking a spec apart gives parts of it
* `isWhole_of_mem_pairs`, `isWhole_final` : so that a whole spec gives whole texts
* `hasLines_of_mem_compile` : the rules of a whole spec under a whole key have lines

Lines fail for two reasons, a code that is none of the known ones and half a surrogate pair. Specs
compile to rules of known codes, and every text in them is a part of the spec, lowered at most.
-/

namespace QuocNgu
namespace Rule

/-! ## Rules of each kind -/

theorem outline_eq (indent : Text) (r : Rule) :
    outline indent r = (do
      let own ← line r
      let below ← outlineAll (indent ++ step) r.appended
      return (indent ++ own) :: below) := by
  cases r
  rfl

/-- Below any indent a rule has lines, and all of them have a written form. -/
def HasLines (r : Rule) : Prop :=
  ∀ indent : Text, indent.isWhole = true →
    ∃ lines, r.outline indent = .ok lines ∧ ∀ t ∈ lines, t.isWhole = true

theorem exists_outlineAll {rules : List Rule} (hrules : ∀ r ∈ rules, HasLines r) {indent : Text}
    (hindent : indent.isWhole = true) :
    ∃ lines, outlineAll indent rules = .ok lines ∧ ∀ t ∈ lines, t.isWhole = true := by
  induction rules with
  | nil => exact ⟨[], rfl, by simp⟩
  | cons r rules ih =>
      rcases List.forall_mem_cons.1 hrules with ⟨hr, hrest⟩
      rcases hr indent hindent with ⟨lines, hlines, hwhole⟩
      rcases ih hrest with ⟨more, hmore, hwholeMore⟩
      refine ⟨lines ++ more, ?_, ?_⟩
      · rw [outlineAll, hlines, hmore]
        rfl
      · intro t ht
        rcases List.mem_append.1 ht with ht | ht
        · exact hwhole t ht
        · exact hwholeMore t ht

/-- A rule has lines if its own line is one and the rules appended to it have lines. -/
theorem hasLines_of_line {r : Rule} {own : Text} (hline : r.line = .ok own)
    (hown : own.isWhole = true) (happended : ∀ a ∈ r.appended, HasLines a) : HasLines r := by
  intro indent hindent
  have hstep : (indent ++ step).isWhole = true :=
    Text.isWhole_append.2 ⟨hindent, Text.isWhole_ofString _⟩
  rcases exists_outlineAll happended hstep with ⟨below, hbelow, hwhole⟩
  refine ⟨(indent ++ own) :: below, ?_, ?_⟩
  · rw [outline_eq, hline, hbelow]
    rfl
  · refine List.forall_mem_cons.2 ⟨?_, hwhole⟩
    exact Text.isWhole_append.2 ⟨hindent, hown⟩

section

variable {key : Text} (hkey : key.isWhole = true)
include hkey

theorem hasLines_append {p : Point} {appended : List Rule} (hp : ∃ c, p = .char c)
    (happended : ∀ a ∈ appended, HasLines a) : HasLines (append (.text key) p appended) := by
  have hline : (append (.text key) p appended).line =
      .ok (key ++ " " ++ Kind.append.name ++ " " ++ [p]) := rfl
  refine hasLines_of_line hline ?_ happended
  simp [Text.isWhole_ofString, hkey, hp]

theorem hasLines_mark {m : Mark} {target : Text} {p : Point} {appended : List Rule}
    (htarget : target.isWhole = true) (hp : ∃ c, p = .char c)
    (happended : ∀ a ∈ appended, HasLines a) :
    HasLines (mark (.text key) m target p appended) := by
  have hline : ∃ word : String, (mark (.text key) m target p appended).line =
      .ok (key ++ " " ++ Kind.mark.name ++ " " ++ target ++ " -> " ++ [p] ++ " mark=" ++ word) := by
    cases m <;> exact ⟨_, rfl⟩
  rcases hline with ⟨word, hline⟩
  refine hasLines_of_line hline ?_ happended
  simp [Text.isWhole_ofString, hkey, htarget, hp]

theorem hasLines_tone (t : Tone) : HasLines (tone (.text key) t) := by
  have hline : ∃ word : String, (tone (.text key) t).line =
      .ok (key ++ " " ++ Kind.tone.name ++ " " ++ "tone=" ++ word) := by
    cases t <;> exact ⟨_, rfl⟩
  rcases hline with ⟨word, hline⟩
  refine hasLines_of_line hline ?_ (List.forall_mem_nil _)
  simp [Text.isWhole_ofString, hkey]

end

end Rule

namespace Spec

/-! ## Taking a whole spec apart -/

theorem cutDoubled_subset (spec : Text) :
    (cutDoubled spec).1 ⊆ spec ∧ ∀ tail ∈ (cutDoubled spec).2, tail ⊆ spec := by
  -- The cases are those of the walk: its end, one letter, the doubled separator, and a step.
  fun_induction cutDoubled spec with
  | case1 => simp
  | case2 p => simp
  | case3 p q rest hdoubled =>
      refine ⟨List.nil_subset _, ?_⟩
      intro tail htail
      cases htail
      exact List.Subset.trans (List.subset_cons_self q rest) (List.subset_cons_self p _)
  | case4 p q rest hdoubled body tail hcut ih =>
      rw [hcut] at ih
      refine ⟨List.cons_subset_cons p ih.1, ?_⟩
      intro after hafter
      exact List.Subset.trans (ih.2 after hafter) (List.subset_cons_self p _)

theorem headD_splitAll_subset (t : Text) : (Text.splitAll separator t).headD [] ⊆ t := by
  rcases List.exists_cons_of_ne_nil (Text.splitAll_ne_nil separator t) with ⟨run, runs, hruns⟩
  have hmem : run ∈ Text.splitAll separator t := by
    rw [hruns]
    exact List.mem_cons_self
  rw [hruns]
  exact Text.subset_of_mem_splitAll hmem

/-- The runs of a pair are cut out of the spec. -/
theorem subset_of_mem_pairs {spec source target : Text}
    (hpair : (source, target) ∈ (runsOf spec).pairs) : source ⊆ spec ∧ target ⊆ spec := by
  have hbody : (cutDoubled spec).1 ⊆ spec := (cutDoubled_subset spec).1
  rcases mem_of_mem_pairUp hpair with ⟨hbefore, htarget⟩
  have hsource : source ∈ Text.splitAll separator (cutDoubled spec).1 :=
    (List.dropLast_sublist _).subset hbefore
  exact ⟨List.Subset.trans (Text.subset_of_mem_splitAll hsource) hbody,
    List.Subset.trans (Text.subset_of_mem_splitAll htarget) hbody⟩

/-- So is the final run, before it is lowered after a body. -/
theorem exists_final (spec : Text) :
    ∃ run, run ⊆ spec ∧ ((runsOf spec).final = run ∨ (runsOf spec).final = Text.lower run) := by
  have hlowered : ∀ run : Text,
      (if (cutDoubled spec).1.isEmpty then run else Text.lower run) = run ∨
        (if (cutDoubled spec).1.isEmpty then run else Text.lower run) = Text.lower run := by
    intro run
    split
    · exact Or.inl rfl
    · exact Or.inr rfl
  cases htail : (cutDoubled spec).2 with
  | none =>
      refine ⟨[], List.nil_subset _, ?_⟩
      simpa only [runsOf, htail] using hlowered []
  | some rest =>
      have hrest : rest ⊆ spec := (cutDoubled_subset spec).2 rest htail
      refine ⟨(Text.splitAll separator rest).headD [], ?_, ?_⟩
      · exact List.Subset.trans (headD_splitAll_subset rest) hrest
      · simpa only [runsOf, htail] using hlowered _

section

variable {spec : Text} (hspec : spec.isWhole = true)
include hspec

theorem isWhole_of_mem_pairs {source target : Text}
    (hpair : (source, target) ∈ (runsOf spec).pairs) :
    source.isWhole = true ∧ target.isWhole = true := by
  rcases subset_of_mem_pairs hpair with ⟨hsource, htarget⟩
  exact ⟨Text.isWhole_of_subset hspec hsource, Text.isWhole_of_subset hspec htarget⟩

theorem isWhole_final : (runsOf spec).final.isWhole = true := by
  rcases exists_final spec with ⟨run, hrun, hfinal⟩
  have hwhole : run.isWhole = true := Text.isWhole_of_subset hspec hrun
  rcases hfinal with hfinal | hfinal
  · simpa only [hfinal] using hwhole
  · simpa only [hfinal] using Text.isWhole_lower hwhole

end

/-! ## The rules of a whole spec -/

section

variable {key : Text} (hkey : key.isWhole = true)
include hkey

theorem hasLines_of_mem_pairItems {source target : Text} {item : Item} {r : Rule}
    (hsource : source.isWhole = true) (htarget : target.isWhole = true)
    (hitem : item ∈ pairItems (.text key) source target) (hrule : item.rule? = some r) :
    r.HasLines := by
  unfold pairItems at hitem
  split at hitem
  · rcases List.mem_map.1 hitem with ⟨p, hp, rfl⟩
    cases hrule
    exact Rule.hasLines_append hkey (Text.isWhole_iff.1 htarget p hp) (List.forall_mem_nil _)
  · rcases List.mem_map.1 hitem with ⟨⟨s, t⟩, hpair, rfl⟩
    rcases List.of_mem_zip hpair with ⟨hs, ht⟩
    have hletter : Text.isWhole [s] = true :=
      Text.isWhole_cons.2 ⟨Text.isWhole_iff.1 hsource s hs, rfl⟩
    simp only [markItem] at hrule
    split at hrule
    · cases hrule
      exact Rule.hasLines_mark hkey (Text.isWhole_lower hletter) (Text.isWhole_iff.1 htarget t ht)
        (List.forall_mem_nil _)
    · cases hrule

theorem hasLines_of_mem_finalRules {run : Text} (hrun : run.isWhole = true) {r : Rule}
    (hr : r ∈ finalRules (.text key) run) : r.HasLines := by
  cases run with
  | nil => cases hr
  | cons first following =>
      obtain rfl : r = finalRule (.text key) first following := by simpa [finalRules] using hr
      rcases Text.isWhole_cons.1 hrun with ⟨hfirst, hfollowing⟩
      have happended : ∀ a ∈ following.map fun p => Rule.append (.text key) p [],
          a.HasLines := by
        intro a ha
        rcases List.mem_map.1 ha with ⟨p, hp, rfl⟩
        exact Rule.hasLines_append hkey (Text.isWhole_iff.1 hfollowing p hp)
          (List.forall_mem_nil _)
      have hstripped : Text.isWhole [Letter.stripped first] = true :=
        Text.isWhole_cons.2 ⟨Letter.isChar_onPoint _ hfirst, rfl⟩
      simp only [finalRule]
      split
      · exact Rule.hasLines_append hkey hfirst happended
      · exact Rule.hasLines_mark hkey (Text.isWhole_lower hstripped) hfirst happended

/-- Whatever a whole spec says, its rules can be printed. -/
theorem hasLines_of_mem_compile {spec : Text} (hspec : spec.isWhole = true) {r : Rule}
    (hr : r ∈ (compile (.text key) (.text spec)).rules) : r.HasLines := by
  simp only [compile, compileTone, compileMark] at hr
  split at hr
  · split at hr
    · rw [List.mem_singleton.1 hr]
      exact Rule.hasLines_tone hkey _
    · cases hr
  · split at hr
    · rw [rules_compileRuns] at hr
      rcases List.mem_append.1 hr with hpairs | hfinal
      · rcases List.mem_filterMap.1 hpairs with ⟨item, hitem, hrule⟩
        rcases List.mem_flatMap.1 hitem with ⟨⟨source, target⟩, hpair, hmem⟩
        rcases isWhole_of_mem_pairs hspec hpair with ⟨hsource, htarget⟩
        exact hasLines_of_mem_pairItems hkey hsource htarget hmem hrule
      · exact hasLines_of_mem_finalRules hkey (isWhole_final hspec) hfinal
    · simp [unrecognized] at hr

end

end Spec
end QuocNgu
