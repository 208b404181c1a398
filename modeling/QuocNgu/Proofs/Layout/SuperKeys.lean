import QuocNgu.Proofs.Layout.Indexing
import QuocNgu.Proofs.Spec.Horning

/-!
# Proofs.Layout.SuperKeys — super keys, and the keys that put a horn on both `u` and `o`

* `specsFor`            : the specs that a definition has for a key
* `HornsBoth`           : the rules of a key horn both letters, which is what a super key is for
* `mem_superKeys_iff`, `hornsBoth_iff` : both sides read off the specs of the key
* `superKeys_iff_hornsBoth_iff` : exactly when the super keys are the keys that horn both letters

A key is noted as super by the letters of its specs, and its rules come from their runs. The specs
of one key are looked at together: one may write `uo` and others horn the letters.
-/

namespace QuocNgu
namespace Layout

/-! ## The specs of a key -/

/-- The specs that a definition has for a key, in their order. -/
def specsFor (fields : List (Text × Value)) (key : Text) : List Text :=
  ((fields.filterMap binding?).filter (·.1 = key)).map (·.2)

theorem mem_specsFor {fields : List (Text × Value)} {key spec : Text} :
    spec ∈ specsFor fields key ↔ (key, spec) ∈ fields.filterMap binding? := by
  simp [specsFor]

theorem mem_firstKeys {p : Binding → Bool} {bindings : List Binding} {key : Text} :
    .text key ∈ firstKeys p bindings ↔ ∃ spec, (key, spec) ∈ bindings ∧ p (key, spec) = true := by
  simp [firstKeys]

/-! ## Both sides, read off the specs -/

/-- The rules of the key put a horn on `u` and on `o`. -/
def HornsBoth (l : Layout) (key : Value) : Prop :=
  ∃ rules, l.rulesOf key = .ok rules ∧ (∃ r ∈ rules, r.Horns .u) ∧ ∃ r ∈ rules, r.Horns .o

theorem exists_horns_of_rules {fields : List (Text × Value)} {key : Text} {rules : List Rule}
    (hrules : ∀ r, r ∈ rules ↔
      ∃ spec ∈ specsFor fields key, r ∈ (Spec.compile (.text key) (.text spec)).rules)
    (b : Base) :
    (∃ r ∈ rules, r.Horns b) ↔ ∃ spec ∈ specsFor fields key, Spec.Horns spec b := by
  constructor
  · rintro ⟨r, hr, hhorns⟩
    rcases (hrules r).1 hr with ⟨spec, hspec, hmem⟩
    exact ⟨spec, hspec, (Spec.exists_horns_iff (.text key)).1 ⟨r, hmem, hhorns⟩⟩
  · rintro ⟨spec, hspec, hhorns⟩
    rcases (Spec.exists_horns_iff (.text key)).2 hhorns with ⟨r, hmem, hr⟩
    exact ⟨r, (hrules r).2 ⟨spec, hspec, hmem⟩, hr⟩

section

variable {fields : List (Text × Value)} {l : Layout}
  (hl : Indexed (fields.filterMap binding?) l) (key : Text)
include hl

theorem mem_superKeys_iff :
    .text key ∈ l.superKeys ↔ ∃ spec ∈ specsFor fields key, Spec.WritesUo spec := by
  rw [hl.superKeys, mem_firstKeys]
  simp only [mem_specsFor, bindsSuper, decide_eq_true_eq, Spec.infix_lower_iff_writesUo]

/-- The rules of a key are those of its specs. -/
theorem exists_rulesOf :
    ∃ rules, l.rulesOf (.text key) = .ok rules ∧
      ∀ r, r ∈ rules ↔
        ∃ spec ∈ specsFor fields key, r ∈ (Spec.compile (.text key) (.text spec)).rules := by
  have hkey : (Value.text key).isKey = true := rfl
  refine ⟨_, by rw [hl.rulesOf, if_pos hkey], fun r => ?_⟩
  simp only [hl.rules, List.mem_filter, List.mem_flatMap, mem_specsFor, Prod.exists]
  constructor
  · rintro ⟨⟨key', spec, hbinding, hr⟩, hsame⟩
    -- A rule belongs to the key that it was compiled for.
    rw [Spec.key_of_mem_compile hr] at hsame
    obtain rfl : key' = key := Value.text.inj (Value.sameScalar_text_iff.1 hsame)
    exact ⟨spec, hbinding, hr⟩
  · rintro ⟨spec, hbinding, hr⟩
    have hsame : r.key.sameScalar (.text key) = true := by
      rw [Spec.key_of_mem_compile hr]
      exact Value.sameScalar_text_iff.2 rfl
    exact ⟨⟨key, spec, hbinding, hr⟩, hsame⟩

theorem hornsBoth_iff :
    l.HornsBoth (.text key) ↔
      (∃ spec ∈ specsFor fields key, Spec.Horns spec .u) ∧
        ∃ spec ∈ specsFor fields key, Spec.Horns spec .o := by
  rcases exists_rulesOf hl key with ⟨rules, hrules, hmem⟩
  rw [← exists_horns_of_rules hmem .u, ← exists_horns_of_rules hmem .o, HornsBoth, hrules]
  simp

end

/-! ## Super keys and the keys that horn both letters -/

/-- A spec that writes `uo` horns both letters, and one that horns either of them writes it. -/
def SpeaksTrue (spec : Text) : Prop :=
  (Spec.WritesUo spec → Spec.Horns spec .u ∧ Spec.Horns spec .o) ∧
    (Spec.Horns spec .u ∨ Spec.Horns spec .o → Spec.WritesUo spec)

/-- A key of a definition is super exactly if one of its specs writes a `u` right before an `o`, and
it horns both letters exactly if for each of them one of its specs does. So the two agree at a key
exactly if the two conditions on its specs do; they agree wherever every spec of the key horns both
letters if it writes `uo`, and none if it does not. -/
theorem superKeys_iff_hornsBoth_iff (name : Value) (fields : List (Text × Value)) :
    ∃ l, (compile name (.object fields)).collect.1 = .ok l ∧
      ∀ key : Text,
        (.text key ∈ l.superKeys ↔ ∃ spec ∈ specsFor fields key, Spec.WritesUo spec) ∧
        (l.HornsBoth (.text key) ↔
          (∃ spec ∈ specsFor fields key, Spec.Horns spec .u) ∧
            ∃ spec ∈ specsFor fields key, Spec.Horns spec .o) ∧
        ((.text key ∈ l.superKeys ↔ l.HornsBoth (.text key)) ↔
          ((∃ spec ∈ specsFor fields key, Spec.WritesUo spec) ↔
            (∃ spec ∈ specsFor fields key, Spec.Horns spec .u) ∧
              ∃ spec ∈ specsFor fields key, Spec.Horns spec .o)) ∧
        ((∀ spec ∈ specsFor fields key, SpeaksTrue spec) →
          (.text key ∈ l.superKeys ↔ l.HornsBoth (.text key))) := by
  have hl := indexed_addAll name (fields.filterMap binding?)
  refine ⟨_, by rw [collect_compile], fun key => ?_⟩
  have hsuper := mem_superKeys_iff hl key
  have hboth := hornsBoth_iff hl key
  refine ⟨hsuper, hboth, by rw [hsuper, hboth], fun htrue => ?_⟩
  rw [hsuper, hboth]
  constructor
  · rintro ⟨spec, hspec, hwrites⟩
    rcases (htrue spec hspec).1 hwrites with ⟨hu, ho⟩
    exact ⟨⟨spec, hspec, hu⟩, spec, hspec, ho⟩
  · rintro ⟨⟨spec, hspec, hu⟩, -⟩
    exact ⟨spec, hspec, (htrue spec hspec).2 (Or.inl hu)⟩

/-- The spec that horns `u`, `o` and marks `a`, with a letter to append. -/
theorem superKeys_iff_hornsBoth_telex :
    (∀ spec ∈ specsFor [(['w'], .text ['U', 'O', 'A', '_', 'Ư', 'Ơ', 'Ă', '_', '_', 'Ư'])] ['w'],
      SpeaksTrue spec) ∧
    ∃ l, (compile (.text ['X']) (.object
        [(['w'], .text ['U', 'O', 'A', '_', 'Ư', 'Ơ', 'Ă', '_', '_', 'Ư'])])).collect.1 = .ok l ∧
      (.text ['w'] ∈ l.superKeys ↔ l.HornsBoth (.text ['w'])) := by
  have hruns : Spec.runsOf ['U', 'O', 'A', '_', 'Ư', 'Ơ', 'Ă', '_', '_', 'Ư'] =
      ⟨[(['U', 'O', 'A'], ['Ư', 'Ơ', 'Ă'])], ['ư']⟩ := by
    decide +kernel
  have hpair : ((['U', 'O', 'A'] : Text), (['Ư', 'Ơ', 'Ă'] : Text)) ∈
      (Spec.runsOf ['U', 'O', 'A', '_', 'Ư', 'Ơ', 'Ă', '_', '_', 'Ư']).pairs := by
    rw [hruns]
    exact List.mem_singleton.2 rfl
  have hwrites : Spec.WritesUo ['U', 'O', 'A', '_', 'Ư', 'Ơ', 'Ă', '_', '_', 'Ư'] :=
    ⟨'U', 'O', ⟨[], _, rfl⟩, by decide +kernel, by decide +kernel⟩
  have hu : Spec.Horns ['U', 'O', 'A', '_', 'Ư', 'Ơ', 'Ă', '_', '_', 'Ư'] .u :=
    .pair (p := 'U') (q := 'Ư') hpair (by decide) (by decide +kernel) (by decide +kernel)
  have ho : Spec.Horns ['U', 'O', 'A', '_', 'Ư', 'Ơ', 'Ă', '_', '_', 'Ư'] .o :=
    .pair (p := 'O') (q := 'Ơ') hpair (by decide) (by decide +kernel) (by decide +kernel)
  have htrue : ∀ spec ∈ specsFor
      [(['w'], .text ['U', 'O', 'A', '_', 'Ư', 'Ơ', 'Ă', '_', '_', 'Ư'])] ['w'],
      SpeaksTrue spec := by
    intro spec hspec
    rw [List.mem_singleton.1 hspec]
    exact ⟨fun _ => ⟨hu, ho⟩, fun _ => hwrites⟩
  rcases superKeys_iff_hornsBoth_iff (.text ['X'])
    [(['w'], .text ['U', 'O', 'A', '_', 'Ư', 'Ơ', 'Ă', '_', '_', 'Ư'])] with ⟨l, hl, hkeys⟩
  exact ⟨htrue, l, hl, (hkeys ['w']).2.2.2 htrue⟩

/-- A spec that writes `o` before `u` horns both letters, and its key is no super key. -/
theorem superKeys_lack_reversed :
    ∃ l, (compile (.text ['X']) (.object [(['w'], .text ['O', 'U', '_', 'Ơ', 'Ư'])])).collect.1 =
        .ok l ∧
      ¬(.text ['w'] ∈ l.superKeys ↔ l.HornsBoth (.text ['w'])) := by
  have hruns : Spec.runsOf ['O', 'U', '_', 'Ơ', 'Ư'] = ⟨[(['O', 'U'], ['Ơ', 'Ư'])], []⟩ := by
    decide +kernel
  have hpair : ((['O', 'U'] : Text), (['Ơ', 'Ư'] : Text)) ∈
      (Spec.runsOf ['O', 'U', '_', 'Ơ', 'Ư']).pairs := by
    rw [hruns]
    exact List.mem_singleton.2 rfl
  have hnot : ¬Spec.WritesUo ['O', 'U', '_', 'Ơ', 'Ư'] := by
    rw [← Spec.infix_lower_iff_writesUo]
    decide +kernel
  have hl := indexed_addAll (.text ['X']) (List.filterMap binding?
    [((['w'] : Text), Value.text ['O', 'U', '_', 'Ơ', 'Ư'])])
  have hspecs : specsFor [(['w'], .text ['O', 'U', '_', 'Ơ', 'Ư'])] ['w'] =
      [(['O', 'U', '_', 'Ơ', 'Ư'] : Text)] := rfl
  refine ⟨_, by rw [collect_compile], ?_⟩
  rw [mem_superKeys_iff hl, hornsBoth_iff hl, hspecs]
  simp only [List.mem_singleton, exists_eq_left]
  intro hagree
  refine hnot (hagree.2 ⟨?_, ?_⟩)
  · exact .pair (p := 'U') (q := 'Ư') hpair (by decide) (by decide +kernel) (by decide +kernel)
  · exact .pair (p := 'O') (q := 'Ơ') hpair (by decide) (by decide +kernel) (by decide +kernel)

end Layout
end QuocNgu
