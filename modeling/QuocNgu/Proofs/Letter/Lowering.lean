import QuocNgu.Proofs.Letter.Editing
import QuocNgu.Proofs.Text.Lowering

/-!
# Proofs.Letter.Lowering — letters under lower-casing

* `lowerPoint_toChar`          : a letter is lowered to its small letter
* `stripped_of_mem_lowerPoint` : nothing else is lowered to a letter with a mark or a tone
* `Edited`                     : code points that edits of letters lead to
* `forall₂_edited_lower`       : editing before lowering is editing after it
* `strip_lower`                : stripping a text and lowering it change places

Letters are cased and never stepped over, so an edit next to a capital sigma cannot change what the
sigma is lowered to.
-/

namespace QuocNgu
namespace Letter

open Text

variable {l : Letter}

/-! ## Letters under lower-casing -/

theorem toChar_ne_sigma (l : Letter) : Point.char l.toChar ≠ 'Σ' := by
  intro hsigma
  have hnone : ofPoint? 'Σ' = none := by decide +kernel
  rw [← hsigma, ofPoint?_toChar] at hnone
  cases hnone

/-- The capitals are looked up in the table; a small letter is what a capital is lowered to. -/
theorem lowerPoint_toChar (l : Letter) :
    lowerPoint (.char l.toChar) = [.char l.small.toChar] := by
  have hcapital : ∀ l ∈ all, l.upper = true →
      lowerPoint (.char l.toChar) = [.char l.small.toChar] := by
    decide +kernel
  cases hupper : l.upper with
  | true =>
      exact hcapital l l.mem_all hupper
  | false =>
      -- Its capital is lowered to the letter, and what comes out of lowering stays as it is.
      have hsmall : l.small = l := by
        ext <;> simp [small, hupper]
      have hcapital' := hcapital { l with upper := true } (mem_all _) rfl
      have hlowered : Lowered (.char l.toChar) := by
        apply lowered_of_mem_lowerPoint (toChar_ne_sigma { l with upper := true })
        rw [hcapital', ← hsmall]
        simp [small]
      rw [hlowered.2, hsmall]

/-- Every letter lies in one of these ranges, which hold cased characters only. -/
def letterRanges : List (Nat × Nat) :=
  [(65, 90), (97, 122), (192, 214), (216, 246), (248, 442), (7680, 7957)]

theorem inRanges_letterRanges (l : Letter) : inRanges letterRanges l.toChar.toNat = true := by
  have hall : ∀ l ∈ all, inRanges letterRanges l.toChar.toNat = true := by
    decide +kernel
  exact hall l l.mem_all

theorem cased_toChar (l : Letter) : inRanges cased l.toChar.toNat = true := by
  have hsubset : ∀ range ∈ letterRanges, range ∈ cased := by
    decide +kernel
  rcases inRanges_iff.1 (inRanges_letterRanges l) with ⟨range, hrange, hbounds⟩
  exact inRanges_iff.2 ⟨range, hsubset range hrange, hbounds⟩

theorem not_caseIgnorable_toChar (l : Letter) :
    inRanges caseIgnorable l.toChar.toNat = false := by
  have hapart : ∀ range ∈ letterRanges, ∀ other ∈ caseIgnorable,
      range.2 < other.1 ∨ other.2 < range.1 := by
    decide +kernel
  rcases inRanges_iff.1 (inRanges_letterRanges l) with ⟨range, hrange, hbounds⟩
  by_contra hignorable
  rcases inRanges_iff.1 (Bool.not_eq_false _ ▸ hignorable) with ⟨other, hother, hbounds'⟩
  have hsplit := hapart range hrange other hother
  omega

/-- Whether a run gives this lower-case form. -/
def gives (r : CaseRun) (n : Nat) : Bool :=
  r.image ≤ n && n ≤ r.image + (r.last - r.first) && (n - r.image) % r.stride == 0

theorem gives_iff {r : CaseRun} {n : Nat} :
    gives r n = true ↔
      (r.image ≤ n ∧ n ≤ r.image + (r.last - r.first)) ∧ (n - r.image) % r.stride = 0 := by
  simp [gives]

/-- A run gives no letter at all, or the letters among its forms are those of capitals. -/
theorem lowerRuns_give :
    ∀ r ∈ lowerRuns,
      (∀ range ∈ letterRanges, range.2 < r.image ∨ r.image + (r.last - r.first) < range.1) ∨
        ∀ l ∈ all, gives r l.toChar.toNat = true →
          ofChar? (Char.ofNat (r.first + (l.toChar.toNat - r.image))) ≠ none := by
  decide +kernel

/-- A character that a run lowers to a letter is a letter itself. -/
theorem ofChar?_ne_none_of_image {c : Char} {r : CaseRun} (hr : r ∈ lowerRuns)
    (hcovers : r.covers c.toNat = true)
    (himage : l.toChar.toNat = r.image + (c.toNat - r.first)) : ofChar? c ≠ none := by
  rcases CaseRun.covers_iff.1 hcovers with ⟨⟨hfirst, hlast⟩, hstep⟩
  rcases lowerRuns_give r hr with hapart | hletters
  · -- No form of the run is a letter, so `l` cannot be one.
    rcases inRanges_iff.1 (inRanges_letterRanges l) with ⟨range, hrange, hbounds⟩
    have hsplit := hapart range hrange
    omega
  · -- The run gives `l`, and what it gives `l` for is a capital.
    have hgives : gives r l.toChar.toNat = true := by
      have hoffset : l.toChar.toNat - r.image = c.toNat - r.first := by omega
      exact gives_iff.2 ⟨⟨by omega, by omega⟩, hoffset ▸ hstep⟩
    have hcode : r.first + (l.toChar.toNat - r.image) = c.toNat := by omega
    have hcapital := hletters l l.mem_all hgives
    rwa [hcode, Char.ofNat_toNat] at hcapital

theorem ofChar?_lowerCode {c : Char} (hc : ofChar? c = none) :
    ofChar? (Char.ofNat (lowerCode c.toNat)) = none := by
  cases hletter : ofChar? (Char.ofNat (lowerCode c.toNat)) with
  | none => rfl
  | some l =>
      rcases lowerCode_cases c.toNat with hself | ⟨r, hr, hcovers, himage⟩
      · rw [hself, Char.ofNat_toNat, hc] at hletter
        cases hletter
      · -- The form is a letter, so it comes from one.
        have hcode : l.toChar.toNat = r.image + (c.toNat - r.first) := by
          rw [toChar_of_ofChar? hletter, himage, toNat_ofNat_image hr hcovers]
        exact absurd hc (ofChar?_ne_none_of_image hr hcovers hcode)

/-- No character other than a letter is lowered to a letter with a mark or a tone. -/
theorem stripped_of_mem_lowerPoint {p q : Point} (hp : ofPoint? p = none)
    (hq : q ∈ lowerPoint p) : stripped q = q := by
  cases p with
  | half offset =>
      obtain rfl : q = .half offset := by simpa [lowerPoint] using hq
      exact stripped_of_none hp
  | char c =>
      by_cases hdotted : c = '\u0130'
      · subst hdotted
        have hforms : ∀ form ∈ lowerPoint (.char '\u0130'), stripped form = form := by
          decide +kernel
        exact hforms q hq
      · -- One character comes out, and it is no letter.
        obtain rfl : q = .char (Char.ofNat (lowerCode c.toNat)) := by
          simpa [lowerPoint, lowerChar, hdotted] using hq
        exact stripped_of_none (ofChar?_lowerCode hp)

/-! ## Edits and lower-casing change places -/

/-- An edit that does not look at the case and has nothing to change in a bare letter. -/
structure IsPlainEdit (edit : Letter → Letter) : Prop where
  small_edit (l : Letter) : (edit l).small = edit l.small
  edit_bare {l : Letter} : l.bare = l → edit l = l

theorem isPlainEdit_id : IsPlainEdit id where
  small_edit _ := rfl
  edit_bare _ := rfl

theorem isPlainEdit_withTone_level : IsPlainEdit (·.withTone .level) where
  small_edit _ := small_withTone
  edit_bare hbare := by
    ext <;> simp [(bare_eq_self_iff.1 hbare).2]

theorem isPlainEdit_bare : IsPlainEdit bare where
  small_edit _ := small_bare
  edit_bare hbare := hbare

theorem IsPlainEdit.onPoint_eq_self {edit : Letter → Letter} (hedit : IsPlainEdit edit)
    {p : Point} (hp : stripped p = p) : onPoint edit p = p := by
  cases hletter : ofPoint? p with
  | none =>
      exact onPoint_of_none edit hletter
  | some l =>
      obtain rfl := eq_toChar_of_ofPoint? hletter
      have hbare : l.bare = l := by
        have hboth := congrArg ofPoint? hp
        simpa [ofPoint?_toChar] using hboth
      rw [onPoint_toChar, hedit.edit_bare hbare]

/-- One of the edits leads from the first code point to the second. -/
def Edited (edits : List (Letter → Letter)) (p q : Point) : Prop :=
  ∃ edit ∈ edits, q = onPoint edit p

section Edited

variable {edits : List (Letter → Letter)}

/-- An edited letter is still a letter, and nothing but letters is edited. -/
theorem Edited.cases {p q : Point} (hpq : Edited edits p q) :
    ofPoint? p = none ∧ q = p ∨
      ∃ l, p = .char l.toChar ∧ ∃ edit ∈ edits, q = .char (edit l).toChar := by
  rcases hpq with ⟨edit, hedit, rfl⟩
  cases hp : ofPoint? p with
  | none =>
      exact Or.inl ⟨rfl, onPoint_of_none edit hp⟩
  | some l =>
      obtain rfl := eq_toChar_of_ofPoint? hp
      exact Or.inr ⟨l, rfl, edit, hedit, onPoint_toChar edit l⟩

theorem casePreserving_edited (hedits : ∀ edit ∈ edits, IsPlainEdit edit) :
    CasePreserving (Edited edits) (Edited edits) where
  ignorable hpq := by
    rcases hpq.cases with ⟨-, rfl⟩ | ⟨l, rfl, edit, -, rfl⟩
    · rfl
    · exact (not_caseIgnorable_toChar l).trans (not_caseIgnorable_toChar _).symm
  cased hpq := by
    rcases hpq.cases with ⟨-, rfl⟩ | ⟨l, rfl, edit, -, rfl⟩
    · rfl
    · exact (cased_toChar l).trans (cased_toChar _).symm
  sigma hpq := by
    rcases hpq.cases with ⟨-, rfl⟩ | ⟨l, rfl, edit, -, rfl⟩
    · rfl
    · simp only [toChar_ne_sigma]
  sigmaForm hpq before after := by
    rcases hpq with ⟨edit, hedit, -⟩
    have hforms : stripped 'ς' = 'ς' ∧ stripped 'σ' = 'σ' := by
      decide +kernel
    have hstripped : stripped (lowerSigma before after) = lowerSigma before after := by
      simp only [lowerSigma]
      split
      · exact hforms.1
      · exact hforms.2
    exact ⟨edit, hedit, ((hedits edit hedit).onPoint_eq_self hstripped).symm⟩
  lowered {p q} hpq := by
    rcases hpq with ⟨edit, hedit, rfl⟩
    have hplain := hedits edit hedit
    cases hp : ofPoint? p with
    | none =>
        -- The edit leaves the code point alone, and its lower-case forms as well.
        rw [onPoint_of_none edit hp, List.forall₂_same]
        intro form hform
        have hstripped := stripped_of_mem_lowerPoint hp hform
        exact ⟨edit, hedit, (hplain.onPoint_eq_self hstripped).symm⟩
    | some l =>
        -- The small form of the edited letter is the edited small form.
        obtain rfl := eq_toChar_of_ofPoint? hp
        have hedited : Edited edits (.char l.small.toChar) (.char (edit l).small.toChar) := by
          refine ⟨edit, hedit, ?_⟩
          rw [onPoint_toChar, hplain.small_edit]
        simpa [lowerPoint_toChar] using hedited

/-- Letters edited one by one before lowering come out as if edited afterwards. -/
theorem forall₂_edited_lower (hedits : ∀ edit ∈ edits, IsPlainEdit edit) {t u : Text}
    (htu : List.Forall₂ (Edited edits) t u) : List.Forall₂ (Edited edits) t.lower u.lower :=
  forall₂_lower (casePreserving_edited hedits) htu

end Edited

theorem strip_lower (t : Text) : strip t.lower = (strip t).lower := by
  have hstripped : List.Forall₂ (Edited [bare]) t (strip t) := by
    simp only [strip, List.forall₂_map_right_iff, List.forall₂_same]
    intro p _
    exact ⟨bare, by simp, rfl⟩
  have hlowered : List.Forall₂ (Edited [bare]) t.lower (strip t).lower := by
    apply forall₂_edited_lower _ hstripped
    simp [isPlainEdit_bare]
  have hsame : List.Forall₂ (fun p q => stripped p = q) t.lower (strip t).lower := by
    refine hlowered.imp ?_
    intro p q hpq
    rcases hpq with ⟨edit, hedit, rfl⟩
    rw [List.mem_singleton.1 hedit]
    rfl
  rw [strip, ← List.forall₂_eq_eq_eq]
  exact List.forall₂_map_left_iff.2 hsame

end Letter
end QuocNgu
