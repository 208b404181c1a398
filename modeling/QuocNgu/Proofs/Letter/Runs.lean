import Mathlib.Data.List.Induction
import QuocNgu.Letter.Request
import QuocNgu.Proofs.Letter.Editing

/-!
# Proofs.Letter.Runs — letters under runs of edits

* `Edit`                   : the edits of one text, with a code of any value where they take one
* `Edit.perform`, `performAll` : one edit of a value, and one edit after the other
* `Edit.toneFor?`, `Edit.markFor?` : what an edit gives to the letters of a base
* `lastTone?`, `lastMark?` : the last tone and the last mark that a run gives them
* `coordinate_applyAll`    : a coordinate of the letter that comes out is the last one given
* `letter_after_edits`     : so that only the order among tones and the order among marks counts

An edit sets one coordinate or leaves the letter alone. Which of the two it does hangs on the base
and on nothing else, and no edit changes the base.
-/

namespace QuocNgu
namespace Letter

/-! ## Edits -/

/-- The edits of a text that can be asked for. -/
inductive Edit where
  | setTone (code : Int)
  | clearTone
  | setMark (code : Int)
  | clearMark
  deriving DecidableEq, Repr

namespace Edit

/-- Asks for the edit of a value. -/
def perform (v : Value) : Edit → Except Fault Value
  | setTone code => Request.setTone.answer [v, .integer code]
  | clearTone => Request.clearTone.answer [v]
  | setMark code => Request.setMark.answer [v, .integer code]
  | clearMark => Request.clearMark.answer [v]

def isOfTone : Edit → Bool
  | setTone _ => true
  | clearTone => true
  | setMark _ => false
  | clearMark => false

def tone? : Edit → Option Tone
  | setTone code => Tone.ofCode? code
  | clearTone => some .level
  | _ => none

def mark? : Edit → Option Mark
  | setMark code => Mark.ofCode? code
  | clearMark => some .plain
  | _ => none

/-- The tone that an edit gives to the letters of a base, if it is one that they take. -/
def toneFor? (b : Base) (e : Edit) : Option Tone := e.tone?.filter (· ∈ b.tones)

def markFor? (b : Base) (e : Edit) : Option Mark := e.mark?.filter (· ∈ b.marks)

end Edit

def performAll (edits : List Edit) (v : Value) : Except Fault Value := edits.foldlM Edit.perform v

/-- What the last of the edits gives that gives anything. -/
def last? {α : Type} (gives : Edit → Option α) (edits : List Edit) : Option α :=
  (edits.filterMap gives).getLast?

/-- The last tone of a run that the letters of a base take. -/
def lastTone? (b : Base) (edits : List Edit) : Option Tone := last? (Edit.toneFor? b) edits

def lastMark? (b : Base) (edits : List Edit) : Option Mark := last? (Edit.markFor? b) edits

/-! ## One edit of a letter -/

/-- What an edit makes of a letter; it asks for a tone or for a mark, if for anything. -/
def apply (l : Letter) (e : Edit) : Letter :=
  let toned := e.tone?.elim l l.withTone
  e.mark?.elim toned toned.withMark

theorem bare_apply (l : Letter) (e : Edit) : (l.apply e).bare = l.bare := by
  cases htone : e.tone? <;> cases hmark : e.mark? <;> ext <;> simp [apply, htone, hmark]

theorem tone_apply (l : Letter) (e : Edit) :
    (l.apply e).tone = (e.toneFor? l.base).getD l.tone := by
  -- Putting on a mark keeps the tone, so only the first half counts.
  have hmarked : (l.apply e).tone = (e.tone?.elim l l.withTone).tone := by
    cases hmark : e.mark? <;> simp [apply, hmark]
  rw [hmarked]
  cases htone : e.tone? with
  | none => simp [Edit.toneFor?, htone]
  | some t =>
      by_cases ht : t ∈ l.base.tones <;> simp [Edit.toneFor?, Option.filter, htone, ht]

theorem mark_apply (l : Letter) (e : Edit) :
    (l.apply e).mark = (e.markFor? l.base).getD l.mark := by
  have htoned : (e.tone?.elim l l.withTone).mark = l.mark ∧
      (e.tone?.elim l l.withTone).base = l.base := by
    cases htone : e.tone? <;> simp
  cases hmark : e.mark? with
  | none => simp [apply, Edit.markFor?, hmark, htoned]
  | some m =>
      by_cases hm : m ∈ l.base.marks <;>
        simp [apply, Edit.markFor?, Option.filter, hmark, htoned, hm]

/-! ## One edit of a text -/

theorem setTone_eq (l : Letter) (code : Int) :
    setTone l.toText code = (l.apply (.setTone code)).toText := by
  simp only [setTone, apply, Edit.tone?, Edit.mark?, Option.elim_none]
  cases Tone.ofCode? code with
  | none => rfl
  | some t => simp [onText]

theorem setMark_eq (l : Letter) (code : Int) :
    setMark l.toText code = (l.apply (.setMark code)).toText := by
  simp only [setMark, apply, Edit.tone?, Edit.mark?, Option.elim_none]
  cases Mark.ofCode? code with
  | none => rfl
  | some m => simp [onText]

/-- A text and an integer can be looked up, so no edit fails. -/
theorem edit_toText (l : Letter) (code : Int) (change : Text → Int → Text) :
    Request.edit (.text l.toText) (.integer code) change = .ok (.text (change l.toText code)) := by
  simp only [Request.edit, Request.lookUp, ofText?_toText]
  rfl

theorem edit_of_none {t : Text} (ht : ofText? t = none) (code : Int)
    (change : Text → Int → Text) :
    Request.edit (.text t) (.integer code) change = .ok (.text t) := by
  simp only [Request.edit, Request.lookUp, ht]
  rfl

theorem perform_toText (l : Letter) (e : Edit) :
    e.perform (.text l.toText) = .ok (.text (l.apply e).toText) := by
  cases e with
  | setTone code =>
      have hedit := edit_toText l code setTone
      rw [setTone_eq] at hedit
      exact hedit
  | clearTone =>
      have hedit := edit_toText l Tone.level.code setTone
      rw [setTone_eq] at hedit
      exact hedit
  | setMark code =>
      have hedit := edit_toText l code setMark
      rw [setMark_eq] at hedit
      exact hedit
  | clearMark =>
      have hedit := edit_toText l Mark.plain.code setMark
      rw [setMark_eq] at hedit
      exact hedit

theorem perform_of_none {t : Text} (ht : ofText? t = none) (e : Edit) :
    e.perform (.text t) = .ok (.text t) := by
  cases e <;> exact edit_of_none ht _ _

/-! ## Runs -/

/-- What a run of edits makes of a letter. -/
def applyAll (l : Letter) (edits : List Edit) : Letter := edits.foldl apply l

section

variable {l : Letter} {e : Edit} {edits : List Edit}

theorem applyAll_concat : l.applyAll (edits ++ [e]) = (l.applyAll edits).apply e := by
  simp [applyAll]

theorem bare_applyAll (l : Letter) (edits : List Edit) : (l.applyAll edits).bare = l.bare := by
  induction edits using List.reverseRecOn with
  | nil => rfl
  | append_singleton edits e ih => rw [applyAll_concat, bare_apply, ih]

theorem base_applyAll : (l.applyAll edits).base = l.base := by
  have hbase := congrArg base (bare_applyAll l edits)
  simpa using hbase

theorem upper_applyAll : (l.applyAll edits).upper = l.upper := by
  have hupper := congrArg upper (bare_applyAll l edits)
  simpa using hupper

theorem last?_concat {α : Type} (gives : Edit → Option α) :
    last? gives (edits ++ [e]) = (gives e).or (last? gives edits) := by
  cases he : gives e <;> simp [last?, he]

/-- Edits that give nothing can be left out. -/
theorem last?_filter {α : Type} {gives : Edit → Option α} {kept : Edit → Bool}
    (hothers : ∀ e, kept e = false → gives e = none) :
    last? gives (edits.filter kept) = last? gives edits := by
  have hgives : ∀ e, (if kept e then gives e else none) = gives e := by
    intro e
    cases he : kept e with
    | true => rfl
    | false => exact (hothers e he).symm
  simp only [last?, List.filterMap_filter, hgives]

/-- A coordinate that each edit sets or keeps, as the base has it, is the last one set in a run. -/
theorem coordinate_applyAll {α : Type} {coordinate : Letter → α} {gives : Base → Edit → Option α}
    (hstep : ∀ l e, coordinate (apply l e) = (gives l.base e).getD (coordinate l)) :
    coordinate (l.applyAll edits) = (last? (gives l.base) edits).getD (coordinate l) := by
  induction edits using List.reverseRecOn with
  | nil => rfl
  | append_singleton edits e ih =>
      -- The last edit decides if it gives anything, and the edits before it do if not.
      rw [applyAll_concat, hstep, base_applyAll, ih, last?_concat]
      cases gives l.base e <;> rfl

theorem tone_applyAll : (l.applyAll edits).tone = (lastTone? l.base edits).getD l.tone :=
  coordinate_applyAll tone_apply

theorem mark_applyAll : (l.applyAll edits).mark = (lastMark? l.base edits).getD l.mark :=
  coordinate_applyAll mark_apply

/-- Edits of marks have no tone to give. -/
theorem lastTone?_filter (b : Base) :
    lastTone? b (edits.filter Edit.isOfTone) = lastTone? b edits := by
  apply last?_filter
  intro e he
  cases e with
  | setMark code => rfl
  | clearMark => rfl
  | _ => cases he

theorem lastMark?_filter (b : Base) :
    lastMark? b (edits.filter (!·.isOfTone)) = lastMark? b edits := by
  apply last?_filter
  intro e he
  cases e with
  | setTone code => rfl
  | clearTone => rfl
  | _ => cases he

/-- Runs with the same edits of tones and the same edits of marks, in any order between the two. -/
theorem applyAll_congr {edits' : List Edit}
    (htones : edits'.filter Edit.isOfTone = edits.filter Edit.isOfTone)
    (hmarks : edits'.filter (!·.isOfTone) = edits.filter (!·.isOfTone)) :
    l.applyAll edits' = l.applyAll edits := by
  have htone : lastTone? l.base edits' = lastTone? l.base edits := by
    rw [← lastTone?_filter, htones, lastTone?_filter]
  have hmark : lastMark? l.base edits' = lastMark? l.base edits := by
    rw [← lastMark?_filter, hmarks, lastMark?_filter]
  ext
  · rw [base_applyAll, base_applyAll]
  · rw [upper_applyAll, upper_applyAll]
  · rw [mark_applyAll, mark_applyAll, hmark]
  · rw [tone_applyAll, tone_applyAll, htone]

end

theorem performAll_toText (l : Letter) (edits : List Edit) :
    performAll edits (.text l.toText) = .ok (.text (l.applyAll edits).toText) := by
  induction edits generalizing l with
  | nil => rfl
  | cons e rest ih =>
      calc
        performAll (e :: rest) (.text l.toText)
            = e.perform (.text l.toText) >>= performAll rest := rfl
        _ = performAll rest (.text (l.apply e).toText) := by
              rw [perform_toText]
              rfl
        _ = .ok (.text (l.applyAll (e :: rest)).toText) := ih (l.apply e)

theorem performAll_of_none {t : Text} (ht : ofText? t = none) (edits : List Edit) :
    performAll edits (.text t) = .ok (.text t) := by
  induction edits with
  | nil => rfl
  | cons e rest ih =>
      calc
        performAll (e :: rest) (.text t) = e.perform (.text t) >>= performAll rest := rfl
        _ = performAll rest (.text t) := by
              rw [perform_of_none ht]
              rfl
        _ = .ok (.text t) := ih

theorem answer_strip_toText (l : Letter) :
    Request.strip.answer [.text l.toText] = .ok (.text l.bare.toText) := by
  simp only [Request.answer, Request.bareValue, Request.lookUp, ofText?_toText]
  rfl

/-- A run of edits leaves a text alone that is no letter. A letter keeps its base and its case, and
it ends with the last tone and the last mark of the run that its base takes, or with its own. So a
run in another order ends the same if the edits of tones and those of marks keep theirs. -/
theorem letter_after_edits (c : Text) (edits : List Edit) :
    (ofText? c = none → performAll edits (.text c) = .ok (.text c)) ∧
    (∀ l, ofText? c = some l → ∃ l' : Letter,
      performAll edits (.text c) = .ok (.text l'.toText) ∧
      Request.strip.answer [.text l'.toText] = Request.strip.answer [.text c] ∧
      l'.tone = (lastTone? l.base edits).getD l.tone ∧
      l'.mark = (lastMark? l.base edits).getD l.mark) ∧
    ∀ edits' : List Edit,
      edits'.filter Edit.isOfTone = edits.filter Edit.isOfTone →
      edits'.filter (!·.isOfTone) = edits.filter (!·.isOfTone) →
      performAll edits' (.text c) = performAll edits (.text c) := by
  refine ⟨fun hc => performAll_of_none hc edits, ?_, ?_⟩
  · intro l hl
    obtain rfl := eq_toText_of_ofText? hl
    refine ⟨l.applyAll edits, performAll_toText l edits, ?_, tone_applyAll, mark_applyAll⟩
    rw [answer_strip_toText, answer_strip_toText, bare_applyAll]
  · intro edits' htones hmarks
    cases hc : ofText? c with
    | none => rw [performAll_of_none hc, performAll_of_none hc]
    | some l =>
        obtain rfl := eq_toText_of_ofText? hc
        rw [performAll_toText, performAll_toText, applyAll_congr htones hmarks]

/-- A letter with a horn and a tone under edits that its base takes and others that it does not,
and a consonant. -/
theorem letter_after_edits_horn :
    let l : Letter := ⟨.o, true, .horn, .acute, rfl⟩
    let edits := [Edit.setTone 4, .setMark 1, .setTone 7, .setMark 2, .clearTone, .setTone 5]
    let edits' := [Edit.setMark 1, .setMark 2, .setTone 4, .setTone 7, .clearTone, .setTone 5]
    (ofText? ['b'] = none ∧ performAll edits (.text ['b']) = .ok (.text ['b'])) ∧
    (ofText? ['Ớ'] = some l ∧ ∃ l' : Letter,
      performAll edits (.text ['Ớ']) = .ok (.text l'.toText) ∧
      Request.strip.answer [.text l'.toText] = Request.strip.answer [.text ['Ớ']] ∧
      l'.tone = .dot ∧ l'.mark = .hat) ∧
    edits'.filter Edit.isOfTone = edits.filter Edit.isOfTone ∧
    edits'.filter (!·.isOfTone) = edits.filter (!·.isOfTone) ∧
    performAll edits' (.text ['Ớ']) = performAll edits (.text ['Ớ']) := by
  intro l edits edits'
  obtain ⟨hother, -, -⟩ := letter_after_edits ['b'] edits
  obtain ⟨-, hletter, horder⟩ := letter_after_edits ['Ớ'] edits
  have hnone : ofText? ['b'] = none := by decide +kernel
  have hsome : ofText? ['Ớ'] = some l := ofText?_toText l
  have htones : edits'.filter Edit.isOfTone = edits.filter Edit.isOfTone := rfl
  have hmarks : edits'.filter (!·.isOfTone) = edits.filter (!·.isOfTone) := rfl
  exact ⟨⟨hnone, hother hnone⟩, ⟨hsome, hletter l hsome⟩, htones, hmarks,
    horder edits' htones hmarks⟩

end Letter
end QuocNgu
