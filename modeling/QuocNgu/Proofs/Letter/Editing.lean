import QuocNgu.Letter

/-!
# Proofs.Letter.Editing — what the edits do to letters, code points and texts

* `tone_withTone`, `mark_withMark` : the coordinate that an edit changes, where the base admits it
* `withMark_withTone`              : a mark put on under a tone, with the tone kept
* `onPoint_toChar`                 : an edit of a code point that is a letter
* `unmarked_untoned`               : without its tone and then its mark, a code point is stripped
* `setTone_toText`, `setMark_toText` : edits of a text that is a letter, by code

The edits are described by the four coordinates of a letter; equations between them follow
coordinate by coordinate.
-/

namespace QuocNgu

namespace Base

theorem admits_iff {b : Base} {m : Mark} {t : Tone} :
    b.admits m t = true ↔ m ∈ b.marks ∧ t ∈ b.tones := by
  simp [admits]

theorem plain_mem_marks (b : Base) : Mark.plain ∈ b.marks := by
  cases b <;> decide

theorem level_mem_tones (b : Base) : Tone.level ∈ b.tones := by
  cases b <;> decide

/-- A base that lacks some tone takes none but the plain one. -/
theorem eq_level_of_not_mem_tones {b : Base} {t u : Tone} (ht : t ∉ b.tones) (hu : u ∈ b.tones) :
    u = .level := by
  cases b with
  | d =>
      simpa [tones] using hu
  | _ =>
      -- Every base but the consonant takes all tones.
      exact absurd t.mem_all ht

end Base

namespace Letter

variable {l : Letter} {m : Mark} {t : Tone}

theorem mark_mem_marks (l : Letter) : l.mark ∈ l.base.marks := (Base.admits_iff.1 l.admitted).1

theorem tone_mem_tones (l : Letter) : l.tone ∈ l.base.tones := (Base.admits_iff.1 l.admitted).2

/-! ## Coordinates of an edited letter -/

@[simp]
theorem base_withTone : (l.withTone t).base = l.base := by
  unfold withTone
  split <;> rfl

@[simp]
theorem upper_withTone : (l.withTone t).upper = l.upper := by
  unfold withTone
  split <;> rfl

@[simp]
theorem mark_withTone : (l.withTone t).mark = l.mark := by
  unfold withTone
  split <;> rfl

@[simp]
theorem tone_withTone : (l.withTone t).tone = if t ∈ l.base.tones then t else l.tone := by
  simp only [withTone, Base.admits_iff, l.mark_mem_marks, true_and]
  split <;> rfl

@[simp]
theorem base_withMark : (l.withMark m).base = l.base := by
  unfold withMark
  split <;> rfl

@[simp]
theorem upper_withMark : (l.withMark m).upper = l.upper := by
  unfold withMark
  split <;> rfl

@[simp]
theorem tone_withMark : (l.withMark m).tone = l.tone := by
  unfold withMark
  split <;> rfl

@[simp]
theorem mark_withMark : (l.withMark m).mark = if m ∈ l.base.marks then m else l.mark := by
  simp only [withMark, Base.admits_iff, l.tone_mem_tones, and_true]
  split <;> rfl

/-- The letter in lower case. -/
def small (l : Letter) : Letter := { l with upper := false }

@[simp]
theorem base_bare : l.bare.base = l.base := by
  simp [bare]

@[simp]
theorem upper_bare : l.bare.upper = l.upper := by
  simp [bare]

@[simp]
theorem mark_bare : l.bare.mark = .plain := by
  simp [bare, l.base.plain_mem_marks]

@[simp]
theorem tone_bare : l.bare.tone = .level := by
  simp [bare, l.base.level_mem_tones]

theorem bare_eq_self_iff : l.bare = l ↔ l.mark = .plain ∧ l.tone = .level := by
  constructor
  · intro hbare
    rw [← hbare]
    simp
  · intro h
    rcases h with ⟨hmark, htone⟩
    ext <;> simp [hmark, htone]

theorem bare_withTone : (l.withTone t).bare = l.bare := by
  ext <;> simp

theorem bare_bare : l.bare.bare = l.bare := by
  ext <;> simp

/-- Without the tone first and the mark second, or the other way round. -/
theorem withMark_plain_withTone_level : (l.withTone .level).withMark .plain = l.bare := by
  ext <;> simp [l.base.plain_mem_marks, l.base.level_mem_tones]

theorem small_withTone : (l.withTone t).small = l.small.withTone t := by
  ext <;> simp [small]

theorem small_bare : l.bare.small = l.small.bare := by
  ext <;> simp [small]

/-- A mark put on a toned letter gives the letter that has this mark, under the same tone. -/
theorem withMark_withTone {source target : Letter} (hbase : source.base = target.base)
    (hupper : source.upper = target.upper) :
    (source.withTone t).withMark target.mark = target.withTone t := by
  ext
  · simp [hbase]
  · simp [hupper]
  · simp [hbase, target.mark_mem_marks]
  · by_cases ht : t ∈ target.base.tones
    · simp [hbase, ht]
    · -- The base is the one that takes no tone, so both letters stand in the plain tone.
      have hsource := Base.eq_level_of_not_mem_tones ht (hbase ▸ source.tone_mem_tones)
      have htarget := Base.eq_level_of_not_mem_tones ht target.tone_mem_tones
      simp [hbase, ht, hsource, htarget]

/-! ## Code points that are letters -/

theorem ofPoint?_toChar (l : Letter) : ofPoint? (.char l.toChar) = some l := ofChar?_toChar l

theorem eq_toChar_of_ofPoint? {p : Point} (hp : ofPoint? p = some l) : p = .char l.toChar := by
  cases p with
  | char c =>
      rw [toChar_of_ofChar? hp]
  | half offset =>
      cases hp

@[simp]
theorem onPoint_toChar (edit : Letter → Letter) (l : Letter) :
    onPoint edit (.char l.toChar) = .char (edit l).toChar := by
  simp [onPoint, ofPoint?_toChar]

theorem onPoint_of_none (edit : Letter → Letter) {p : Point} (hp : ofPoint? p = none) :
    onPoint edit p = p := by
  simp [onPoint, hp]

@[simp]
theorem untoned_toChar (l : Letter) :
    untoned (.char l.toChar) = .char (l.withTone .level).toChar := onPoint_toChar _ l

@[simp]
theorem unmarked_toChar (l : Letter) :
    unmarked (.char l.toChar) = .char (l.withMark .plain).toChar := onPoint_toChar _ l

@[simp]
theorem stripped_toChar (l : Letter) : stripped (.char l.toChar) = .char l.bare.toChar :=
  onPoint_toChar _ l

theorem untoned_of_none {p : Point} (hp : ofPoint? p = none) : untoned p = p :=
  onPoint_of_none _ hp

theorem stripped_of_none {p : Point} (hp : ofPoint? p = none) : stripped p = p :=
  onPoint_of_none _ hp

/-- Taking the mark off a code point without tone strips it. -/
theorem unmarked_untoned (p : Point) : unmarked (untoned p) = stripped p := by
  cases hp : ofPoint? p with
  | none =>
      rw [untoned_of_none hp, stripped_of_none hp, unmarked, onPoint_of_none _ hp]
  | some l =>
      rw [eq_toChar_of_ofPoint? hp]
      simp [withMark_plain_withTone_level]

theorem stripped_untoned (p : Point) : stripped (untoned p) = stripped p := by
  cases hp : ofPoint? p with
  | none =>
      rw [untoned_of_none hp]
  | some l =>
      rw [eq_toChar_of_ofPoint? hp]
      simp [bare_withTone]

theorem stripped_stripped (p : Point) : stripped (stripped p) = stripped p := by
  cases hp : ofPoint? p with
  | none =>
      rw [stripped_of_none hp, stripped_of_none hp]
  | some l =>
      rw [eq_toChar_of_ofPoint? hp]
      simp [bare_bare]

/-! ## Texts that are letters -/

theorem toText_inj {l l' : Letter} : l.toText = l'.toText ↔ l = l' := by
  constructor
  · intro htext
    have hpoint : Point.char l.toChar = .char l'.toChar := List.singleton_inj.1 htext
    have hletters := congrArg ofPoint? hpoint
    simpa [ofPoint?_toChar] using hletters
  · rintro rfl
    rfl

@[simp]
theorem ofText?_toText (l : Letter) : ofText? l.toText = some l := ofPoint?_toChar l

theorem eq_toText_of_ofText? {t : Text} {l : Letter} (ht : ofText? t = some l) : t = l.toText := by
  unfold ofText? at ht
  split at ht
  · rw [eq_toChar_of_ofPoint? ht]
    rfl
  · cases ht

theorem setTone_toText (l : Letter) (t : Tone) :
    setTone l.toText t.code = (l.withTone t).toText := by
  simp [setTone, Tone.ofCode?_code, onText]

theorem setMark_toText (l : Letter) (m : Mark) :
    setMark l.toText m.code = (l.withMark m).toText := by
  simp [setMark, Mark.ofCode?_code, onText]

end Letter
end QuocNgu
