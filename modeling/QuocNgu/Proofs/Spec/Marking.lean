import QuocNgu.Proofs.Letter.Lowering
import QuocNgu.Spec

/-!
# Proofs.Spec.Marking — what the mark rules of a spec do to their letters

* `Origin`               : the shapes of the rules that a mark spec compiles to
* `origin_of_mem`        : every compiled rule has one of these shapes
* `setMark_setTone`      : a mark put on under a tone, seen from the texts of two letters
* `compileMark_marks`    : a compiled mark turns its target into its result, whatever the tone

A pair of runs and the final run derive their marks in different ways. Both end with two small
letters of one base, the second of which has the mark of the rule; the rest is one equation.
-/

namespace QuocNgu

namespace Letter

/-! ## Letters in lowered texts -/

theorem lower_toText (l : Letter) : Text.lower l.toText = l.small.toText := by
  have hpoint := lowerPoint_toChar l
  simp only [toText, Text.lower, Text.lowerFrom, if_neg (toChar_ne_sigma l), hpoint]
  rfl

/-- A code point is lowered to a letter only if it is one, and then to the small letter. -/
theorem ofText?_lower (p : Point) : ofText? (Text.lower [p]) = (ofPoint? p).map small := by
  cases hp : ofPoint? p with
  | some l =>
      rw [eq_toChar_of_ofPoint? hp]
      calc
        ofText? (Text.lower [.char l.toChar]) = ofText? l.small.toText :=
          congrArg ofText? (lower_toText l)
        _ = some l.small := ofText?_toText l.small
  | none =>
      by_cases hsigma : p = 'Σ'
      · subst hsigma
        decide +kernel
      · have hlower : Text.lower [p] = Text.lowerPoint p := by
          simp [Text.lower, Text.lowerFrom, hsigma]
        cases p with
        | half offset => simp [hlower, Text.lowerPoint, ofText?, ofPoint?]
        | char c =>
            rw [hlower]
            by_cases hdotted : c = '\u0130'
            · -- Two code points come out.
              simp [Text.lowerPoint, Text.lowerChar, hdotted, ofText?]
            · have hform : ofPoint? (.char (Char.ofNat (Text.lowerCode c.toNat))) = none :=
                ofChar?_lowerCode hp
              simpa [Text.lowerPoint, Text.lowerChar, hdotted, ofText?] using hform

/-- Capitals do not survive lower-casing. -/
theorem upper_of_lower_eq_toText {t : Text} {l : Letter} (ht : t.lower = l.toText) :
    l.upper = false := by
  have hsmall : l.small.toText = l.toText := by
    calc
      l.small.toText = Text.lower l.toText := (lower_toText l).symm
      _ = t.lower.lower := by
            rw [ht]
      _ = t.lower := Text.lower_lower t
      _ = l.toText := ht
  rw [← toText_inj.1 hsmall]
  rfl

/-! ## Edits of texts by code -/

theorem setMark_setTone {source target : Letter} (hbase : source.base = target.base)
    (hupper : source.upper = target.upper) (t : Tone) :
    setMark (setTone source.toText t.code) target.mark.code = setTone target.toText t.code := by
  calc
    setMark (setTone source.toText t.code) target.mark.code
        = ((source.withTone t).withMark target.mark).toText := by
          rw [setTone_toText, setMark_toText]
    _ = (target.withTone t).toText := by
          rw [withMark_withTone hbase hupper]
    _ = setTone target.toText t.code := (setTone_toText target t).symm

/-- A mark is found between texts that are lowered to letters of one base; it is that of the second
letter. -/
theorem markBetween?_cases {s t : Text} {m : Mark} (hm : markBetween? s t = some m) :
    ∃ source target : Letter, s.lower = source.toText ∧ t.lower = target.toText ∧
      source.base = target.base ∧ target.mark = m := by
  unfold markBetween? at hm
  split at hm
  · next source target hsource htarget =>
      split at hm
      · next hsame =>
          have hboth : source.base = target.base ∧ source.upper = target.upper := by
            simpa using hsame
          exact ⟨source, target, eq_toText_of_ofText? hsource, eq_toText_of_ofText? htarget,
            hboth.1, Option.some.inj hm⟩
      · cases hm
  · cases hm

theorem markOf_cases {p : Point} (hp : markOf [p] ≠ .plain) :
    ∃ l : Letter, p = .char l.toChar ∧ markOf [p] = l.mark := by
  cases hletter : ofPoint? p with
  | none =>
      exact absurd (by simp [markOf, ofText?, hletter]) hp
  | some l =>
      exact ⟨l, eq_toChar_of_ofPoint? hletter, by simp [markOf, ofText?, hletter]⟩

end Letter

namespace Rule

@[simp]
theorem kind?_append (key : Value) (p : Point) (appended : List Rule) :
    (append key p appended).kind? = some .append := rfl

@[simp]
theorem kind?_mark (key : Value) (m : Mark) (target : Text) (result : Point)
    (appended : List Rule) : (mark key m target result appended).kind? = some .mark := rfl

/-- Rules that append the letters of a text one by one. -/
def appendEach (key : Value) (t : Text) : List Rule := t.map fun p => append key p []

end Rule

namespace Spec

/-! ## The shapes of compiled rules -/

/-- A rule appends a letter, or marks the source of a pair, or marks the first letter of a final
run. The letters that follow the first one of a final run are appended to its rule. -/
inductive Origin (key : Value) : Rule → Prop where
  | append (p : Point) (following : Text) :
      Origin key (Rule.append key p (Rule.appendEach key following))
  | pair {source target : Point} {m : Mark}
      (found : Letter.markBetween? [source] [target] = some m) :
      Origin key (Rule.mark key m (Text.lower [source]) target [])
  | final {first : Point} (following : Text) (marked : Letter.markOf [first] ≠ .plain) :
      Origin key (Rule.mark key (Letter.markOf [first]) (Text.lower [Letter.stripped first]) first
        (Rule.appendEach key following))

variable {key : Value} {r : Rule}

theorem origin_of_mem_pairItems {source target : Text} {item : Item}
    (hitem : item ∈ pairItems key source target) (hrule : item.rule? = some r) : Origin key r := by
  unfold pairItems at hitem
  split at hitem
  · rcases List.mem_map.1 hitem with ⟨p, -, rfl⟩
    cases hrule
    exact .append p []
  · rcases List.mem_map.1 hitem with ⟨⟨s, t⟩, -, rfl⟩
    simp only [markItem] at hrule
    split at hrule
    · next m found =>
        cases hrule
        exact .pair found
    · cases hrule

theorem origin_of_mem_finalRules {run : Text} (hr : r ∈ finalRules key run) : Origin key r := by
  cases run with
  | nil =>
      cases hr
  | cons first following =>
      obtain rfl : r = finalRule key first following := by simpa [finalRules] using hr
      -- The first letter of the run is marked if it has a mark, and appended if it has none.
      simp only [finalRule]
      split
      · exact .append first _
      · next hmarked =>
          have hmark : Letter.markOf [first] ≠ .plain := fun hplain => hmarked (by simp [hplain])
          exact .final _ hmark

/-- A spec without rules is reported, and has none all the same. -/
theorem rules_compileRuns (key : Value) (spec : Text) :
    (compileRuns key spec).rules =
      (items key (runsOf spec)).filterMap Item.rule? ++ finalRules key (runsOf spec).final := by
  simp only [compileRuns]
  split
  · next hempty => exact (List.isEmpty_iff.1 hempty).symm
  · rfl

theorem origin_of_mem {spec : Text} (hr : r ∈ (compileMark key (.text spec)).rules) :
    Origin key r := by
  simp only [compileMark] at hr
  split at hr
  · -- A well-formed spec: the rules of its pairs, and after them that of its final run.
    rw [rules_compileRuns] at hr
    rcases List.mem_append.1 hr with hpairs | hfinal
    · rcases List.mem_filterMap.1 hpairs with ⟨item, hitem, hrule⟩
      rcases List.mem_flatMap.1 hitem with ⟨⟨source, target⟩, -, hmem⟩
      exact origin_of_mem_pairItems hmem hrule
    · exact origin_of_mem_finalRules hfinal
  · simp [unrecognized] at hr

/-! ## Mark rules -/

/-- A rule that marks has a small letter to mark and a letter of the same base that bears the
mark. -/
theorem Origin.letters (horigin : Origin key r) (hkind : r.kind? = some .mark) :
    ∃ (source target : Letter) (p : Point), r.effect = .integer target.mark.code ∧
      r.target = .text source.toText ∧ r.result = .text [p] ∧ Text.lower [p] = target.toText ∧
      source.base = target.base ∧ source.upper = false ∧ target.upper = false := by
  cases horigin with
  | append p following =>
      -- A rule that appends is of another kind.
      simp at hkind
  | @pair s t m found =>
      -- Both letters were found in lowered texts, so neither is a capital.
      rcases Letter.markBetween?_cases found with ⟨source, target, hsource, htarget, hbase, rfl⟩
      exact ⟨source, target, t, rfl, congrArg Value.text hsource, rfl, htarget, hbase,
        Letter.upper_of_lower_eq_toText hsource, Letter.upper_of_lower_eq_toText htarget⟩
  | @final first following marked =>
      -- The target is the first letter of the run without its mark and its tone.
      rcases Letter.markOf_cases marked with ⟨l, rfl, hmark⟩
      have hsource : Text.lower [Letter.stripped (.char l.toChar)] = l.bare.small.toText := by
        rw [Letter.stripped_toChar]
        exact Letter.lower_toText l.bare
      refine ⟨l.bare.small, l.small, .char l.toChar, ?_, congrArg Value.text hsource, rfl,
        Letter.lower_toText l, ?_, rfl, rfl⟩
      · rw [Rule.mark, hmark]
        rfl
      · simp [Letter.small]

/-- A compiled mark, put on its target under any tone, gives the result in lower case under the same
tone. -/
theorem compileMark_marks (key : Value) (spec : Text) (r : Rule)
    (hr : r ∈ (compileMark key (.text spec)).rules) (hkind : r.kind? = some .mark) :
    ∃ (m : Mark) (l : Letter) (p : Point),
      r.effect = .integer m.code ∧ m.code ≠ Mark.rawCode ∧
      r.target = .text l.toText ∧ l.upper = false ∧ r.result = .text [p] ∧
      ∀ t : Tone, Letter.setMark (Letter.setTone l.toText t.code) m.code =
        Letter.setTone (Text.lower [p]) t.code := by
  obtain ⟨source, target, p, heffect, htarget, hresult, hlower, hbase, hsource, hsmall⟩ :=
    (origin_of_mem hr).letters hkind
  have hraw : target.mark.code ≠ Mark.rawCode := by
    cases target.mark <;> decide
  refine ⟨target.mark, source, p, heffect, hraw, htarget, hsource, hresult, ?_⟩
  intro t
  rw [hlower]
  exact Letter.setMark_setTone hbase (hsource.trans hsmall.symm) t

/-- A final run after a pair, which is lowered before its first letter is marked. -/
theorem compileMark_marks_final_run :
    (Rule.mark (.text ['w']) .horn ['u'] 'ư' [Rule.append (.text ['w']) 'ơ' []] ∈
      (compileMark (.text ['w']) (.text ['D', '_', 'Đ', '_', '_', 'Ư', 'Ơ'])).rules ∧
    (Rule.mark (.text ['w']) .horn ['u'] 'ư' [Rule.append (.text ['w']) 'ơ' []]).kind? =
      some .mark) ∧
    ∃ (m : Mark) (l : Letter) (p : Point),
      Value.integer Mark.horn.code = .integer m.code ∧ m.code ≠ Mark.rawCode ∧
      Value.text ['u'] = .text l.toText ∧ l.upper = false ∧ Value.text ['ư'] = .text [p] ∧
      ∀ t : Tone, Letter.setMark (Letter.setTone l.toText t.code) m.code =
        Letter.setTone (Text.lower [p]) t.code := by
  have hruns : runsOf ['D', '_', 'Đ', '_', '_', 'Ư', 'Ơ'] = ⟨[(['D'], ['Đ'])], ['ư', 'ơ']⟩ := by
    decide +kernel
  have hfirst : Letter.markOf ['ư'] = .horn ∧ Text.lower [Letter.stripped 'ư'] = ['u'] := by
    decide +kernel
  have hmem : Rule.mark (.text ['w']) .horn ['u'] 'ư' [Rule.append (.text ['w']) 'ơ' []] ∈
      (compileMark (.text ['w']) (.text ['D', '_', 'Đ', '_', '_', 'Ư', 'Ơ'])).rules := by
    rw [compileMark, if_pos (by decide), rules_compileRuns, hruns]
    apply List.mem_append_right
    simp [finalRules, finalRule, hfirst]
  have hkind : (Rule.mark (.text ['w']) .horn ['u'] 'ư'
      [Rule.append (.text ['w']) 'ơ' []]).kind? = some .mark := by
    decide
  exact ⟨⟨hmem, hkind⟩, compileMark_marks _ _ _ hmem hkind⟩

end Spec
end QuocNgu
