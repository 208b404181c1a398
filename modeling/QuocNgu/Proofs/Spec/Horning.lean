import QuocNgu.Proofs.List.Basic
import QuocNgu.Proofs.Spec.Appending

/-!
# Proofs.Spec.Horning — the letters that a spec puts a horn on

* `Letter.isPlainOf`, `Letter.isHornedOf` : a letter of one base, plain or with a horn
* `pair_infix_lower_iff` : two plain letters side by side in a lowered text stood so before
* `Rule.Horns`           : a rule that puts a horn on the letters of a base
* `WritesUo`, `Horns`    : what a spec says of `u` and `o`, read off its text and off its runs
* `exists_horns_iff`     : the rules of a spec horn a letter exactly if the spec does

A spec that writes `uo` need not horn either letter, and one that horns both need not write it.
-/

namespace QuocNgu

/-! ## Plain and horned letters of one base -/

namespace Letter

/-- The small letter of a base without mark and tone. -/
def plainOf (b : Base) : Letter where
  base := b
  upper := false
  mark := .plain
  tone := .level
  admitted := Base.admits_iff.2 ⟨b.plain_mem_marks, b.level_mem_tones⟩

/-- The plain letter of a base, in either case. -/
def isPlainOf (b : Base) (p : Point) : Bool :=
  (ofPoint? p).any fun l => l.base = b && l.mark = .plain && l.tone = .level

/-- A letter of a base with a horn, in either case and under any tone. -/
def isHornedOf (b : Base) (p : Point) : Bool :=
  (ofPoint? p).any fun l => l.base = b && l.mark = .horn

example : (plainOf .u).toText = ['u'] ∧ (plainOf .o).toText = ['o'] := by decide

theorem isPlainOf_iff {b : Base} {p : Point} :
    isPlainOf b p = true ↔ (ofPoint? p).map small = some (plainOf b) := by
  cases hp : ofPoint? p with
  | none => simp [isPlainOf, hp]
  | some l => simp [isPlainOf, hp, Letter.ext_iff, small, plainOf, and_assoc]

/-- Nothing but the plain letter, small or capital, is lowered to the small one. -/
theorem lower_eq_plainOf_iff {b : Base} {p : Point} :
    Text.lower [p] = (plainOf b).toText ↔ isPlainOf b p = true := by
  rw [isPlainOf_iff, ← ofText?_lower]
  constructor
  · intro hlower
    rw [hlower, ofText?_toText]
  · exact eq_toText_of_ofText?

end Letter

/-! ## Letters side by side in a lowered text -/

namespace Text

open Letter

/-- What one code point of a text is lowered to, the code points before it given nearest first. -/
def formOf (before : Text) (p : Point) (after : Text) : Text :=
  if p = 'Σ' then [lowerSigma before after] else lowerPoint p

theorem lowerFrom_cons (before : Text) (p : Point) (after : Text) :
    lowerFrom before (p :: after) = formOf before p after ++ lowerFrom (p :: before) after := rfl

/-- The dotted capital is lowered to an `i` and a dot, so that base has to be left out. -/
theorem formOf_of_mem {b : Base} (hb : b ≠ .i) {before after : Text} {p : Point}
    (hmem : .char (plainOf b).toChar ∈ formOf before p after) : isPlainOf b p = true := by
  unfold formOf at hmem
  by_cases hsigma : p = 'Σ'
  · rw [if_pos hsigma, List.mem_singleton] at hmem
    have hforms : ∀ b : Base, .char (plainOf b).toChar ≠ (.char 'ς' : Point) ∧
        .char (plainOf b).toChar ≠ (.char 'σ' : Point) := by
      intro b
      cases b <;> decide
    unfold lowerSigma at hmem
    split at hmem
    · exact absurd hmem (hforms b).1
    · exact absurd hmem (hforms b).2
  · rw [if_neg hsigma] at hmem
    have hlower : lower [p] = lowerPoint p := by
      simp [lower, lowerFrom, hsigma]
    rw [← lower_eq_plainOf_iff, hlower]
    cases p with
    | half offset => simp [lowerPoint] at hmem
    | char c =>
        by_cases hdotted : c = '\u0130'
        · -- Neither of the two code points is a plain letter of another base.
          have hform : lowerPoint (.char c) = ['i', '\u0307'] := by
            simp [lowerPoint, lowerChar, hdotted]
          rw [hform] at hmem
          cases b with
          | i => exact absurd rfl hb
          | _ => exact absurd hmem (by decide)
        · have hform : lowerPoint (.char c) = [.char (Char.ofNat (lowerCode c.toNat))] := by
            simp [lowerPoint, lowerChar, hdotted]
          rw [hform, List.mem_singleton] at hmem
          rw [hform, ← hmem]
          rfl

theorem formOf_plain {b : Base} {before after : Text} {p : Point} (hp : isPlainOf b p = true) :
    formOf before p after = [.char (plainOf b).toChar] := by
  rcases Option.map_eq_some_iff.1 (isPlainOf_iff.1 hp) with ⟨l, hl, hsmall⟩
  rw [eq_toChar_of_ofPoint? hl, formOf, if_neg (toChar_ne_sigma l), lowerPoint_toChar, hsmall]

theorem formOf_ne_nil (before : Text) (p : Point) (after : Text) : formOf before p after ≠ [] := by
  unfold formOf
  split
  · exact List.cons_ne_nil _ _
  · exact lowerPoint_ne_nil p

theorem head?_lowerFrom_iff {b : Base} (hb : b ≠ .i) {before t : Text} :
    (lowerFrom before t).head? = some (.char (plainOf b).toChar) ↔
      ∃ p, t.head? = some p ∧ isPlainOf b p = true := by
  cases t with
  | nil => simp [lowerFrom]
  | cons p after =>
      rw [lowerFrom_cons, List.head?_append_of_ne_nil _ (formOf_ne_nil before p after)]
      by_cases hp : isPlainOf b p = true
      · simp [formOf_plain hp, hp]
      · have hform : (formOf before p after).head? ≠ some (.char (plainOf b).toChar) := by
          intro hhead
          exact hp (formOf_of_mem hb (List.mem_of_head? hhead))
        simp [hform, hp]

/-- By induction on the text: each of its code points comes to a form of its own, and a form that
holds a plain letter is that letter alone. -/
theorem pair_infix_lowerFrom_iff {b b' : Base} (hb : b ≠ .i) (hb' : b' ≠ .i) {before t : Text} :
    [.char (plainOf b).toChar, .char (plainOf b').toChar] <:+: lowerFrom before t ↔
      ∃ p q, [p, q] <:+: t ∧ isPlainOf b p = true ∧ isPlainOf b' q = true := by
  induction t generalizing before with
  | nil => simp [lowerFrom]
  | cons p after ih =>
      have hright : (∃ r q, [r, q] <:+: p :: after ∧ isPlainOf b r = true ∧ isPlainOf b' q = true) ↔
          (isPlainOf b p = true ∧ ∃ q, after.head? = some q ∧ isPlainOf b' q = true) ∨
            ∃ r q, [r, q] <:+: after ∧ isPlainOf b r = true ∧ isPlainOf b' q = true := by
        simp only [pair_infix_cons, or_and_right, exists_or]
        constructor
        · rintro (⟨r, q, ⟨rfl, hq⟩, hr, hq'⟩ | h)
          · exact Or.inl ⟨hr, q, hq, hq'⟩
          · exact Or.inr h
        · rintro (⟨hp, q, hq, hq'⟩ | h)
          · exact Or.inl ⟨p, q, ⟨rfl, hq⟩, hp, hq'⟩
          · exact Or.inr h
      rw [hright, lowerFrom_cons]
      by_cases hp : isPlainOf b p = true
      · rw [formOf_plain hp, List.singleton_append, pair_infix_cons, head?_lowerFrom_iff hb', ih]
        simp [hp]
      · -- Its form holds nothing that the pair could start with.
        have hform : .char (plainOf b).toChar ∉ formOf before p after :=
          fun hmem => hp (formOf_of_mem hb hmem)
        rw [pair_infix_append hform, ih]
        simp [hp]

theorem pair_infix_lower_iff {b b' : Base} (hb : b ≠ .i) (hb' : b' ≠ .i) {t : Text} :
    [.char (plainOf b).toChar, .char (plainOf b').toChar] <:+: t.lower ↔
      ∃ p q, [p, q] <:+: t ∧ isPlainOf b p = true ∧ isPlainOf b' q = true :=
  pair_infix_lowerFrom_iff hb hb'

end Text

/-! ## Rules that put a horn on a letter -/

/-- The rule marks the small letter of the base with a horn. -/
structure Rule.Horns (r : Rule) (b : Base) : Prop where
  kind : r.kind? = some .mark
  effect : r.effect = .integer Mark.horn.code
  target : r.target = .text (Letter.plainOf b).toText

theorem Rule.horns_mark_iff {key : Value} {m : Mark} {target : Text} {result : Point}
    {appended : List Rule} {b : Base} :
    (Rule.mark key m target result appended).Horns b ↔
      m = .horn ∧ target = (Letter.plainOf b).toText := by
  have hcode : m.code = Mark.horn.code ↔ m = .horn := by
    cases m <;> decide
  constructor
  · intro h
    exact ⟨hcode.1 (Value.integer.inj h.effect), Value.text.inj h.target⟩
  · rintro ⟨rfl, rfl⟩
    exact ⟨rfl, rfl, rfl⟩

theorem Rule.not_horns_append {key : Value} {p : Point} {appended : List Rule} {b : Base} :
    ¬(Rule.append key p appended).Horns b := by
  intro h
  simpa using h.kind

namespace Spec

/-! ## What a spec says of a letter -/

/-- Somewhere a plain `u` stands right before a plain `o`, each in either case. -/
def WritesUo (spec : Text) : Prop :=
  ∃ p q, [p, q] <:+: spec ∧ Letter.isPlainOf .u p = true ∧ Letter.isPlainOf .o q = true

/-- Somewhere in its pairs a spec has the plain letter in the source and a horned one in its place
in the target, or its final run starts with a horned one and goes on. -/
inductive Horns (spec : Text) (b : Base) : Prop where
  | pair {source target : Text} {p q : Point} (hpair : (source, target) ∈ (runsOf spec).pairs)
      (hplace : (p, q) ∈ source.zip target) (hsource : Letter.isPlainOf b p = true)
      (htarget : Letter.isHornedOf b q = true)
  | final {first : Point} {following : Text} (hfinal : (runsOf spec).final = first :: following)
      (hmore : following ≠ []) (hfirst : Letter.isHornedOf b first = true)

theorem infix_lower_iff_writesUo {spec : Text} :
    (['u', 'o'] : Text) <:+: spec.lower ↔ WritesUo spec := by
  have hletters : (['u', 'o'] : Text) =
      [.char (Letter.plainOf .u).toChar, .char (Letter.plainOf .o).toChar] := by
    decide
  rw [hletters]
  exact Text.pair_infix_lower_iff (by decide) (by decide)

/-! ## The rules of a spec -/

variable (key : Value) {b : Base}

/-- A place of a pair gives a rule with a horn exactly if it has the letter and the letter
horned. -/
theorem horns_place_iff {p q : Point} :
    (Letter.sharesBase p q = true ∧
      (Rule.mark key (Letter.markOf [q]) (Text.lower [p]) q []).Horns b) ↔
      Letter.isPlainOf b p = true ∧ Letter.isHornedOf b q = true := by
  rw [Rule.horns_mark_iff, Letter.lower_eq_plainOf_iff]
  cases hp : Letter.ofPoint? p with
  | none => simp [Letter.isPlainOf, hp]
  | some l =>
      cases hq : Letter.ofPoint? q with
      | none => simp [Letter.sharesBase, Letter.isHornedOf, hp, hq]
      | some l' =>
          have hmark : Letter.markOf [q] = l'.mark := by
            simp [Letter.markOf, Letter.ofText?, hq]
          simp only [Letter.sharesBase, Letter.isPlainOf, Letter.isHornedOf, hp, hq, hmark,
            Option.any_some, decide_eq_true_eq, Bool.and_eq_true]
          constructor
          · rintro ⟨hshared, hhorn, ⟨hbase, hplain⟩, hlevel⟩
            exact ⟨⟨⟨hbase, hplain⟩, hlevel⟩, hshared ▸ hbase, hhorn⟩
          · rintro ⟨⟨⟨hbase, hplain⟩, hlevel⟩, hbase', hhorn⟩
            exact ⟨hbase.trans hbase'.symm, hhorn, ⟨hbase, hplain⟩, hlevel⟩

theorem exists_horns_pairRules {source target : Text} :
    (∃ r ∈ pairRules key (source, target), r.Horns b) ↔
      ∃ p q, (p, q) ∈ source.zip target ∧ Letter.isPlainOf b p = true ∧
        Letter.isHornedOf b q = true := by
  by_cases hsource : source = []
  · subst hsource
    rw [pairRules_nil]
    simp only [Rule.appendEach, List.mem_map, List.zip_nil_left, List.not_mem_nil, false_and,
      exists_false, iff_false]
    rintro ⟨r, ⟨p, -, rfl⟩, hr⟩
    exact Rule.not_horns_append hr
  · rw [pairRules_eq key target hsource]
    simp only [List.mem_map, List.mem_filter, Prod.exists]
    constructor
    · rintro ⟨r, ⟨p, q, ⟨hplace, hshared⟩, rfl⟩, hr⟩
      exact ⟨p, q, hplace, (horns_place_iff key).1 ⟨hshared, hr⟩⟩
    · rintro ⟨p, q, hplace, hletters⟩
      rcases (horns_place_iff key).2 hletters with ⟨hshared, hr⟩
      exact ⟨_, ⟨p, q, ⟨hplace, hshared⟩, rfl⟩, hr⟩

/-- The first letter of a final run has a horn, and the letter under it is the plain one. -/
theorem horns_first_iff {p : Point} (appended : List Rule) :
    (Rule.mark key (Letter.markOf [p]) (Text.lower [Letter.stripped p]) p appended).Horns b ↔
      Letter.isHornedOf b p = true := by
  rw [Rule.horns_mark_iff, Letter.lower_eq_plainOf_iff]
  cases hp : Letter.ofPoint? p with
  | none => simp [Letter.markOf, Letter.ofText?, Letter.isHornedOf, hp]
  | some l =>
      have hbare : Letter.ofPoint? (.char l.bare.toChar) = some l.bare := Letter.ofPoint?_toChar _
      have hmark : Letter.markOf [p] = l.mark := by
        simp [Letter.markOf, Letter.ofText?, hp]
      rw [hmark, Letter.eq_toChar_of_ofPoint? hp, Letter.stripped_toChar]
      simp [Letter.isPlainOf, Letter.isHornedOf, hbare, Letter.ofPoint?_toChar, and_comm]

/-- A letter alone, or one without a mark, is appended. -/
theorem exists_horns_finalRules {run : Text} :
    (∃ r ∈ finalRules key run, r.Horns b) ↔
      ∃ first following, run = first :: following ∧ following ≠ [] ∧
        Letter.isHornedOf b first = true := by
  cases run with
  | nil => simp [finalRules]
  | cons first following =>
      simp only [finalRules, List.mem_singleton, exists_eq_left, List.cons.injEq]
      have hright : (∃ first' following', (first = first' ∧ following = following') ∧
          following' ≠ [] ∧ Letter.isHornedOf b first' = true) ↔
            following ≠ [] ∧ Letter.isHornedOf b first = true := by
        constructor
        · rintro ⟨first', following', ⟨rfl, rfl⟩, h⟩
          exact h
        · exact fun h => ⟨first, following, ⟨rfl, rfl⟩, h⟩
      rw [hright, finalRule]
      split
      · next happended =>
          -- The run is appended, so it is a letter alone or starts with one that has no mark.
          have hnone : ¬(following ≠ [] ∧ Letter.isHornedOf b first = true) := by
            rintro ⟨hmore, hhorned⟩
            rw [← horns_first_iff key []] at hhorned
            have hplain : Letter.markOf [first] = .plain := by simpa [hmore] using happended
            rw [Rule.horns_mark_iff, hplain] at hhorned
            cases hhorned.1
          exact ⟨fun h => absurd h Rule.not_horns_append, fun h => absurd h hnone⟩
      · next hmarked =>
          have hmore : following ≠ [] := by
            rintro rfl
            simp at hmarked
          simp [horns_first_iff, hmore]

theorem exists_horns_markRules {spec : Text} :
    (∃ r ∈ markRules key spec, r.Horns b) ↔ Horns spec b := by
  rw [markRules_eq]
  simp only [List.mem_append, or_and_right, exists_or, exists_horns_finalRules]
  have hpairs : (∃ r ∈ (runsOf spec).pairs.flatMap (pairRules key), r.Horns b) ↔
      ∃ source target, (source, target) ∈ (runsOf spec).pairs ∧
        ∃ r ∈ pairRules key (source, target), r.Horns b := by
    simp only [List.mem_flatMap, Prod.exists]
    constructor
    · rintro ⟨r, ⟨source, target, hpair, hr⟩, hhorns⟩
      exact ⟨source, target, hpair, r, hr, hhorns⟩
    · rintro ⟨source, target, hpair, r, hr, hhorns⟩
      exact ⟨r, ⟨source, target, hpair, hr⟩, hhorns⟩
  rw [hpairs]
  simp only [exists_horns_pairRules]
  constructor
  · rintro (⟨source, target, hpair, p, q, hplace, hp, hq⟩ | ⟨first, following, hrun, hmore, hfirst⟩)
    · exact .pair hpair hplace hp hq
    · exact .final hrun hmore hfirst
  · intro h
    cases h with
    | pair hpair hplace hp hq => exact Or.inl ⟨_, _, hpair, _, _, hplace, hp, hq⟩
    | final hfinal hmore hfirst => exact Or.inr ⟨_, _, hfinal, hmore, hfirst⟩

/-- A tone name holds no separator, so as a mark spec it gives nothing at all. -/
theorem markRules_of_toneNamed? {spec : Text} (hspec : (toneNamed? spec).isSome = true) :
    markRules key spec = [] := by
  have hnames : ∀ named ∈ toneNames, named.1.contains separator = false := by
    decide
  have hseparator : spec.contains separator = false := by
    rcases Option.isSome_iff_exists.1 hspec with ⟨t, ht⟩
    rcases Option.map_eq_some_iff.1 ht with ⟨named, hfound, -⟩
    have hname : named.1 = spec := by simpa using List.find?_some hfound
    rw [← hname]
    exact hnames named (List.mem_of_find?_eq_some hfound)
  rw [markRules, compileMark, hseparator]
  rfl

/-- The rules of a spec horn a letter exactly if the spec does. -/
theorem exists_horns_iff {spec : Text} :
    (∃ r ∈ (compile key (.text spec)).rules, r.Horns b) ↔ Horns spec b := by
  rw [← exists_horns_markRules key]
  cases htone : (toneNamed? spec).isSome with
  | true =>
      -- A tone rule is of another kind.
      have hrules : ∀ r ∈ (compile key (.text spec)).rules, r.kind? = some .tone := by
        rcases Option.isSome_iff_exists.1 htone with ⟨t, ht⟩
        simp only [compile, compileTone, ht, Option.isSome_some, if_true, List.mem_singleton]
        rintro r rfl
        rfl
      rw [markRules_of_toneNamed? key htone]
      simp only [List.not_mem_nil, false_and, exists_false, iff_false]
      rintro ⟨r, hr, hhorns⟩
      have hkind := hhorns.kind
      rw [hrules r hr] at hkind
      cases hkind
  | false => simp [compile, htone, markRules]

end Spec
end QuocNgu
