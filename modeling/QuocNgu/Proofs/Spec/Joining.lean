import QuocNgu.Proofs.Spec.Runs

/-!
# Proofs.Spec.Joining — specs joined from pairs of runs

* `Letter.sharesBase`      : letters that differ at most in case, mark and tone
* `pairRules_eq`           : a pair gives a rule for every place where its letters share a base
* `joined`, `Separable`    : pairs written one after another, and those that can be told apart again
* `runsOf_joined`          : the pairs are found again, whatever single run is left over
* `markRules_joined`       : the rules of joined pairs are those of the pairs, one after another
-/

namespace QuocNgu

namespace Letter

/-- The code points are letters of one base, in whatever case and under whatever mark and tone. -/
def sharesBase (p q : Point) : Bool :=
  match ofPoint? p, ofPoint? q with
  | some l, some l' => l.base = l'.base
  | _, _ => false

/-- Both letters are lowered before they are compared, so their case does not count. -/
theorem markBetween?_eq (p q : Point) :
    markBetween? [p] [q] = if sharesBase p q then some (markOf [q]) else none := by
  rw [markBetween?, ofText?_lower, ofText?_lower]
  cases hp : ofPoint? p with
  | none => simp [sharesBase, hp]
  | some l =>
      cases hq : ofPoint? q with
      | none => simp [sharesBase, hp, hq]
      | some l' => simp [sharesBase, hp, hq, small, markOf, ofText?]

end Letter

namespace Text

/-- No other code point has the separator among its lower-case forms. -/
theorem separator_not_mem_lowerPoint {p : Point} (hp : p ≠ Spec.separator) :
    Spec.separator ∉ lowerPoint p := by
  -- The table is looked at once, for the smallest form of every run.
  have himages : ∀ r ∈ lowerRuns, '_'.toNat < r.image := by
    decide +kernel
  cases p with
  | half offset => simp [lowerPoint, Spec.separator]
  | char c =>
      by_cases hdotted : c = '\u0130'
      · simp [lowerPoint, lowerChar, hdotted, Spec.separator]
      · intro hmem
        have hform : '_' = Char.ofNat (lowerCode c.toNat) := by
          simpa [lowerPoint, lowerChar, hdotted, Spec.separator] using hmem
        rcases lowerCode_cases c.toNat with hself | ⟨r, hr, hcovers, himage⟩
        · rw [hself, Char.ofNat_toNat] at hform
          exact hp (by rw [Spec.separator, hform])
        · -- The forms of a run lie above the separator.
          have hcode := congrArg Char.toNat hform
          rw [himage, toNat_ofNat_image hr hcovers] at hcode
          have habove := himages r hr
          omega

theorem separator_not_mem_lower {t : Text} (ht : Spec.separator ∉ t) :
    Spec.separator ∉ t.lower := by
  have hfrom : ∀ before : Text, Spec.separator ∉ lowerFrom before t := by
    induction t with
    | nil => simp [lowerFrom]
    | cons p t ih =>
        have hboth : Spec.separator ≠ p ∧ Spec.separator ∉ t := by simpa using ht
        rcases hboth with ⟨hp, hrest⟩
        intro before
        rw [lowerFrom, List.mem_append, not_or]
        refine ⟨?_, ih hrest (p :: before)⟩
        split
        · -- Neither form of a sigma is a separator.
          simp only [lowerSigma]
          split <;> decide
        · exact separator_not_mem_lowerPoint (Ne.symm hp)
  exact hfrom []

end Text

namespace Spec

/-! ## The rules of one pair -/

/-- A pair gives one rule for every place where its letters share a base, in the order of the
places. -/
theorem pairRules_eq (key : Value) {source : Text} (target : Text) (hsource : source ≠ []) :
    pairRules key (source, target) =
      ((source.zip target).filter fun (s, t) => Letter.sharesBase s t).map fun (s, t) =>
        Rule.mark key (Letter.markOf [t]) (Text.lower [s]) t [] := by
  have hplace : ∀ s t : Point, (markItem key s t).rule? =
      if Letter.sharesBase s t then
        some (Rule.mark key (Letter.markOf [t]) (Text.lower [s]) t [])
      else none := by
    intro s t
    rw [markItem, Letter.markBetween?_eq]
    by_cases hshared : Letter.sharesBase s t = true <;> simp [hshared, Item.rule?]
  have hitems : pairItems key source target =
      (source.zip target).map fun (s, t) => markItem key s t := by
    rw [pairItems, if_neg (by simpa using hsource)]
  rw [pairRules, hitems]
  -- By induction along the places; a place without a common base is logged and gives no rule.
  induction source.zip target with
  | nil => rfl
  | cons place places ih =>
      rcases place with ⟨s, t⟩
      by_cases hshared : Letter.sharesBase s t = true
      · simpa [hplace, hshared] using ih
      · simpa [hplace, hshared] using ih

/-! ## Pairs joined to a spec -/

/-- The runs of pairs, every source right before its target. -/
def flatRuns (pairs : List (Text × Text)) : List Text :=
  pairs.flatMap fun (source, target) => [source, target]

/-- The runs of pairs with a separator between neighbours. -/
def joined (pairs : List (Text × Text)) : Text := [separator].intercalate (flatRuns pairs)

/-- Pairs whose runs hold no separator, and none of which is empty but perhaps the first source. -/
structure Separable (pairs : List (Text × Text)) : Prop where
  nonempty : pairs ≠ []
  single : ∀ run ∈ flatRuns pairs, separator ∉ run
  filled : ∀ run ∈ (flatRuns pairs).tail, run ≠ []

theorem mem_flatRuns {pairs : List (Text × Text)} {source target : Text}
    (hpair : (source, target) ∈ pairs) :
    source ∈ flatRuns pairs ∧ target ∈ flatRuns pairs :=
  ⟨List.mem_flatMap.2 ⟨_, hpair, by simp⟩, List.mem_flatMap.2 ⟨_, hpair, by simp⟩⟩

/-- A target stands after its source, so it is never the first run. -/
theorem target_mem_tail {pairs : List (Text × Text)} {source target : Text}
    (hpair : (source, target) ∈ pairs) : target ∈ (flatRuns pairs).tail := by
  cases pairs with
  | nil => cases hpair
  | cons first rest =>
      rcases first with ⟨s, t⟩
      have htail : (flatRuns ((s, t) :: rest)).tail = t :: flatRuns rest := rfl
      rw [htail]
      rcases List.mem_cons.1 hpair with hfirst | hrest
      · cases hfirst
        exact List.mem_cons_self
      · exact List.mem_cons_of_mem _ (mem_flatRuns hrest).2

theorem joined_singleton (source target : Text) :
    joined [(source, target)] = source ++ separator :: target := by
  simp [joined, flatRuns, List.intercalate_cons_cons]

/-- A run that is left over after the last pair has no neighbour. -/
theorem pairUp_flatRuns (pairs : List (Text × Text)) :
    pairUp (flatRuns pairs) = pairs ∧ ∀ run, pairUp (flatRuns pairs ++ [run]) = pairs := by
  induction pairs with
  | nil => exact ⟨rfl, fun run => rfl⟩
  | cons pair pairs ih =>
      rcases pair with ⟨source, target⟩
      have hflat : flatRuns ((source, target) :: pairs) = source :: target :: flatRuns pairs := rfl
      refine ⟨?_, fun run => ?_⟩
      · rw [hflat, pairUp, ih.1]
      · rw [hflat, List.cons_append, List.cons_append, pairUp, ih.2]

section

variable {pairs : List (Text × Text)} (hpairs : Separable pairs)
include hpairs

theorem flatRuns_ne_nil : flatRuns pairs ≠ [] := by
  rcases List.exists_cons_of_ne_nil hpairs.nonempty with ⟨pair, rest, rfl⟩
  simp [flatRuns]

theorem splitAll_joined : Text.splitAll separator (joined pairs) = flatRuns pairs :=
  Text.splitAll_intercalate hpairs.single (flatRuns_ne_nil hpairs)

theorem splitAll_joined_append {run : Text} (hrun : separator ∉ run) :
    Text.splitAll separator (joined pairs ++ separator :: run) = flatRuns pairs ++ [run] := by
  rw [Text.splitAll_append, splitAll_joined hpairs, Text.splitAll_of_not_mem hrun]

theorem joined_ne_nil : joined pairs ≠ [] := by
  intro hnil
  have hruns := splitAll_joined hpairs
  rcases List.exists_cons_of_ne_nil hpairs.nonempty with ⟨pair, rest, rfl⟩
  rw [hnil] at hruns
  simp [Text.splitAll, flatRuns] at hruns

/-- The runs between the first and the last are filled, whatever the last one is. -/
theorem undoubled_joined_append {run : Text} (hrun : separator ∉ run) :
    Undoubled (joined pairs ++ separator :: run) := by
  rw [undoubled_iff, splitAll_joined_append hpairs hrun,
    List.tail_append_of_ne_nil (flatRuns_ne_nil hpairs), List.dropLast_concat]
  exact fun hempty => hpairs.filled [] hempty rfl

theorem undoubled_joined : Undoubled (joined pairs) := by
  have hrun : separator ∉ ([] : Text) := List.not_mem_nil
  exact (undoubled_joined_append hpairs hrun).of_append_left

theorem runsOf_joined : runsOf (joined pairs) = ⟨pairs, []⟩ := by
  rw [runsOf_undoubled (undoubled_joined hpairs), splitAll_joined hpairs, (pairUp_flatRuns pairs).1]

theorem runsOf_joined_append {run : Text} (hrun : separator ∉ run) :
    runsOf (joined pairs ++ separator :: run) = ⟨pairs, []⟩ := by
  rw [runsOf_undoubled (undoubled_joined_append hpairs hrun), splitAll_joined_append hpairs hrun,
    (pairUp_flatRuns pairs).2]

/-- A final run after pairs is lowered. -/
theorem runsOf_joined_final {run after : Text} (hrun : separator ∉ run) (hafter : EndsRun after) :
    runsOf (joined pairs ++ separator :: separator :: (run ++ after)) =
      ⟨pairs, Text.lower run⟩ := by
  have hfinal : HasFinal (joined pairs ++ separator :: separator :: (run ++ after)) (joined pairs)
      run :=
    ⟨⟨after, hafter, rfl⟩, undoubled_joined_append hpairs List.not_mem_nil, hrun⟩
  rw [hfinal.runsOf_eq, splitAll_joined hpairs, (pairUp_flatRuns pairs).1,
    if_neg (joined_ne_nil hpairs)]

end

/-- A final run without pairs is taken as it is. -/
theorem runsOf_final {run : Text} (hrun : separator ∉ run) :
    runsOf (separator :: separator :: run) = ⟨[], run⟩ := by
  have hfinal : HasFinal (separator :: separator :: run) [] run :=
    ⟨⟨[], by simp [EndsRun], by simp⟩, by simp [undoubled_cons, undoubled_nil], hrun⟩
  rw [hfinal.runsOf_eq]
  rfl

theorem markRules_pair (key : Value) {source target : Text} (hsource : separator ∉ source)
    (htarget : separator ∉ target) (hfilled : target ≠ []) :
    markRules key (source ++ separator :: target) = pairRules key (source, target) := by
  have hpair : Separable [(source, target)] :=
    ⟨by simp, by simp [flatRuns, hsource, htarget], by simp [flatRuns, hfilled]⟩
  rw [← joined_singleton, markRules_eq, runsOf_joined hpair]
  simp [finalRules]

/-! ## Specs are compositional -/

/-- Joined pairs compile one after another, a run left over adds nothing, and a final run adds the
rule that it gives on its own in lower case. A pair gives one mark rule for every place where its
letters share a base. -/
theorem markRules_joined (key : Value) :
    (∀ pairs, Separable pairs →
      markRules key (joined pairs) =
          pairs.flatMap (fun (source, target) => markRules key (source ++ separator :: target)) ∧
        (∀ run, separator ∉ run →
          markRules key (joined pairs ++ separator :: run) = markRules key (joined pairs)) ∧
        ∀ run after, separator ∉ run → EndsRun after →
          markRules key (joined pairs ++ separator :: separator :: (run ++ after)) =
            markRules key (joined pairs) ++
              markRules key (separator :: separator :: Text.lower run)) ∧
    ∀ source target, source ≠ [] → target ≠ [] → separator ∉ source → separator ∉ target →
      markRules key (source ++ separator :: target) =
        ((source.zip target).filter fun (s, t) => Letter.sharesBase s t).map fun (s, t) =>
          Rule.mark key (Letter.markOf [t]) (Text.lower [s]) t [] := by
  constructor
  · intro pairs hpairs
    have hjoined : markRules key (joined pairs) = pairs.flatMap (pairRules key) := by
      simp [markRules_eq, runsOf_joined hpairs, finalRules]
    refine ⟨?_, ?_, ?_⟩
    · -- Every pair of the list is a spec of its own with the same rules.
      rw [hjoined]
      refine List.flatMap_congr fun pair hpair => ?_
      rcases pair with ⟨source, target⟩
      rcases mem_flatRuns hpair with ⟨hsource, htarget⟩
      exact (markRules_pair key (hpairs.single _ hsource) (hpairs.single _ htarget)
        (hpairs.filled _ (target_mem_tail hpair))).symm
    · intro run hrun
      simp [hjoined, markRules_eq, runsOf_joined_append hpairs hrun, finalRules]
    · intro run after hrun hafter
      have hlowered := Text.separator_not_mem_lower hrun
      calc
        markRules key (joined pairs ++ separator :: separator :: (run ++ after))
            = pairs.flatMap (pairRules key) ++ finalRules key (Text.lower run) := by
              rw [markRules_eq, runsOf_joined_final hpairs hrun hafter]
        _ = markRules key (joined pairs) ++
              markRules key (separator :: separator :: Text.lower run) := by
              rw [hjoined, markRules_eq key (_ :: _ :: _), runsOf_final hlowered]
              rfl
  · intro source target hsource htarget hsingle hsingle'
    rw [markRules_pair key hsingle hsingle' htarget, pairRules_eq key target hsource]

/-- A leading target, a pair with one place without a common base, a run left over, and a final run
with more text after it. -/
theorem markRules_joined_leading :
    (Separable [([], ['Ư']), (['U', 'X'], ['Ư', 'Đ'])] ∧ separator ∉ (['A'] : Text) ∧
      separator ∉ (['Ư'] : Text) ∧ EndsRun ['_', 'Z']) ∧
    markRules (.text ['w']) ['_', 'Ư', '_', 'U', 'X', '_', 'Ư', 'Đ'] =
      markRules (.text ['w']) ['_', 'Ư'] ++ markRules (.text ['w']) ['U', 'X', '_', 'Ư', 'Đ'] ∧
    markRules (.text ['w']) ['_', 'Ư', '_', 'U', 'X', '_', 'Ư', 'Đ', '_', 'A'] =
      markRules (.text ['w']) ['_', 'Ư', '_', 'U', 'X', '_', 'Ư', 'Đ'] ∧
    markRules (.text ['w'])
        ['_', 'Ư', '_', 'U', 'X', '_', 'Ư', 'Đ', '_', '_', 'Ư', '_', 'Z'] =
      markRules (.text ['w']) ['_', 'Ư', '_', 'U', 'X', '_', 'Ư', 'Đ'] ++
        markRules (.text ['w']) ['_', '_', 'ư'] ∧
    ((['U', 'X'] : Text) ≠ [] ∧ (['Ư', 'Đ'] : Text) ≠ [] ∧ separator ∉ (['U', 'X'] : Text) ∧
      separator ∉ (['Ư', 'Đ'] : Text)) ∧
    markRules (.text ['w']) ['U', 'X', '_', 'Ư', 'Đ'] =
      [Rule.mark (.text ['w']) .horn ['u'] 'Ư' []] := by
  have hpairs : Separable [([], ['Ư']), (['U', 'X'], ['Ư', 'Đ'])] :=
    ⟨by simp, by decide, by decide⟩
  have hrun : separator ∉ (['A'] : Text) := by decide
  have hfinal : separator ∉ (['Ư'] : Text) := by decide
  have hafter : EndsRun ['_', 'Z'] := by simp [EndsRun, separator]
  have hsource : separator ∉ (['U', 'X'] : Text) := by decide
  have htarget : separator ∉ (['Ư', 'Đ'] : Text) := by decide
  have hlower : Text.lower ['Ư'] = (['ư'] : Text) := by decide +kernel
  have hplaces : ((['U', 'X'] : Text).zip (['Ư', 'Đ'] : Text)).filter
      (fun (s, t) => Letter.sharesBase s t) = [((.char 'U' : Point), (.char 'Ư' : Point))] := by
    decide +kernel
  have hmark : Letter.markOf ['Ư'] = .horn ∧ Text.lower ['U'] = (['u'] : Text) := by
    decide +kernel
  rcases markRules_joined (.text ['w']) with ⟨hjoined, hpair⟩
  rcases hjoined _ hpairs with ⟨hconcat, hleft, hlast⟩
  have hlast' := hlast ['Ư'] ['_', 'Z'] hfinal hafter
  rw [hlower] at hlast'
  have hplain := hpair ['U', 'X'] ['Ư', 'Đ'] (by simp) (by simp) hsource htarget
  rw [hplaces] at hplain
  refine ⟨⟨hpairs, hrun, hfinal, hafter⟩, hconcat, hleft ['A'] hrun, hlast',
    ⟨by simp, by simp, hsource, htarget⟩, ?_⟩
  simpa [hmark, separator] using hplain

end Spec
end QuocNgu
