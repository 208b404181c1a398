import QuocNgu.Proofs.Spec.Joining

/-!
# Proofs.Spec.Appending — the letters that a mark spec appends, none lost and none twice

* `Rule.Within`        : the rules of a rule tree
* `Origin.kinds`       : every rule of a compiled tree carries the key and appends or marks
* `leadingRun`         : the letters between a separator that starts a spec and the next one
* `appendedBy_pairs`   : the pairs of a spec append its leading run and nothing else
* `markRules_shape`    : the trees of a compiled spec, and the letters spelled by those that append

Letters are appended in three places: by a pair without a source, by a final run, and below the rule
that marks the first letter of a final run. Only the first pair can lack its source, so the first
place is the start of the spec, and the other two are its end.
-/

namespace QuocNgu

namespace Rule

/-! ## Rule trees -/

/-- The first rule is the second, or is appended somewhere below it. -/
inductive Within : Rule → Rule → Prop where
  | self (r : Rule) : Within r r
  | nested {r a s : Rule} (happended : a ∈ s.appended) (hwithin : Within r a) : Within r s

theorem Within.eq_of_leaf {r s : Rule} (hwithin : r.Within s) (hleaf : s.appended = []) : r = s := by
  cases hwithin with
  | self => rfl
  | nested happended _ =>
      rw [hleaf] at happended
      cases happended

/-- Letter by letter, each as a text of its own. -/
def letters (t : Text) : List Value := t.map fun p => .text [p]

/-- What the rules append that are not below another rule. -/
def appendedBy (rules : List Rule) : List Value :=
  (rules.filter (·.kind? = some .append)).map (·.target)

theorem appendedBy_append (rules more : List Rule) :
    appendedBy (rules ++ more) = appendedBy rules ++ appendedBy more := by
  simp [appendedBy]

theorem targets_appendEach (key : Value) (t : Text) :
    (appendEach key t).map (·.target) = letters t := by
  simp [appendEach, letters, append]

theorem appendedBy_appendEach (key : Value) (t : Text) :
    appendedBy (appendEach key t) = letters t := by
  have hall : (appendEach key t).filter (·.kind? = some .append) = appendEach key t := by
    apply List.filter_eq_self.2
    intro r hr
    rcases List.mem_map.1 hr with ⟨p, -, rfl⟩
    simp
  rw [appendedBy, hall, targets_appendEach]

end Rule

namespace Spec

variable {key : Value} {r : Rule}

theorem Origin.nested (horigin : Origin key r) :
    ∀ a ∈ r.appended, ∃ p, a = Rule.append key p [] := by
  have heach : ∀ following : Text, ∀ a ∈ Rule.appendEach key following,
      ∃ p, a = Rule.append key p [] := by
    intro following a ha
    rcases List.mem_map.1 ha with ⟨p, -, rfl⟩
    exact ⟨p, rfl⟩
  cases horigin with
  | append p following => exact heach following
  | pair found => exact fun a ha => nomatch ha
  | final following marked => exact heach following

/-- A rule that appends, or one that marks. -/
theorem Origin.kinds (horigin : Origin key r) :
    r.key = key ∧ (r.kind? = some .mark ∨
      r.kind? = some .append ∧ r.effect = .integer 0 ∧
        ∃ p, r.target = .text [p] ∧ r.result = .text [p]) := by
  cases horigin with
  | append p following => exact ⟨rfl, Or.inr ⟨rfl, rfl, p, rfl, rfl⟩⟩
  | pair found => exact ⟨rfl, Or.inl rfl⟩
  | final following marked => exact ⟨rfl, Or.inl rfl⟩

/-- What is appended has an origin of its own. -/
theorem Origin.within (horigin : Origin key r) {s : Rule} (hwithin : s.Within r) :
    Origin key s := by
  cases hwithin with
  | self => exact horigin
  | nested happended hwithin =>
      rcases horigin.nested _ happended with ⟨p, rfl⟩
      rw [hwithin.eq_of_leaf rfl]
      exact .append p []

/-! ## The pairs of a spec -/

theorem pairRules_nil (key : Value) (target : Text) :
    pairRules key ([], target) = Rule.appendEach key target := by
  simp [pairRules, pairItems, Rule.appendEach, Item.rule?, List.filterMap_map, Function.comp_def]

theorem appended_of_mem_pairRules {pair : Text × Text} (hr : r ∈ pairRules key pair) :
    r.appended = [] := by
  rcases pair with ⟨source, target⟩
  by_cases hsource : source = []
  · subst hsource
    rw [pairRules_nil] at hr
    rcases List.mem_map.1 hr with ⟨p, -, rfl⟩
    rfl
  · rw [pairRules_eq key target hsource] at hr
    rcases List.mem_map.1 hr with ⟨place, -, rfl⟩
    rfl

/-- A pair with a source marks its letters and appends none. -/
theorem appendedBy_pairRules {source : Text} (target : Text) (hsource : source ≠ []) :
    Rule.appendedBy (pairRules key (source, target)) = [] := by
  have hnone : (pairRules key (source, target)).filter (·.kind? = some .append) = [] := by
    apply List.filter_eq_nil_iff.2
    intro r hr
    rw [pairRules_eq key target hsource] at hr
    rcases List.mem_map.1 hr with ⟨place, -, rfl⟩
    simp
  rw [Rule.appendedBy, hnone, List.map_nil]

theorem appendedBy_sourced {pairs : List (Text × Text)} (hsources : ∀ pair ∈ pairs, pair.1 ≠ []) :
    Rule.appendedBy (pairs.flatMap (pairRules key)) = [] := by
  induction pairs with
  | nil => rfl
  | cons pair pairs ih =>
      rcases List.forall_mem_cons.1 hsources with ⟨hfirst, hrest⟩
      rw [List.flatMap_cons, Rule.appendedBy_append, appendedBy_pairRules pair.2 hfirst, ih hrest]
      rfl

/-- The letters between a separator that starts the spec and the next one; there are none if the
spec starts with another letter or with two separators. -/
def leadingRun : Text → Text
  | [] => []
  | p :: rest => if p = separator then rest.takeWhile (· ≠ separator) else []

theorem leadingRun_append_separator (t u : Text) :
    leadingRun (t ++ separator :: separator :: u) = leadingRun t := by
  cases t with
  | nil => simp [leadingRun]
  | cons p t =>
      have hstop : (t ++ separator :: separator :: u).takeWhile (· ≠ separator) =
          t.takeWhile (· ≠ separator) := by
        -- Both are first runs, and the cut at the doubled separator keeps the first run.
        rcases List.exists_cons_of_ne_nil (Text.splitAll_ne_nil separator t) with ⟨run, runs, hruns⟩
        rw [← Text.headD_splitAll, ← Text.headD_splitAll, Text.splitAll_append, hruns]
        rfl
      simp only [List.cons_append, leadingRun, hstop]

theorem mem_dropLast_cons {runs : List Text} {first run : Text} :
    run ∈ (first :: runs).dropLast ↔ run = first ∧ runs ≠ [] ∨ run ∈ runs.dropLast := by
  cases runs with
  | nil => simp
  | cons next rest => simp

theorem sources_ne_nil {runs : List Text} (hinner : [] ∉ runs.dropLast) :
    ∀ pair ∈ pairUp runs, pair.1 ≠ [] := by
  intro pair hpair hnil
  have hsource : pair.1 ∈ runs.dropLast := (mem_of_mem_pairUp hpair).1
  rw [hnil] at hsource
  exact hinner hsource

/-- Only the first pair can lack its source, and it does if a separator starts the body. -/
theorem appendedBy_pairs {body : Text} (hbody : Undoubled body) :
    Rule.appendedBy ((pairUp (Text.splitAll separator body)).flatMap (pairRules key)) =
      Rule.letters (leadingRun body) := by
  have hinner := undoubled_iff.1 hbody
  cases body with
  | nil => rfl
  | cons p rest =>
      rcases List.exists_cons_of_ne_nil (Text.splitAll_ne_nil separator rest) with ⟨run, runs, hruns⟩
      by_cases hp : p = separator
      · -- The first run is the empty text before the separator, the second is appended.
        have hsplit : Text.splitAll separator (p :: rest) = [] :: run :: runs := by
          simp [Text.splitAll, hp, hruns]
        have hlater : [] ∉ runs.dropLast := by
          rw [hsplit] at hinner
          exact fun hempty => hinner (mem_dropLast_cons.2 (Or.inr hempty))
        have hrun : run = rest.takeWhile (· ≠ separator) := by
          have hhead := Text.headD_splitAll separator rest
          rwa [hruns, List.headD_cons] at hhead
        calc
          Rule.appendedBy ((pairUp (Text.splitAll separator (p :: rest))).flatMap (pairRules key))
              = Rule.letters run := by
                rw [hsplit, pairUp, List.flatMap_cons, Rule.appendedBy_append, pairRules_nil,
                  Rule.appendedBy_appendEach, appendedBy_sourced (sources_ne_nil hlater),
                  List.append_nil]
          _ = Rule.letters (leadingRun (p :: rest)) := by
                rw [leadingRun, if_pos hp, hrun]
      · -- The first run starts with a letter, so every pair has its source.
        have hsplit : Text.splitAll separator (p :: rest) = (p :: run) :: runs := by
          simp [Text.splitAll, hp, hruns]
        have hfilled : [] ∉ ((p :: run) :: runs).dropLast := by
          rw [hsplit] at hinner
          simpa [mem_dropLast_cons] using hinner
        rw [hsplit, appendedBy_sourced (sources_ne_nil hfilled), leadingRun, if_neg hp]
        rfl

/-! ## The final run -/

/-- The rule of a final run results in its first letter and appends the others. -/
theorem finalRules_cons (key : Value) (first : Point) (following : Text) :
    ∃ last, finalRules key (first :: following) = [last] ∧
      last.result :: last.appended.map (·.target) = Rule.letters (first :: following) := by
  have hbelow := Rule.targets_appendEach key following
  refine ⟨finalRule key first following, rfl, ?_⟩
  simp only [finalRule]
  split
  · exact congrArg (Value.text [first] :: ·) hbelow
  · exact congrArg (Value.text [first] :: ·) hbelow

/-! ## Whole specs -/

/-- The pairs of a spec are those of a body without a doubled separator, which starts as the spec
does. -/
theorem exists_body (spec : Text) :
    ∃ body, Undoubled body ∧ (runsOf spec).pairs = pairUp (Text.splitAll separator body) ∧
      leadingRun spec = leadingRun body := by
  by_cases hspec : Undoubled spec
  · exact ⟨spec, hspec, by rw [runsOf_undoubled hspec], rfl⟩
  · rcases exists_hasFinal hspec with ⟨body, run, hfinal⟩
    refine ⟨body, hfinal.first.of_append_left, by rw [hfinal.runsOf_eq], ?_⟩
    rcases hfinal.written with ⟨after, -, rfl⟩
    exact leadingRun_append_separator body (run ++ after)

/-- The rules of the pairs of a spec. -/
def leadRules (key : Value) (spec : Text) : List Rule :=
  (runsOf spec).pairs.flatMap (pairRules key)

theorem appendedBy_leadRules (key : Value) (spec : Text) :
    Rule.appendedBy (leadRules key spec) = Rule.letters (leadingRun spec) := by
  rcases exists_body spec with ⟨body, hbody, hpairs, hleading⟩
  rw [leadRules, hpairs, hleading, appendedBy_pairs hbody]

theorem appended_of_mem_leadRules {spec : Text} (hr : r ∈ leadRules key spec) :
    r.appended = [] := by
  rcases List.mem_flatMap.1 hr with ⟨pair, -, hmem⟩
  exact appended_of_mem_pairRules hmem

/-- All rules but the last are those of pairs. -/
theorem mem_leadRules_of_mem_dropLast {spec : Text} (hr : r ∈ (markRules key spec).dropLast) :
    r ∈ leadRules key spec := by
  have hrules : markRules key spec = leadRules key spec ++ finalRules key (runsOf spec).final :=
    markRules_eq key spec
  rw [hrules] at hr
  cases hrun : (runsOf spec).final with
  | nil =>
      rw [hrun, finalRules, List.append_nil] at hr
      exact List.dropLast_subset _ hr
  | cons first following =>
      rw [hrun, finalRules, List.dropLast_concat] at hr
      exact hr

/-- Only a final run has letters below its rule. -/
theorem doubled_of_appended {spec : Text} (hr : r ∈ markRules key spec)
    (hnested : r.appended ≠ []) : [separator, separator] <:+: spec := by
  by_contra hspec
  have hrules : markRules key spec = leadRules key spec := by
    rw [markRules_eq, runsOf_undoubled hspec, leadRules, runsOf_undoubled hspec, finalRules,
      List.append_nil]
  rw [hrules] at hr
  exact hnested (appended_of_mem_leadRules hr)

/-- The rule of a final run comes last and spells the run, in lower case after a body. -/
theorem exists_last {spec body run : Text} (hfinal : HasFinal spec body run) (hrun : run ≠ []) :
    ∃ last, markRules key spec = leadRules key spec ++ [last] ∧
      last.result :: last.appended.map (·.target) =
        Rule.letters (if body = [] then run else Text.lower run) := by
  have hspelled : (if body = [] then run else Text.lower run) ≠ [] := by
    split
    · exact hrun
    · exact fun hnil => hrun (Text.lower_eq_nil_iff.1 hnil)
  rcases List.exists_cons_of_ne_nil hspelled with ⟨first, following, hletters⟩
  rcases finalRules_cons key first following with ⟨last, hlast, hspells⟩
  refine ⟨last, ?_, ?_⟩
  · rw [markRules_eq, leadRules, hfinal.runsOf_eq, hletters, hlast]
  · rw [hletters, hspells]

theorem markRules_without_final {spec : Text}
    (hnone : ¬∃ body run, HasFinal spec body run ∧ run ≠ []) :
    markRules key spec = leadRules key spec := by
  have hempty : (runsOf spec).final = [] := by
    by_cases hspec : Undoubled spec
    · rw [runsOf_undoubled hspec]
    · rcases exists_hasFinal hspec with ⟨body, run, hfinal⟩
      have hrun : run = [] := by
        by_contra hrun
        exact hnone ⟨body, run, hfinal, hrun⟩
      rw [hfinal.runsOf_eq, hrun]
      split <;> rfl
  rw [markRules_eq, hempty, finalRules, List.append_nil, leadRules]

/-- Every rule of a compiled mark spec carries the key and appends one letter or marks; letters are
appended below the last rule only, one deep. The last rule spells the final run, if there is one,
and the other rules append the leading run. -/
theorem markRules_shape (key : Value) (spec : Text) :
    (∀ top ∈ markRules key spec, ∀ r : Rule, r.Within top →
      r.key = key ∧ (r.kind? = some .mark ∨
        r.kind? = some .append ∧ r.effect = .integer 0 ∧
          ∃ p, r.target = .text [p] ∧ r.result = .text [p])) ∧
    (∀ top ∈ markRules key spec, ∀ a ∈ top.appended, a.kind? = some .append ∧ a.appended = []) ∧
    (∀ r ∈ (markRules key spec).dropLast, r.appended = []) ∧
    (∀ r ∈ markRules key spec, r.appended ≠ [] → [separator, separator] <:+: spec) ∧
    (∀ body run, HasFinal spec body run → run ≠ [] →
      ∃ lead last, markRules key spec = lead ++ [last] ∧
        last.result :: last.appended.map (·.target) =
          Rule.letters (if body = [] then run else Text.lower run) ∧
        Rule.appendedBy lead = Rule.letters (leadingRun spec)) ∧
    ((¬∃ body run, HasFinal spec body run ∧ run ≠ []) →
      Rule.appendedBy (markRules key spec) = Rule.letters (leadingRun spec)) := by
  refine ⟨?_, ?_, ?_, ?_, ?_, ?_⟩
  · intro top htop r hwithin
    have horigin : Origin key top := origin_of_mem htop
    exact (horigin.within hwithin).kinds
  · intro top htop a ha
    have horigin : Origin key top := origin_of_mem htop
    rcases horigin.nested a ha with ⟨p, rfl⟩
    exact ⟨rfl, rfl⟩
  · intro r hr
    exact appended_of_mem_leadRules (mem_leadRules_of_mem_dropLast hr)
  · intro r hr hnested
    exact doubled_of_appended hr hnested
  · intro body run hfinal hrun
    rcases exists_last hfinal hrun with ⟨last, hrules, hspells⟩
    exact ⟨leadRules key spec, last, hrules, hspells, appendedBy_leadRules key spec⟩
  · intro hnone
    rw [markRules_without_final hnone, appendedBy_leadRules]

/-- A spec that appends in all three places, with a run left over that has no say. -/
theorem markRules_shape_everywhere :
    (HasFinal ['_', 'Ư', '_', 'O', '_', 'Ơ', '_', '_', 'Ư', 'Ơ', '_', 'Z']
        ['_', 'Ư', '_', 'O', '_', 'Ơ'] ['Ư', 'Ơ'] ∧ (['Ư', 'Ơ'] : Text) ≠ [] ∧
      Rule.append (.text ['w']) 'Ư' [] ∈ markRules (.text ['w'])
        ['_', 'Ư', '_', 'O', '_', 'Ơ', '_', '_', 'Ư', 'Ơ', '_', 'Z']) ∧
    (Rule.append (.text ['w']) 'Ư' []).key = .text ['w'] ∧
    ∃ lead last, markRules (.text ['w'])
        ['_', 'Ư', '_', 'O', '_', 'Ơ', '_', '_', 'Ư', 'Ơ', '_', 'Z'] = lead ++ [last] ∧
      last.result :: last.appended.map (·.target) = [.text ['ư'], .text ['ơ']] ∧
      Rule.appendedBy lead = [.text ['Ư']] := by
  have hfinal : HasFinal ['_', 'Ư', '_', 'O', '_', 'Ơ', '_', '_', 'Ư', 'Ơ', '_', 'Z']
      ['_', 'Ư', '_', 'O', '_', 'Ơ'] ['Ư', 'Ơ'] := by
    refine ⟨⟨['_', 'Z'], by simp [EndsRun, separator], rfl⟩, ?_, by decide⟩
    simp [undoubled_cons, undoubled_nil, separator]
  have hruns : (runsOf ['_', 'Ư', '_', 'O', '_', 'Ơ', '_', '_', 'Ư', 'Ơ', '_', 'Z']).pairs =
      [(([] : Text), (['Ư'] : Text)), ((['O'] : Text), (['Ơ'] : Text))] := by
    decide
  have hmem : Rule.append (.text ['w']) 'Ư' [] ∈ markRules (.text ['w'])
      ['_', 'Ư', '_', 'O', '_', 'Ơ', '_', '_', 'Ư', 'Ơ', '_', 'Z'] := by
    rw [markRules_eq, hruns, List.flatMap_cons, pairRules_nil]
    simp [Rule.appendEach]
  have hlower : Text.lower ['Ư', 'Ơ'] = (['ư', 'ơ'] : Text) := by
    decide +kernel
  rcases markRules_shape (.text ['w'])
      ['_', 'Ư', '_', 'O', '_', 'Ơ', '_', '_', 'Ư', 'Ơ', '_', 'Z'] with
    ⟨hwithin, -, -, -, hlast, -⟩
  refine ⟨⟨hfinal, by simp, hmem⟩, (hwithin _ hmem _ (.self _)).1, ?_⟩
  rcases hlast _ _ hfinal (by simp) with ⟨lead, last, hrules, hspells, hlead⟩
  refine ⟨lead, last, hrules, ?_, hlead⟩
  rw [hspells, if_neg (by simp), hlower]
  rfl

end Spec
end QuocNgu
