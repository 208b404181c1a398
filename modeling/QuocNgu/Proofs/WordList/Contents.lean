import QuocNgu.Proofs.Text.Splitting
import QuocNgu.Proofs.Text.Trimming
import QuocNgu.WordList

/-!
# Proofs.WordList.Contents — what the files of word lists hold

* `Line`, `Lists` : the word of a line, and the words of a text in lines
* `Items`, `Names` : the words of a list of values, and the words of a value
* `lists_iff`, `names_iff` : the words that are read are those that are held
* `Lists.trimmed`, `Names.trimmed` : every word is trimmed

Only a line feed and a carriage return end a line. All other separators are white space like any
other: they are trimmed off a word, and inside a word they stay.
-/

namespace QuocNgu
namespace WordList

/-! ## Lines -/

/-- The word of a line, none if the line is blank or starts with a mark. -/
inductive Line : Text → Option Text → Prop where
  | word {before w after : Text} (hbefore : before.Blank) (hw : w.Trimmed)
      (hmark : w.head? ≠ some '#') (hafter : after.Blank) :
      Line (before ++ (w ++ after)) (some w)
  | blank {space : Text} (hspace : space.Blank) : Line space none
  | comment {before rest : Text} (hbefore : before.Blank) : Line (before ++ .char '#' :: rest) none

/-- The end of a line. -/
inductive Break : Text → Prop where
  | feed : Break ['\n']
  | carriage : Break ['\r']
  | both : Break ['\r', '\n']

def Unbroken (line : Text) : Prop := ∀ p ∈ line, p ≠ '\n' ∧ p ≠ '\r'

/-- The words of the lines of a text in turn. What stands after the last end is a line too. -/
inductive Lists : List Text → Text → Prop where
  | last {line : Text} {w? : Option Text} (hline : Line line w?) (hunbroken : Unbroken line) :
      Lists w?.toList line
  | line {line ending rest : Text} {w? : Option Text} {ws : List Text} (hline : Line line w?)
      (hunbroken : Unbroken line) (hending : Break ending) (hrest : Lists ws rest) :
      Lists (w?.toList ++ ws) (line ++ (ending ++ rest))

theorem lineWord?_of_line {line : Text} {w? : Option Text} (hline : Line line w?) :
    lineWord? line = w? := by
  unfold lineWord?
  cases hline with
  | @word before w after hbefore hw hmark hafter =>
      rw [hw.trim_append hbefore hafter]
      cases w with
      | nil => exact absurd rfl hw.ne_nil
      | cons p rest =>
          have hp : p ≠ '#' := fun hp => hmark (by rw [hp]; rfl)
          exact if_neg hp
  | blank hspace => rw [Text.trim_eq_nil_iff.2 hspace]
  | @comment before rest hbefore =>
      -- The mark is no white space, so trimming leaves it where it stands.
      rcases Text.exists_trimEnd (.char '#' :: rest) with ⟨after, -, hend⟩
      have hhead : ∀ p ∈ (Point.char '#' :: rest).head?, Text.isBlank p = false := by
        intro p hp
        cases hp
        decide
      rw [Text.trim, Text.trimStart_append hbefore, Text.trimStart_of_head hhead]
      cases htrim : Text.trimEnd (.char '#' :: rest) with
      | nil => rfl
      | cons p more =>
          rw [htrim, List.cons_append, List.cons.injEq] at hend
          exact if_pos hend.1.symm

theorem line_lineWord? (line : Text) : Line line (lineWord? line) := by
  rcases Text.exists_padding line with ⟨before, after, hbefore, hafter, hline⟩
  unfold lineWord?
  split
  · next hnil => exact .blank (Text.trim_eq_nil_iff.1 hnil)
  · next p rest htrim =>
      have hw : Text.Trimmed (p :: rest) := by
        rw [← htrim]
        exact Text.trimmed_trim (by rw [htrim]; exact List.cons_ne_nil p rest)
      rw [htrim] at hline
      rw [hline]
      split
      · next hmark =>
          rw [hmark, List.cons_append]
          exact .comment hbefore
      · next hmark =>
          exact .word hbefore hw (fun hhead => hmark (Option.some.inj hhead)) hafter

/-! ## Ends of lines -/

theorem unifyBreaks_cons {p : Point} (hp : p ≠ '\r') (t : Text) :
    Text.unifyBreaks (p :: t) = p :: t.unifyBreaks := by
  rw [Text.unifyBreaks]
  · intro t' h
    exact absurd h hp
  · intro h
    exact absurd h hp

theorem unifyBreaks_append {line : Text} (hline : Unbroken line) (t : Text) :
    Text.unifyBreaks (line ++ t) = line ++ t.unifyBreaks := by
  induction line with
  | nil => rfl
  | cons p line ih =>
      rcases List.forall_mem_cons.1 hline with ⟨hp, hrest⟩
      rw [List.cons_append, unifyBreaks_cons hp.2, ih hrest, List.cons_append]

theorem filterMap_lineWord?_singleton (line : Text) :
    [line].filterMap lineWord? = (lineWord? line).toList := by
  rw [List.filterMap_cons]
  cases lineWord? line <;> rfl

theorem ofLines_of_unbroken {line : Text} (hline : Unbroken line) :
    ofLines line = (lineWord? line).toList := by
  have hfeed : Point.char '\n' ∉ line := fun hmem => (hline _ hmem).1 rfl
  have hunify := unifyBreaks_append hline []
  rw [List.append_nil] at hunify
  rw [ofLines, Text.lines, hunify, Text.unifyBreaks, List.append_nil,
    Text.splitAll_of_not_mem hfeed, filterMap_lineWord?_singleton]

theorem ofLines_of_unifyBreaks {line t rest : Text} (hline : Unbroken line)
    (ht : t.unifyBreaks = .char '\n' :: rest.unifyBreaks) :
    ofLines (line ++ t) = (lineWord? line).toList ++ ofLines rest := by
  have hfeed : Point.char '\n' ∉ line := fun hmem => (hline _ hmem).1 rfl
  have hlines : Text.lines (line ++ t) = [line] ++ Text.lines rest := by
    calc
      Text.lines (line ++ t)
          = Text.splitAll (.char '\n') (line ++ .char '\n' :: rest.unifyBreaks) := by
            rw [Text.lines, unifyBreaks_append hline, ht]
      _ = Text.splitAll (.char '\n') line ++ Text.lines rest := Text.splitAll_append _ _ _
      _ = [line] ++ Text.lines rest := by rw [Text.splitAll_of_not_mem hfeed]
  rw [ofLines, hlines, List.filterMap_append, filterMap_lineWord?_singleton, ofLines]

theorem ofLines_feed (rest : Text) : ofLines (.char '\n' :: rest) = ofLines rest := by
  have hnone : Unbroken [] := fun p hp => by cases hp
  exact ofLines_of_unifyBreaks hnone (unifyBreaks_cons (by decide) rest)

theorem ofLines_append {line ending : Text} (hline : Unbroken line) (hending : Break ending)
    (rest : Text) :
    ofLines (line ++ (ending ++ rest)) = (lineWord? line).toList ++ ofLines rest := by
  cases hending with
  | feed => exact ofLines_of_unifyBreaks hline (unifyBreaks_cons (by decide) rest)
  | both => exact ofLines_of_unifyBreaks hline (by rfl)
  | carriage =>
      -- A line feed that happens to follow belongs to the same end; the line it would end is empty.
      by_cases hfeed : rest.head? = some '\n'
      · cases rest with
        | nil => cases hfeed
        | cons p rest =>
            cases hfeed
            rw [ofLines_feed]
            exact ofLines_of_unifyBreaks hline (by rfl)
      · refine ofLines_of_unifyBreaks hline ?_
        rw [List.singleton_append, Text.unifyBreaks]
        rintro t rfl
        exact hfeed rfl

theorem Lists.ofLines_eq {ws : List Text} {t : Text} (ht : Lists ws t) : ofLines t = ws := by
  induction ht with
  | last hline hunbroken =>
      rw [ofLines_of_unbroken hunbroken, lineWord?_of_line hline]
  | line hline hunbroken hending _ ih =>
      rw [ofLines_append hunbroken hending, lineWord?_of_line hline, ih]

theorem exists_unbroken (t : Text) :
    ∃ line rest : Text, Unbroken line ∧ t = line ++ rest ∧
      ∀ p ∈ rest.head?, p = '\n' ∨ p = '\r' := by
  refine ⟨t.takeWhile fun p => p ≠ '\n' && p ≠ '\r', t.dropWhile fun p => p ≠ '\n' && p ≠ '\r',
    ?_, List.takeWhile_append_dropWhile.symm, ?_⟩
  · intro p hp
    simpa using List.mem_takeWhile_imp hp
  · intro p hp
    have hnot := List.head?_dropWhile_not (fun p : Point => p ≠ '\n' && p ≠ '\r') t
    rw [hp] at hnot
    by_cases hfeed : p = '\n'
    · exact Or.inl hfeed
    · exact Or.inr (by simpa [hfeed] using hnot)

/-- Every text lists the words that are read from it. By induction on the length of the text, line
by line. -/
theorem lists_ofLines (t : Text) : Lists (ofLines t) t := by
  induction hlength : t.length using Nat.strongRecOn generalizing t with
  | ind n ih =>
      subst hlength
      rcases exists_unbroken t with ⟨line, rest, hline, rfl, hrest⟩
      cases rest with
      | nil =>
          rw [List.append_nil, ofLines_of_unbroken hline]
          exact .last (line_lineWord? line) hline
      | cons p rest =>
          have hending : Break [p] := by
            rcases hrest p rfl with rfl | rfl
            · exact .feed
            · exact .carriage
          have hshorter : rest.length < (line ++ p :: rest).length := by
            simp
            omega
          have hnext := ih rest.length hshorter rest rfl
          rw [← List.singleton_append, ofLines_append hline hending]
          exact .line (line_lineWord? line) hline hending hnext

theorem lists_iff {ws : List Text} {t : Text} : Lists ws t ↔ ofLines t = ws := by
  refine ⟨Lists.ofLines_eq, ?_⟩
  rintro rfl
  exact lists_ofLines t

theorem Lists.trimmed {ws : List Text} {t : Text} (ht : Lists ws t) :
    ∀ w ∈ ws, w.Trimmed := by
  have hline : ∀ {line : Text} {w? : Option Text}, Line line w? → ∀ w ∈ w?.toList, w.Trimmed := by
    intro line w? hline w hw
    cases hline with
    | word _ hw' _ _ =>
        rw [List.mem_singleton.1 hw]
        exact hw'
    | blank _ => cases hw
    | comment _ => cases hw
  induction ht with
  | last h _ => exact hline h
  | line h _ _ _ ih =>
      intro w hw
      rcases List.mem_append.1 hw with hw | hw
      · exact hline h w hw
      · exact ih w hw

/-! ## Values -/

/-- The words of values in turn. A value that is no text, or a blank one, holds none. -/
inductive Items : List Value → List Text → Prop where
  | nil : Items [] []
  | word {before w after : Text} {items : List Value} {ws : List Text} (hbefore : before.Blank)
      (hw : w.Trimmed) (hafter : after.Blank) (hitems : Items items ws) :
      Items (.text (before ++ (w ++ after)) :: items) (w :: ws)
  | blank {space : Text} {items : List Value} {ws : List Text} (hspace : space.Blank)
      (hitems : Items items ws) : Items (.text space :: items) ws
  | other {item : Value} {items : List Value} {ws : List Text} (hitem : item.kind ≠ .text)
      (hitems : Items items ws) : Items (item :: items) ws

/-- The words of a list, or of the keys of a mapping. -/
inductive Names : Value → List Text → Prop where
  | list {items : List Value} {ws : List Text} (hitems : Items items ws) : Names (.list items) ws
  | object {fields : List (Text × Value)} {ws : List Text}
      (hkeys : Items (fields.map fun field => .text field.1) ws) : Names (.object fields) ws

theorem itemWord?_text (t : Text) :
    itemWord? (.text t) = if t.trim = [] then none else some t.trim := by
  rw [itemWord?]
  split
  · next hnil => exact (if_pos hnil).symm
  · next hne => exact (if_neg hne).symm

theorem itemWord?_padded {before w after : Text} (hw : w.Trimmed) (hbefore : before.Blank)
    (hafter : after.Blank) : itemWord? (.text (before ++ (w ++ after))) = some w := by
  rw [itemWord?_text, hw.trim_append hbefore hafter, if_neg hw.ne_nil]

theorem itemWord?_blank {space : Text} (hspace : space.Blank) :
    itemWord? (.text space) = none := by
  rw [itemWord?_text, if_pos (Text.trim_eq_nil_iff.2 hspace)]

theorem itemWord?_of_kind {item : Value} (hitem : item.kind ≠ .text) : itemWord? item = none := by
  cases item with
  | text t => exact absurd rfl hitem
  | _ => rfl

theorem Items.filterMap_eq {items : List Value} {ws : List Text} (hitems : Items items ws) :
    items.filterMap itemWord? = ws := by
  induction hitems with
  | nil => rfl
  | word hbefore hw hafter _ ih =>
      rw [List.filterMap_cons_some (itemWord?_padded hw hbefore hafter), ih]
  | blank hspace _ ih => rw [List.filterMap_cons_none (itemWord?_blank hspace), ih]
  | other hitem _ ih => rw [List.filterMap_cons_none (itemWord?_of_kind hitem), ih]

theorem items_filterMap (items : List Value) : Items items (items.filterMap itemWord?) := by
  induction items with
  | nil => exact .nil
  | cons item items ih =>
      by_cases hitem : item.kind = .text
      · cases item with
        | text t =>
            rcases Text.exists_padding t with ⟨before, after, hbefore, hafter, ht⟩
            by_cases hempty : t.trim = []
            · have hblank : t.Blank := Text.trim_eq_nil_iff.1 hempty
              rw [List.filterMap_cons_none (itemWord?_blank hblank)]
              exact .blank hblank ih
            · have hw : t.trim.Trimmed := Text.trimmed_trim hempty
              rw [ht, List.filterMap_cons_some (itemWord?_padded hw hbefore hafter)]
              exact .word hbefore hw hafter ih
        | _ => cases hitem
      · rw [List.filterMap_cons_none (itemWord?_of_kind hitem)]
        exact .other hitem ih

theorem items_iff {items : List Value} {ws : List Text} :
    Items items ws ↔ items.filterMap itemWord? = ws := by
  refine ⟨Items.filterMap_eq, ?_⟩
  rintro rfl
  exact items_filterMap items

theorem items_texts {ws : List Text} (hws : ∀ w ∈ ws, w.Trimmed) :
    Items (ws.map .text) ws := by
  induction ws with
  | nil => exact .nil
  | cons w ws ih =>
      rcases List.forall_mem_cons.1 hws with ⟨hw, hrest⟩
      have hnothing : Text.Blank [] := fun p hp => by cases hp
      have hitems := Items.word hnothing hw hnothing (ih hrest)
      rwa [List.append_nil] at hitems

theorem ofValue_object (fields : List (Text × Value)) :
    ofValue (.object fields) =
      some ((fields.map fun field => Value.text field.1).filterMap itemWord?) := by
  rw [ofValue, List.filterMap_map]
  rfl

theorem names_iff {v : Value} {ws : List Text} : Names v ws ↔ ofValue v = some ws := by
  constructor
  · intro hv
    cases hv with
    | list hitems => rw [ofValue, items_iff.1 hitems]
    | object hkeys => rw [ofValue_object, items_iff.1 hkeys]
  · intro hws
    cases v with
    | list items => exact .list (items_iff.2 (Option.some.inj hws))
    | object fields =>
        rw [ofValue_object] at hws
        exact .object (items_iff.2 (Option.some.inj hws))
    | _ => cases hws

theorem Items.trimmed {items : List Value} {ws : List Text} (hitems : Items items ws) :
    ∀ w ∈ ws, w.Trimmed := by
  induction hitems with
  | nil => simp
  | word _ hw _ _ ih => exact List.forall_mem_cons.2 ⟨hw, ih⟩
  | blank _ _ ih => exact ih
  | other _ _ ih => exact ih

theorem Names.trimmed {v : Value} {ws : List Text} (hv : Names v ws) : ∀ w ∈ ws, w.Trimmed := by
  cases hv with
  | list hitems => exact hitems.trimmed
  | object hkeys => exact hkeys.trimmed

end WordList
end QuocNgu
