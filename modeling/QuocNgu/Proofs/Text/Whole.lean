import QuocNgu.Proofs.Trie.Spelling
import QuocNgu.Text.Blank
import QuocNgu.Text.Lowercase
import QuocNgu.Text.Split

/-!
# Proofs.Text.Whole — texts that keep a written form

* `isWhole_iff`          : no half of a surrogate pair stands in a whole text
* `exists_ofString`      : whole texts are the texts of strings
* `chars`                : the characters of a text
* `isWhole_lower`        : lower-casing keeps texts whole
* `trim_subset`, `isWhole_of_mem_lines` : so do trimming and cutting into lines
* `IsSpelling.isWhole`   : every spelling of a whole word is whole

A half has no UTF-8 form, so whatever is to be printed or saved has to be whole.
-/

namespace QuocNgu
namespace Text

@[simp]
theorem isWhole_nil : isWhole [] = true := rfl

@[simp]
theorem isWhole_cons {p : Point} {t : Text} :
    isWhole (p :: t) = true ↔ (∃ c, p = .char c) ∧ t.isWhole = true := by
  cases p with
  | char c =>
      cases hrest : t.mapM Point.char? <;>
        simp [isWhole, toString?, List.mapM_cons, Point.char?, hrest]
  | half offset => simp [isWhole, toString?, List.mapM_cons, Point.char?]

theorem isWhole_iff {t : Text} : t.isWhole = true ↔ ∀ p ∈ t, ∃ c, p = .char c := by
  induction t with
  | nil =>
      simp
  | cons p t ih =>
      simp [ih]

@[simp]
theorem isWhole_append {s t : Text} :
    isWhole (s ++ t) = true ↔ s.isWhole = true ∧ t.isWhole = true := by
  simp only [isWhole_iff, List.mem_append, or_imp, forall_and]

theorem isWhole_map_char (cs : List Char) : isWhole (cs.map .char) = true := by
  rw [isWhole_iff]
  intro p hp
  rcases List.mem_map.1 hp with ⟨c, -, rfl⟩
  exact ⟨c, rfl⟩

theorem isWhole_ofString (s : String) : isWhole (ofString s) = true := isWhole_map_char s.toList

theorem isWhole_of_subset {s t : Text} (ht : t.isWhole = true) (hst : s ⊆ t) :
    s.isWhole = true := by
  rw [isWhole_iff] at ht ⊢
  intro p hp
  exact ht p (hst hp)

theorem isWhole_intercalate {separator : Text} {texts : List Text}
    (hseparator : separator.isWhole = true) (htexts : ∀ t ∈ texts, t.isWhole = true) :
    isWhole (separator.intercalate texts) = true := by
  induction texts with
  | nil => exact isWhole_nil
  | cons t texts ih =>
      rcases List.forall_mem_cons.1 htexts with ⟨ht, hrest⟩
      cases texts with
      | nil => simpa using ht
      | cons next rest =>
          rw [List.intercalate_cons_cons, isWhole_append, isWhole_append]
          exact ⟨⟨ht, hseparator⟩, ih hrest⟩

theorem exists_ofString {t : Text} (ht : t.isWhole = true) : ∃ s, t = ofString s := by
  have hchars : ∃ cs : List Char, t = cs.map .char := by
    induction t with
    | nil =>
        exact ⟨[], rfl⟩
    | cons p t ih =>
        rcases isWhole_cons.1 ht with ⟨⟨c, rfl⟩, hrest⟩
        rcases ih hrest with ⟨cs, rfl⟩
        exact ⟨c :: cs, rfl⟩
  rcases hchars with ⟨cs, rfl⟩
  exact ⟨String.ofList cs, by rw [ofString, String.toList_ofList]⟩

/-! ## Characters -/

/-- The characters of a text; of a whole text that is everything in it. -/
def chars (t : Text) : List Char := t.filterMap Point.char?

@[simp]
theorem chars_append (s t : Text) : chars (s ++ t) = s.chars ++ t.chars := List.filterMap_append

@[simp]
theorem chars_map_char (cs : List Char) : chars (cs.map .char) = cs := by
  have hsome : Point.char? ∘ Point.char = some := rfl
  rw [chars, List.filterMap_map, hsome, List.filterMap_some]

theorem toString?_of_isWhole {t : Text} (ht : t.isWhole = true) :
    t.toString? = some (String.ofList t.chars) := by
  rcases exists_ofString ht with ⟨s, rfl⟩
  rw [toString?_ofString, ofString, chars_map_char, String.ofList_toList]

/-! ## Lower-casing -/

theorem isWhole_lowerPoint {p : Point} (hp : ∃ c, p = .char c) : (lowerPoint p).isWhole = true := by
  rcases hp with ⟨c, rfl⟩
  exact isWhole_map_char (lowerChar c)

theorem isWhole_lowerFrom {before t : Text} (ht : t.isWhole = true) :
    (lowerFrom before t).isWhole = true := by
  induction t generalizing before with
  | nil =>
      exact isWhole_nil
  | cons p after ih =>
      rcases isWhole_cons.1 ht with ⟨hp, hafter⟩
      rw [lowerFrom, isWhole_append]
      refine ⟨?_, ih hafter⟩
      split
      · -- Either form of a small sigma is a character.
        simp only [lowerSigma]
        split <;> simp
      · exact isWhole_lowerPoint hp

theorem isWhole_lower {t : Text} (ht : t.isWhole = true) : t.lower.isWhole = true :=
  isWhole_lowerFrom ht

/-! ## Trimming and lines -/

theorem trim_subset (t : Text) : t.trim ⊆ t := by
  have hend : t.trimStart.trimEnd ⊆ t.trimStart := by
    intro p hp
    have hmem := List.mem_reverse.1 hp
    exact List.mem_reverse.1 ((List.dropWhile_sublist _).subset hmem)
  exact fun p hp => (List.dropWhile_sublist _).subset (hend hp)

theorem subset_of_mem_splitAll {α : Type} [DecidableEq α] {separator : α} {items run : List α}
    (hrun : run ∈ splitAll separator items) : run ⊆ items := by
  induction items generalizing run with
  | nil =>
      simp only [splitAll, List.mem_singleton] at hrun
      simp [hrun]
  | cons a rest ih =>
      rw [splitAll] at hrun
      split at hrun
      · rcases List.mem_cons.1 hrun with rfl | hrun
        · exact List.nil_subset _
        · exact List.Subset.trans (ih hrun) (List.subset_cons_self a rest)
      · split at hrun
        · next first runs hsplit =>
            rw [hsplit] at ih
            rcases List.mem_cons.1 hrun with rfl | hrun
            · exact List.cons_subset_cons a (ih List.mem_cons_self)
            · have hrest : run ⊆ rest := ih (List.mem_cons_of_mem _ hrun)
              exact List.Subset.trans hrest (List.subset_cons_self a rest)
        · next hsplit => exact absurd hsplit (splitAll_ne_nil separator rest)

theorem isWhole_unifyBreaks {t : Text} (ht : t.isWhole = true) :
    t.unifyBreaks.isWhole = true := by
  fun_induction unifyBreaks t with
  | case1 =>
      exact isWhole_nil
  | case2 t ih =>
      simp only [isWhole_cons] at ht ⊢
      exact ⟨⟨'\n', rfl⟩, ih ht.2.2⟩
  | case3 t _ ih =>
      simp only [isWhole_cons] at ht ⊢
      exact ⟨⟨'\n', rfl⟩, ih ht.2⟩
  | case4 p t _ _ ih =>
      simp only [isWhole_cons] at ht ⊢
      exact ⟨ht.1, ih ht.2⟩

theorem isWhole_of_mem_lines {t line : Text} (ht : t.isWhole = true) (hline : line ∈ t.lines) :
    line.isWhole = true :=
  isWhole_of_subset (isWhole_unifyBreaks ht) (subset_of_mem_splitAll hline)

end Text

/-! ## Spellings -/

namespace Letter

theorem isChar_onPoint (edit : Letter → Letter) {p : Point} (hp : ∃ c, p = .char c) :
    ∃ c, onPoint edit p = .char c := by
  cases hletter : ofPoint? p with
  | none =>
      rw [onPoint_of_none edit hletter]
      exact hp
  | some l =>
      rw [eq_toChar_of_ofPoint? hletter, onPoint_toChar]
      exact ⟨_, rfl⟩

end Letter

namespace Trie

theorem IsSpelling.isWhole {word spelling : Text} (hspelling : IsSpelling word spelling)
    (hword : word.isWhole = true) : spelling.isWhole = true := by
  induction hspelling with
  | nil =>
      exact Text.isWhole_nil
  | cons hv _ ih =>
      rcases Text.isWhole_cons.1 hword with ⟨hp, hrest⟩
      refine Text.isWhole_cons.2 ⟨?_, ih hrest⟩
      rcases mem_variants.1 hv with rfl | rfl | rfl
      · exact hp
      · exact Letter.isChar_onPoint _ hp
      · exact Letter.isChar_onPoint _ hp

end Trie
end QuocNgu
