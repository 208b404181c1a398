import QuocNgu.Proofs.Json.Parsing
import QuocNgu.Proofs.Text.Whole

/-!
# Proofs.Json.Strict — the strict dialect has whole texts only

* `Joins.isWhole`   : code units without lone halves make a whole text
* `Whole`           : whatever can name words in a value is whole
* `Written.whole`   : a value in the strict dialect is such a value
* `isWhole_of_read` : the same of what its reader gives

Half a surrogate pair can only be written as an escape, and the strict dialect refuses an escape of
a half that stands alone.
-/

namespace QuocNgu
namespace Json

/-! ## Texts -/

theorem isChar_ofCode {n : Nat} (hn : ¬(0xD800 ≤ n ∧ n < 0xE000)) :
    ∃ c, Point.ofCode n = .char c := by
  rw [Point.ofCode, dif_neg hn]
  exact ⟨_, rfl⟩

theorem Joins.isWhole {units : List Nat} {t : Text} (hjoins : Joins strict units t) :
    t.isWhole = true := by
  induction hjoins with
  | nil => rfl
  | pair _ _ _ ih =>
      -- A pair stands for a code point beyond all surrogates.
      refine Text.isWhole_cons.2 ⟨isChar_ofCode ?_, ih⟩
      omega
  | single _ hhalf _ ih =>
      rcases hhalf.resolve_left Bool.false_ne_true with ⟨hhigh, hlow⟩
      refine Text.isWhole_cons.2 ⟨isChar_ofCode ?_, ih⟩
      simp only [isHigh, isLow, Bool.and_eq_false_iff, decide_eq_false_iff_not] at hhigh hlow
      omega

theorem Quoted.isWhole {t : Text} {cs : List Char} (ht : Quoted strict t cs) :
    t.isWhole = true := by
  cases ht with
  | quoted _ hjoins => exact hjoins.isWhole

/-! ## Values -/

/-- The texts that can name words are whole: a text itself, those in a list, the keys of a
mapping. -/
def Whole : Value → Prop
  | .text t => t.isWhole = true
  | .list items => ∀ t, .text t ∈ items → t.isWhole = true
  | .object fields => ∀ field ∈ fields, field.1.isWhole = true
  | _ => True

def Form.Whole : Form → Prop
  | .value v => Json.Whole v
  | .element v => Json.Whole v
  | .elements vs => Json.Whole (.list vs)
  | .member key _ => key.isWhole = true
  | .members entries => Json.Whole (.object entries)

theorem key_of_mem_assignField {key : Text} {value : Value} {fields : List (Text × Value)}
    {field : Text × Value} (hfield : field ∈ Value.assignField key value fields) :
    field.1 = key ∨ field ∈ fields := by
  simp only [Value.assignField] at hfield
  induction fields with
  | nil =>
      simp only [Value.assign, List.mem_singleton] at hfield
      exact Or.inl (by rw [hfield])
  | cons old rest ih =>
      rcases old with ⟨k, v⟩
      rw [Value.assign] at hfield
      split at hfield
      · next hsame =>
          rcases List.mem_cons.1 hfield with rfl | hrest
          · exact Or.inl (beq_iff_eq.1 hsame)
          · exact Or.inr (List.mem_cons_of_mem _ hrest)
      · rcases List.mem_cons.1 hfield with rfl | hrest
        · exact Or.inr List.mem_cons_self
        · exact (ih hrest).imp_right (List.mem_cons_of_mem _)

theorem key_of_mem_assignAll {entries old : List (Text × Value)} {field : Text × Value}
    (hfield : field ∈ assignAll old entries) :
    (∃ entry ∈ entries, field.1 = entry.1) ∨ field ∈ old := by
  induction entries generalizing old with
  | nil => exact Or.inr hfield
  | cons entry entries ih =>
      rcases ih hfield with ⟨entry', hentry', hkey⟩ | hassigned
      · exact Or.inl ⟨entry', List.mem_cons_of_mem entry hentry', hkey⟩
      · rcases key_of_mem_assignField hassigned with hkey | hold
        · exact Or.inl ⟨entry, List.mem_cons_self, hkey⟩
        · exact Or.inr hold

theorem whole_word {word : List Char × Value} (hword : word ∈ words strict) : Whole word.2 := by
  simp only [words, strict, Bool.false_eq_true, if_false, List.append_nil, List.mem_cons,
    List.not_mem_nil, or_false] at hword
  rcases hword with rfl | rfl | rfl <;> exact trivial

theorem Numeral.whole_value (n : Numeral) : Whole n.value := by
  unfold Numeral.value
  split <;> exact trivial

/-- By induction on how a form is written; only a text between quotes brings texts in. -/
theorem Written.whole {depth : Nat} {form : Form} {cs : List Char}
    (hwritten : Written strict depth form cs) : form.Whole := by
  induction hwritten with
  | word hword => exact whole_word hword
  | @number _ n _ _ => exact n.whole_value
  | text ht => exact ht.isWhole
  | emptyList _ _ =>
      intro t ht
      cases ht
  | list _ _ ih => exact ih
  | emptyObject _ _ =>
      intro field hfield
      cases hfield
  | object _ _ ih =>
      intro field hfield
      rcases key_of_mem_assignAll hfield with ⟨entry, hentry, hkey⟩ | hnone
      · rw [hkey]
        exact ih entry hentry
      · cases hnone
  | element _ _ _ ih => exact ih
  | oneElement _ ih =>
      intro t ht
      obtain rfl := List.mem_singleton.1 ht
      exact ih
  | moreElements _ _ ihv ihvs =>
      intro t ht
      rcases List.mem_cons.1 ht with rfl | ht
      · exact ihv
      · exact ihvs t ht
  | member _ hkey _ _ _ => exact hkey.isWhole
  | oneMember _ ih =>
      intro field hfield
      rw [List.mem_singleton.1 hfield]
      exact ih
  | moreMembers _ _ ihentry ihentries =>
      intro field hfield
      rcases List.mem_cons.1 hfield with rfl | hfield
      · exact ihentry
      · exact ihentries field hfield

/-- Whatever names words in a document that was read is whole. -/
theorem isWhole_of_read {text : String} {v : Value} (hv : read strict text = .ok v) :
    (∀ items, v = .list items → ∀ t, .text t ∈ items → t.isWhole = true) ∧
    ∀ fields, v = .object fields → ∀ field ∈ fields, field.1.isWhole = true := by
  have hwhole : Whole v := Written.whole (read_eq_ok_iff.1 hv)
  constructor
  · rintro items rfl
    exact hwhole
  · rintro fields rfl
    exact hwhole

end Json
end QuocNgu
