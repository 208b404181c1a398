import QuocNgu.Proofs.Json.Parsing
import QuocNgu.Proofs.Value.Rows

/-!
# Proofs.Json.Mapping — the mappings that a reader gives

* `nodup_of_read` : the keys of a mapping that was read are distinct
* `rows?_of_read` : a value with rows is a mapping with text keys

A document may repeat a key. The reader keeps one field for it, so that the fields of a mapping are
those of a finite map.
-/

namespace QuocNgu
namespace Json

variable {d : Dialect} {depth : Nat} {cs : List Char} {text : String} {v : Value}

theorem nodup_assignAll {old : List (Text × Value)} (hold : (old.map Prod.fst).Nodup)
    (entries : List (Text × Value)) : ((assignAll old entries).map Prod.fst).Nodup := by
  induction entries generalizing old with
  | nil => exact hold
  | cons entry entries ih => exact ih (Value.nodup_assignField hold)

/-- A value that is no mapping and has no rows. -/
def NoRows (v : Value) : Prop := v.rows? = none ∧ v.kind ≠ .mapping

theorem noRows_word {word : List Char × Value} (hword : word ∈ words d) : NoRows word.2 := by
  have hmem := mem_words_lenient hword
  simp only [words, lenient, if_true, List.cons_append, List.nil_append, List.mem_cons,
    List.not_mem_nil, or_false] at hmem
  rcases hmem with rfl | rfl | rfl | rfl | rfl | rfl <;> exact ⟨rfl, by simp [Value.kind]⟩

theorem Numeral.noRows_value (n : Numeral) : NoRows n.value := by
  unfold Numeral.value
  split <;> exact ⟨rfl, by simp [Value.kind]⟩

theorem Written.noRows_or_object (hv : Written d depth (.value v) cs) :
    NoRows v ∨ ∃ fields, v = .object fields ∧ (fields.map Prod.fst).Nodup := by
  cases hv with
  | word hword => exact Or.inl (noRows_word hword)
  | number _ _ => exact Or.inl (Numeral.noRows_value _)
  | text _ => exact Or.inl ⟨rfl, by simp [Value.kind]⟩
  | emptyList _ _ => exact Or.inl ⟨rfl, by simp [Value.kind]⟩
  | list _ _ => exact Or.inl ⟨rfl, by simp [Value.kind]⟩
  | emptyObject _ _ => exact Or.inr ⟨[], rfl, List.nodup_nil⟩
  | object _ _ =>
      refine Or.inr ⟨_, rfl, nodup_assignAll ?_ _⟩
      exact List.nodup_nil

theorem noRows_or_object_of_read (hv : read d text = .ok v) :
    NoRows v ∨ ∃ fields, v = .object fields ∧ (fields.map Prod.fst).Nodup := by
  have hdocument : Written d 0 (.element v) text.toList := read_eq_ok_iff.1 hv
  generalize text.toList = cs at hdocument
  cases hdocument with
  | element _ hv _ => exact hv.noRows_or_object

theorem nodup_of_read {fields : List (Text × Value)} (hv : read d text = .ok (.object fields)) :
    (fields.map Prod.fst).Nodup := by
  rcases noRows_or_object_of_read hv with ⟨-, hkind⟩ | ⟨fields', hobject, hdistinct⟩
  · exact absurd rfl hkind
  · cases hobject
    exact hdistinct

/-- No document gives a mapping with keys that are no texts. -/
theorem rows?_of_read (hv : read d text = .ok v) :
    (∃ fields, v = .object fields) ∨ v.rows? = none ∧ v.kind ≠ .mapping := by
  rcases noRows_or_object_of_read hv with hnone | ⟨fields, hobject, -⟩
  · exact Or.inr hnone
  · exact Or.inl ⟨fields, hobject⟩

end Json
end QuocNgu
