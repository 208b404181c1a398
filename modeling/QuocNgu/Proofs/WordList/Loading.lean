import QuocNgu.Proofs.Json.Strict
import QuocNgu.WordList

/-!
# Proofs.WordList.Loading — the words that dictionary files give

* `runOn_loadAll`     : loading files gives the words of each in turn and one record for each
* `IsWord`            : what makes a text a word, that it is not empty and can be printed
* `isWord_of_mem_wordsOf` : whatever the files hold, nothing else is taken from them
-/

namespace QuocNgu
namespace WordList

/-! ## Loading -/

theorem source_record (name : Text) (found : Reading) : (found.record name).source = .files := by
  cases found <;> rfl

theorem runOn_load (name : Text) (s : Session) :
    (load name).runOn s =
      (.ok (reading s.files name).words?,
        { s with log := s.log ++ [(reading s.files name).record name] }) := by
  have hsource := source_record name (reading s.files name)
  unfold load
  rw [Job.runOn_bind (Job.runOn_files s), Job.runOn_bind (Job.runOn_log _ _ s), ← hsource]
  rfl

/-- The words of several files in turn. -/
def wordsOf (fs : FileSystem) (names : List Text) : List Text :=
  names.flatMap fun name => (reading fs name).words?

def recordsOf (fs : FileSystem) (names : List Text) : List Log.Entry :=
  names.map fun name => (reading fs name).record name

theorem runOn_mapM_loadValue (names : List Text) (s : Session) :
    ((names.map Value.text).mapM loadValue).runOn s =
      (.ok (names.map fun name => (reading s.files name).words?),
        { s with log := s.log ++ recordsOf s.files names }) := by
  induction names generalizing s with
  | nil =>
      simp [recordsOf]
  | cons name rest ih =>
      have hrest := ih { s with log := s.log ++ [(reading s.files name).record name] }
      rw [List.append_assoc] at hrest
      rw [List.map_cons, List.mapM_cons, loadValue, Job.runOn_bind (runOn_load name s),
        Job.runOn_bind hrest]
      rfl

/-- Loading changes nothing but the log, so each file is read as it was at the start. -/
theorem runOn_loadAll (names : List Text) (s : Session) :
    (loadAll (names.map .text)).runOn s =
      (.ok (wordsOf s.files names), { s with log := s.log ++ recordsOf s.files names }) := by
  rw [loadAll, Job.runOn_bind (runOn_mapM_loadValue names s)]
  rfl

/-! ## Words -/

/-- A word is not empty, and it has a written form. -/
def IsWord (w : Text) : Prop := w ≠ [] ∧ w.isWhole = true

theorem isWord_of_trim {t w : Text} (ht : t.isWhole = true) (hw : t.trim = w) (hne : w ≠ []) :
    IsWord w := by
  refine ⟨hne, Text.isWhole_of_subset ht ?_⟩
  rw [← hw]
  exact Text.trim_subset t

theorem isWord_of_lineWord? {line w : Text} (hline : line.isWhole = true)
    (hw : lineWord? line = some w) : IsWord w := by
  unfold lineWord? at hw
  split at hw
  · cases hw
  · next p rest htrim =>
      split at hw
      · cases hw
      · cases hw
        exact isWord_of_trim hline htrim (List.cons_ne_nil p rest)

theorem isWord_of_itemWord? {t w : Text} (ht : t.isWhole = true)
    (hw : itemWord? (.text t) = some w) : IsWord w := by
  simp only [itemWord?] at hw
  split at hw
  · cases hw
  · next hne =>
      cases hw
      exact isWord_of_trim ht rfl hne

theorem isWord_of_mem_ofLines {s : String} {w : Text} (hw : w ∈ ofLines s) : IsWord w := by
  rcases List.mem_filterMap.1 hw with ⟨line, hline, hword⟩
  exact isWord_of_lineWord? (Text.isWhole_of_mem_lines (Text.isWhole_ofString s) hline) hword

theorem isWord_of_mem_ofValue {s : String} {v : Value} {ws : List Text}
    (hv : Json.read Json.strict s = .ok v) (hws : ofValue v = some ws) {w : Text} (hw : w ∈ ws) :
    IsWord w := by
  rcases Json.isWhole_of_read hv with ⟨hitems, hkeys⟩
  cases v with
  | list items =>
      cases hws
      rcases List.mem_filterMap.1 hw with ⟨item, hitem, hword⟩
      cases item with
      | text t => exact isWord_of_itemWord? (hitems items rfl t hitem) hword
      | _ => cases hword
  | object fields =>
      cases hws
      rcases List.mem_filterMap.1 hw with ⟨field, hfield, hword⟩
      exact isWord_of_itemWord? (hkeys fields rfl field hfield) hword
  | _ => cases hws

/-- Every word of a file is one, in either format. -/
theorem isWord_of_reading {fs : FileSystem} {name w : Text}
    (hw : w ∈ (reading fs name).words?) : IsWord w := by
  have hjson : ∀ content, w ∈ (readJson content).words? → IsWord w := by
    intro content hw
    unfold readJson at hw
    split at hw
    · cases hw
    · split at hw
      · cases hw
      · next hread =>
          split at hw
          · next hvalue => exact isWord_of_mem_ofValue hread hvalue hw
          · cases hw
  have hlines : ∀ content, w ∈ (readLines content).words? → IsWord w := by
    intro content hw
    unfold readLines at hw
    split at hw
    · cases hw
    · exact isWord_of_mem_ofLines hw
  have hfile : ∀ path, w ∈ (readFile fs path).words? → IsWord w := by
    intro path hw
    unfold readFile at hw
    split at hw
    · split at hw
      · cases hw
      · split at hw
        · exact hjson _ hw
        · exact hlines _ hw
    · cases hw
  unfold reading at hw
  split at hw
  · exact hfile _ hw
  · cases hw

theorem isWord_of_mem_wordsOf {fs : FileSystem} {names : List Text} :
    ∀ w ∈ wordsOf fs names, IsWord w := by
  intro w hw
  rcases List.mem_flatMap.1 hw with ⟨name, -, hw⟩
  exact isWord_of_reading hw

end WordList
end QuocNgu
