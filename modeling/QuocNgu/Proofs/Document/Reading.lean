import QuocNgu.Document
import QuocNgu.Proofs.FileSystem.Writing
import QuocNgu.Proofs.Json.Mapping
import QuocNgu.Proofs.Json.RoundTrip

/-!
# Proofs.Document.Reading — what can be read as a document

* `document?_of_stored`  : a file with a stored value reads as that value
* `nodup_of_document?`   : a mapping that was read has no key twice
* `runOn_openJob_error`, `runOn_openJob_long` : opening a document changes nothing, and an integer
  that is too long is the one problem that is no answer
-/

namespace QuocNgu
namespace Document

theorem fromUTF8?_toUTF8 (s : String) : String.fromUTF8? s.toUTF8 = some s := by
  have hvalid : s.toUTF8.IsValidUTF8 := s.isValidUTF8
  rw [String.fromUTF8?, dif_pos hvalid]
  rfl

theorem document?_of_stored {fs : FileSystem} {path : String} {v : Value} (hv : Json.Plain v)
    (hread : fs.read path = .ok (Json.stored v).1.toUTF8) : document? fs path = .ok v := by
  rw [document?, text?, hread]
  dsimp only
  rw [fromUTF8?_toUTF8]
  dsimp only
  rw [Json.read_stored hv]

theorem document?_of_read_error {fs : FileSystem} {path text : String} {problem : Json.Problem}
    (htext : Json.read Json.lenient text = .error problem)
    (hread : fs.read path = .ok text.toUTF8) : document? fs path = .error (.json problem) := by
  rw [document?, text?, hread]
  dsimp only
  rw [fromUTF8?_toUTF8]
  dsimp only
  rw [htext]

/-- Only the content of its file matters to a document. -/
theorem document?_congr {fs fs' : FileSystem} {path : String}
    (hread : fs'.read path = fs.read path) : document? fs' path = document? fs path := by
  rw [document?, document?, text?, text?, hread]

theorem exists_read_of_document? {fs : FileSystem} {path : String} {v : Value}
    (hdocument : document? fs path = .ok v) : ∃ content, fs.read path = .ok content := by
  cases hread : fs.read path with
  | ok content => exact ⟨content, rfl⟩
  | error problem =>
      rw [document?, text?, hread] at hdocument
      cases hdocument

theorem runOn_openJob {path : String} {s : Session} {v : Value}
    (hdocument : document? s.files path = .ok v) :
    (openJob path).runOn s = (.ok (.ok v), s) := by
  unfold openJob
  rw [Job.runOn_bind (Job.runOn_files s), hdocument]
  rfl

theorem exists?_of_document? {fs : FileSystem} {path : String} {v : Value}
    (hdocument : document? fs path = .ok v) : fs.exists? path = true := by
  rcases exists_read_of_document? hdocument with ⟨content, hread⟩
  exact FileSystem.exists?_of_read hread

theorem exists_text_of_document? {fs : FileSystem} {path : String} {v : Value}
    (hdocument : document? fs path = .ok v) : ∃ text, Json.read Json.lenient text = .ok v := by
  unfold document? at hdocument
  split at hdocument
  · cases hdocument
  · next text _ =>
      split at hdocument
      · next hread =>
          cases hdocument
          exact ⟨text, hread⟩
      · cases hdocument

theorem nodup_of_document? {fs : FileSystem} {path : String} {fields : List (Text × Value)}
    (hdocument : document? fs path = .ok (.object fields)) : (fields.map Prod.fst).Nodup := by
  rcases exists_text_of_document? hdocument with ⟨text, hread⟩
  exact Json.nodup_of_read hread

theorem rows?_of_document? {fs : FileSystem} {path : String} {v : Value}
    (hdocument : document? fs path = .ok v) :
    (∃ fields, v = .object fields) ∨ v.rows? = none ∧ v.kind ≠ .mapping := by
  rcases exists_text_of_document? hdocument with ⟨text, hread⟩
  exact Json.rows?_of_read hread

theorem runOn_openJob_error {path : String} {s : Session} {problem : Problem}
    (hdocument : document? s.files path = .error problem)
    (hproblem : problem ≠ .json .longInteger) :
    (openJob path).runOn s = (.ok (.error problem), s) := by
  unfold openJob
  rw [Job.runOn_bind (Job.runOn_files s), hdocument]
  split
  · next hlong =>
      cases hlong
      exact absurd rfl hproblem
  · rfl

theorem exists?_of_long {fs : FileSystem} {path : String}
    (hdocument : document? fs path = .error (.json .longInteger)) : fs.exists? path = true := by
  cases hread : fs.read path with
  | ok content => exact FileSystem.exists?_of_read hread
  | error problem =>
      rw [document?, text?, hread] at hdocument
      cases hdocument

theorem runOn_openJob_long {path : String} {s : Session}
    (hdocument : document? s.files path = .error (.json .longInteger)) :
    (openJob path).runOn s = (.error .longInteger, s) := by
  unfold openJob
  rw [Job.runOn_bind (Job.runOn_files s), hdocument]
  rfl

end Document
end QuocNgu
