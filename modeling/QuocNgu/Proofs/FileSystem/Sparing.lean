import Mathlib.Data.List.Induction
import QuocNgu.Proofs.FileSystem.Writing

/-!
# Proofs.FileSystem.Sparing — which files an operation leaves as they are

* `SameFiles` : all files are there with the content that they had, and no others
* `Replaces`  : one path leads to a file of a given content, and all other files are the same
* `CutsShort` : the same with the first bytes of the content, after which the device gave up
* `sameFiles_makeDirectories` : making directories changes no file, even where it fails
* `spares_write` : writing replaces one file, cuts one short or changes nothing
* `BacksThrough` : a path steps back only from directories that are there
* `Refills.keepsFiles` : then a file put where its path led nowhere takes the place of no other

Files are told apart by their places and not by their paths, of which many lead to one place. The
file system may hold anything: files without a directory above them count as well, unless it is
`Rooted`.
-/

namespace QuocNgu
namespace FileSystem

variable {fs fs' : FileSystem}

/-- All files are there with the content that they had, and no others. -/
def SameFiles (fs fs' : FileSystem) : Prop := ∀ place, fs'.content? place = fs.content? place

/-- All files are there with the content that they had, and there may be more. -/
def KeepsFiles (fs fs' : FileSystem) : Prop :=
  ∀ place content, fs.content? place = some content → fs'.content? place = some content

/-- At one place there is a file with a content, and all other files are the same. -/
structure Refills (place : Place) (content : ByteArray) (fs fs' : FileSystem) : Prop where
  held : fs'.content? place = some content
  others : ∀ q, q ≠ place → fs'.content? q = fs.content? q

/-- A path leads to a file with a content, and all other files are the same. -/
def Replaces (path : String) (content : ByteArray) (fs fs' : FileSystem) : Prop :=
  ∃ place, fs'.locate path = .ok place ∧ Refills place content fs fs'

/-- The device gave up on the content of the file that a path leads to, and all other files are the
same. -/
def CutsShort (path : String) (content : ByteArray) (fs fs' : FileSystem) : Prop :=
  ∃ place taken, fs.breaksAfter place content = some taken ∧ fs'.locate path = .ok place ∧
    Refills place (content.extract 0 taken) fs fs'

theorem SameFiles.trans {fs'' : FileSystem} (h : SameFiles fs fs') (h' : SameFiles fs' fs'') :
    SameFiles fs fs'' := fun place => (h' place).trans (h place)

theorem SameFiles.keepsFiles (hsame : SameFiles fs fs') : KeepsFiles fs fs' :=
  fun place _ hplace => (hsame place).trans hplace

/-- What is the same file by file before a file is refilled need not be mentioned. -/
theorem Refills.of_sameFiles {fs'' : FileSystem} {place : Place} {content : ByteArray}
    (hsame : SameFiles fs fs') (hrefills : Refills place content fs' fs'') :
    Refills place content fs fs'' := by
  refine ⟨hrefills.held, ?_⟩
  intro q hq
  exact (hrefills.others q hq).trans (hsame q)

theorem content?_set_self {place : Place} (hplace : place ≠ []) (content : ByteArray) :
    (fs.set place (.file content)).content? place = some content := by
  simp only [content?, entry_set hplace, if_true]

theorem content?_set_other {place q : Place} (hplace : place ≠ []) (e : Entry) (hq : q ≠ place) :
    (fs.set place e).content? q = fs.content? q := by
  simp only [content?, entry_set hplace, if_neg hq]

theorem entry_of_content {place : Place} {content : ByteArray}
    (hcontent : fs.content? place = some content) : fs.entry? place = some (.file content) := by
  unfold content? at hcontent
  split at hcontent
  · next hfile =>
      cases hcontent
      exact hfile
  · cases hcontent

/-! ## Making directories -/

/-- A directory takes no file's place. -/
theorem AddsDirectory.sameFiles (hadds : AddsDirectory fs fs') : SameFiles fs fs' := by
  cases hadds with
  | @intro place hnone =>
      have hplace := ne_nil_of_none hnone
      intro q
      by_cases hq : q = place
      · subst hq
        simp [content?, entry_set hplace, hnone]
      · exact content?_set_other hplace .directory hq

theorem sameFiles_makeDirectories (fs : FileSystem) (path : String) :
    SameFiles fs (fs.makeDirectories path).1 := by
  have hadds := adds_makeDirectories fs path
  generalize (fs.makeDirectories path).1 = made at hadds
  induction hadds with
  | refl => exact fun _ => rfl
  | tail _ hadd ih => exact ih.trans hadd.sameFiles

/-! ## Writing -/

section

variable {path : String} {place : Place}

/-- The directories on the way are still there, so the path leads where it led. -/
theorem Opens.locate_set (hopens : Opens fs path place) (content : ByteArray) :
    (fs.set place (.file content)).locate path = .ok place :=
  locate_of_leads (hopens.leads.keeps (keeps_set hopens.free _)) hopens.ending

theorem Opens.refills (hopens : Opens fs path place) (content : ByteArray) :
    Refills place content fs (fs.set place (.file content)) := by
  have hroot := ne_nil_of_not_directory hopens.free
  exact ⟨content?_set_self hroot content, fun q hq => content?_set_other hroot _ hq⟩

/-- What a write does to the files goes with what it says. -/
theorem spares_write (fs : FileSystem) (path : String) (content : ByteArray) :
    (∃ problem, fs.write path content = (fs, some problem)) ∨
      (fs.write path content).2 = some .brokenOff ∧
        CutsShort path content fs (fs.write path content).1 ∨
      (fs.write path content).2 = none ∧ Replaces path content fs (fs.write path content).1 := by
  obtain hrefused | ⟨place, hopens, hfill⟩ := write_cases fs path content
  · exact Or.inl hrefused
  · obtain hwhole | ⟨taken, htaken, hbroken⟩ := fill_cases fs place content
    · rw [hfill, hwhole]
      exact Or.inr (Or.inr ⟨rfl, place, hopens.locate_set _, hopens.refills _⟩)
    · rw [hfill, hbroken]
      exact Or.inr (Or.inl ⟨rfl, place, taken, htaken, hopens.locate_set _, hopens.refills _⟩)

end

/-! ## Paths that go back

Two dots lead back from a directory that is still to be made to one that may be full of files.
-/

/-- Whatever is there is in a directory. -/
def Rooted (fs : FileSystem) : Prop :=
  ∀ place e, fs.entry? place = some e → fs.entry? place.dropLast = some .directory

theorem Rooted.directory (hrooted : Rooted fs) {place rest : Place} {e : Entry}
    (hrest : rest ≠ []) (hentry : fs.entry? (place ++ rest) = some e) :
    fs.entry? place = some .directory := by
  induction rest using List.reverseRecOn generalizing e with
  | nil => exact absurd rfl hrest
  | append_singleton rest name ih =>
      have habove := hrooted _ e hentry
      rw [← List.append_assoc, List.dropLast_concat] at habove
      by_cases hnil : rest = []
      · subst hnil
        rwa [List.append_nil] at habove
      · exact ih hnil habove

theorem prefix_step {place : Place} {name : String} (hname : name ≠ "..") :
    place <+: step place name := by
  unfold step
  split
  · exact List.prefix_refl place
  · exact List.prefix_append place [name]

theorem prefix_of_foldlM {names : List String} {place last : Place} (hback : ".." ∉ names)
    (hlast : names.foldlM fs.enter place = .ok last) : place <+: last := by
  induction names generalizing place with
  | nil =>
      cases hlast
      exact List.prefix_refl _
  | cons name rest ih =>
      rw [List.mem_cons, not_or] at hback
      obtain ⟨next, hnext, hrest⟩ := foldlM_enter_cons.1 hlast
      obtain ⟨-, rfl⟩ := enter_ok hnext
      exact (prefix_step (Ne.symm hback.1)).trans (ih hback.2 hrest)

/-- A path that never goes back passes only what is above the place where it ends, and all of that
was there before if the file was. -/
theorem foldlM_enter_before (hrooted : Rooted fs) {names : List String} {place last : Place}
    {old new : ByteArray} (hback : ".." ∉ names) (hold : fs.entry? last = some (.file old))
    (hnew : fs'.entry? last = some (.file new))
    (hlast : names.foldlM fs'.enter place = .ok last) :
    names.foldlM fs.enter place = .ok last := by
  induction names generalizing place with
  | nil => exact hlast
  | cons name rest ih =>
      obtain ⟨below, hbelow⟩ := prefix_of_foldlM hback hlast
      obtain ⟨next, hnext, hrest⟩ := foldlM_enter_cons.1 hlast
      -- Files cannot be stepped through, so this place is not yet the last one.
      have hbelow_ne : below ≠ [] := by
        rintro rfl
        rw [List.append_nil] at hbelow
        rw [← hbelow, (enter_ok hnext).1] at hnew
        cases hnew
      have hplace : fs.entry? place = some .directory := by
        rw [← hbelow] at hold
        exact hrooted.directory hbelow_ne hold
      have hback_rest : ".." ∉ rest := fun hmem => hback (List.mem_cons_of_mem name hmem)
      exact foldlM_enter_cons.2
        ⟨next, enter_of_directory hnext hplace, ih hback_rest hrest⟩

/-- A path goes back through directories that are there, if at all. -/
def BacksThrough (fs : FileSystem) (path : String) : Prop :=
  ∃ walked ahead place, names path = walked ++ ahead ∧
    walked.foldlM fs.enter (fs.start path) = .ok place ∧ ".." ∉ ahead

theorem backsThrough_of_not_mem {path : String} (hback : ".." ∉ names path) :
    BacksThrough fs path :=
  ⟨[], names path, fs.start path, rfl, rfl, hback⟩

/-- Where such a path leads to a file that was there before, it led there before. -/
theorem exists?_of_locate (hrooted : Rooted fs) (hkeeps : Keeps fs fs') {path : String}
    {place : Place} {old new : ByteArray} (hback : BacksThrough fs path)
    (hold : fs.content? place = some old) (hnew : fs'.content? place = some new)
    (hlocate : fs'.locate path = .ok place) : fs.exists? path = true := by
  have hfile := entry_of_content hold
  have hfile' := entry_of_content hnew
  obtain ⟨⟨hempty, hnul, hlong, hlast⟩, hending⟩ := leads_of_locate hlocate
  obtain ⟨walked, ahead, reached, hnames, hreached, hahead⟩ := hback
  have hreached' := foldlM_enter_keeps hkeeps hreached
  rw [hkeeps.start path, hnames, List.foldlM_append, hreached'] at hlast
  have hrest := foldlM_enter_before hrooted hahead hfile hfile' hlast
  have hleads : Leads fs path place := by
    refine ⟨hempty, hnul, hlong, ?_⟩
    rw [hnames, List.foldlM_append, hreached]
    exact hrest
  rw [exists?, locate_of_leads hleads (hending _ hfile')]
  dsimp only
  rw [hfile]
  rfl

/-- A file to which a path leads that led nowhere before was not there. -/
theorem Refills.keepsFiles (hrooted : Rooted fs) (hkeeps : Keeps fs fs') {path : String}
    {place : Place} {content : ByteArray} (hback : BacksThrough fs path)
    (hnew : fs.exists? path = false) (hlocate : fs'.locate path = .ok place)
    (hrefills : Refills place content fs fs') : KeepsFiles fs fs' := by
  intro q old hold
  by_cases hq : q = place
  · subst hq
    have hexists := exists?_of_locate hrooted hkeeps hback hold hrefills.held hlocate
    cases hnew.symm.trans hexists
  · rw [hrefills.others q hq, hold]

end FileSystem
end QuocNgu
