import Mathlib.Logic.Relation
import QuocNgu.FileSystem

/-!
# Proofs.FileSystem.Writing — what writing changes and what it leaves

* `entry_set`        : the entry at any place after one was set
* `Keeps`             : every directory is a directory still, so paths lead where they led
* `exists_of_read`      : the place of a file that was read
* `write_cases`, `fill_cases` : all that writing a file can do
* `read_write`        : a file that was written reads as what was written
* `read_write_other`  : any other file reads as before, or as what was written
* `adds_makeDirectories`, `grows_makeDirectories` : making directories only adds directories
-/

namespace QuocNgu
namespace FileSystem

variable {fs fs' : FileSystem}

/-! ## Entries -/

theorem lookup_cons (p : Place) (e : Entry) (rest : List (Place × Entry)) (q : Place) :
    ((p, e) :: rest).lookup q = if q = p then some e else rest.lookup q := by
  by_cases hq : q = p
  · subst hq
    rw [if_pos rfl, List.lookup_cons_self]
  · have hbeq : (q == p) = false := beq_false_of_ne hq
    rw [if_neg hq, List.lookup_cons, hbeq]

theorem lookup_assign (place q : Place) (e : Entry) (entries : List (Place × Entry)) :
    (assign place e entries).lookup q = if q = place then some e else entries.lookup q := by
  induction entries with
  | nil => exact lookup_cons place e [] q
  | cons entry rest ih =>
      rcases entry with ⟨p, old⟩
      rw [assign]
      by_cases hp : p = place
      · subst hp
        rw [if_pos rfl, lookup_cons, lookup_cons]
        by_cases hq : q = p <;> simp [hq]
      · rw [if_neg hp, lookup_cons, lookup_cons, ih]
        by_cases hq : q = p
        · have hne : q ≠ place := fun h => hp (hq.symm.trans h)
          rw [if_pos hq, if_pos hq, if_neg hne]
        · rw [if_neg hq, if_neg hq]

theorem entry_set {place : Place} (hplace : place ≠ []) (e : Entry) (q : Place) :
    entry? (fs.set place e) q = if q = place then some e else fs.entry? q := by
  cases q with
  | nil =>
      rw [if_neg (Ne.symm hplace)]
      rfl
  | cons name rest => exact lookup_assign place (name :: rest) e fs.entries

/-- The root is a directory. -/
theorem ne_nil_of_not_directory {place : Place} (hplace : fs.entry? place ≠ some .directory) :
    place ≠ [] := by
  rintro rfl
  exact hplace rfl

theorem ne_nil_of_none {place : Place} (hplace : fs.entry? place = none) : place ≠ [] := by
  have hdirectory : fs.entry? place ≠ some .directory := by simp [hplace]
  exact ne_nil_of_not_directory hdirectory

/-! ## Paths -/

theorem enter_ok {place next : Place} {name : String} (hnext : fs.enter place name = .ok next) :
    fs.entry? place = some .directory ∧ next = step place name := by
  unfold enter at hnext
  split at hnext
  · cases hnext
  · split at hnext
    · next hplace =>
        split at hnext
        · cases hnext
        · cases hnext
          exact ⟨hplace, rfl⟩
    · cases hnext
    · cases hnext

/-- Two file systems step alike from a place that is a directory in both. -/
theorem enter_of_directory {place next : Place} {name : String}
    (hnext : fs.enter place name = .ok next) (hplace : fs'.entry? place = some .directory) :
    fs'.enter place name = .ok next := by
  have hbefore := (enter_ok hnext).1
  unfold enter at hnext ⊢
  rw [hbefore] at hnext
  rw [hplace]
  exact hnext

theorem foldlM_enter_cons {name : String} {rest : List String} {place last : Place} :
    (name :: rest).foldlM fs.enter place = .ok last ↔
      ∃ next, fs.enter place name = .ok next ∧ rest.foldlM fs.enter next = .ok last := by
  rw [List.foldlM_cons]
  cases hnext : fs.enter place name with
  | error problem =>
      constructor
      · rintro ⟨⟩
      · rintro ⟨next, ⟨⟩, -⟩
  | ok next =>
      constructor
      · intro hlast
        exact ⟨next, rfl, hlast⟩
      · rintro ⟨next, ⟨⟩, hlast⟩
        exact hlast

/-- Every directory is one still, and so paths go through the same places. -/
structure Keeps (fs fs' : FileSystem) : Prop where
  working : fs'.working = fs.working
  directory : ∀ place, fs.entry? place = some .directory → fs'.entry? place = some .directory

theorem Keeps.refl (fs : FileSystem) : Keeps fs fs := ⟨rfl, fun _ h => h⟩

theorem Keeps.trans {fs'' : FileSystem} (h : Keeps fs fs') (h' : Keeps fs' fs'') :
    Keeps fs fs'' :=
  ⟨h'.working.trans h.working,
    fun place hplace => h'.directory place (h.directory place hplace)⟩

theorem Keeps.start (hkeeps : Keeps fs fs') (path : String) : fs'.start path = fs.start path := by
  rw [FileSystem.start, FileSystem.start, hkeeps.working]

theorem foldlM_enter_keeps (hkeeps : Keeps fs fs') {names : List String} {place last : Place}
    (hlast : names.foldlM fs.enter place = .ok last) :
    names.foldlM fs'.enter place = .ok last := by
  induction names generalizing place with
  | nil => exact hlast
  | cons name rest ih =>
      obtain ⟨next, hnext, hrest⟩ := foldlM_enter_cons.1 hlast
      have hplace := hkeeps.directory place (enter_ok hnext).1
      exact foldlM_enter_cons.2 ⟨next, enter_of_directory hnext hplace, ih hrest⟩

/-- A path leads to a place if it goes through directories alone; at the place there may be
anything, or nothing. -/
def Leads (fs : FileSystem) (path : String) (place : Place) : Prop :=
  path.isEmpty = false ∧ holdsNul path = false ∧ ¬longestPath < path.utf8ByteSize ∧
    (names path).foldlM fs.enter (fs.start path) = .ok place

theorem Leads.keeps {path : String} {place : Place} (hleads : Leads fs path place)
    (hkeeps : Keeps fs fs') : Leads fs' path place := by
  rcases hleads with ⟨hempty, hnul, hlong, hlast⟩
  refine ⟨hempty, hnul, hlong, ?_⟩
  rw [hkeeps.start path]
  exact foldlM_enter_keeps hkeeps hlast

theorem locate_of_foldlM {path : String} {place : Place} (hempty : path.isEmpty = false)
    (hnul : holdsNul path = false) (hlong : ¬longestPath < path.utf8ByteSize)
    (hlast : (names path).foldlM fs.enter (fs.start path) = .ok place) :
    fs.locate path =
      match fs.entry? place with
      | some (.file _) =>
          if endsAsDirectory path then .error Problem.notDirectory else .ok place
      | _ => .ok place := by
  unfold locate
  rw [hempty, hnul, if_neg Bool.false_ne_true, if_neg Bool.false_ne_true, if_neg hlong, hlast]
  rfl

theorem leads_of_locate {path : String} {place : Place} (hlocate : fs.locate path = .ok place) :
    Leads fs path place ∧
      ∀ content, fs.entry? place = some (.file content) → endsAsDirectory path = false := by
  have hleads : ∃ last, Leads fs path last := by
    unfold locate at hlocate
    split at hlocate
    · cases hlocate
    · next hempty =>
        split at hlocate
        · cases hlocate
        · next hnul =>
            split at hlocate
            · cases hlocate
            · next hlong =>
                cases hlast : (names path).foldlM fs.enter (fs.start path) with
                | error problem =>
                    rw [hlast] at hlocate
                    cases hlocate
                | ok last =>
                    exact ⟨last, by simpa using hempty, by simpa using hnul, hlong, hlast⟩
  rcases hleads with ⟨last, hempty, hnul, hlong, hlast⟩
  rw [locate_of_foldlM hempty hnul hlong hlast] at hlocate
  split at hlocate
  · split at hlocate
    · cases hlocate
    · next hend =>
        cases hlocate
        exact ⟨⟨hempty, hnul, hlong, hlast⟩, fun _ _ => by simpa using hend⟩
  · next hother =>
      cases hlocate
      exact ⟨⟨hempty, hnul, hlong, hlast⟩, fun content hfile => absurd hfile (hother content)⟩

theorem locate_of_leads {path : String} {place : Place} (hleads : Leads fs path place)
    (hend : endsAsDirectory path = false) : fs.locate path = .ok place := by
  rcases hleads with ⟨hempty, hnul, hlong, hlast⟩
  rw [locate_of_foldlM hempty hnul hlong hlast, hend]
  split <;> rfl

/-! ## Reading -/

theorem read_of_locate {path : String} {place : Place} (hlocate : fs.locate path = .ok place) :
    fs.read path =
      match fs.entry? place with
      | some (.file content) => .ok content
      | some .directory => .error Problem.isDirectory
      | none => .error Problem.notFound := by
  unfold read
  rw [hlocate]
  rfl

theorem exists_of_read {path : String} {content : ByteArray} (hread : fs.read path = .ok content) :
    ∃ place, Leads fs path place ∧ endsAsDirectory path = false ∧
      fs.entry? place = some (.file content) := by
  cases hlocate : fs.locate path with
  | error problem =>
      unfold read at hread
      rw [hlocate] at hread
      cases hread
  | ok place =>
      rcases leads_of_locate hlocate with ⟨hleads, hend⟩
      rw [read_of_locate hlocate] at hread
      split at hread
      · next hfile =>
          cases hread
          exact ⟨place, hleads, hend _ hfile, hfile⟩
      · cases hread
      · cases hread

theorem read_of_leads {path : String} {place : Place} {content : ByteArray}
    (hleads : Leads fs path place) (hend : endsAsDirectory path = false)
    (hfile : fs.entry? place = some (.file content)) : fs.read path = .ok content := by
  rw [read_of_locate (locate_of_leads hleads hend), hfile]

/-! ## Writing -/

/-- A place that a file can take. -/
structure Opens (fs : FileSystem) (path : String) (place : Place) : Prop where
  leads : Leads fs path place
  ending : endsAsDirectory path = false
  free : fs.entry? place ≠ some .directory

theorem opens_of_opened {path : String} {place : Place} (hopened : fs.opened path = .ok place) :
    Opens fs path place := by
  cases hlocate : fs.locate path with
  | error problem =>
      unfold opened at hopened
      rw [hlocate] at hopened
      cases hopened
  | ok last =>
      rcases leads_of_locate hlocate with ⟨hleads, hend⟩
      unfold opened at hopened
      rw [hlocate] at hopened
      dsimp only [bind, Except.bind] at hopened
      split at hopened
      · cases hopened
      · next hfile =>
          cases hopened
          exact ⟨hleads, hend _ hfile, by simp [hfile]⟩
      · next hnone =>
          split at hopened
          · cases hopened
          · next hfile =>
              cases hopened
              exact ⟨hleads, by simpa using hfile, by simp [hnone]⟩

/-- A write changes nothing, or fills the file at the place of its path. -/
theorem write_cases (fs : FileSystem) (path : String) (content : ByteArray) :
    (∃ problem, fs.write path content = (fs, some problem)) ∨
      ∃ place, Opens fs path place ∧ fs.write path content = fs.fill place content := by
  unfold write
  cases hopened : fs.opened path with
  | error problem => exact Or.inl ⟨problem, rfl⟩
  | ok place => exact Or.inr ⟨place, opens_of_opened hopened, rfl⟩

/-- The file that is filled holds its content, or the part of it that the device took. -/
theorem fill_cases (fs : FileSystem) (place : Place) (content : ByteArray) :
    fs.fill place content = (fs.set place (.file content), none) ∨
      ∃ taken, fs.breaksAfter place content = some taken ∧
        fs.fill place content =
          (fs.set place (.file (content.extract 0 taken)), some .brokenOff) := by
  unfold fill
  cases fs.breaksAfter place content with
  | none => exact Or.inl rfl
  | some taken => exact Or.inr ⟨taken, rfl, rfl⟩

theorem exists_of_write {path : String} {content : ByteArray}
    (hwrite : (fs.write path content).2 = none) :
    ∃ place, Opens fs path place ∧
      (fs.write path content).1 = fs.set place (.file content) := by
  obtain ⟨problem, hproblem⟩ | ⟨place, hopens, hfill⟩ := write_cases fs path content
  · rw [hproblem] at hwrite
    cases hwrite
  · obtain hwhole | ⟨taken, -, hbroken⟩ := fill_cases fs place content
    · exact ⟨place, hopens, by rw [hfill, hwhole]⟩
    · rw [hfill, hbroken] at hwrite
      cases hwrite

/-- A file takes no directory's place. -/
theorem keeps_set {place : Place} (hplace : fs.entry? place ≠ some .directory) (e : Entry) :
    Keeps fs (fs.set place e) := by
  refine ⟨rfl, ?_⟩
  intro q hq
  have hroot := ne_nil_of_not_directory hplace
  have hne : q ≠ place := by
    rintro rfl
    exact hplace hq
  rw [entry_set hroot, if_neg hne, hq]

/-- A file that is opened takes no directory's place. -/
theorem keeps_write (fs : FileSystem) (path : String) (content : ByteArray) :
    Keeps fs (fs.write path content).1 := by
  obtain ⟨problem, hrefused⟩ | ⟨place, hopens, hfill⟩ := write_cases fs path content
  · rw [hrefused]
    exact Keeps.refl fs
  · obtain hwhole | ⟨taken, -, hbroken⟩ := fill_cases fs place content
    · rw [hfill, hwhole]
      exact keeps_set hopens.free _
    · rw [hfill, hbroken]
      exact keeps_set hopens.free _

/-- A file that was written reads as what was written. -/
theorem read_write {path : String} {content : ByteArray}
    (hwrite : (fs.write path content).2 = none) :
    (fs.write path content).1.read path = .ok content := by
  rcases exists_of_write hwrite with ⟨place, hopens, hset⟩
  have hroot := ne_nil_of_not_directory hopens.free
  rw [hset]
  apply read_of_leads (hopens.leads.keeps (keeps_set hopens.free _)) hopens.ending
  rw [entry_set hroot, if_pos rfl]

/-- A file of another path is what it was, unless that path leads to the same place. -/
theorem read_write_other {path other : String} {content old : ByteArray}
    (hwrite : (fs.write path content).2 = none) (hread : fs.read other = .ok old) :
    (fs.write path content).1.read other = .ok old ∨
      (fs.write path content).1.read other = .ok content := by
  rcases exists_of_write hwrite with ⟨place, hopens, hset⟩
  rcases exists_of_read hread with ⟨q, hq, hend, hfile⟩
  have hroot := ne_nil_of_not_directory hopens.free
  have hkept := hq.keeps (keeps_set hopens.free (.file content))
  rw [hset]
  by_cases hsame : q = place
  · right
    apply read_of_leads hkept hend
    rw [entry_set hroot, if_pos hsame]
  · left
    apply read_of_leads hkept hend
    rw [entry_set hroot, if_neg hsame, hfile]

/-! ## Making directories -/

/-- Nothing that was there is changed. -/
structure Grows (fs fs' : FileSystem) : Prop where
  working : fs'.working = fs.working
  breaksAfter : fs'.breaksAfter = fs.breaksAfter
  entry : ∀ place e, fs.entry? place = some e → fs'.entry? place = some e

theorem Grows.refl (fs : FileSystem) : Grows fs fs := ⟨rfl, rfl, fun _ _ h => h⟩

theorem Grows.trans {fs'' : FileSystem} (h : Grows fs fs') (h' : Grows fs' fs'') :
    Grows fs fs'' :=
  ⟨h'.working.trans h.working, h'.breaksAfter.trans h.breaksAfter,
    fun place e hplace => h'.entry place e (h.entry place e hplace)⟩

theorem Grows.keeps (hgrows : Grows fs fs') : Keeps fs fs' :=
  ⟨hgrows.working, fun place hplace => hgrows.entry place .directory hplace⟩

theorem grows_set {place : Place} (hplace : fs.entry? place = none) (e : Entry) :
    Grows fs (fs.set place e) := by
  refine ⟨rfl, rfl, ?_⟩
  intro q old hq
  have hroot := ne_nil_of_none hplace
  have hne : q ≠ place := by
    rintro rfl
    rw [hplace] at hq
    cases hq
  rw [entry_set hroot, if_neg hne, hq]

/-- A directory is added where nothing was. -/
inductive AddsDirectory (fs : FileSystem) : FileSystem → Prop where
  | intro {place : Place} (hplace : fs.entry? place = none) :
      AddsDirectory fs (fs.set place .directory)

theorem adds_makeAlong (fs : FileSystem) (place : Place) (made : Bool) (names : List String) :
    Relation.ReflTransGen AddsDirectory fs (fs.makeAlong place made names).1 := by
  induction names generalizing fs place made with
  | nil => exact .refl
  | cons name rest ih =>
      rw [makeAlong]
      split
      · exact .refl
      · next next hnext =>
          split
          · next hnone => exact .head ⟨hnone⟩ (ih _ next true)
          · exact ih fs next made
          · split
            · exact .refl
            · split
              · exact .refl
              · exact ih fs next made

/-- All that making directories does is add directories, one after another. -/
theorem adds_makeDirectories (fs : FileSystem) (path : String) :
    Relation.ReflTransGen AddsDirectory fs (fs.makeDirectories path).1 := by
  have halong := adds_makeAlong fs (fs.start path) false (names path)
  unfold makeDirectories
  split
  · exact .refl
  · split
    · next hmade =>
        rw [hmade] at halong
        exact halong
    · next hmade =>
        rw [hmade] at halong
        split <;> exact halong

theorem grows_of_adds (hadds : Relation.ReflTransGen AddsDirectory fs fs') : Grows fs fs' := by
  induction hadds with
  | refl => exact Grows.refl fs
  | tail _ hadd ih =>
      obtain ⟨hplace⟩ := hadd
      exact ih.trans (grows_set hplace .directory)

theorem grows_makeDirectories (fs : FileSystem) (path : String) :
    Grows fs (fs.makeDirectories path).1 := grows_of_adds (adds_makeDirectories fs path)

theorem read_grows {path : String} {content : ByteArray} (hgrows : Grows fs fs')
    (hread : fs.read path = .ok content) : fs'.read path = .ok content := by
  rcases exists_of_read hread with ⟨place, hleads, hend, hfile⟩
  exact read_of_leads (hleads.keeps hgrows.keeps) hend (hgrows.entry place _ hfile)

/-! ## Existence -/

theorem exists?_of_read {path : String} {content : ByteArray}
    (hread : fs.read path = .ok content) : fs.exists? path = true := by
  rcases exists_of_read hread with ⟨place, hleads, hend, hfile⟩
  rw [exists?, locate_of_leads hleads hend]
  dsimp only
  rw [hfile]
  rfl

end FileSystem
end QuocNgu
