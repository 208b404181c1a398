import QuocNgu.Proofs.Config.Usable
import QuocNgu.Proofs.FileSystem.Sparing
import QuocNgu.Proofs.Session.Quiet

/-!
# Proofs.Config.Sparing — what loading and saving a configuration leaves as it is

* `Puts`, `PutsPart` : the file of the user's configuration holds the text of a value, or what a
  device took of it before it gave up, and all other files are the same
* `spares_written`   : all that writing the user's configuration can do to the files
* `save_spares`      : a save puts its value there, or says no and changes that file at most
* `files_load_of_exists` : a load changes nothing where the user has a configuration
* `load_new_spares`  : elsewhere it changes the file of the default that it puts there at most
* `load_keepsFiles`  : a load changes no file that is there, unless the path goes back from where
  nothing is yet
* `config_spared`    : all of this, for any session

A configuration is there as soon as its path leads to anything, a directory or a file that cannot be
read. Making the directories on the way to it changes no file, even if the writing fails after that.
The file is emptied before it is filled, and nothing restores it if the device gives up in between.
-/

namespace QuocNgu
namespace Config

open FileSystem

/-! ## Writing -/

/-- The file of the user's configuration holds the text of a value, and all other files are the
same. -/
def Puts (env : Environment) (v : Value) (fs fs' : FileSystem) : Prop :=
  ∃ text : String, Text.ofString text = Json.write v ∧
    Replaces env.userConfigPath text.toUTF8 fs fs'

/-- The device gave up on the text of a value in the file of the user's configuration, and all other
files are the same. -/
def PutsPart (env : Environment) (v : Value) (fs fs' : FileSystem) : Prop :=
  ∃ text : String, Text.ofString text = Json.write v ∧
    CutsShort env.userConfigPath text.toUTF8 fs fs'

/-- What writing does to the files goes with what it says. -/
theorem spares_written (fs : FileSystem) (env : Environment) (text : String) :
    (∃ problem, (written fs env text).2 = some problem) ∧ SameFiles fs (written fs env text).1 ∨
      (written fs env text).2 = some .brokenOff ∧
        CutsShort env.userConfigPath text.toUTF8 fs (written fs env text).1 ∨
      (written fs env text).2 = none ∧
        Replaces env.userConfigPath text.toUTF8 fs (written fs env text).1 := by
  have hmaking := sameFiles_makeDirectories fs env.userDirectory
  have hgrows := grows_makeDirectories fs env.userDirectory
  obtain ⟨problem, hfailed⟩ | hwrite := written_cases fs env text
  · rw [hfailed]
    exact Or.inl ⟨⟨problem, rfl⟩, hmaking⟩
  · rw [hwrite]
    obtain ⟨problem, hrefused⟩ | ⟨hproblem, place, taken, htaken, hlocate, hrefills⟩ |
        ⟨hdone, place, hlocate, hrefills⟩ :=
      spares_write (fs.makeDirectories env.userDirectory).1 env.userConfigPath text.toUTF8
    · rw [hrefused]
      exact Or.inl ⟨⟨problem, rfl⟩, hmaking⟩
    · -- Making directories leaves the device as it is.
      rw [hgrows.breaksAfter] at htaken
      exact Or.inr (Or.inl
        ⟨hproblem, place, taken, htaken, hlocate, hrefills.of_sameFiles hmaking⟩)
    · exact Or.inr (Or.inr ⟨hdone, place, hlocate, hrefills.of_sameFiles hmaking⟩)

theorem keeps_written (fs : FileSystem) (env : Environment) (text : String) :
    Keeps fs (written fs env text).1 := by
  have hgrows := grows_makeDirectories fs env.userDirectory
  obtain ⟨problem, hfailed⟩ | hwrite := written_cases fs env text
  · rw [hfailed]
    exact hgrows.keeps
  · rw [hwrite]
    exact hgrows.keeps.trans (keeps_write _ _ _)

/-- Where nothing was found, no file is lost, unless the path goes back from where nothing was. -/
theorem keepsFiles_written {fs : FileSystem} {env : Environment} {text : String}
    (hrooted : Rooted fs) (hback : BacksThrough fs env.userConfigPath)
    (hnew : fs.exists? env.userConfigPath = false) :
    KeepsFiles fs (written fs env text).1 := by
  have hkeeps := keeps_written fs env text
  obtain ⟨-, hsame⟩ | ⟨-, place, taken, -, hlocate, hrefills⟩ | ⟨-, place, hlocate, hrefills⟩ :=
    spares_written fs env text
  · exact hsame.keepsFiles
  · exact hrefills.keepsFiles hrooted hkeeps hback hnew hlocate
  · exact hrefills.keepsFiles hrooted hkeeps hback hnew hlocate

/-- A text that has a written form is put whole or in part, if any file is changed. -/
theorem puts_written {v : Value} (hv : Json.Writable v) (fs : FileSystem) (env : Environment) :
    (∃ problem, (written fs env (Json.stored v).1).2 = some problem) ∧
        (SameFiles fs (written fs env (Json.stored v).1).1 ∨
          PutsPart env v fs (written fs env (Json.stored v).1).1) ∨
      (written fs env (Json.stored v).1).2 = none ∧
        Puts env v fs (written fs env (Json.stored v).1).1 := by
  have htext : Text.ofString (Json.stored v).1 = Json.write v := Json.ofString_stored hv
  obtain ⟨hproblem, hsame⟩ | ⟨hbroken, hcut⟩ | ⟨hdone, hreplaces⟩ :=
    spares_written fs env (Json.stored v).1
  · exact Or.inl ⟨hproblem, Or.inl hsame⟩
  · exact Or.inl ⟨⟨_, hbroken⟩, Or.inr ⟨_, htext, hcut⟩⟩
  · exact Or.inr ⟨hdone, _, htext, hreplaces⟩

/-! ## Saving -/

theorem files_save (v : Value) (s : Session) :
    ((save v).runOn s).2.files = (written s.files s.environment (Json.stored v).1).1 := by
  obtain ⟨log, hrun⟩ := exists_runOn_save v s
  rw [hrun]

/-- A save puts its value into the file of the user's configuration, or says that it did not. Then
it changes no file, or that one alone because the device gave up. -/
theorem save_spares {v : Value} (hv : Json.Writable v) (s : Session) :
    ((save v).runOn s).1 = .ok true ∧
        Puts s.environment v s.files ((save v).runOn s).2.files ∨
      ((save v).runOn s).1 = .ok false ∧
        (SameFiles s.files ((save v).runOn s).2.files ∨
          PutsPart s.environment v s.files ((save v).runOn s).2.files) := by
  have hcomplete : (Json.stored v).2 = true := hv.complete
  obtain ⟨log, hrun⟩ := exists_runOn_save v s
  obtain ⟨⟨problem, hproblem⟩, hspares⟩ | ⟨hdone, hputs⟩ := puts_written hv s.files s.environment
  · right
    simp only [hrun, hproblem, true_and]
    exact hspares
  · left
    simp only [hrun, hdone, hcomplete, if_true, true_and]
    exact hputs

/-! ## Loading -/

section

variable {s : Session} {default : Value}

/-- There is a default configuration, or there is none worth the name. -/
theorem exists_default_or_none (s : Session) :
    (∃ default, Document.document? s.files s.environment.defaultConfigPath = .ok default ∧
        default ≠ .null) ∨
      ∀ v, Document.document? s.files s.environment.defaultConfigPath = .ok v → v = .null := by
  by_cases hdefault : ∃ default,
      Document.document? s.files s.environment.defaultConfigPath = .ok default ∧ default ≠ .null
  · exact Or.inl hdefault
  · right
    intro v hv
    by_contra hnull
    exact hdefault ⟨v, hv, hnull⟩

theorem files_load_of_none
    (hnone : ∀ v,
      Document.document? s.files s.environment.defaultConfigPath = .ok v → v = .null) :
    (load.runOn s).2.files = s.files := by
  obtain ⟨warnings, log, hload⟩ := runOn_load_none hnone
  simp only [hload]

/-- Where the user has a configuration, whatever it holds, a load writes nothing. -/
theorem files_load_of_exists (hexists : s.files.exists? s.environment.userConfigPath = true) :
    (load.runOn s).2.files = s.files := by
  obtain ⟨default, hdefault, hnull⟩ | hnone := exists_default_or_none s
  · have hload := runOn_load_of_exists (runOn_default?_value hdefault hnull) hexists
    rw [hload]
    exact (logs_loadUser s.environment default).files s
  · exact files_load_of_none hnone

/-- Where the user has none, a load writes the default configuration, and what comes of that is not
heeded. -/
theorem files_load_of_new
    (hdefault : Document.document? s.files s.environment.defaultConfigPath = .ok default)
    (hnull : default ≠ .null) (hnew : s.files.exists? s.environment.userConfigPath = false) :
    (load.runOn s).2.files = (written s.files s.environment (Json.stored default).1).1 := by
  rw [runOn_load_of_new (runOn_default?_value hdefault hnull) hnew, Job.runOn_bind_eq]
  have hfiles := files_save default { s with
    log := s.log ++ [⟨.warning, .files, firstUse s.environment⟩] }
  split
  · next hsave =>
      rw [hsave] at hfiles
      exact hfiles
  · next hsave =>
      rw [hsave] at hfiles
      exact hfiles

/-- Where the user has none, a load puts the default configuration there, whole or in part, or
changes no file. -/
theorem load_new_spares (hnew : s.files.exists? s.environment.userConfigPath = false)
    (hdefaults : ∀ default,
      Document.document? s.files s.environment.defaultConfigPath = .ok default →
        Json.Writable default) :
    SameFiles s.files (load.runOn s).2.files ∨
      ∃ default, Document.document? s.files s.environment.defaultConfigPath = .ok default ∧
        (Puts s.environment default s.files (load.runOn s).2.files ∨
          PutsPart s.environment default s.files (load.runOn s).2.files) := by
  obtain ⟨default, hdefault, hnull⟩ | hnone := exists_default_or_none s
  · rw [files_load_of_new hdefault hnull hnew]
    obtain ⟨-, hsame | hpart⟩ | ⟨-, hputs⟩ :=
      puts_written (hdefaults default hdefault) s.files s.environment
    · exact Or.inl hsame
    · exact Or.inr ⟨default, hdefault, Or.inr hpart⟩
    · exact Or.inr ⟨default, hdefault, Or.inl hputs⟩
  · left
    intro place
    rw [files_load_of_none hnone]

/-- Every file that is there is there after a load, with the content that it had. -/
theorem load_keepsFiles (hrooted : Rooted s.files)
    (hback : BacksThrough s.files s.environment.userConfigPath) :
    KeepsFiles s.files (load.runOn s).2.files := by
  cases hexists : s.files.exists? s.environment.userConfigPath with
  | true =>
      rw [files_load_of_exists hexists]
      exact fun _ _ hplace => hplace
  | false =>
      obtain ⟨default, hdefault, hnull⟩ | hnone := exists_default_or_none s
      · rw [files_load_of_new hdefault hnull hexists]
        exact keepsFiles_written hrooted hback hexists
      · rw [files_load_of_none hnone]
        exact fun _ _ hplace => hplace

end

/-- A load leaves the files alone where the user has a configuration, whatever it gives. Where there
is none, the file of the user's configuration is the only one that can change, and then it holds the
text of the default, or the first bytes of it if the device gave up. No file that is there is lost
by a load, unless the path goes back through a directory that is still to be made. A save of a plain
value says whether it made the file hold the text of the value. If it says no, that file can be cut
short by a device that gave up, and no other file changes. -/
theorem config_spared (s : Session) :
    (s.files.exists? s.environment.userConfigPath = true →
      (load.runOn s).2.files = s.files) ∧
    (s.files.exists? s.environment.userConfigPath = false →
      (∀ default, Document.document? s.files s.environment.defaultConfigPath = .ok default →
        Json.Writable default) →
      SameFiles s.files (load.runOn s).2.files ∨
        ∃ default, Document.document? s.files s.environment.defaultConfigPath = .ok default ∧
          (Puts s.environment default s.files (load.runOn s).2.files ∨
            PutsPart s.environment default s.files (load.runOn s).2.files)) ∧
    (Rooted s.files → BacksThrough s.files s.environment.userConfigPath →
      KeepsFiles s.files (load.runOn s).2.files) ∧
    ∀ config, Json.Plain config →
      ((save config).runOn s).1 = .ok true ∧
          Puts s.environment config s.files ((save config).runOn s).2.files ∨
        ((save config).runOn s).1 = .ok false ∧
          (SameFiles s.files ((save config).runOn s).2.files ∨
            PutsPart s.environment config s.files ((save config).runOn s).2.files) := by
  refine ⟨files_load_of_exists, load_new_spares, load_keepsFiles, ?_⟩
  intro config hplain
  exact save_spares hplain.writable s

theorem rooted_fewSession : Rooted fewSession.files := by
  intro place e hentry
  cases place with
  | nil => rfl
  | cons name rest =>
      have hlookup : fewSession.files.entries.lookup (name :: rest) = some e := hentry
      simp only [fewSession, lookup_cons, List.lookup_nil] at hlookup
      split at hlookup
      · next hplace =>
          rw [hplace]
          rfl
      · split at hlookup
        · next hplace =>
            rw [hplace]
            rfl
        · cases hlookup

/-- A user with a list for a configuration, and a user with none who is given one. -/
theorem config_spared_few :
    ((sessionWith "[]").files.exists? (sessionWith "[]").environment.userConfigPath = true ∧
      (load.runOn (sessionWith "[]")).2.files = (sessionWith "[]").files) ∧
    (fewSession.files.exists? fewSession.environment.userConfigPath = false ∧
      (SameFiles fewSession.files (load.runOn fewSession).2.files ∨
        (Puts fewSession.environment (.object fewDefaults) fewSession.files
            (load.runOn fewSession).2.files ∨
          PutsPart fewSession.environment (.object fewDefaults) fewSession.files
            (load.runOn fewSession).2.files))) ∧
    KeepsFiles fewSession.files (load.runOn fewSession).2.files ∧
    ((save (.object fewFields)).runOn fewSession).1 = .ok true ∧
      Puts fewSession.environment (.object fewFields) fewSession.files
        ((save (.object fewFields)).runOn fewSession).2.files := by
  have hexists : (sessionWith "[]").files.exists? (sessionWith "[]").environment.userConfigPath =
      true := by
    decide
  have hnew : fewSession.files.exists? fewSession.environment.userConfigPath = false := by
    decide
  have hdefault : Document.document? fewSession.files fewSession.environment.defaultConfigPath =
      .ok (.object fewDefaults) := Document.document?_of_stored plain_fewDefaults rfl
  have hwritable : ∀ default,
      Document.document? fewSession.files fewSession.environment.defaultConfigPath = .ok default →
        Json.Writable default := by
    intro default hfound
    cases hdefault.symm.trans hfound
    exact plain_fewDefaults.writable
  have hback : BacksThrough fewSession.files fewSession.environment.userConfigPath :=
    backsThrough_of_not_mem (by decide)
  obtain ⟨hsaved, -⟩ := save_succeeds plain_fewFields fewSession (by decide +kernel)
  refine ⟨⟨hexists, (config_spared (sessionWith "[]")).1 hexists⟩, ⟨hnew, ?_⟩,
    (config_spared fewSession).2.2.1 rooted_fewSession hback, hsaved, ?_⟩
  · obtain hsame | ⟨default, hfound, hputs⟩ := (config_spared fewSession).2.1 hnew hwritable
    · exact Or.inl hsame
    · cases hdefault.symm.trans hfound
      exact Or.inr hputs
  · obtain ⟨-, hputs⟩ | ⟨hfailed, -⟩ := (config_spared fewSession).2.2.2 _ plain_fewFields
    · exact hputs
    · cases hsaved.symm.trans hfailed

/-- The same session on a device that gives up after one byte. -/
def givingUp (s : Session) : Session :=
  { s with files := { s.files with breaksAfter := fun _ _ => some 1 } }

/-- A user whose path goes back through a directory that is still to be made. -/
def backSession : Session where
  files := {
    entries := [(["d"], .directory),
      (["d", "config.json"], .file (Json.stored (.object fewDefaults)).1.toUTF8),
      (["vn-ime-core"], .directory),
      (["vn-ime-core", "config.json"], .file (Json.stored (.object fewFields)).1.toUTF8)]
    working := [] }
  environment := ⟨some "/d", some "a/..", none, "", ""⟩
  log := []
  output := []

/-- A save that says no has destroyed a configuration, a first load has left the beginning of one,
and a load has replaced the configuration of a user whose path goes back. -/
theorem config_not_spared :
    (((save (.object fewFields)).runOn (givingUp (sessionWith "[]"))).1 = .ok false ∧
      (givingUp (sessionWith "[]")).files.read "/u/vn-ime-core/config.json" = .ok "[]".toUTF8 ∧
      ((save (.object fewFields)).runOn (givingUp (sessionWith "[]"))).2.files.read
        "/u/vn-ime-core/config.json" = .ok "\x7b".toUTF8) ∧
    ((givingUp fewSession).files.exists? "/u/vn-ime-core/config.json" = false ∧
      (load.runOn (givingUp fewSession)).2.files.read "/u/vn-ime-core/config.json" =
        .ok "\x7b".toUTF8) ∧
    (backSession.files.read "vn-ime-core/config.json" =
        .ok (Json.stored (.object fewFields)).1.toUTF8 ∧
      (load.runOn backSession).2.files.read "vn-ime-core/config.json" =
        .ok (Json.stored (.object fewDefaults)).1.toUTF8) := by
  have hnull : Value.object fewDefaults ≠ .null := by rintro ⟨⟩
  have hcut : Document.document? (givingUp fewSession).files
      (givingUp fewSession).environment.defaultConfigPath = .ok (.object fewDefaults) :=
    Document.document?_of_stored plain_fewDefaults rfl
  have hback : Document.document? backSession.files backSession.environment.defaultConfigPath =
      .ok (.object fewDefaults) := Document.document?_of_stored plain_fewDefaults rfl
  have hproblem : (written (givingUp (sessionWith "[]")).files
      (givingUp (sessionWith "[]")).environment (Json.stored (.object fewFields)).1).2 =
        some .brokenOff := by
    decide +kernel
  obtain ⟨log, hsave⟩ := exists_runOn_save (.object fewFields) (givingUp (sessionWith "[]"))
  refine ⟨⟨?_, ?_, ?_⟩, ⟨?_, ?_⟩, ?_, ?_⟩
  · simp only [hsave, hproblem]
  · decide +kernel
  · rw [files_save]
    decide +kernel
  · decide
  · rw [files_load_of_new hcut hnull (by decide)]
    decide +kernel
  · decide +kernel
  · rw [files_load_of_new hback hnull (by decide)]
    decide +kernel

end Config
end QuocNgu
