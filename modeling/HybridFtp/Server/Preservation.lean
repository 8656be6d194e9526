import HybridFtp.Lib.Moving
import HybridFtp.Server.Footprint
import HybridFtp.Server.Renaming

/-!
# What becomes of the files

Sessions make, rename and remove directories and rename files, one after the other, and
upload new ones at the same time: no file is lost unless one is deleted, or an upload writes
to it.

* `Sharing.Destroys`: the steps that may lose a file;
* `filesKept_step`: all others keep every file, some of them in another place;
* `files_kept`: so does a run without such a step.
-/

namespace HybridFtp

theorem PathManager.filesKept_renamePath (pm : PathManager) (fs : Storage) (path newPath : String) :
    fs.FilesKept (pm.renamePath fs path newPath).2 := by
  rcases pm.renamePath_cases fs path newPath with
    heq | ⟨s, ns, n, d, _, hs, _, _, hd, _, hmissing, hrename⟩
  · rw [heq]
    exact .refl fs
  · exact FileSystem.filesKept_rename (FileSystem.resolve_false_of_found hs) hd hmissing hrename

/-- `RNTO` moves files, and no other command does. -/
theorem filesKept_handleCommand {session : SessionState} {fs : Storage} {line : String}
    (hidle : Uploading.start? session fs line = none)
    (hdele : ¬(executed session line = some .DELE ∧ fs.pathExists
      (session.pathManager.resolvePath (CommandParser.parse line).argument) = some true))
    (o : Outcomes) : fs.FilesKept (handleCommand o session fs line).fs := by
  by_cases hrnto : executed session line = some .RNTO
  · rw [handleCommand_of_executed o fs hrnto, execute]
    generalize session.given line = session
    cases hsource : session.renameFrom with
    | none =>
      rw [(handleRnto_of_none hsource fs _).1]
      exact .refl fs
    | some source =>
      rcases handleRnto_of_some hsource fs (CommandParser.parse line).argument with ⟨heq, _⟩ | heq
      · rw [heq]
        exact .refl fs
      · rw [heq]
        exact session.pathManager.filesKept_renamePath fs source _
  · refine FileSystem.filesKept_of_keepsFile fun l =>
      keepsFile_handleCommand hidle (fun verb hverb hhit => ?_) o
    rw [HitBy.eq_def] at hhit
    split at hhit
    · exact hdele ⟨hverb, FileSystem.pathExists_iff.2 ⟨l, hhit⟩⟩
    · exact hrnto hverb
    · exact hhit

variable {ι : Type} [DecidableEq ι]

/-- The step deletes what is there, or it is the one by which an upload writes to it. -/
def Sharing.Destroys (s : Sharing ι) : SharingEvent ι → Prop
  | .line i line _ => executed (s.connection i).session line = some .DELE ∧
      s.fs.pathExists ((s.connection i).session.pathManager.resolvePath
        (CommandParser.parse line).argument) = some true
  | .proceed i _ => ∃ u ∈ (s.connection i).upload, (∃ buf, u.phase = .received buf) ∧
      s.fs.pathExists (s.path i u) = some true

instance (s : Sharing ι) : DecidablePred s.Destroys
  | .line i line _ =>
    inferInstanceAs (Decidable (executed (s.connection i).session line = some .DELE ∧
      s.fs.pathExists ((s.connection i).session.pathManager.resolvePath
        (CommandParser.parse line).argument) = some true))
  | .proceed i _ => inferInstanceAs (Decidable (∃ u ∈ (s.connection i).upload,
      (∃ buf, u.phase = .received buf) ∧ s.fs.pathExists (s.path i u) = some true))

/-- A step that destroys nothing keeps every file. -/
theorem filesKept_step {s s' : Sharing ι} {e : SharingEvent ι} (hstep : sharing.step e s = some s')
    (h : ¬s.Destroys e) : s.fs.FilesKept s'.fs := by
  cases e with
  | line i line o =>
    rcases sharing_cases hstep with ⟨_, _, _, _, heq, _, _, _, rfl⟩ |
      ⟨_, _, _, heq, _, _, hstart, rfl⟩ | ⟨_, _, _, heq, _, _⟩
    · exact .refl s.fs
    · cases heq
      exact filesKept_handleCommand hstart h o
    · cases heq
  | proceed i o =>
    refine FileSystem.filesKept_of_keepsFile fun l => keepsFile_step hstep ?_
    rintro ⟨u, hu, hphase, hfound⟩
    refine h ⟨u, hu, hphase, FileSystem.pathExists_iff.2 ⟨l, hfound⟩⟩

/-- Whatever sessions do in turn, with uploads in between, as long as nothing is deleted, and
    no upload writes to what is there: every file is still there, as it is, and no two are in
    the same place. -/
theorem files_kept {s s' : Sharing ι} (hrun : sharing.Reaches (fun s e => ¬s.Destroys e) s s') :
    ∃ f : List String → List String, Set.InjOn f s.fs.files ∧
      ∀ l data, s.fs.node l = some (.file data) → s'.fs.node (f l) = some (.file data) :=
  hrun.invariant (I := fun t : Sharing ι => s.fs.FilesKept t.fs)
    (fun _ _ _ hkept hdestroys hstep => hkept.trans (filesKept_step hstep hdestroys)) (.refl s.fs)

/-- A file is renamed into a new directory while another one is uploaded. -/
def besideUpload : List (SharingEvent Bool) :=
  bothLogin ++ [.line false "STOU file" {}, .line true "MKD new" {}, .line true "RNFR file" {},
    .line true "RNTO new/name" {}] ++ uploadsByte false 49 ++
    [.line true "DELE file" {}, .line true "RNFR new" {}, .line true "RNTO old" {}]

theorem files_kept_upload : ∃ s' : Sharing Bool,
    sharing.Reaches (fun s e => ¬s.Destroys e) .start s' ∧
      s'.fs.node ["srv", "old", "name"] = some (.file {}) ∧
      ∃ f : List String → List String, Set.InjOn f Sharing.start.fs.files ∧
        ∀ l data, Sharing.start.fs.node l = some (.file data) → s'.fs.node (f l) = some (.file data) := by
  obtain ⟨s', _, hrun, hP⟩ := sharing.exists_reaches_of_run (fun s e => ¬s.Destroys e) besideUpload
    (fun s' => s'.fs.node ["srv", "old", "name"] = some (.file {})) (s := .start) (by decide +kernel)
  exact ⟨s', hrun, of_decide_eq_true hP, files_kept hrun⟩

end HybridFtp
