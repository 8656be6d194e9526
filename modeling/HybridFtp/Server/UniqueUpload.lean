import HybridFtp.Common.UniqueName
import HybridFtp.Lib.Occupied
import HybridFtp.Server.Sharing
import Mathlib.Data.Fintype.Basic

/-!
# Unique uploads

What is unique about the names of `STOU`, if there are other sessions. Between the search
for a name and the file there is all of the transfer.

* `Sharing.Unique`: different names, and no file is replaced;
* `Sharing.Undisturbed`: a step does not interfere with the `STOU` of another session;
* `uniqueUpload`: so it is if no step interferes. But two sessions that search at the same time
  find the same name, and the second file replaces the first (`not_uniqueUpload`).
-/

namespace HybridFtp

variable {ι : Type} [DecidableEq ι]

namespace Sharing

variable (s : Sharing ι) (i : ι) (fs' : Storage)

/-- The path of the file of an upload. -/
def path (u : Uploading) : NormalPath String :=
  (s.connection i).session.pathManager.resolvePath u.destName

/-- The names announced by those `STOU` that have been completed are different, and a
    step of a `STOU` does not replace what is in a file. -/
structure Unique : Prop where
  names : (s.completed.map Prod.snd).Nodup
  kept : ∀ i u o s', (s.connection i).upload = some u → u.unique = true →
    sharing.step (.proceed i o) s = some s' →
    ∀ p data, s.fs.fileAt p = some data → s'.fs.fileAt p = some data

/-! ## Interference -/

/-- Every `STOU` has been issued in the same directory. -/
def IssuedIn (pm : PathManager) : Prop :=
  (∀ i, ∀ u ∈ (s.connection i).upload, u.unique = true →
      (s.connection i).session.pathManager = pm) ∧
    ∀ r ∈ s.completed, r.1 = pm

/-- Where a `STOU` of another session than `i` is going to make its file, there is
    nothing new. -/
def LeavesFree : Prop :=
  ∀ j, j ≠ i → ∀ u ∈ (s.connection j).upload, u.unique = true →
    ¬s.fs.Occupied (s.path j u) → ¬fs'.Occupied (s.path j u)

/-- What has been made by a `STOU` is not removed. -/
def KeepsCompleted : Prop :=
  ∀ r ∈ s.completed, s.fs.Occupied (r.1.resolvePath r.2) → fs'.Occupied (r.1.resolvePath r.2)

/-- The file of an upload of session `i` is not going to be that of a `STOU` of another
    session. -/
def WritesElsewhere (u : Uploading) : Prop :=
  ∀ j, j ≠ i → ∀ v ∈ (s.connection j).upload, v.unique = true →
    ∀ entry ∈ s.fs.newEntry (s.path i u), entry ∉ s.fs.newEntry (s.path j v)

/-- The next step of an upload does not interfere: neither do the directories that it
    makes, nor the file. -/
def ProceedsElsewhere (o : Outcomes) (u : Uploading) : UploadPhase → Prop
  | .announced =>
    s.LeavesFree i (s.fs.createDirectories o.directoryPerms (s.path i u).parentPath).2
  | .opened _ => True
  | .received _ => s.WritesElsewhere i u

/-- A step does not interfere with the `STOU` of another session. -/
def Undisturbed (s : Sharing ι) : SharingEvent ι → Prop
  | .line i line o =>
    (∀ u ∈ Uploading.start? (s.connection i).session s.fs line, u.unique = true →
      s.IssuedIn (s.connection i).session.pathManager) ∧
    (Uploading.start? (s.connection i).session s.fs line = none →
      s.LeavesFree i (handleCommand o (s.connection i).session s.fs line).fs ∧
      s.KeepsCompleted (handleCommand o (s.connection i).session s.fs line).fs)
  | .proceed i o => ∀ u ∈ (s.connection i).upload, s.ProceedsElsewhere i o u u.phase

deriving instance DecidableEq for PathManager

instance [Fintype ι] (s : Sharing ι) : DecidablePred s.Undisturbed := by
  intro e
  cases e with
  | line i line o =>
    unfold Undisturbed IssuedIn LeavesFree KeepsCompleted
    infer_instance
  | proceed i o =>
    have hproceeds : ∀ u : Uploading, Decidable (s.ProceedsElsewhere i o u u.phase) := by
      intro u
      unfold ProceedsElsewhere
      cases u.phase with
      | announced =>
        unfold LeavesFree
        infer_instance
      | opened peer => exact instDecidableTrue
      | received buf =>
        unfold WritesElsewhere
        infer_instance
    unfold Undisturbed
    infer_instance

/-- What holds if no step has interfered. -/
structure Inv : Prop where
  issued : ∃ pm, s.IssuedIn pm
  free : ∀ i, ∀ u ∈ (s.connection i).upload, u.unique = true → ¬s.fs.Occupied (s.path i u)
  stored : ∀ r ∈ s.completed, s.fs.Occupied (r.1.resolvePath r.2)
  names : (s.completed.map Prod.snd).Nodup

end Sharing

/-! ## What a step of an upload does -/

section

variable {o : Outcomes} {session : SessionState} {fs : Storage} {u : Uploading}

/-- What is not written is not said to be complete. -/
theorem storeFile_spec (o : Outcomes) (session : SessionState) (fs : Storage)
    (resolvedPath : NormalPath String) (buf : Bytes) (appendMode : Bool) :
    ((storeFile o session fs resolvedPath buf appendMode).2 = fs ∧
        (storeFile o session fs resolvedPath buf appendMode).1 ≠ "226 Transfer complete.\r\n") ∨
      ∃ write, fs.writeFile write resolvedPath =
        some (storeFile o session fs resolvedPath buf appendMode).2 := by
  have hinvalid : "551 Invalid transfer mode encoding.\r\n" ≠ "226 Transfer complete.\r\n" := by
    decide
  have hfailed : "551 Failed to write file.\r\n" ≠ "226 Transfer complete.\r\n" := by decide
  have hbinary := FileHandler.writeBinaryFile_spec fs o.written o.stamp resolvedPath
    (TransferModeCodec.decode buf session.transferMode session.transferType).output appendMode
  rw [storeFile_eq]
  split
  · exact .inl ⟨rfl, hinvalid⟩
  · rcases hbinary with heq | hwrite
    · rw [heq]
      exact .inl ⟨rfl, hfailed⟩
    · exact .inr hwrite

theorem ne_complete_of_openDataChannel {reply : String}
    (h : openDataChannel o session = .error reply) : reply ≠ "226 Transfer complete.\r\n" := by
  rw [openDataChannel] at h
  repeat' split at h
  all_goals
    cases h
    try decide

/-- The file system after a step of an upload: directories have been created, or the file
    has been written to, which the reply says. -/
theorem proceed_fs (o : Outcomes) (session : SessionState) (fs : Storage) (u : Uploading) :
    (u.proceed o session fs).1.replies ≠ ["226 Transfer complete.\r\n"] ∧
        (u.proceed o session fs).1.fs = fs ∨
      (u.proceed o session fs).1.replies ≠ ["226 Transfer complete.\r\n"] ∧
        u.phase = .announced ∧ (u.proceed o session fs).1.fs =
          (fs.createDirectories o.directoryPerms
            (session.pathManager.resolvePath u.destName).parentPath).2 ∨
      (∃ buf, u.phase = .received buf) ∧ ∃ write,
        fs.writeFile write (session.pathManager.resolvePath u.destName) =
          some (u.proceed o session fs).1.fs := by
  rw [Uploading.proceed]
  cases hphase : u.phase with
  | announced =>
    cases hopen : openDataChannel o session with
    | error reply =>
      refine .inl ⟨fun heq => ?_, rfl⟩
      exact ne_complete_of_openDataChannel hopen (List.cons.inj heq).1
    | ok peer =>
      dsimp only
      split
      · exact .inl ⟨by simp [answer], rfl⟩
      · refine .inr (.inl ⟨?_, rfl, rfl⟩)
        cases u.unique <;> simp
  | opened peer =>
    dsimp only
    split
    · exact .inl ⟨by simp [answer], rfl⟩
    · cases o.received with
      | completed buf => exact .inl ⟨by simp, rfl⟩
      | failed => exact .inl ⟨by simp [answer], rfl⟩
      | aborted => exact .inl ⟨by simp [abortTransfer], rfl⟩
  | received buf =>
    rcases storeFile_spec o session fs (session.pathManager.resolvePath u.destName) buf
      u.appendMode with ⟨heq, hreply⟩ | hwrite
    · exact .inl ⟨fun hreplies => hreply (List.cons.inj hreplies).1, heq⟩
    · exact .inr (.inr ⟨⟨buf, rfl⟩, hwrite⟩)

/-- A step of an upload does not make another one of it, nor does it leave the
    directory. -/
theorem proceed_upload (o : Outcomes) (session : SessionState) (fs : Storage) (u : Uploading) :
    (u.proceed o session fs).1.session.pathManager = session.pathManager ∧
      ∀ v ∈ (u.proceed o session fs).2, v.destName = u.destName ∧ v.unique = u.unique := by
  rw [Uploading.proceed]
  cases u.phase with
  | announced =>
    cases openDataChannel o session with
    | error reply => exact ⟨rfl, by simp⟩
    | ok peer =>
      dsimp only
      split
      · exact ⟨rfl, by simp⟩
      · exact ⟨rfl, by simp⟩
  | opened peer =>
    dsimp only
    split
    · exact ⟨rfl, by simp⟩
    · cases o.received <;> cases peer <;> exact ⟨rfl, by simp⟩
  | received buf => exact ⟨rfl, by simp⟩

/-- A `STOU` only makes what is new, as long as there is nothing where its file is
    going to be. -/
theorem extends_proceed (o : Outcomes)
    (h : ¬fs.Occupied (session.pathManager.resolvePath u.destName)) :
    fs.Extends (u.proceed o session fs).1.fs := by
  rcases proceed_fs o session fs u with ⟨_, heq⟩ | ⟨_, _, heq⟩ | ⟨_, write, hwrite⟩
  · rw [heq]
    exact .refl fs
  · rw [heq]
    exact (FileSystem.addsDirectories_createDirectories ..).kept
  · exact FileSystem.extends_writeFile hwrite h

end

/-! ## The invariant -/

namespace Sharing

variable {s : Sharing ι} {i : ι} {turn : Turn} {upload : Option Uploading} {pm : PathManager}

omit [DecidableEq ι] in
theorem completes_spec {r : PathManager × String} (h : r ∈ s.completes i turn) :
    ∃ u ∈ (s.connection i).upload, u.unique = true ∧
      turn.replies = ["226 Transfer complete.\r\n"] ∧
      r = ((s.connection i).session.pathManager, u.destName) := by
  obtain ⟨u, hu, h⟩ := Option.bind_eq_some_iff.1 h
  rw [Option.ite_none_right_eq_some] at h
  obtain ⟨⟨hunique, hreplies⟩, h⟩ := h
  exact ⟨u, hu, hunique, hreplies, (Option.some.inj h).symm⟩

/-- A completed `STOU` has a name of its own. -/
theorem Inv.names_after (h : s.Inv) (hissued : s.IssuedIn pm) :
    ((s.after i turn upload).completed.map Prod.snd).Nodup := by
  rw [after]
  cases hdone : s.completes i turn with
  | none => exact h.names
  | some r =>
    obtain ⟨u, hu, hunique, -, rfl⟩ := completes_spec hdone
    refine List.nodup_cons.2 ⟨fun hmem => ?_, h.names⟩
    -- The file of an earlier one is still at its path.
    obtain ⟨r, hr, hname⟩ := List.mem_map.1 hmem
    have hoccupied := h.stored r hr
    rw [hissued.2 r hr, hname, ← hissued.1 i u hu hunique] at hoccupied
    exact h.free i u hu hunique hoccupied

/-- What a step has to do to keep the invariant. -/
theorem Inv.after (h : s.Inv) (hissued : s.IssuedIn pm)
    (hmine : ∀ u ∈ upload, u.unique = true → turn.session.pathManager = pm ∧
      ¬turn.fs.Occupied (pm.resolvePath u.destName))
    (hothers : s.LeavesFree i turn.fs) (hkept : s.KeepsCompleted turn.fs)
    (hdone : ∀ r ∈ s.completes i turn, turn.fs.Occupied (r.1.resolvePath r.2)) :
    (s.after i turn upload).Inv := by
  refine ⟨⟨pm, fun j u hu hunique => ?_, fun r hr => ?_⟩, fun j u hu hunique => ?_, fun r hr => ?_,
    h.names_after hissued⟩
  · by_cases hj : j = i
    · subst hj
      rw [connection_after_self] at hu ⊢
      exact (hmine u hu hunique).1
    · rw [connection_after_of_ne hj] at hu ⊢
      exact hissued.1 j u hu hunique
  · rcases List.mem_append.1 hr with hr | hr
    · obtain ⟨u, hu, hunique, -, rfl⟩ := completes_spec (Option.mem_toList.1 hr)
      exact hissued.1 i u hu hunique
    · exact hissued.2 r hr
  · rw [path]
    by_cases hj : j = i
    · subst hj
      rw [connection_after_self] at hu ⊢
      obtain ⟨hpm, hfree⟩ := hmine u hu hunique
      rw [← hpm] at hfree
      exact hfree
    · rw [connection_after_of_ne hj] at hu ⊢
      exact hothers j hj u hu hunique (h.free j u hu hunique)
  · rcases List.mem_append.1 hr with hr | hr
    · exact hdone r (Option.mem_toList.1 hr)
    · exact hkept r hr (h.stored r hr)

omit [DecidableEq ι] in
theorem IssuedIn.of_unique {u : Uploading} (h : s.IssuedIn pm) (hu : (s.connection i).upload = some u)
    (hunique : u.unique = true) : (s.connection i).session.pathManager = pm :=
  h.1 i u hu hunique

omit [DecidableEq ι] in
theorem completes_of_idle (h : (s.connection i).upload = none) (turn : Turn) :
    s.completes i turn = none := by
  rw [completes, h]
  rfl

omit [DecidableEq ι] in
theorem leavesFree_refl (s : Sharing ι) (i : ι) : s.LeavesFree i s.fs :=
  fun _ _ _ _ _ hfree => hfree

omit [DecidableEq ι] in
theorem keepsCompleted_of_extends {fs' : Storage} (h : s.fs.Extends fs') : s.KeepsCompleted fs' :=
  fun _ _ hoccupied => h.occupied hoccupied

/-- The name that is announced is taken by nothing. -/
theorem not_occupied_of_start? {session : SessionState} {fs : Storage} {line : String}
    {u : Uploading} (h : Uploading.start? session fs line = some u) (hunique : u.unique = true) :
    ¬fs.Occupied (session.pathManager.resolvePath u.destName) := by
  rcases Uploading.start?_cases h with ⟨_, _, rfl⟩ | ⟨_, _, rfl⟩ | ⟨_, rfl⟩
  · cases hunique
  · cases hunique
  · generalize (if (CommandParser.parse line).argument = "" then "upload"
      else (CommandParser.parse line).argument) = baseName
    dsimp only
    exact fun hoccupied =>
      PathManager.not_exists_generateUniqueFilename session.pathManager fs baseName hoccupied.1

theorem Inv.announce (h : s.Inv) {line : String} {u : Uploading}
    (hidle : (s.connection i).upload = none)
    (hstart : Uploading.start? (s.connection i).session s.fs line = some u)
    (hissued : u.unique = true → s.IssuedIn (s.connection i).session.pathManager) :
    (s.after i (u.announce (s.connection i).session s.fs line) (some u)).Inv := by
  have hmanager : (u.announce (s.connection i).session s.fs line).session.pathManager =
      (s.connection i).session.pathManager := by
    rw [Uploading.announce]
    rcases given_eq (s.connection i).session line with heq | heq <;> rw [heq]
  obtain ⟨pm, hpm⟩ : ∃ pm, s.IssuedIn pm ∧
      (u.unique = true → pm = (s.connection i).session.pathManager) := by
    by_cases hunique : u.unique = true
    · exact ⟨_, hissued hunique, fun _ => rfl⟩
    · obtain ⟨pm, hpm⟩ := h.issued
      exact ⟨pm, hpm, fun hu => absurd hu hunique⟩
  refine h.after hpm.1 (fun v hv hunique => ?_) (s.leavesFree_refl i)
    (keepsCompleted_of_extends (.refl s.fs)) fun r hr => ?_
  · obtain rfl := Option.some.inj hv
    obtain rfl := hpm.2 hunique
    exact ⟨hmanager, not_occupied_of_start? hstart hunique⟩
  · rw [completes_of_idle hidle] at hr
    cases hr

/-- A step of an upload keeps to its own file. -/
theorem Inv.proceed (h : s.Inv) {u : Uploading} (o : Outcomes)
    (hu : (s.connection i).upload = some u) (helsewhere : s.ProceedsElsewhere i o u u.phase) :
    (s.after i (u.proceed o (s.connection i).session s.fs).1
      (u.proceed o (s.connection i).session s.fs).2).Inv := by
  obtain ⟨pm, hpm⟩ := h.issued
  obtain ⟨hmanager, hsame⟩ := proceed_upload o (s.connection i).session s.fs u
  have hmine : ∀ (fs' : Storage), (u.unique = true → ¬fs'.Occupied (s.path i u)) →
      ∀ v ∈ (u.proceed o (s.connection i).session s.fs).2, v.unique = true →
        (u.proceed o (s.connection i).session s.fs).1.session.pathManager = pm ∧
          ¬fs'.Occupied (pm.resolvePath v.destName) := by
    intro fs' hfree v hv hunique
    obtain ⟨hname, heq⟩ := hsame v hv
    rw [heq] at hunique
    rw [hmanager, hname, ← hpm.of_unique hu hunique]
    exact ⟨rfl, hfree hunique⟩
  rcases proceed_fs o (s.connection i).session s.fs u with
    ⟨hreplies, heq⟩ | ⟨hreplies, hphase, heq⟩ | ⟨⟨buf, hphase⟩, write, hwrite⟩
  · refine h.after hpm ?_ ?_ ?_ fun r hr => ?_
    · rw [heq]
      exact hmine s.fs (h.free i u hu)
    · rw [heq]
      exact s.leavesFree_refl i
    · rw [heq]
      exact keepsCompleted_of_extends (.refl s.fs)
    · obtain ⟨_, _, _, hcomplete, _⟩ := completes_spec hr
      exact absurd hcomplete hreplies
  · rw [hphase] at helsewhere
    refine h.after hpm ?_ ?_ ?_ fun r hr => ?_
    · rw [heq]
      refine hmine _ fun hunique => ?_
      rw [path, FileSystem.occupied_createDirectories]
      exact h.free i u hu hunique
    · rw [heq]
      exact helsewhere
    · rw [heq]
      exact keepsCompleted_of_extends (FileSystem.addsDirectories_createDirectories ..).kept
    · obtain ⟨_, _, _, hcomplete, _⟩ := completes_spec hr
      exact absurd hcomplete hreplies
  · rw [hphase] at helsewhere
    refine h.after hpm ?_ ?_ ?_ fun r hr => ?_
    · -- The upload is over.
      rw [Uploading.proceed_received o _ _ hphase]
      intro v hv
      cases hv
    · intro j hj v hv hunique hfree hoccupied
      rcases FileSystem.occupied_or_of_occupied_writeFile hwrite hoccupied with
        hoccupied | ⟨entry, hentry, hentry'⟩
      · exact hfree hoccupied
      · exact helsewhere j hj v hv hunique entry hentry hentry'
    · exact fun r _ hoccupied => hoccupied.writeFile hwrite
    · obtain ⟨v, hv, _, _, rfl⟩ := completes_spec hr
      obtain rfl : u = v := Option.some.inj (hu.symm.trans hv)
      exact FileSystem.occupied_writeFile hwrite

/-- A step that does not interfere keeps the invariant. -/
theorem Inv.step (h : s.Inv) {s' : Sharing ι} {e : SharingEvent ι} (he : s.Undisturbed e)
    (hstep : sharing.step e s = some s') : s'.Inv := by
  rcases sharing_cases hstep with
    ⟨i, line, o, u, rfl, -, hidle, hstart, rfl⟩ | ⟨i, line, o, rfl, -, hidle, hstart, rfl⟩ |
      ⟨i, o, u, rfl, hu, rfl⟩
  · exact h.announce hidle hstart (he.1 u hstart)
  · obtain ⟨pm, hpm⟩ := h.issued
    obtain ⟨hfree, hkept⟩ := he.2 hstart
    refine h.after hpm (fun u hu => by cases hu) hfree hkept fun r hr => ?_
    rw [completes_of_idle hidle] at hr
    cases hr
  · exact h.proceed o hu (he u hu)

/-- Nothing has happened yet. -/
theorem inv_of_init (h : s ∈ sharing.init) : s.Inv := by
  obtain ⟨_, _, _, pm, _, _, hconnection, hcompleted⟩ := h
  have hidle : ∀ i, (s.connection i).upload = none := by
    intro i
    rw [hconnection]
  refine ⟨⟨pm, fun i u hu => ?_, ?_⟩, fun i u hu => ?_, ?_, ?_⟩
  · rw [hidle] at hu
    cases hu
  · rw [hcompleted]
    simp
  · rw [hidle] at hu
    cases hu
  · rw [hcompleted]
    simp
  · rw [hcompleted]
    exact List.nodup_nil

end Sharing

/-- As long as no step interferes with the `STOU` of another session, the names of those
    that have been completed are different, and none replaces what is in a file. -/
theorem uniqueUpload {s : Sharing ι} (hs : sharing.ReachableBy Sharing.Undisturbed s) : s.Unique := by
  have hinv : s.Inv := hs.invariant (fun _ h => Sharing.inv_of_init h)
    fun _ _ _ h he hstep => h.step he hstep
  refine ⟨hinv.names, fun i u o s' hu hunique hstep p data hp => ?_⟩
  obtain ⟨v, hv, rfl⟩ := Option.map_eq_some_iff.1 hstep
  obtain rfl : u = v := Option.some.inj (hu.symm.trans hv)
  exact (extends_proceed o (hinv.free i u hu hunique)).fileAt hp

/-- Two sessions that have just been opened, on a root directory with a file. -/
def Sharing.start : Sharing Bool :=
  let created := PathManager.create 0o755 { names := ["srv"] } fileStorage
  { fs := created.2, connection := fun _ => { session := { pathManager := created.1 } } }

theorem sharing_start_init : ∀ s ∈ some Sharing.start, s ∈ sharing.init := by
  intro s hs
  cases hs
  exact ⟨0o755, { names := ["srv"] }, fileStorage, _, rfl, by decide +kernel, fun _ => rfl, rfl⟩

/-- Both sessions log in, and have a data channel. -/
def bothLogin : List (SharingEvent Bool) :=
  [.line false "USER alice" {}, .line false "PASS secret" {}, .line false "PASV" {},
    .line true "USER bob" {}, .line true "PASS secret" {}, .line true "PASV" {}]

/-- An upload of one byte. -/
def uploadsByte (i : Bool) (b : UInt8) : List (SharingEvent Bool) :=
  [.proceed i {}, .proceed i { received := .completed [b] }, .proceed i {}]

/-- Two that upload one after the other get different names. -/
theorem uniqueUpload_two :
    ∃ s : Sharing Bool, s.completed.map Prod.snd = ["file_2", "file_1"] ∧ s.Unique := by
  obtain ⟨s, hs, hP⟩ := sharing.exists_reachableBy_of_run Sharing.Undisturbed sharing_start_init
    (bothLogin ++ (.line false "STOU file" {} :: uploadsByte false 49) ++
      (.line true "STOU file" {} :: uploadsByte true 50))
    (fun s => s.completed.map Prod.snd = ["file_2", "file_1"]) (by decide +kernel)
  exact ⟨s, of_decide_eq_true hP, uniqueUpload hs⟩

/-- Two that search at the same time get the same name, and the second file replaces
    the first. -/
theorem not_uniqueUpload :
    (¬∀ s : Sharing Bool, sharing.Reachable s → (s.completed.map Prod.snd).Nodup) ∧
      ¬∀ s : Sharing Bool, sharing.Reachable s → s.Unique := by
  constructor
  · intro h
    obtain ⟨s, hs, hP⟩ := sharing.exists_reachableBy_of_run (fun _ _ => True) sharing_start_init
      (bothLogin ++ [.line false "STOU file" {}, .line true "STOU file" {}] ++
        uploadsByte false 49 ++ uploadsByte true 50)
      (fun s => s.completed.map Prod.snd = ["file_1", "file_1"]) (by decide +kernel)
    have hnodup := h s hs
    rw [of_decide_eq_true hP] at hnodup
    exact absurd hnodup (by decide)
  · intro h
    -- The first session has completed its upload, and the second one is about to write.
    obtain ⟨s, hs, hP⟩ := sharing.exists_reachableBy_of_run (fun _ _ => True) sharing_start_init
      (bothLogin ++ [.line false "STOU file" {}, .line true "STOU file" {}] ++
        [.proceed true {}, .proceed true { received := .completed [50] }] ++ uploadsByte false 49)
      (fun s =>
        (s.connection true).upload.any (fun u => u.unique) &&
        (s.fs.fileAt { names := ["srv", "file_1"] }).map FileData.content = some [49] &&
        (sharing.step (.proceed true {}) s).any fun s' =>
          (s'.fs.fileAt { names := ["srv", "file_1"] }).map FileData.content = some [50])
      (by decide +kernel)
    simp only [Bool.and_eq_true, Option.any_eq_true, decide_eq_true_eq] at hP
    obtain ⟨⟨⟨u, hu, hunique⟩, hbefore⟩, s', hstep, hafter⟩ := hP
    obtain ⟨data, hdata, hcontent⟩ := Option.map_eq_some_iff.1 hbefore
    have hkept := (h s hs).kept true u {} s' hu hunique hstep _ data hdata
    rw [hkept, Option.map_some, hcontent] at hafter
    exact absurd hafter (by decide)

end HybridFtp
