import HybridFtp.Server.Upload

/-!
# Failed uploads

What is left of an upload that ends before the file is written to.

* `ReachesWrite`: the data channel is there, something has been received, and it can be
  decoded;
* `failedUpload`: otherwise the file is as it was, and so is everything else. But
  directories on the way to the file may have been created (`not_failedUpload`).
-/

namespace HybridFtp

/-- What is received for the file `destName` gets to be written. -/
def ReachesWrite (o : Outcomes) (session : SessionState) (destName : String) : Prop :=
  ∃ peer buf, openDataChannel o session = .ok peer ∧
    session.pathManager.isPathInsideRoot destName = true ∧
    (peer ≠ none → o.knockSent = true) ∧ o.received = .completed buf ∧
    (TransferModeCodec.decode buf session.transferMode session.transferType).ok = true

section

variable {o : Outcomes} {session : SessionState} {fs : Storage} {destName : String}
  {appendMode skipOpeningReply : Bool}

theorem receiveFile_fs_of_not_reachesWrite {resolvedPath : NormalPath String}
    (h : ∀ buf, o.received = .completed buf →
      (TransferModeCodec.decode buf session.transferMode session.transferType).ok ≠ true) :
    (receiveFile o session fs resolvedPath appendMode).fs = fs := by
  rw [receiveFile]
  cases hreceived : o.received with
  | completed buf =>
    dsimp only [answer]
    rw [storeFile]
    dsimp only
    rw [if_pos (h buf hreceived)]
  | failed => rfl
  | aborted => rfl

theorem receiveFileFrom_fs_of_not_reachesWrite {peer : Option Endpoint}
    {resolvedPath : NormalPath String}
    (h : ∀ buf, (peer ≠ none → o.knockSent = true) → o.received = .completed buf →
      (TransferModeCodec.decode buf session.transferMode session.transferType).ok ≠ true) :
    (receiveFileFrom o session fs peer resolvedPath appendMode).fs = fs := by
  cases peer with
  | some endpoint =>
    rw [receiveFileFrom]
    split
    · rfl
    · rename_i hknock
      exact receiveFile_fs_of_not_reachesWrite fun buf => h buf fun _ => not_not.1 hknock
  | none =>
    have hreceived : ∀ buf, o.received = .completed buf →
        (TransferModeCodec.decode buf session.reset.transferMode session.reset.transferType).ok ≠
          true := fun buf => h buf fun hne => absurd rfl hne
    exact receiveFile_fs_of_not_reachesWrite hreceived

variable (fs appendMode skipOpeningReply) in
/-- Without the file, there are the directories on the way to it, if the upload has got
    that far. -/
theorem receiveFileOverDataChannel_fs_of_not_reachesWrite (h : ¬ReachesWrite o session destName) :
    (receiveFileOverDataChannel o session fs destName appendMode skipOpeningReply).fs = fs ∨
      (∃ peer, openDataChannel o session = .ok peer) ∧
        session.pathManager.isPathInsideRoot destName = true ∧
        (receiveFileOverDataChannel o session fs destName appendMode skipOpeningReply).fs =
          (fs.createDirectories o.directoryPerms
            (session.pathManager.resolvePath destName).parentPath).2 := by
  rcases receiveFileOverDataChannel_fs o session fs destName appendMode skipOpeningReply with
    heq | ⟨peer, hpeer, hinside, heq⟩
  · exact .inl heq
  · refine .inr ⟨⟨peer, hpeer⟩, hinside, ?_⟩
    rw [heq]
    exact receiveFileFrom_fs_of_not_reachesWrite fun buf hknock hreceived hok =>
      h ⟨peer, buf, hpeer, hinside, hknock, hreceived, hok⟩

/-- An upload without the name it needs does nothing. -/
theorem fs_of_upload_none {line : String} {verb : Verb} (hverb : executed session line = some verb)
    (hmem : verb ∈ [Verb.STOR, .STOU, .APPE]) (h : upload? session fs line = none) :
    (handleCommand o session fs line).fs = fs := by
  rcases handleCommand_cases o session fs line with
    ⟨hnone, _⟩ | ⟨verb', session', hverb', _, heq⟩
  · rw [hnone] at hverb
    cases hverb
  rw [hverb'] at hverb
  cases hverb
  rw [upload?, hverb'] at h
  rw [heq]
  simp only [List.mem_cons, List.not_mem_nil, or_false] at hmem
  rcases hmem with rfl | rfl | rfl
  · rw [execute, handleStor, requireArgument, if_pos (by simpa using h)]
    rfl
  · cases h
  · rw [execute, handleAppe, requireArgument, if_pos (by simpa using h)]
    rfl

end

/-- An upload that ends before the file is written to changes no file, and nothing that
    is there. All that may be new are directories: the ones on the way to the file that
    were missing, if there was a data channel and the path lies in the root directory. -/
theorem failedUpload (session : SessionState) (fs : Storage) (o : Outcomes) {line : String}
    {verb : Verb} (hverb : executed session line = some verb)
    (hmem : verb ∈ [Verb.STOR, .STOU, .APPE])
    (h : ∀ name ∈ upload? session fs line, ¬ReachesWrite o session name) :
    fs.AddsDirectories (handleCommand o session fs line).fs ∧
      (∀ name ∈ upload? session fs line,
        (handleCommand o session fs line).fs.fileAt (session.pathManager.resolvePath name) =
          fs.fileAt (session.pathManager.resolvePath name)) ∧
      ((handleCommand o session fs line).fs ≠ fs → ∃ name ∈ upload? session fs line,
        (∃ peer, openDataChannel o session = .ok peer) ∧
          session.pathManager.isPathInsideRoot name = true ∧
          fs.isDirectory (session.pathManager.resolvePath name).parentPath ≠ some true ∧
          (handleCommand o session fs line).fs =
            (fs.createDirectories o.directoryPerms
              (session.pathManager.resolvePath name).parentPath).2) := by
  match hname : upload? session fs line with
  | none =>
    rw [fs_of_upload_none hverb hmem hname]
    exact ⟨.refl fs, fun _ _ => rfl, fun hne => absurd rfl hne⟩
  | some name =>
    obtain ⟨appendMode, skipOpeningReply, hfs⟩ := handleCommand_fs_of_upload hname
    rw [hfs o]
    rcases receiveFileOverDataChannel_fs_of_not_reachesWrite fs appendMode skipOpeningReply
      (h name hname) with heq | ⟨hpeer, hinside, heq⟩
    · rw [heq]
      exact ⟨.refl fs, fun _ _ => rfl, fun hne => absurd rfl hne⟩
    · rw [heq]
      refine ⟨FileSystem.addsDirectories_createDirectories .., fun name' hname' => ?_, fun hne => ?_⟩
      · obtain rfl := Option.some.inj hname'
        exact FileSystem.fileAt_createDirectories ..
      · exact ⟨name, rfl, hpeer, hinside, fun hdir =>
          hne (FileSystem.createDirectories_of_isDirectory _ hdir), rfl⟩

/-- An upload into the root directory, which needs no directory. -/
theorem failedUpload_new :
    (uploading.turn { received := .aborted } "STOR new").fs = uploading.fs := by
  by_contra hne
  have hverb : executed uploading.session "STOR new" = some .STOR := by decide +kernel
  have hupload : upload? uploading.session uploading.fs "STOR new" = some "new" := by
    decide +kernel
  obtain ⟨_, _, hdirs⟩ := failedUpload uploading.session uploading.fs { received := .aborted } hverb
    (by decide) fun name hname ⟨_, _, _, _, _, hreceived, _⟩ => by cases hreceived
  obtain ⟨name, hname, _, _, hparent, _⟩ := hdirs hne
  rw [hupload] at hname
  cases hname
  exact hparent (by decide +kernel)

/-- An upload into a directory that is missing leaves this behind if it is aborted. -/
theorem not_failedUpload :
    ¬∀ s line name o, serving.Reachable s → upload? s.session s.fs line = some name →
      ¬ReachesWrite o s.session name → (s.turn o line).fs = s.fs := by
  intro h
  obtain ⟨s, hs, hP⟩ := exists_reachable_of_run fileStorage_isDir
    [.command "USER alice" {}, .command "PASS secret" {}, .command "PASV" {}]
    (fun s => upload? s.session s.fs "STOR new/x" = some "new/x" ∧
      s.fs.node ["srv", "new"] = none ∧
      (s.turn { received := .aborted } "STOR new/x").fs.node ["srv", "new"] ≠ none)
    (by decide +kernel)
  obtain ⟨hname, hbefore, hafter⟩ := of_decide_eq_true hP
  rw [h s "STOR new/x" "new/x" { received := .aborted } hs hname
    fun ⟨_, _, _, _, _, hreceived, _⟩ => by cases hreceived] at hafter
  exact hafter hbefore

end HybridFtp
