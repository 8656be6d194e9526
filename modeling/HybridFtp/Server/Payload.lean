import HybridFtp.Common.Observed
import HybridFtp.Lib.Contents
import HybridFtp.Server.DataChannel
import HybridFtp.Server.UniqueUpload

/-!
# Payloads

What the transfers of a session send and store.

* `mem_data_retr`, `mem_data_list`, `mem_data_nlst`: what is sent is the file, or the
  listing, encoded in the mode of the session;
* `fs_of_not_changes`: the commands that change nothing in the file system;
* `stored_of_complete`: an upload that is answered by 226 has stored what it has
  received, as the mode and the type of the session have it decoded.
-/

namespace HybridFtp

/-- The reply to a transfer of a file that has gone well. -/
def transferComplete : String := "226 Transfer complete.\r\n"

section

variable {o : Outcomes} {session : SessionState} {fs : Storage} {line : String} {wire : Bytes}

/-! ## What is sent -/

theorem mem_data_sendFile {resolvedPath : NormalPath String}
    (h : wire ∈ (sendFile o session fs resolvedPath).data) :
    ∃ file, fs.fileAt resolvedPath = some file ∧
      wire = TransferModeCodec.encode file.content session.transferMode := by
  rw [sendFile] at h
  split at h
  · cases h
  · rename_i raw hraw
    rw [FileHandler.readBinaryFile, Option.ite_none_right_eq_some, Option.map_eq_some_iff] at hraw
    obtain ⟨_, file, hfile, rfl⟩ := hraw
    exact ⟨file, hfile, List.mem_singleton.1 h⟩

theorem mem_data_sendFileTo {peer : Option Endpoint} {resolvedPath : NormalPath String}
    (h : wire ∈ (sendFileTo o session fs peer resolvedPath).data) :
    ∃ file, fs.fileAt resolvedPath = some file ∧
      wire = TransferModeCodec.encode file.content session.transferMode := by
  cases peer with
  | some _ => exact mem_data_sendFile h
  | none =>
    rw [sendFileTo] at h
    split at h
    · cases h
    · have hreset : session.reset.transferMode = session.transferMode := rfl
      rw [← hreset]
      exact mem_data_sendFile h

/-- The directories that are created before do not matter to the file. -/
theorem mem_data_handleRetr {argument : String}
    (h : wire ∈ (handleRetr o session fs argument).data) :
    ∃ file, fs.fileAt (session.pathManager.resolvePath argument) = some file ∧
      wire = TransferModeCodec.encode file.content session.transferMode := by
  rw [handleRetr, requireArgument] at h
  dsimp only at h
  split at h
  · cases h
  split at h
  · cases h
  split at h
  · cases h
  split at h
  · cases h
  · obtain ⟨file, hfile, hwire⟩ := mem_data_sendFileTo h
    rw [FileSystem.fileAt_createDirectories] at hfile
    exact ⟨file, hfile, hwire⟩

theorem mem_data_sendListing {unavailable opening : String} {listing : Option String}
    (h : wire ∈ (sendListing o session fs unavailable opening listing).data) :
    ∃ text, listing = some text ∧
      wire = TransferModeCodec.encode (textBytes text) session.transferMode := by
  rw [sendListing.eq_def] at h
  split at h
  · cases h
  · rename_i text
    refine ⟨text, rfl, ?_⟩
    split at h
    · cases h
    split at h
    · cases h
    · dsimp only [sendTextOverDataChannel] at h
      split at h
      · cases h
      · exact List.mem_singleton.1 h
      · split at h
        · cases h
        · exact List.mem_singleton.1 h

/-- A command behind the login sends data only in a session that is logged in. -/
theorem mem_data_of_lineVerb {verb : Verb} (hverb : lineVerb line = some verb)
    (hdata : verb ∈ Verb.transfers) (h : wire ∈ (handleCommand o session fs line).data) :
    wire ∈ (execute o (session.given line) fs (CommandParser.parse line).argument
      (some verb)).data := by
  have hne : ∀ verb ∈ Verb.transfers, verb ≠ .QUIT ∧ verb ≠ .NOOP ∧ verb ≠ .USER ∧ verb ≠ .PASS := by
    decide
  replace hne := hne verb hdata
  rw [handleCommand_of_lineVerb o fs hverb, dispatch_of_ne o _ fs _ (by simp [hne.1])
    (by simp [hne.2.1]) (by simp [hne.2.2.1]) (by simp [hne.2.2.2])] at h
  split at h
  · cases h
  · exact h

theorem given_frame (session : SessionState) (line : String) :
    (session.given line).transferMode = session.transferMode ∧
      (session.given line).transferType = session.transferType ∧
      (session.given line).pathManager = session.pathManager := by
  rcases given_eq session line with h | h
  · rw [h]
    exact ⟨rfl, rfl, rfl⟩
  · rw [h]
    exact ⟨rfl, rfl, rfl⟩

/-- What `RETR` sends is the file at the path. -/
theorem mem_data_retr (hverb : lineVerb line = some .RETR)
    (h : wire ∈ (handleCommand o session fs line).data) :
    ∃ file, fs.fileAt (session.pathManager.resolvePath (CommandParser.parse line).argument) =
        some file ∧ wire = TransferModeCodec.encode file.content session.transferMode := by
  obtain ⟨file, hfile, hwire⟩ :=
    mem_data_handleRetr (mem_data_of_lineVerb hverb (by decide) h)
  rw [(given_frame session line).2.2] at hfile
  rw [(given_frame session line).1] at hwire
  exact ⟨file, hfile, hwire⟩

/-- What `LIST` sends is the listing of the path. -/
theorem mem_data_list (hverb : lineVerb line = some .LIST)
    (h : wire ∈ (handleCommand o session fs line).data) :
    ∃ text, session.pathManager.listDirectory fs (CommandParser.parse line).argument = some text ∧
      wire = TransferModeCodec.encode (textBytes text) session.transferMode := by
  replace h := mem_data_of_lineVerb hverb (by decide) h
  rw [execute, handleList] at h
  obtain ⟨text, htext, hwire⟩ := mem_data_sendListing h
  rw [(given_frame session line).2.2] at htext
  rw [(given_frame session line).1] at hwire
  exact ⟨text, htext, hwire⟩

/-- What `NLST` sends are the names. -/
theorem mem_data_nlst (hverb : lineVerb line = some .NLST)
    (h : wire ∈ (handleCommand o session fs line).data) :
    ∃ text, session.pathManager.listNames fs (CommandParser.parse line).argument = some text ∧
      wire = TransferModeCodec.encode (textBytes text) session.transferMode := by
  replace h := mem_data_of_lineVerb hverb (by decide) h
  rw [execute, handleNlst] at h
  obtain ⟨text, htext, hwire⟩ := mem_data_sendListing h
  rw [(given_frame session line).2.2] at htext
  rw [(given_frame session line).1] at hwire
  exact ⟨text, htext, hwire⟩

/-! ## What changes the file system -/

/-- The commands that may change the file system. -/
def Verb.changes : List Verb := [.MKD, .RMD, .DELE, .RNTO, .STOR, .STOU, .APPE]

theorem resolve_ne_notFound_of_getFileSize {pm : PathManager} {argument : String}
    (h : pm.getFileSize fs argument ≠ none) :
    fs.resolve true (pm.resolvePath argument) ≠ .notFound := by
  have htarget : pm.targetOf fs (pm.resolvePath argument) ≠ none := by
    intro hnone
    rw [PathManager.getFileSize, PathManager.regularFile, PathManager.canonicalTarget_eq,
      hnone] at h
    split at h
    · exact h rfl
    · exact h rfl
  obtain ⟨l, hl⟩ := Option.ne_none_iff_exists'.1 htarget
  rw [(PathManager.targetOf_eq_some_iff.1 hl).1]
  exact fun hmissing => by cases hmissing

/-- `RETR` creates no directory: its file has been found in one. -/
theorem fs_of_not_changes (o : Outcomes) (session : SessionState) (fs : Storage) {line : String}
    (h : ∀ verb ∈ executed session line, verb ∉ Verb.changes) :
    (handleCommand o session fs line).fs = fs := by
  cases hverb : executed session line with
  | none => exact (handleCommand_of_executed_none o fs hverb).1
  | some verb =>
    replace h := h verb hverb
    rw [handleCommand_of_executed o fs hverb]
    generalize session.given line = session'
    have hstorage := (step_execute o session' fs (CommandParser.parse line).argument (some verb)).2
    generalize (execute o session' fs (CommandParser.parse line).argument (some verb)).fs = fs'
      at hstorage ⊢
    cases hstorage with
    | same => rfl
    | retr _ hsize =>
      exact FileSystem.createDirectories_of_resolve _ (resolve_ne_notFound_of_getFileSize hsize)
    | mkd | rmd | dele | rnto | stor | stou | appe => exact absurd (by decide) h

/-! ## What is stored -/

theorem FileHandler.writeFile_of_wrote {outcome : WriteOutcome} {stamp : Stamp}
    {filepath : NormalPath String} {data : Bytes} {append : Bool} (hflushed : outcome.Flushed)
    (h : (writeBinaryFile fs outcome stamp filepath data append).1 = true) :
    fs.writeFile (written stamp data append) filepath =
      some (writeBinaryFile fs outcome stamp filepath data append).2 := by
  cases outcome with
  | refused => cases h
  | short count => cases h
  | unflushed count => exact hflushed.elim
  | complete =>
    refine (wrote_spec fs _ filepath).resolve_left fun heq => ?_
    rw [writeBinaryFile, heq] at h
    cases h

variable {name : String} {appendMode skipOpeningReply : Bool}

theorem storeFile_of_complete {resolvedPath : NormalPath String} {buf : Bytes}
    (hflushed : o.written.Flushed)
    (h : (storeFile o session fs resolvedPath buf appendMode).1 = transferComplete) :
    (TransferModeCodec.decode buf session.transferMode session.transferType).ok = true ∧
      fs.writeFile (FileHandler.written o.stamp
        (TransferModeCodec.decode buf session.transferMode session.transferType).output appendMode)
        resolvedPath = some (storeFile o session fs resolvedPath buf appendMode).2 := by
  rw [storeFile_eq] at h ⊢
  generalize TransferModeCodec.decode buf session.transferMode session.transferType = decoded at h ⊢
  split at h
  · dsimp only at h
    exact absurd h (by decide)
  · rename_i hok
    refine ⟨not_not.1 hok, ?_⟩
    rw [if_neg hok]
    dsimp only at h ⊢
    split at h
    · rename_i hwrote
      exact FileHandler.writeFile_of_wrote hflushed hwrote
    · exact absurd h (by decide)

theorem answer_ne_complete {reply : String} (h : reply ≠ transferComplete) :
    (answer session fs reply).replies.getLast? ≠ some transferComplete :=
  fun hlast => h (Option.some.inj hlast)

theorem receiveFile_of_complete {resolvedPath : NormalPath String} (hflushed : o.written.Flushed)
    (h : (receiveFile o session fs resolvedPath appendMode).replies.getLast? =
      some transferComplete) :
    ∃ buf, o.received = .completed buf ∧
      (TransferModeCodec.decode buf session.transferMode session.transferType).ok = true ∧
      fs.writeFile (FileHandler.written o.stamp
        (TransferModeCodec.decode buf session.transferMode session.transferType).output appendMode)
        resolvedPath = some (receiveFile o session fs resolvedPath appendMode).fs := by
  rw [receiveFile] at h ⊢
  cases hreceived : o.received with
  | completed buf =>
    rw [hreceived] at h
    exact ⟨buf, rfl, storeFile_of_complete hflushed (Option.some.inj h)⟩
  | failed =>
    rw [hreceived] at h
    exact absurd h (answer_ne_complete (by decide))
  | aborted =>
    rw [hreceived] at h
    exact absurd (Option.some.inj h) (by decide)

theorem receiveFileFrom_of_complete {peer : Option Endpoint} {resolvedPath : NormalPath String}
    (hflushed : o.written.Flushed)
    (h : (receiveFileFrom o session fs peer resolvedPath appendMode).replies.getLast? =
      some transferComplete) :
    ∃ buf, o.received = .completed buf ∧
      (TransferModeCodec.decode buf session.transferMode session.transferType).ok = true ∧
      fs.writeFile (FileHandler.written o.stamp
        (TransferModeCodec.decode buf session.transferMode session.transferType).output appendMode)
        resolvedPath =
          some (receiveFileFrom o session fs peer resolvedPath appendMode).fs := by
  cases peer with
  | none =>
    have hreset : session.reset.transferMode = session.transferMode ∧
        session.reset.transferType = session.transferType := ⟨rfl, rfl⟩
    rw [← hreset.1, ← hreset.2]
    exact receiveFile_of_complete hflushed h
  | some _ =>
    rw [receiveFileFrom] at h ⊢
    split at h
    · exact absurd h (answer_ne_complete (by decide))
    · rename_i hknock
      rw [if_neg hknock]
      exact receiveFile_of_complete hflushed h

theorem getLast?_after {opening : List String} {turn : Turn} (h : turn.replies ≠ []) :
    (turn.after opening).replies.getLast? = turn.replies.getLast? := by
  rw [Turn.after]
  exact List.getLast?_append_of_ne_nil _ h

theorem Turn.Concludes.replies_ne_nil {turn : Turn} (h : turn.Concludes) : turn.replies ≠ [] := by
  intro hnil
  rw [Turn.Concludes, hnil] at h
  generalize turn.aborted = aborted at h
  cases h

theorem receiveFileOverDataChannel_replies (o : Outcomes) (session : SessionState) (fs : Storage)
    (name : String) (appendMode skipOpeningReply : Bool) :
    (receiveFileOverDataChannel o session fs name appendMode skipOpeningReply).replies ≠ [] := by
  cases skipOpeningReply with
  | true => exact (concludes_receiveFileOverDataChannel ..).replies_ne_nil
  | false =>
    intro hnil
    have hdisciplined := disciplined_receiveFileOverDataChannel o session fs name appendMode
    rw [Turn.Disciplined, hnil] at hdisciplined
    generalize (receiveFileOverDataChannel o session fs name appendMode false).aborted = aborted
      at hdisciplined
    cases hdisciplined

/-- After the directories on the way have been created, the file is written. -/
theorem receiveFileOverDataChannel_of_complete (hflushed : o.written.Flushed)
    (h : (receiveFileOverDataChannel o session fs name appendMode skipOpeningReply).replies.getLast? =
      some transferComplete) :
    ∃ buf, o.received = .completed buf ∧
      (TransferModeCodec.decode buf session.transferMode session.transferType).ok = true ∧
      (fs.createDirectories o.directoryPerms
        (session.pathManager.resolvePath name).parentPath).2.writeFile
        (FileHandler.written o.stamp
          (TransferModeCodec.decode buf session.transferMode session.transferType).output appendMode)
        (session.pathManager.resolvePath name) =
          some (receiveFileOverDataChannel o session fs name appendMode skipOpeningReply).fs := by
  rw [receiveFileOverDataChannel] at h ⊢
  split at h
  · rename_i reply hreply
    exact absurd h (answer_ne_complete (ne_complete_of_openDataChannel hreply))
  · rename_i peer hpeer
    dsimp only at h ⊢
    split at h
    · exact absurd h (answer_ne_complete (by decide))
    · rename_i hinside
      rw [if_neg hinside]
      rw [getLast?_after (concludes_receiveFileFrom ..).replies_ne_nil] at h
      exact receiveFileFrom_of_complete hflushed h

/-- The upload has put the data into its file, after what is there if they are appended. -/
def Uploading.Stored (u : Uploading) (session : SessionState) (fs fs' : Storage) (data : Bytes) :
    Prop :=
  (fs'.fileAt (session.pathManager.resolvePath u.destName)).map FileData.content =
    some ((if u.appendMode then
      ((fs.fileAt (session.pathManager.resolvePath u.destName)).map FileData.content).getD []
        else []) ++ data)

/-- `PASV` is not answered so. -/
theorem ne_complete_of_pasv (o : Outcomes) (session : SessionState) (fs : Storage)
    (hverb : lineVerb line = some .PASV) :
    (handleCommand o session fs line).replies.getLast? ≠ some transferComplete := by
  rw [handleCommand_of_lineVerb o fs hverb, dispatch_of_ne o _ fs _ (by simp) (by simp) (by simp)
    (by simp)]
  split
  · exact answer_ne_complete (by decide)
  · rw [execute, handlePasv]
    split
    · exact answer_ne_complete (by decide)
    · refine answer_ne_complete fun h => ?_
      simp only [String.append_assoc] at h
      have hcode := congrArg (fun reply => reply.toList.take 3) h
      rw [String.toList_append, List.take_append_of_le_length (by decide)] at hcode
      exact absurd hcode (by decide)

/-- A command that receives a file is answered by 226 only if it has started an upload. -/
theorem exists_start_of_complete {verb : Verb} (hverb : lineVerb line = some verb)
    (hupload : verb ∈ [.STOR, .STOU, .APPE])
    (h : (handleCommand o session fs line).replies.getLast? = some transferComplete) :
    ∃ u, Uploading.start? session fs line = some u := by
  have hne : ∀ verb ∈ [Verb.STOR, .STOU, .APPE], verb ≠ .QUIT ∧ verb ≠ .NOOP ∧ verb ≠ .USER ∧
      verb ≠ .PASS := by
    decide
  replace hne := hne verb hupload
  by_cases hlogin : session.loginState = .LoggedIn
  · have hexecuted : executed session line = some verb := by
      rw [executed_eq, hverb, executed_of_ne (by simp [hne.1]) (by simp [hne.2.1])
        (by simp [hne.2.2.1]) (by simp [hne.2.2.2]), if_pos hlogin]
    rw [handleCommand_of_executed o fs hexecuted] at h
    suffices hstart : ∃ name, upload? session fs line = some name by
      obtain ⟨name, hname⟩ := hstart
      exact ⟨_, by rw [Uploading.start?, hname]; rfl⟩
    by_cases hargument : (CommandParser.parse line).argument = ""
    · simp only [List.mem_cons, List.not_mem_nil, or_false] at hupload
      rcases hupload with rfl | rfl | rfl
      · rw [execute, handleStor, requireArgument, if_pos hargument] at h
        exact absurd h (answer_ne_complete (by decide))
      · exact ⟨_, by rw [upload?, hexecuted]⟩
      · rw [execute, handleAppe, requireArgument, if_pos hargument] at h
        exact absurd h (answer_ne_complete (by decide))
    · simp only [List.mem_cons, List.not_mem_nil, or_false] at hupload
      rcases hupload with rfl | rfl | rfl
      · exact ⟨_, by rw [upload?, hexecuted]; exact if_neg hargument⟩
      · exact ⟨_, by rw [upload?, hexecuted]⟩
      · exact ⟨_, by rw [upload?, hexecuted]; exact if_neg hargument⟩
  · rw [handleCommand_of_lineVerb o fs hverb, dispatch_of_ne o _ fs _ (by simp [hne.1])
      (by simp [hne.2.1]) (by simp [hne.2.2.1]) (by simp [hne.2.2.2]), given_loginState,
      if_pos hlogin] at h
    exact absurd h (answer_ne_complete (by decide))

/-- An upload that is answered by 226 has stored what it has received, unless data is lost
    when the file is closed, or its path leads to something that is no file. -/
theorem stored_of_complete {u : Uploading} (hstart : Uploading.start? session fs line = some u)
    (hspecial : fs.status (session.pathManager.resolvePath u.destName) ≠ some .unknown)
    (hflushed : o.written.Flushed)
    (h : (handleCommand o session fs line).replies.getLast? = some transferComplete) :
    ∃ buf, o.received = .completed buf ∧
      (TransferModeCodec.decode buf session.transferMode session.transferType).ok = true ∧
      u.Stored session fs (handleCommand o session fs line).fs
        (TransferModeCodec.decode buf session.transferMode session.transferType).output := by
  have hgiven := given_frame session line
  rw [Uploading.handleCommand_of_start? hstart o] at h ⊢
  rw [getLast?_after (receiveFileOverDataChannel_replies _ _ _ _ _ _)] at h
  obtain ⟨buf, hreceived, hok, hwrite⟩ := receiveFileOverDataChannel_of_complete hflushed h
  rw [hgiven.1, hgiven.2.1] at hok hwrite
  rw [hgiven.2.2] at hwrite
  refine ⟨buf, hreceived, hok, ?_⟩
  have hfile := FileSystem.fileAt_writeFile hwrite
    fun hunknown => hspecial (FileSystem.status_of_createDirectories _ hunknown)
  rw [FileSystem.fileAt_createDirectories] at hfile
  rw [Uploading.Stored]
  dsimp only [Turn.after]
  rw [hfile]
  rfl

end

end HybridFtp
