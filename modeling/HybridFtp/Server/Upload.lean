import HybridFtp.Common.Sandbox
import HybridFtp.Lib.Creation
import HybridFtp.Server.ReplyDiscipline

/-!
# Uploads

What `STOR`, `STOU` and `APPE` do to the file system, whatever the peer sends.

* `upload?`: the name of the file that a line uploads to;
* `receiveFileOverDataChannel_fs`: directories are created, and the file is written
  to;
* `uploads_contained_iff`: which uploads stay in the root directory. The names of a
  path do, but they are not what the links in it lead to (`not_uploads_contained`).
-/

namespace HybridFtp

/-- There is a data channel, if the system has a socket for it. -/
def SessionState.ChannelReady (session : SessionState) : Prop :=
  match session.dataMode with
  | .PASSIVE => session.passiveSocket ≠ none
  | .ACTIVE => session.activeIP ≠ "" ∧ session.activePort ≠ 0
  | .NONE => False

/-- The name of the file that a line uploads to, if it gets to an upload. -/
def upload? (session : SessionState) (fs : Storage) (line : String) : Option String :=
  let argument := (CommandParser.parse line).argument
  match executed session line with
  | some .STOR | some .APPE => if argument = "" then none else some argument
  | some .STOU =>
    some (session.pathManager.generateUniqueFilename fs
      (if argument = "" then "upload" else argument))
  | _ => none

section

variable {o : Outcomes} {session : SessionState} {fs : Storage} {destName : String}
  {appendMode skipOpeningReply : Bool}

theorem channelReady_of_openDataChannel {peer : Option Endpoint}
    (h : openDataChannel o session = .ok peer) : session.ChannelReady := by
  rw [openDataChannel] at h
  rw [SessionState.ChannelReady]
  cases hmode : session.dataMode with
  | PASSIVE =>
    rw [hmode] at h
    dsimp only at h
    intro hsocket
    rw [hsocket] at h
    cases h
  | ACTIVE =>
    rw [hmode] at h
    dsimp only at h
    split at h
    · cases h
    · rename_i hactive
      exact not_or.1 hactive
  | NONE =>
    rw [hmode] at h
    cases h

theorem openDataChannel_of_channelReady (h : session.ChannelReady) (ho : o.udpPort ≠ none) :
    ∃ peer, openDataChannel o session = .ok peer := by
  obtain ⟨port, hport⟩ := Option.ne_none_iff_exists'.1 ho
  rw [SessionState.ChannelReady] at h
  rw [openDataChannel]
  cases hmode : session.dataMode with
  | PASSIVE =>
    rw [hmode] at h
    obtain ⟨socket, hsocket⟩ := Option.ne_none_iff_exists'.1 h
    rw [hsocket]
    exact ⟨none, rfl⟩
  | ACTIVE =>
    rw [hmode] at h
    dsimp only at h ⊢
    rw [if_neg (not_or.2 h), hport]
    exact ⟨_, rfl⟩
  | NONE =>
    rw [hmode] at h
    exact h.elim

/-! ## What is written -/

/-- Text is written as it is. -/
theorem storeFile_eq (o : Outcomes) (session : SessionState) (fs : Storage)
    (resolvedPath : NormalPath String) (buf : Bytes) (appendMode : Bool) :
    storeFile o session fs resolvedPath buf appendMode =
      if ¬(TransferModeCodec.decode buf session.transferMode session.transferType).ok then
        ("551 Invalid transfer mode encoding.\r\n", fs)
      else
        let wrote := FileHandler.writeBinaryFile fs o.written o.stamp resolvedPath
          (TransferModeCodec.decode buf session.transferMode session.transferType).output appendMode
        (if wrote.1 then "226 Transfer complete.\r\n" else "551 Failed to write file.\r\n",
          wrote.2) := by
  rw [storeFile]
  cases session.transferType <;> rfl

theorem storeFile_fs (o : Outcomes) (session : SessionState) (fs : Storage)
    (resolvedPath : NormalPath String) (buf : Bytes) (appendMode : Bool) :
    (storeFile o session fs resolvedPath buf appendMode).2 = fs ∨
      ∃ write, fs.writeFile write resolvedPath =
        some (storeFile o session fs resolvedPath buf appendMode).2 := by
  rw [storeFile_eq]
  split
  · exact .inl rfl
  · exact FileHandler.writeBinaryFile_cases ..

theorem receiveFile_fs (o : Outcomes) (session : SessionState) (fs : Storage)
    (resolvedPath : NormalPath String) (appendMode : Bool) :
    (receiveFile o session fs resolvedPath appendMode).fs = fs ∨
      ∃ write, fs.writeFile write resolvedPath =
        some (receiveFile o session fs resolvedPath appendMode).fs := by
  rw [receiveFile]
  cases o.received with
  | completed buf => exact storeFile_fs o session fs resolvedPath buf appendMode
  | failed => exact .inl rfl
  | aborted => exact .inl rfl

theorem receiveFileFrom_fs (o : Outcomes) (session : SessionState) (fs : Storage)
    (peer : Option Endpoint) (resolvedPath : NormalPath String) (appendMode : Bool) :
    (receiveFileFrom o session fs peer resolvedPath appendMode).fs = fs ∨
      ∃ write, fs.writeFile write resolvedPath =
        some (receiveFileFrom o session fs peer resolvedPath appendMode).fs := by
  cases peer with
  | some _ =>
    rw [receiveFileFrom]
    split
    · exact .inl rfl
    · exact receiveFile_fs ..
  | none => exact receiveFile_fs ..

theorem receiveFile_fs_of_received {data : Bytes} {fs' : Storage}
    {resolvedPath : NormalPath String}
    (hreceived : o.received = .completed (TransferModeCodec.encode data session.transferMode))
    (hwritten : o.written = .complete)
    (h : fs.writeFile (FileHandler.written o.stamp data appendMode) resolvedPath = some fs') :
    (receiveFile o session fs resolvedPath appendMode).fs = fs' := by
  rw [receiveFile, hreceived]
  dsimp only [answer]
  rw [storeFile, TransferModeCodec.decode_of_encode]
  dsimp only
  cases session.transferType with
  | ASCII =>
    dsimp only
    rw [FileHandler.writeTextFile, hwritten, FileHandler.writeBinaryFile_complete h]
    rfl
  | Binary =>
    dsimp only
    rw [hwritten, FileHandler.writeBinaryFile_complete h]
    rfl

/-- What is received is written, if it is encoded as it has to be. -/
theorem receiveFileFrom_fs_of_received {data : Bytes} {fs' : Storage}
    {resolvedPath : NormalPath String} (peer : Option Endpoint) (hknock : o.knockSent = true)
    (hreceived : o.received = .completed (TransferModeCodec.encode data session.transferMode))
    (hwritten : o.written = .complete)
    (h : fs.writeFile (FileHandler.written o.stamp data appendMode) resolvedPath = some fs') :
    (receiveFileFrom o session fs peer resolvedPath appendMode).fs = fs' := by
  cases peer with
  | some _ =>
    rw [receiveFileFrom, if_neg (not_not.2 hknock)]
    exact receiveFile_fs_of_received hreceived hwritten h
  | none => exact receiveFile_fs_of_received hreceived hwritten h

/-! ## The upload -/

/-- Nothing is done if there is no data channel, or the path leaves the root directory
    by its names. -/
theorem receiveFileOverDataChannel_fs (o : Outcomes) (session : SessionState) (fs : Storage)
    (destName : String) (appendMode skipOpeningReply : Bool) :
    (receiveFileOverDataChannel o session fs destName appendMode skipOpeningReply).fs = fs ∨
      ∃ peer, openDataChannel o session = .ok peer ∧
        session.pathManager.isPathInsideRoot destName = true ∧
        (receiveFileOverDataChannel o session fs destName appendMode skipOpeningReply).fs =
          (receiveFileFrom o session
            (fs.createDirectories o.directoryPerms
              (session.pathManager.resolvePath destName).parentPath).2
            peer (session.pathManager.resolvePath destName) appendMode).fs := by
  rw [receiveFileOverDataChannel]
  split
  · exact .inl rfl
  · rename_i peer hpeer
    dsimp only
    split
    · exact .inl rfl
    · rename_i hinside
      exact .inr ⟨peer, hpeer, not_not.1 hinside, rfl⟩

theorem receiveFileOverDataChannel_of_ok {peer : Option Endpoint}
    (hpeer : openDataChannel o session = .ok peer)
    (hinside : session.pathManager.isPathInsideRoot destName = true) :
    (receiveFileOverDataChannel o session fs destName appendMode skipOpeningReply).fs =
      (receiveFileFrom o session
        (fs.createDirectories o.directoryPerms
          (session.pathManager.resolvePath destName).parentPath).2
        peer (session.pathManager.resolvePath destName) appendMode).fs := by
  rw [receiveFileOverDataChannel, hpeer]
  dsimp only
  rw [if_neg (not_not.2 hinside)]
  rfl

/-- An upload is contained if the file and the directories on the way to it are. -/
theorem changesWithin_receiveFileOverDataChannel {root : List String} (o : Outcomes)
    (appendMode skipOpeningReply : Bool)
    (h : session.ChannelReady → session.pathManager.isPathInsideRoot destName = true →
      fs.StoresInside root (session.pathManager.resolvePath destName)) :
    fs.ChangesWithin root
      (receiveFileOverDataChannel o session fs destName appendMode skipOpeningReply).fs := by
  rcases receiveFileOverDataChannel_fs o session fs destName appendMode skipOpeningReply with
    heq | ⟨peer, hpeer, hinside, heq⟩
  · rw [heq]
    exact .refl root fs
  · have hstores := h (channelReady_of_openDataChannel hpeer) hinside
    rw [heq]
    rcases receiveFileFrom_fs o session
      (fs.createDirectories o.directoryPerms
        (session.pathManager.resolvePath destName).parentPath).2
      peer (session.pathManager.resolvePath destName) appendMode with heq | ⟨write, hwrite⟩
    · rw [heq]
      exact FileSystem.changesWithin_createDirectories _ hstores.1
    · exact FileSystem.changesWithin_writeFile_createDirectories _ hstores hwrite

/-- An upload that is contained whatever is received, is so for what it creates. -/
theorem storesInside_of_receiveFileOverDataChannel {root : List String}
    (appendMode skipOpeningReply : Bool) (hready : session.ChannelReady) (hinside : session.pathManager.isPathInsideRoot destName = true)
    (h : ∀ o, fs.ChangesWithin root
      (receiveFileOverDataChannel o session fs destName appendMode skipOpeningReply).fs) :
    fs.StoresInside root (session.pathManager.resolvePath destName) := by
  have hchanges : ∀ o : Outcomes, o.udpPort ≠ none → ∃ peer,
      fs.ChangesWithin root (receiveFileFrom o session
        (fs.createDirectories o.directoryPerms
          (session.pathManager.resolvePath destName).parentPath).2
        peer (session.pathManager.resolvePath destName) appendMode).fs := by
    intro o ho
    obtain ⟨peer, hpeer⟩ := openDataChannel_of_channelReady hready ho
    have hwithin := h o
    rw [receiveFileOverDataChannel_of_ok hpeer hinside] at hwithin
    exact ⟨peer, hwithin⟩
  constructor
  · -- The directories are created even if nothing is received.
    intro d n rest l hp hrest hd hn
    obtain ⟨fs', heq, _, _, _, hnew, _⟩ :=
      FileSystem.createDirectories_of_leadsTo (0o755 : Perms) hd hn hrest hp
    obtain ⟨peer, hwithin⟩ := hchanges { received := .failed } (by simp)
    have hfs : (receiveFileFrom { received := .failed } session
        (fs.createDirectories 0o755 (session.pathManager.resolvePath destName).parentPath).2 peer
        (session.pathManager.resolvePath destName) appendMode).fs = fs' := by
      rw [heq]
      cases peer <;> rfl
    rw [hfs] at hwithin
    exact hwithin.prefix_of_node_ne (by rwa [hn])
  · by_cases hresolve : fs.resolve true (session.pathManager.resolvePath destName) = .notFound
    · rw [FileSystem.WritesInside, hresolve]
      trivial
    · -- A new time of modification makes a difference.
      refine FileSystem.writesInside_of_changesWithin fun data => ?_
      let stamp : Stamp := { time := (data.map FileData.lastWriteTime).getD 0 + 1 }
      refine ⟨FileHandler.written stamp [] appendMode, ?_, fun fs' hwrite => ?_⟩
      · rintro heq
        have htime := congrArg (fun data => (data.map FileData.lastWriteTime).getD 0) heq
        simp only [Option.map_some, Option.getD_some, FileHandler.written, stamp] at htime
        omega
      · obtain ⟨peer, hwithin⟩ := hchanges
          { received := .completed (TransferModeCodec.encode [] session.transferMode), stamp }
          (by simp)
        rw [FileSystem.createDirectories_of_resolve _ hresolve,
          receiveFileFrom_fs_of_received peer rfl rfl rfl hwrite] at hwithin
        exact hwithin

/-! ## The commands -/

theorem receiveFileFrom_renameFrom (o : Outcomes) (session : SessionState) (fs : Storage)
    (peer : Option Endpoint) (resolvedPath : NormalPath String) (appendMode : Bool)
    (renameFrom : Option String) :
    (receiveFileFrom o { session with renameFrom } fs peer resolvedPath appendMode).fs =
      (receiveFileFrom o session fs peer resolvedPath appendMode).fs := by
  have hreceive : ∀ session' session'' : SessionState,
      session'.transferMode = session''.transferMode →
      session'.transferType = session''.transferType →
      (receiveFile o session' fs resolvedPath appendMode).fs =
        (receiveFile o session'' fs resolvedPath appendMode).fs := by
    intro session' session'' hmode htype
    rw [receiveFile, receiveFile]
    cases o.received with
    | completed buf =>
      dsimp only [answer]
      rw [storeFile, storeFile, hmode, htype]
    | failed => rfl
    | aborted => rfl
  cases peer with
  | none => exact hreceive _ _ rfl rfl
  | some _ =>
    rw [receiveFileFrom, receiveFileFrom]
    cases o.knockSent with
    | true => exact hreceive _ _ rfl rfl
    | false => rfl

/-- What `RNFR` has set does not matter. -/
theorem receiveFileOverDataChannel_renameFrom (o : Outcomes) (session : SessionState)
    (fs : Storage) (destName : String) (appendMode skipOpeningReply : Bool)
    (renameFrom : Option String) :
    (receiveFileOverDataChannel o { session with renameFrom } fs destName appendMode
      skipOpeningReply).fs =
    (receiveFileOverDataChannel o session fs destName appendMode skipOpeningReply).fs := by
  rw [receiveFileOverDataChannel, receiveFileOverDataChannel]
  have hopen : openDataChannel o { session with renameFrom } = openDataChannel o session := rfl
  rw [hopen]
  cases openDataChannel o session with
  | error reply => rfl
  | ok peer =>
    by_cases hinside : session.pathManager.isPathInsideRoot destName = true
    · simp only [hinside, not_true_eq_false, if_false]
      exact receiveFileFrom_renameFrom ..
    · simp only [hinside]
      rfl

/-- The file system after a line that uploads a file. -/
theorem handleCommand_fs_of_upload {line name : String} (h : upload? session fs line = some name) :
    ∃ appendMode skipOpeningReply, ∀ o, (handleCommand o session fs line).fs =
      (receiveFileOverDataChannel o session fs name appendMode skipOpeningReply).fs := by
  have hturn : ∀ {verb : Verb}, executed session line = some verb → ∀ o, ∃ renameFrom,
      handleCommand o session fs line =
        execute o { session with renameFrom } fs (CommandParser.parse line).argument
          (some verb) := by
    intro verb hverb o
    rcases handleCommand_cases o session fs line with
      ⟨hnone, _⟩ | ⟨verb', session', hverb', hsession', heq⟩
    · rw [hnone] at hverb
      cases hverb
    · rw [hverb'] at hverb
      cases hverb
      rcases hsession' with rfl | rfl
      · exact ⟨session'.renameFrom, heq⟩
      · exact ⟨none, heq⟩
  have hrequire : ∀ (session' : SessionState) (turn : Turn),
      (CommandParser.parse line).argument ≠ "" →
      (requireArgument session' fs (CommandParser.parse line).argument
        "501 Missing filename.\r\n" turn) = turn :=
    fun _ _ hargument => if_neg hargument
  rw [upload?] at h
  split at h
  · rename_i hverb
    rw [Option.ite_none_left_eq_some, Option.some.injEq] at h
    obtain ⟨hargument, rfl⟩ := h
    refine ⟨false, false, fun o => ?_⟩
    obtain ⟨renameFrom, heq⟩ := hturn hverb o
    rw [heq, execute, handleStor, hrequire _ _ hargument, receiveFileOverDataChannel_renameFrom]
  · rename_i hverb
    rw [Option.ite_none_left_eq_some, Option.some.injEq] at h
    obtain ⟨hargument, rfl⟩ := h
    refine ⟨true, false, fun o => ?_⟩
    obtain ⟨renameFrom, heq⟩ := hturn hverb o
    rw [heq, execute, handleAppe, hrequire _ _ hargument, receiveFileOverDataChannel_renameFrom]
  · rename_i hverb
    obtain rfl := Option.some.inj h
    refine ⟨false, true, fun o => ?_⟩
    obtain ⟨renameFrom, heq⟩ := hturn hverb o
    rw [heq, execute, handleStou]
    exact receiveFileOverDataChannel_renameFrom ..
  · cases h

end

/-- Whatever is received, an upload is contained in the root directory if and only if
    there is no data channel for it, or its path leaves the root directory by its names,
    or it creates directories and writes to a file in the root directory only. -/
theorem uploads_contained_iff (s : Serving) {line name : String}
    (h : upload? s.session s.fs line = some name) :
    (∀ o, s.fs.ChangesWithin s.session.pathManager.rootDirectory (s.turn o line).fs) ↔
      (s.session.ChannelReady → s.session.pathManager.isPathInsideRoot name = true →
        s.fs.StoresInside s.session.pathManager.rootDirectory
          (s.session.pathManager.resolvePath name)) := by
  obtain ⟨appendMode, skipOpeningReply, hfs⟩ := handleCommand_fs_of_upload h
  constructor
  · intro hwithin hready hinside
    refine storesInside_of_receiveFileOverDataChannel appendMode skipOpeningReply hready hinside
      fun o => ?_
    rw [← hfs o]
    exact hwithin o
  · intro hstores o
    rw [Serving.turn, hfs o]
    exact changesWithin_receiveFileOverDataChannel o _ _ hstores

/-- A session that may upload, into a root directory with a link out of it. -/
def uploading : Serving :=
  let s := Serving.start ["srv"] linkedStorage
  { s with session := { s.session with
      loginState := .LoggedIn, dataMode := .PASSIVE, passiveSocket := some 40000 } }

theorem uploads_contained_iff_new :
    uploading.fs.ChangesWithin uploading.session.pathManager.rootDirectory
      (uploading.turn {} "STOR new").fs := by
  have hupload : upload? uploading.session uploading.fs "STOR new" = some "new" := by
    decide +kernel
  refine (uploads_contained_iff uploading hupload).2 (fun _ _ => ⟨?_, ?_⟩) {}
  · intro d n rest l hp _ hd hn
    have hnames : ["srv"] = d ++ n :: rest := hp
    cases d with
    | nil =>
      obtain ⟨rfl, rfl⟩ : "srv" = n ∧ [] = rest := by simpa using hnames
      have hl : l = [] := by
        have hroot : uploading.fs.resolve true { names := [] } = .found [] := rfl
        rw [hd.1] at hroot
        cases hroot
        rfl
      subst hl
      exact absurd hn (by decide +kernel)
    | cons m d => simp at hnames
  · have hresolve : uploading.fs.resolve true (uploading.session.pathManager.resolvePath "new") =
        .absent ["srv"] "new" := by decide +kernel
    rw [FileSystem.WritesInside, hresolve]
    show uploading.session.pathManager.rootDirectory <+: ["srv"]
    decide +kernel

/-- Below a link to a directory outside, a file is made there. -/
theorem not_uploads_contained :
    ¬∀ s line name, serving.Reachable s → upload? s.session s.fs line = some name →
      ∀ o, s.fs.ChangesWithin s.session.pathManager.rootDirectory (s.turn o line).fs := by
  intro h
  have hdir : (Serving.start ["srv"] linkedStorage).fs.IsDir
      (Serving.start ["srv"] linkedStorage).session.pathManager.rootDirectory := by
    decide +kernel
  obtain ⟨s, hs, hsession⟩ := exists_reachable_of_run hdir
    [.command "USER alice" {}, .command "PASS secret" {}, .command "PASV" {}]
    (fun s => upload? s.session s.fs "STOR out/x" = some "out/x" &&
      s.session.pathManager.rootDirectory = ["srv"] && s.fs.node ["etc", "x"] = none &&
      (s.turn {} "STOR out/x").fs.node ["etc", "x"] ≠ none) (by decide +kernel)
  simp only [Bool.and_eq_true, decide_eq_true_eq] at hsession
  obtain ⟨⟨⟨hupload, hroot⟩, hbefore⟩, hafter⟩ := hsession
  have hwithin := h s _ _ hs hupload {}
  have hprefix := hwithin.prefix_of_node_ne (l := ["etc"]) (n := "x") (by simpa [hbefore] using hafter)
  rw [hroot] at hprefix
  exact absurd hprefix (by decide)

end HybridFtp
