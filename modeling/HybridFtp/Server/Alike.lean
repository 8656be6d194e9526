import HybridFtp.Common.ObservedListing
import HybridFtp.Server.LoginGate
import HybridFtp.Server.Upload

/-!
# Turns that look alike

What a command tells and does on two file systems with the same tree at the root
directory of the session.

* `Turn.Alike`: the same for the client, and the same tree afterwards;
* `Verb.StaysInside`: what a command looks up, before it is refused, is not led out of
  the root directory;
* `alike_handleCommand`: the turns of such a command are alike.
-/

namespace HybridFtp

/-- Turns that are the same for the client, and leave the same tree at `root`. -/
structure Turn.Alike (root : List String) (turn turn' : Turn) : Prop where
  session : turn'.session = turn.session
  replies : turn'.replies = turn.replies
  data : turn'.data = turn.data
  aborted : turn'.aborted = turn.aborted
  quit : turn'.quit = turn.quit
  fs : turn.fs.SameInside root turn'.fs

section

variable {o : Outcomes} {session : SessionState} {fs fs' : Storage} {root : List String}
  {argument reply : String} {turn turn' : Turn} {resolvedPath : NormalPath String}

theorem alike_answer (h : fs.SameInside root fs') :
    (answer session fs reply).Alike root (answer session fs' reply) :=
  ⟨rfl, rfl, rfl, rfl, rfl, h⟩

theorem Turn.Alike.after (h : turn.Alike root turn') (opening : List String) :
    (turn.after opening).Alike root (turn'.after opening) :=
  { h with replies := congrArg (opening ++ ·) h.replies }

theorem alike_requireArgument {missing : String} (h : fs.SameInside root fs')
    (hturn : argument ≠ "" → turn.Alike root turn') :
    (requireArgument session fs argument missing turn).Alike root
      (requireArgument session fs' argument missing turn') := by
  rw [requireArgument, requireArgument]
  split
  · exact alike_answer h
  · rename_i hargument
    exact hturn hargument

theorem alike_refuseArgument {name : String} (h : fs.SameInside root fs')
    (hturn : turn.Alike root turn') :
    (refuseArgument session fs argument name turn).Alike root
      (refuseArgument session fs' argument name turn') := by
  rw [refuseArgument, refuseArgument]
  split
  · exact alike_answer h
  · exact hturn

/-! ## Listings -/

theorem alike_sendTextOverDataChannel (o : Outcomes) (session : SessionState)
    (h : fs.SameInside root fs') (text : String) :
    (sendTextOverDataChannel o session fs' text).1 = (sendTextOverDataChannel o session fs text).1 ∧
      (sendTextOverDataChannel o session fs text).2.Alike root
        (sendTextOverDataChannel o session fs' text).2 := by
  rw [sendTextOverDataChannel, sendTextOverDataChannel]
  split
  · exact ⟨rfl, alike_answer h⟩
  · exact ⟨rfl, rfl, rfl, rfl, rfl, rfl, h⟩
  · split
    · exact ⟨rfl, rfl, rfl, rfl, rfl, rfl, h⟩
    · exact ⟨rfl, rfl, rfl, rfl, rfl, rfl, h⟩

theorem alike_sendListing (h : fs.SameInside root fs') (unavailable opening : String)
    (listing : Option String) :
    (sendListing o session fs unavailable opening listing).Alike root
      (sendListing o session fs' unavailable opening listing) := by
  cases listing with
  | none => exact alike_answer h
  | some text =>
    obtain ⟨hsent, halike⟩ := alike_sendTextOverDataChannel o session h text
    rw [sendListing, sendListing]
    split
    · exact alike_answer h
    · split
      · exact ⟨rfl, rfl, rfl, rfl, rfl, h⟩
      · dsimp only
        rw [hsent]
        refine { halike with replies := ?_ }
        rw [halike.replies]

/-! ## Downloads -/

theorem alike_sendFile (h : fs.SameInside root fs')
    (hfile : fs'.fileAt resolvedPath = fs.fileAt resolvedPath) :
    (sendFile o session fs resolvedPath).Alike root (sendFile o session fs' resolvedPath) := by
  rw [sendFile, sendFile, FileHandler.readBinaryFile, FileHandler.readBinaryFile, hfile]
  split
  · exact alike_answer h
  · cases o.sent <;> exact ⟨rfl, rfl, rfl, rfl, rfl, h⟩

theorem alike_sendFileTo (h : fs.SameInside root fs') (peer : Option Endpoint)
    (hfile : fs'.fileAt resolvedPath = fs.fileAt resolvedPath) :
    (sendFileTo o session fs peer resolvedPath).Alike root
      (sendFileTo o session fs' peer resolvedPath) := by
  cases peer with
  | some _ => exact alike_sendFile h hfile
  | none =>
    rw [sendFileTo, sendFileTo]
    split
    · exact alike_answer h
    · exact alike_sendFile h hfile

/-! ## Uploads -/

theorem sameResult_wrote {write : Option FileData → FileData} (h : fs.SameInside root fs')
    (hwrite : FileSystem.SameOutcome root (fs.writeFile write resolvedPath)
      (fs'.writeFile write resolvedPath)) :
    PathManager.SameResult root (FileHandler.wrote fs write resolvedPath)
      (FileHandler.wrote fs' write resolvedPath) := by
  rw [FileHandler.wrote, FileHandler.wrote]
  rcases hwrite with ⟨hnone, hnone'⟩ | ⟨fs₁, fs₁', hsome, hsome', h₁⟩
  · rw [hnone, hnone']
    exact ⟨rfl, h⟩
  · rw [hsome, hsome']
    exact ⟨rfl, h₁⟩

theorem sameResult_writeBinaryFile (h : fs.SameInside root fs')
    (hwrite : ∀ write, FileSystem.SameOutcome root (fs.writeFile write resolvedPath)
      (fs'.writeFile write resolvedPath))
    (outcome : WriteOutcome) (stamp : Stamp) (data : Bytes) (appendMode : Bool) :
    PathManager.SameResult root
      (FileHandler.writeBinaryFile fs outcome stamp resolvedPath data appendMode)
      (FileHandler.writeBinaryFile fs' outcome stamp resolvedPath data appendMode) := by
  cases outcome with
  | refused => exact ⟨rfl, h⟩
  | short count =>
    rw [FileHandler.writeBinaryFile, FileHandler.writeBinaryFile]
    rcases hwrite (FileHandler.written stamp (data.take count) appendMode) with
      ⟨hnone, hnone'⟩ | ⟨fs₁, fs₁', hsome, hsome', h₁⟩
    · rw [hnone, hnone']
      exact ⟨rfl, h⟩
    · rw [hsome, hsome']
      exact ⟨rfl, h₁⟩
  | unflushed count => exact sameResult_wrote h (hwrite _)
  | complete => exact sameResult_wrote h (hwrite _)

theorem alike_receiveFile (h : fs.SameInside root fs')
    (hwrite : ∀ write, FileSystem.SameOutcome root (fs.writeFile write resolvedPath)
      (fs'.writeFile write resolvedPath)) (appendMode : Bool) :
    (receiveFile o session fs resolvedPath appendMode).Alike root
      (receiveFile o session fs' resolvedPath appendMode) := by
  rw [receiveFile, receiveFile]
  cases o.received with
  | completed buf =>
    dsimp only
    rw [storeFile_eq, storeFile_eq]
    split
    · exact alike_answer h
    · obtain ⟨hresult, hfs⟩ := sameResult_writeBinaryFile h hwrite o.written o.stamp
        (TransferModeCodec.decode buf session.transferMode session.transferType).output appendMode
      dsimp only
      rw [hresult]
      exact alike_answer hfs
  | failed => exact alike_answer h
  | aborted => exact ⟨rfl, rfl, rfl, rfl, rfl, h⟩

theorem alike_receiveFileFrom (h : fs.SameInside root fs') (peer : Option Endpoint)
    (hwrite : ∀ write, FileSystem.SameOutcome root (fs.writeFile write resolvedPath)
      (fs'.writeFile write resolvedPath)) (appendMode : Bool) :
    (receiveFileFrom o session fs peer resolvedPath appendMode).Alike root
      (receiveFileFrom o session fs' peer resolvedPath appendMode) := by
  cases peer with
  | some _ =>
    rw [receiveFileFrom, receiveFileFrom]
    split
    · exact alike_answer h
    · exact alike_receiveFile h hwrite appendMode
  | none => exact alike_receiveFile h hwrite appendMode

/-- The directories on the way, and then the file, are made at the same places. -/
theorem alike_receiveFileOverDataChannel (h : fs.SameInside root fs') {destName : String}
    (appendMode skipOpeningReply : Bool)
    (hp : session.ChannelReady → session.pathManager.isPathInsideRoot destName = true →
      fs.ConfinedTo root (session.pathManager.resolvePath destName)) :
    (receiveFileOverDataChannel o session fs destName appendMode skipOpeningReply).Alike root
      (receiveFileOverDataChannel o session fs' destName appendMode skipOpeningReply) := by
  rw [receiveFileOverDataChannel, receiveFileOverDataChannel]
  split
  · exact alike_answer h
  · rename_i peer hpeer
    dsimp only
    split
    · exact alike_answer h
    · rename_i hinside
      have hp := hp (channelReady_of_openDataChannel hpeer) (not_not.1 hinside)
      have hdirs := h.createDirectories o.directoryPerms hp.parentPath
      obtain ⟨hresolve, hplaced⟩ := h.resolve_created o.directoryPerms hp
      exact (alike_receiveFileFrom hdirs peer
        (fun write => hdirs.writeFile write hresolve hplaced) appendMode).after _

/-! ## Changes -/

theorem alike_changeStorage {missing refused done : String} {operation operation' : Bool × Storage}
    (h : fs.SameInside root fs')
    (hoperation : argument ≠ "" → PathManager.SameResult root operation operation') :
    (changeStorage session fs argument missing refused done operation).Alike root
      (changeStorage session fs' argument missing refused done operation') := by
  refine alike_requireArgument h fun hargument => ?_
  obtain ⟨hresult, hfs⟩ := hoperation hargument
  rw [hresult]
  exact alike_answer hfs

end

/-! ## The commands -/

/-- What a command looks up, before it is refused, is not led out of the root directory. -/
def Verb.StaysInside (session : SessionState) (fs : Storage) (argument : String) : Verb → Prop
  | .CWD | .RMD | .DELE | .RETR | .HASH =>
    session.pathManager.isPathInsideRoot argument = true →
      session.pathManager.Sees fs (session.pathManager.resolvePath argument)
  | .NLST | .SIZE | .MDTM | .RNFR =>
    session.pathManager.Sees fs (session.pathManager.resolvePath argument)
  | .LIST => session.pathManager.Lists fs argument
  | .STAT => argument ≠ "" → session.pathManager.Lists fs argument
  | .MKD =>
    session.pathManager.isPathInsideRoot argument = true →
      fs.ConfinedTo session.pathManager.rootDirectory (session.pathManager.resolvePath argument)
  | .STOR | .APPE =>
    session.ChannelReady → session.pathManager.isPathInsideRoot argument = true →
      fs.ConfinedTo session.pathManager.rootDirectory (session.pathManager.resolvePath argument)
  | .STOU => session.pathManager.TriesInside fs (if argument = "" then "upload" else argument)
  | .RNTO =>
    ∀ source ∈ session.renameFrom, argument ≠ "" →
      session.pathManager.RenamesInside fs source argument
  | .USER | .PASS | .QUIT | .NOOP | .PWD | .CDUP | .TYPE | .MODE | .PORT | .PASV | .ABOR | .HELP =>
    True

section

variable {o : Outcomes} {session : SessionState} {fs fs' : Storage} {argument : String}

/-- What a download or a hash reads of a file. -/
theorem fileAt_congr_of_getFileSize {pm : PathManager}
    (h : fs.SameInside pm.rootDirectory fs') (hs : pm.Sees fs (pm.resolvePath argument))
    (hsize : pm.getFileSize fs argument ≠ none) :
    fs'.fileAt (pm.resolvePath argument) = fs.fileAt (pm.resolvePath argument) ∧
      fs.resolve true (pm.resolvePath argument) ≠ .notFound ∧
        fs'.resolve true (pm.resolvePath argument) ≠ .notFound := by
  have htarget : pm.targetOf fs (pm.resolvePath argument) ≠ none := by
    intro hnone
    rw [PathManager.getFileSize, PathManager.regularFile, PathManager.canonicalTarget_eq,
      hnone] at hsize
    split at hsize
    · exact hsize rfl
    · exact hsize rfl
  obtain ⟨l, hl⟩ := Option.ne_none_iff_exists'.1 htarget
  have hfound := (PathManager.targetOf_eq_some_iff.1 hl).1
  have hp := hs htarget
  refine ⟨h.fileAt hp, ?_, ?_⟩
  · rw [hfound]
    exact fun heq => by cases heq
  · rw [h.resolve true hp, hfound]
    exact fun heq => by cases heq

variable (h : fs.SameInside session.pathManager.rootDirectory fs')
include h

theorem alike_handleRetr (hs : Verb.StaysInside session fs argument .RETR)
    (hs' : Verb.StaysInside session fs' argument .RETR) :
    (handleRetr o session fs argument).Alike session.pathManager.rootDirectory
      (handleRetr o session fs' argument) := by
  refine alike_requireArgument h fun _ => ?_
  dsimp only
  split
  · exact alike_answer h
  rename_i hinside
  have hs := hs (not_not.1 hinside)
  have hs' := hs' (not_not.1 hinside)
  rw [PathManager.getFileSize_congr h hs hs']
  split
  · exact alike_answer h
  rename_i hsize
  split
  · exact alike_answer h
  · rename_i peer _
    obtain ⟨hfile, hfound, hfound'⟩ := fileAt_congr_of_getFileSize h hs hsize
    rw [FileSystem.createDirectories_of_resolve _ hfound,
      FileSystem.createDirectories_of_resolve _ hfound']
    exact (alike_sendFileTo h peer hfile).after _

theorem alike_handleHash (hs : Verb.StaysInside session fs argument .HASH)
    (hs' : Verb.StaysInside session fs' argument .HASH) :
    (handleHash o session fs argument).Alike session.pathManager.rootDirectory
      (handleHash o session fs' argument) := by
  refine alike_requireArgument h fun _ => ?_
  split
  · exact alike_answer h
  rename_i hinside
  have hs := hs (not_not.1 hinside)
  have hs' := hs' (not_not.1 hinside)
  rw [PathManager.getFileSize_congr h hs hs']
  split
  · exact alike_answer h
  rename_i hsize
  obtain ⟨hfile, _, _⟩ := fileAt_congr_of_getFileSize h hs hsize
  rw [CryptoHash.computeSHA256FromFile, CryptoHash.computeSHA256FromFile,
    FileHandler.readBinaryFile, FileHandler.readBinaryFile, hfile]
  generalize (if o.readable = true then
    (fs.fileAt (session.pathManager.resolvePath argument)).map FileData.content else none) = data
  dsimp only
  split_ifs
  · exact alike_answer h
  · exact alike_answer h

/-- A file with a unique name is stored where the search has looked. -/
theorem alike_handleStou (hs : Verb.StaysInside session fs argument .STOU) :
    (handleStou o session fs argument).Alike session.pathManager.rootDirectory
      (handleStou o session fs' argument) := by
  rw [handleStou, handleStou, PathManager.generateUniqueFilename_congr h hs]
  exact (alike_receiveFileOverDataChannel h false true fun _ _ =>
    PathManager.confinedTo_generateUniqueFilename hs).after _

theorem alike_handleRnto (hcurrent : fs.IsDir session.pathManager.currentDirectory)
    (hs : Verb.StaysInside session fs argument .RNTO)
    (hs' : Verb.StaysInside session fs' argument .RNTO) :
    (handleRnto session fs argument).Alike session.pathManager.rootDirectory
      (handleRnto session fs' argument) := by
  refine alike_requireArgument h fun hargument => ?_
  cases hsource : session.renameFrom with
  | none => exact alike_answer h
  | some source =>
    obtain ⟨hresult, hfs⟩ := PathManager.renamePath_congr h hcurrent (hs source hsource hargument)
      (hs' source hsource hargument)
    dsimp only
    rw [hresult]
    exact alike_answer hfs

theorem alike_execute (hcurrent : fs.IsDir session.pathManager.currentDirectory) {verb : Verb}
    (hverb : verb ∈ Verb.aboutFiles) (hs : verb.StaysInside session fs argument)
    (hs' : verb.StaysInside session fs' argument) :
    (execute o session fs argument (some verb)).Alike session.pathManager.rootDirectory
      (execute o session fs' argument (some verb)) := by
  match verb with
  | .PWD =>
    refine alike_refuseArgument h ?_
    rw [PathManager.getCurrentFTPPath_congr h hcurrent]
    exact alike_answer h
  | .CWD =>
    refine alike_requireArgument h fun _ => ?_
    rw [PathManager.changeDirectory_congr h fun hinside => ⟨hs hinside, hs' hinside⟩]
    exact alike_answer h
  | .CDUP =>
    refine alike_refuseArgument h ?_
    rw [PathManager.changeToParentDirectory_congr h hcurrent]
    exact alike_answer h
  | .MKD =>
    exact alike_changeStorage h fun _ => PathManager.createDirectory_congr h o.directoryPerms hs
  | .RMD =>
    exact alike_changeStorage h fun _ => PathManager.removeDirectory_congr h fun hinside =>
      ⟨hs hinside, hs' hinside⟩
  | .DELE =>
    exact alike_changeStorage h fun _ => PathManager.deleteFile_congr h fun hinside =>
      ⟨hs hinside, hs' hinside⟩
  | .LIST =>
    rw [execute, execute, handleList, handleList, PathManager.listDirectory_congr h hs hs']
    exact alike_sendListing h ..
  | .NLST =>
    rw [execute, execute, handleNlst, handleNlst, PathManager.listNames_congr h hs hs']
    exact alike_sendListing h ..
  | .STAT =>
    rw [execute, execute, handleStat, handleStat]
    split
    · exact alike_answer h
    · rename_i hargument
      rw [PathManager.getStatus_congr h (hs hargument) (hs' hargument)]
      exact alike_answer h
  | .SIZE =>
    refine alike_requireArgument h fun _ => ?_
    rw [PathManager.getFileSize_congr h hs hs']
    exact alike_answer h
  | .MDTM =>
    refine alike_requireArgument h fun _ => ?_
    rw [PathManager.getModificationTime_congr h _ hs hs']
    exact alike_answer h
  | .RNFR =>
    refine alike_requireArgument h fun _ => ?_
    rw [PathManager.canRename_congr h hcurrent hs hs']
    split
    · exact alike_answer h
    · exact alike_answer h
  | .RNTO => exact alike_handleRnto h hcurrent hs hs'
  | .RETR => exact alike_handleRetr h hs hs'
  | .STOR =>
    exact alike_requireArgument h fun _ => alike_receiveFileOverDataChannel h false false hs
  | .STOU => exact alike_handleStou h hs
  | .APPE =>
    exact alike_requireArgument h fun _ => alike_receiveFileOverDataChannel h true false hs
  | .HASH => exact alike_handleHash h hs hs'
  | .USER | .PASS | .QUIT | .NOOP | .TYPE | .MODE | .PORT | .PASV | .ABOR | .HELP =>
    exact absurd hverb (by decide)

end

/-! ## Command lines -/

/-- What a command line looks up, before it is refused, is not led out of the root
    directory. -/
def StaysInside (session : SessionState) (fs : Storage) (line : String) : Prop :=
  ∀ verb, executed session line = some verb →
    verb.StaysInside (session.given line) fs (CommandParser.parse line).argument

section

variable {session : SessionState} {fs fs' : Storage} {line : String}

theorem given_pathManager (session : SessionState) (line : String) :
    (session.given line).pathManager = session.pathManager := by
  rcases given_eq session line with heq | heq
  · rw [heq]
  · rw [heq]

/-- What is the same elsewhere does not look at the file system. -/
theorem alike_of_elsewhere {turn turn' : Turn} {pm : PathManager}
    (h : fs.SameInside pm.rootDirectory fs') (hturn : turn = turn.elsewhere pm fs)
    (hturn' : turn' = turn.elsewhere pm fs') : turn.Alike pm.rootDirectory turn' := by
  have hsession : turn.session = (turn.elsewhere pm fs).session := congrArg Turn.session hturn
  have hfs : turn.fs = fs := congrArg Turn.fs hturn
  rw [hturn']
  refine ⟨hsession.symm, rfl, rfl, rfl, rfl, ?_⟩
  rw [hfs]
  exact h

/-- The turns of a command line that stays inside the root directory are alike. -/
theorem alike_handleCommand (h : fs.SameInside session.pathManager.rootDirectory fs')
    (hcurrent : fs.IsDir session.pathManager.currentDirectory) (o : Outcomes)
    (hs : StaysInside session fs line) (hs' : StaysInside session fs' line) :
    (handleCommand o session fs line).Alike session.pathManager.rootDirectory
      (handleCommand o session fs' line) := by
  by_cases hfiles : ∃ verb ∈ Verb.aboutFiles, executed session line = some verb
  · obtain ⟨verb, hverb, hexecuted⟩ := hfiles
    have hs := hs verb hexecuted
    have hs' := hs' verb hexecuted
    rw [handleCommand_of_executed o fs hexecuted, handleCommand_of_executed o fs' hexecuted]
    rw [← given_pathManager session line] at h hcurrent ⊢
    exact alike_execute h hcurrent hverb hs hs'
  · -- Other lines do not ask for files.
    have hclosed : ∀ verb ∈ Verb.aboutFiles, lineVerb line = some verb →
        session.loginState ≠ .LoggedIn := by
      intro verb hverb hline hlogin
      have hexecutes : ∀ verb ∈ Verb.aboutFiles,
          Verb.executed .LoggedIn (some verb) = some verb := by decide
      refine hfiles ⟨verb, hverb, ?_⟩
      rw [executed_eq, hline, hlogin]
      exact hexecutes verb hverb
    exact alike_of_elsewhere h
      (handleCommand_elsewhere o session fs fs line session.pathManager hclosed)
      (handleCommand_elsewhere o session fs fs' line session.pathManager hclosed)

end

end HybridFtp
