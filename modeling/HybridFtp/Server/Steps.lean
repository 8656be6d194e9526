import HybridFtp.Server.ReplyDiscipline

/-!
# Steps of a session

What a command can do to the session and to the file system, command by command.

* `SessionStep`, `StorageStep`: the changes, and which commands make them;
* `dispatch_session`, `dispatch_storage`: there are no others;
* `handleCommand_session`, `handleCommand_storage`: nor does a line make others.
-/

namespace HybridFtp

section

variable (session : SessionState) (fs : Storage) (argument : String)

/-- The changes that a command makes to the session. -/
inductive SessionStep : Option Verb → SessionState → Prop
  | same (verb? : Option Verb) : SessionStep verb? session
  | user : SessionStep (some .USER)
      { session with username := argument, loginState := .UsernameAccepted }
  | pass : session.loginState = .UsernameAccepted →
      SessionStep (some .PASS) { session with loginState := .LoggedIn }
  | type (transferType : TransferType) : SessionStep (some .TYPE) { session with transferType }
  | mode (transferMode : TransferMode) : SessionStep (some .MODE) { session with transferMode }
  | port (activeIP : String) (activePort : UInt16) : SessionStep (some .PORT)
      { session with activeIP, activePort, dataMode := .ACTIVE, passiveSocket := none }
  | pasv (port : UInt16) : SessionStep (some .PASV)
      { session with passiveSocket := some port, dataMode := .PASSIVE }
  | reset {verb : Verb} :
      verb ∈ [Verb.LIST, .NLST, .RETR, .STOR, .STOU, .APPE, .ABOR] →
      SessionStep (some verb) session.reset
  | cwd : SessionStep (some .CWD)
      { session with pathManager := (session.pathManager.changeDirectory fs argument).2 }
  | cdup : SessionStep (some .CDUP)
      { session with pathManager := (session.pathManager.changeToParentDirectory fs).2 }
  | rnfr : session.pathManager.canRename fs argument = true →
      SessionStep (some .RNFR) { session with renameFrom := some argument }
  | rnto : SessionStep (some .RNTO) { session with renameFrom := none }

/-- The changes that a command makes to the file system. -/
inductive StorageStep (o : Outcomes) : Option Verb → Storage → Prop
  | same (verb? : Option Verb) : StorageStep o verb? fs
  | mkd : StorageStep o (some .MKD)
      (session.pathManager.createDirectory fs o.directoryPerms argument).2
  | rmd : StorageStep o (some .RMD) (session.pathManager.removeDirectory fs argument).2
  | dele : StorageStep o (some .DELE) (session.pathManager.deleteFile fs argument).2
  | rnto {source : String} : session.renameFrom = some source →
      StorageStep o (some .RNTO) (session.pathManager.renamePath fs source argument).2
  | retr : session.pathManager.isPathInsideRoot argument = true →
      session.pathManager.getFileSize fs argument ≠ none →
      StorageStep o (some .RETR)
        (fs.createDirectories o.directoryPerms
          (session.pathManager.resolvePath argument).parentPath).2
  | stor : StorageStep o (some .STOR)
      (receiveFileOverDataChannel o session fs argument false false).fs
  | stou : StorageStep o (some .STOU)
      (receiveFileOverDataChannel o session fs
        (session.pathManager.generateUniqueFilename fs
          (if argument = "" then "upload" else argument)) false true).fs
  | appe : StorageStep o (some .APPE)
      (receiveFileOverDataChannel o session fs argument true false).fs

end

section

variable {session : SessionState} {fs : Storage} {argument : String}

/-! ## Transfers -/

theorem sendTextOverDataChannel_turn (o : Outcomes) (session : SessionState) (fs : Storage)
    (text : String) :
    ((sendTextOverDataChannel o session fs text).2.session = session ∨
        (sendTextOverDataChannel o session fs text).2.session = session.reset) ∧
      (sendTextOverDataChannel o session fs text).2.fs = fs := by
  rw [sendTextOverDataChannel]
  split
  · exact ⟨.inl rfl, rfl⟩
  · exact ⟨.inl rfl, rfl⟩
  · split_ifs
    · exact ⟨.inr rfl, rfl⟩
    · exact ⟨.inr rfl, rfl⟩

theorem sendListing_turn (o : Outcomes) (session : SessionState) (fs : Storage)
    (unavailable opening : String) (listing : Option String) :
    ((sendListing o session fs unavailable opening listing).session = session ∨
        (sendListing o session fs unavailable opening listing).session = session.reset) ∧
      (sendListing o session fs unavailable opening listing).fs = fs := by
  rw [sendListing.eq_def]
  cases listing with
  | none => exact ⟨.inl rfl, rfl⟩
  | some text =>
    dsimp only
    split
    · exact ⟨.inl rfl, rfl⟩
    · split
      · exact ⟨.inl rfl, rfl⟩
      · exact sendTextOverDataChannel_turn o session fs text

theorem sendFile_turn (o : Outcomes) (session : SessionState) (fs : Storage)
    (resolvedPath : NormalPath String) :
    (sendFile o session fs resolvedPath).session = session ∧
      (sendFile o session fs resolvedPath).fs = fs := by
  rw [sendFile]
  split
  · exact ⟨rfl, rfl⟩
  · cases o.sent <;> exact ⟨rfl, rfl⟩

theorem sendFileTo_turn (o : Outcomes) (session : SessionState) (fs : Storage)
    (peer : Option Endpoint) (resolvedPath : NormalPath String) :
    ((sendFileTo o session fs peer resolvedPath).session = session ∨
        (sendFileTo o session fs peer resolvedPath).session = session.reset) ∧
      (sendFileTo o session fs peer resolvedPath).fs = fs := by
  cases peer with
  | some _ =>
    obtain ⟨hsession, hfs⟩ := sendFile_turn o session fs resolvedPath
    exact ⟨.inl hsession, hfs⟩
  | none =>
    rw [sendFileTo]
    split
    · exact ⟨.inl rfl, rfl⟩
    · obtain ⟨hsession, hfs⟩ := sendFile_turn o session.reset fs resolvedPath
      exact ⟨.inr hsession, hfs⟩

theorem receiveFile_session (o : Outcomes) (session : SessionState) (fs : Storage)
    (resolvedPath : NormalPath String) (appendMode : Bool) :
    (receiveFile o session fs resolvedPath appendMode).session = session := by
  rw [receiveFile]
  cases o.received <;> rfl

theorem receiveFileFrom_session (o : Outcomes) (session : SessionState) (fs : Storage)
    (peer : Option Endpoint) (resolvedPath : NormalPath String) (appendMode : Bool) :
    (receiveFileFrom o session fs peer resolvedPath appendMode).session =
      if peer = none then session.reset else session := by
  cases peer with
  | none => exact receiveFile_session o session.reset fs resolvedPath appendMode
  | some _ =>
    rw [receiveFileFrom, if_neg (Option.some_ne_none _)]
    split
    · rfl
    · exact receiveFile_session o session fs resolvedPath appendMode

theorem receiveFileOverDataChannel_session (o : Outcomes) (session : SessionState) (fs : Storage)
    (destName : String) (appendMode skipOpeningReply : Bool) :
    (receiveFileOverDataChannel o session fs destName appendMode skipOpeningReply).session =
        session ∨
      (receiveFileOverDataChannel o session fs destName appendMode skipOpeningReply).session =
        session.reset := by
  rw [receiveFileOverDataChannel]
  split
  · exact .inl rfl
  · rename_i peer _
    dsimp only
    split
    · exact .inl rfl
    · rw [Turn.after, receiveFileFrom_session]
      split_ifs
      · exact .inr rfl
      · exact .inl rfl

/-! ## Commands -/

/-- The turn of a command makes the changes that the command makes. -/
def Turn.Step (session : SessionState) (fs : Storage) (argument : String) (o : Outcomes)
    (verb? : Option Verb) (turn : Turn) : Prop :=
  SessionStep session fs argument verb? turn.session ∧
    StorageStep session fs argument o verb? turn.fs

section

variable {o : Outcomes} {verb? : Option Verb} {verb : Verb} {turn : Turn}

theorem step_answer (reply : String) :
    (answer session fs reply).Step session fs argument o verb? :=
  ⟨.same _, .same _⟩

theorem step_requireArgument (missing : String)
    (h : argument ≠ "" → turn.Step session fs argument o verb?) :
    (requireArgument session fs argument missing turn).Step session fs argument o verb? := by
  rw [requireArgument]
  split_ifs with hargument
  · exact step_answer _
  · exact h hargument

theorem step_refuseArgument (name : String)
    (h : argument = "" → turn.Step session fs argument o verb?) :
    (refuseArgument session fs argument name turn).Step session fs argument o verb? := by
  rw [refuseArgument]
  split
  · exact step_answer _
  · rename_i hargument
    exact h (not_not.1 hargument)

theorem step_changeStorage {missing refused done : String} {operation : Bool × Storage}
    (h : StorageStep session fs argument o verb? operation.2) :
    (changeStorage session fs argument missing refused done operation).Step session fs argument o
      verb? :=
  step_requireArgument _ fun _ => ⟨.same _, h⟩

/-- A command that may close the data channel. -/
theorem step_of_reset (hverb : verb ∈ [Verb.LIST, .NLST, .RETR, .STOR, .STOU, .APPE, .ABOR])
    (hsession : turn.session = session ∨ turn.session = session.reset)
    (hfs : StorageStep session fs argument o (some verb) turn.fs) :
    turn.Step session fs argument o (some verb) := by
  refine ⟨?_, hfs⟩
  rcases hsession with heq | heq
  · rw [heq]
    exact .same _
  · rw [heq]
    exact .reset hverb

theorem step_sendListing
    (hverb : verb ∈ [Verb.LIST, .NLST, .RETR, .STOR, .STOU, .APPE, .ABOR])
    (unavailable opening : String) (listing : Option String) :
    (sendListing o session fs unavailable opening listing).Step session fs argument o
      (some verb) := by
  obtain ⟨hsession, hfs⟩ := sendListing_turn o session fs unavailable opening listing
  refine step_of_reset hverb hsession ?_
  rw [hfs]
  exact .same _

end

theorem step_handleRetr (o : Outcomes) (session : SessionState) (fs : Storage) (argument : String) :
    (handleRetr o session fs argument).Step session fs argument o (some .RETR) := by
  refine step_requireArgument _ fun _ => ?_
  split
  · exact step_answer _
  · rename_i hinside
    split
    · exact step_answer _
    · rename_i hsize
      split
      · exact step_answer _
      · obtain ⟨hsession, hfs⟩ := sendFileTo_turn o session _ _ _
        refine step_of_reset (by simp) hsession ?_
        rw [Turn.after, hfs]
        exact .retr (not_not.1 hinside) hsize

theorem step_handleRnto (o : Outcomes) (session : SessionState) (fs : Storage) (argument : String) :
    (handleRnto session fs argument).Step session fs argument o (some .RNTO) := by
  rw [handleRnto]
  dsimp only
  rw [requireArgument]
  split
  · exact ⟨.rnto, .same _⟩
  · split
    · exact ⟨.rnto, .same _⟩
    · rename_i source hsource
      exact ⟨.rnto, .rnto hsource⟩

theorem step_execute (o : Outcomes) (session : SessionState) (fs : Storage) (argument : String)
    (verb? : Option Verb) :
    (execute o session fs argument verb?).Step session fs argument o verb? := by
  -- A case for each branch of `execute`, in its order.
  match verb? with
  | some .TYPE =>
    rw [execute, handleType]
    split_ifs
    · exact ⟨.type _, .same _⟩
    · exact ⟨.type _, .same _⟩
    · exact step_answer _
  | some .MODE =>
    rw [execute, handleMode]
    split_ifs
    · exact ⟨.mode _, .same _⟩
    · exact ⟨.mode _, .same _⟩
    · exact ⟨.mode _, .same _⟩
    · exact step_answer _
  | some .PORT =>
    refine step_requireArgument _ fun _ => ?_
    split
    · split
      · exact step_answer _
      · exact ⟨.port _ _, .same _⟩
    · exact step_answer _
  | some .PASV =>
    rw [execute, handlePasv]
    split
    · exact step_answer _
    · exact ⟨.pasv _, .same _⟩
  | some .PWD => exact step_refuseArgument _ fun _ => step_answer _
  | some .RMD => exact step_changeStorage .rmd
  | some .CWD => exact step_requireArgument _ fun _ => ⟨.cwd, .same _⟩
  | some .CDUP => exact step_refuseArgument _ fun _ => ⟨.cdup, .same _⟩
  | some .MKD => exact step_changeStorage .mkd
  | some .LIST => exact step_sendListing (by simp) _ _ _
  | some .NLST => exact step_sendListing (by simp) _ _ _
  | some .STAT =>
    rw [execute, handleStat]
    split
    · exact step_answer _
    · exact step_answer _
  | some .SIZE => exact step_requireArgument _ fun _ => step_answer _
  | some .MDTM => exact step_requireArgument _ fun _ => step_answer _
  | some .HELP =>
    rw [execute, handleHelp]
    split
    · exact step_answer _
    · dsimp only
      split
      · exact step_answer _
      · exact step_answer _
  | some .DELE => exact step_changeStorage .dele
  | some .RNFR =>
    refine step_requireArgument _ fun _ => ?_
    split
    · exact step_answer _
    · rename_i hrename
      exact ⟨.rnfr (not_not.1 hrename), .same _⟩
  | some .RNTO => exact step_handleRnto ..
  | some .RETR => exact step_handleRetr ..
  | some .STOR =>
    exact step_requireArgument _ fun _ =>
      step_of_reset (by simp) (receiveFileOverDataChannel_session ..) .stor
  | some .STOU => exact step_of_reset (by simp) (receiveFileOverDataChannel_session ..) .stou
  | some .APPE =>
    exact step_requireArgument _ fun _ =>
      step_of_reset (by simp) (receiveFileOverDataChannel_session ..) .appe
  | some .HASH =>
    refine step_requireArgument _ fun _ => ?_
    split
    · exact step_answer _
    · split
      · exact step_answer _
      · dsimp only
        split
        · exact step_answer _
        · exact step_answer _
  | some .ABOR => exact step_of_reset (by simp) (.inr rfl) (.same _)
  | some .USER | some .PASS | some .QUIT | some .NOOP | none => exact step_answer _

/-- A command is one of those before the login, or executed behind it, or refused. -/
theorem step_dispatch (o : Outcomes) (session : SessionState) (fs : Storage) (argument : String)
    (verb? : Option Verb) :
    (dispatch o session fs argument verb?).Step session fs argument o verb? := by
  by_cases hquit : verb? = some .QUIT
  · subst hquit
    exact step_refuseArgument _ fun _ => ⟨.same _, .same _⟩
  by_cases hnoop : verb? = some .NOOP
  · subst hnoop
    exact step_refuseArgument _ fun _ => step_answer _
  by_cases huser : verb? = some .USER
  · subst huser
    exact step_requireArgument _ fun _ => ⟨.user, .same _⟩
  by_cases hpass : verb? = some .PASS
  · subst hpass
    refine step_requireArgument _ fun _ => ?_
    split
    · exact step_answer _
    · rename_i hlogin
      exact ⟨.pass (not_not.1 hlogin), .same _⟩
  rw [dispatch_of_ne o session fs argument hquit hnoop huser hpass]
  split
  · exact step_answer _
  · exact step_execute o session fs argument verb?

/-- A command that is not executed behind the login changes nothing but the login. -/
theorem dispatch_of_executed_none (o : Outcomes) (fs : Storage) (argument : String)
    {verb? : Option Verb} (h : Verb.executed session.loginState verb? = none) :
    (dispatch o session fs argument verb?).fs = fs ∧ ∃ username loginState,
      (dispatch o session fs argument verb?).session = { session with username, loginState } := by
  -- Four commands come before the login; of these, `USER` and `PASS` change it.
  by_cases hquit : verb? = some .QUIT
  · subst hquit
    rw [dispatch, handleQuit, refuseArgument]
    split
    · exact ⟨rfl, _, _, rfl⟩
    · exact ⟨rfl, _, _, rfl⟩
  by_cases hnoop : verb? = some .NOOP
  · subst hnoop
    rw [dispatch, handleNoop, refuseArgument]
    split
    · exact ⟨rfl, _, _, rfl⟩
    · exact ⟨rfl, _, _, rfl⟩
  by_cases huser : verb? = some .USER
  · subst huser
    rw [dispatch, handleUser, requireArgument]
    split
    · exact ⟨rfl, _, _, rfl⟩
    · exact ⟨rfl, _, _, rfl⟩
  by_cases hpass : verb? = some .PASS
  · subst hpass
    rw [dispatch, handlePass, requireArgument]
    split
    · exact ⟨rfl, _, _, rfl⟩
    · split
      · exact ⟨rfl, _, _, rfl⟩
      · exact ⟨rfl, _, _, rfl⟩
  rw [executed_of_ne hquit hnoop huser hpass] at h
  rw [dispatch_of_ne o session fs argument hquit hnoop huser hpass]
  by_cases hlogin : session.loginState = .LoggedIn
  · rw [if_pos hlogin] at h
    subst h
    rw [if_neg (not_not.2 hlogin), execute]
    exact ⟨rfl, _, _, rfl⟩
  · rw [if_pos hlogin]
    exact ⟨rfl, _, _, rfl⟩

theorem dispatch_of_executed (o : Outcomes) (fs : Storage) (argument : String)
    {verb? : Option Verb} {verb : Verb} (h : Verb.executed session.loginState verb? = some verb) :
    dispatch o session fs argument verb? = execute o session fs argument (some verb) := by
  rcases dispatch_cases o session fs argument verb? with ⟨hnone, _⟩ | ⟨verb', hverb', heq⟩
  · rw [hnone] at h
    cases h
  · rw [hverb'] at h
    cases h
    exact heq

end

/-! ## Lines -/

/-- The command of a line, if there is one. -/
def lineVerb (line : String) : Option Verb :=
  if (CommandParser.parse line).valid then Verb.ofName? (CommandParser.parse line).name else none

/-- The session that a command gets: only `RNTO` gets what `RNFR` has set. -/
def SessionState.given (session : SessionState) (line : String) : SessionState :=
  if (CommandParser.parse line).valid = true ∧ (CommandParser.parse line).name = "RNTO" then session
  else { session with renameFrom := none }

theorem handleCommand_eq (o : Outcomes) (session : SessionState) (fs : Storage) (line : String) :
    handleCommand o session fs line =
      if (CommandParser.parse line).valid = true then
        dispatch o (session.given line) fs (CommandParser.parse line).argument (lineVerb line)
      else answer (session.given line) fs "500 Invalid command.\r\n" := by
  rw [handleCommand, SessionState.given, lineVerb]
  dsimp only
  by_cases hvalid : (CommandParser.parse line).valid = true
  · rw [if_neg (not_not.2 hvalid), if_pos hvalid, if_pos hvalid]
    by_cases hname : (CommandParser.parse line).name = "RNTO"
    · rw [if_neg (not_not.2 hname), if_pos ⟨hvalid, hname⟩]
    · rw [if_pos hname, if_neg fun h => hname h.2]
  · rw [if_pos hvalid, if_neg hvalid, if_neg fun h => hvalid h.1]

theorem handleCommand_of_lineVerb {session : SessionState} {line : String} {verb : Verb}
    (o : Outcomes) (fs : Storage) (h : lineVerb line = some verb) :
    handleCommand o session fs line =
      dispatch o (session.given line) fs (CommandParser.parse line).argument (some verb) := by
  have hvalid : (CommandParser.parse line).valid = true := by
    by_contra hvalid
    rw [lineVerb, if_neg hvalid] at h
    cases h
  rw [handleCommand_eq, if_pos hvalid, h]

/-- A line makes the changes that its command makes. -/
theorem step_handleCommand (o : Outcomes) (session : SessionState) (fs : Storage) (line : String) :
    (handleCommand o session fs line).Step (session.given line) fs
      (CommandParser.parse line).argument o (lineVerb line) := by
  rw [handleCommand_eq]
  split_ifs
  · exact step_dispatch ..
  · exact step_answer _

theorem given_eq (session : SessionState) (line : String) :
    session.given line = session ∨ session.given line = { session with renameFrom := none } := by
  rw [SessionState.given]
  split_ifs
  · exact .inl rfl
  · exact .inr rfl

theorem given_loginState (session : SessionState) (line : String) :
    (session.given line).loginState = session.loginState := by
  rw [SessionState.given]
  split_ifs <;> rfl

theorem executed_eq (session : SessionState) (line : String) :
    executed session line = Verb.executed session.loginState (lineVerb line) := by
  rw [executed, lineVerb]
  by_cases hvalid : (CommandParser.parse line).valid = true
  · rw [if_neg (not_not.2 hvalid), if_pos hvalid]
  · rw [if_pos hvalid, if_neg hvalid]
    cases session.loginState <;> rfl

/-- A command behind the login is that of the line. -/
theorem executed_spec {session : SessionState} {line : String} {verb : Verb}
    (h : executed session line = some verb) :
    lineVerb line = some verb ∧ session.loginState = .LoggedIn := by
  rw [executed_eq, Verb.executed.eq_def] at h
  split at h
  · cases h
  · cases h
  · cases h
  · cases h
  · exact (Option.ite_none_right_eq_some.1 h).symm

/-- Any command but `RNTO` cancels what `RNFR` has set. -/
theorem given_of_ne (session : SessionState) {line : String} (h : lineVerb line ≠ some .RNTO) :
    session.given line = { session with renameFrom := none } := by
  rw [SessionState.given, if_neg]
  rintro ⟨hvalid, hname⟩
  rw [lineVerb, if_pos hvalid, hname] at h
  exact h rfl

/-- A line that does not get to a command behind the login changes nothing but the
    login. -/
theorem handleCommand_of_executed_none {session : SessionState} (o : Outcomes) (fs : Storage)
    {line : String} (h : executed session line = none) :
    (handleCommand o session fs line).fs = fs ∧ ∃ username loginState,
      (handleCommand o session fs line).session =
        { session.given line with username, loginState } := by
  rw [executed_eq, ← given_loginState session line] at h
  rw [handleCommand_eq]
  generalize session.given line = session' at h ⊢
  split_ifs
  · exact dispatch_of_executed_none o fs _ h
  · exact ⟨rfl, _, _, rfl⟩

/-- A line that gets to a command behind the login executes it. -/
theorem handleCommand_of_executed {session : SessionState} (o : Outcomes) (fs : Storage)
    {line : String} {verb : Verb} (h : executed session line = some verb) :
    handleCommand o session fs line =
      execute o (session.given line) fs (CommandParser.parse line).argument (some verb) := by
  rw [executed_eq, ← given_loginState session line] at h
  have hvalid : (CommandParser.parse line).valid = true := by
    by_contra hvalid
    rw [lineVerb, if_neg hvalid] at h
    cases hlogin : (session.given line).loginState <;> simp [hlogin, Verb.executed] at h
  rw [handleCommand_eq, if_pos hvalid]
  generalize session.given line = session' at h ⊢
  exact dispatch_of_executed o fs _ h

end HybridFtp
