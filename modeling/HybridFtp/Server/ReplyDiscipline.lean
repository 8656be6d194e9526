import HybridFtp.Server.Serving

/-!
# Reply discipline

How many replies a command gets, and of which kind.

* `Turn.Disciplined`: a final reply, after a preliminary one or not; two final ones
  only if an `ABOR` line has been consumed;
* `disciplined`: what commands send, except for a listing whose data channel cannot
  be opened any more after its opening reply;
* `not_disciplined`: `ABOR` without a transfer gets two final replies.
-/

namespace HybridFtp

/-- The first digit of the code of a reply. -/
def replyClass (reply : String) : Option Char :=
  match reply.toList with
  | d :: d₁ :: d₂ :: _ => if d.isDigit ∧ d₁.isDigit ∧ d₂.isDigit then some d else none
  | _ => none

/-- A 1xx reply. -/
def Preliminary (reply : String) : Prop := replyClass reply = some '1'

/-- A reply from 2xx to 5xx. -/
def Final (reply : String) : Prop := ∃ d ∈ ['2', '3', '4', '5'], replyClass reply = some d

/-- A text that starts with the code of a preliminary reply. -/
theorem Preliminary.lit {d₁ d₂ : Char} {rest : List Char}
    (h : (d₁.isDigit && d₂.isDigit) = true) :
    Preliminary (String.ofList ('1' :: d₁ :: d₂ :: rest)) := by
  rw [Bool.and_eq_true] at h
  rw [Preliminary, replyClass, String.toList_ofList]
  exact if_pos ⟨rfl, h⟩

/-- A text that starts with the code of a final reply. -/
theorem Final.lit {d d₁ d₂ : Char} {rest : List Char}
    (h : (['2', '3', '4', '5'].contains d && (d.isDigit && d₁.isDigit && d₂.isDigit)) = true) :
    Final (String.ofList (d :: d₁ :: d₂ :: rest)) := by
  simp only [Bool.and_eq_true, List.contains_iff_mem] at h
  refine ⟨d, h.1, ?_⟩
  rw [replyClass, String.toList_ofList]
  exact if_pos ⟨h.2.1.1, h.2.1.2, h.2.2⟩

/-- The text that follows does not matter. -/
theorem replyClass_append {start : String} {d : Char} (h : replyClass start = some d)
    (text : String) : replyClass (start ++ text) = some d := by
  rw [replyClass] at h ⊢
  split at h
  · rename_i hs
    simpa only [String.toList_append, hs, List.cons_append] using h
  · cases h

theorem Preliminary.append {start : String} (h : Preliminary start) (text : String) :
    Preliminary (start ++ text) :=
  replyClass_append h text

theorem Final.append {start : String} (h : Final start) (text : String) :
    Final (start ++ text) := by
  obtain ⟨d, hd, h⟩ := h
  exact ⟨d, hd, replyClass_append h text⟩

/-- What may follow an opening reply, and whether an `ABOR` line is consumed. -/
inductive Concludes : Bool → List String → Prop
  | final {reply : String} : Final reply → Concludes false [reply]
  | aborted : Concludes true
      ["426 Connection closed; transfer aborted.\r\n", "226 Abort successful.\r\n"]

/-- The replies of a command: a final one, after a preliminary one or not; or 426 and 226
    after a preliminary one, if an `ABOR` line is consumed. -/
inductive Disciplined : Bool → List String → Prop
  | final {reply : String} : Final reply → Disciplined false [reply]
  | opened {opening : String} {aborted : Bool} {replies : List String} :
      Preliminary opening → Concludes aborted replies → Disciplined aborted (opening :: replies)

/-- The replies of a turn are those after an opening reply. -/
def Turn.Concludes (turn : Turn) : Prop := HybridFtp.Concludes turn.aborted turn.replies

/-- The replies of a turn are those of a whole command. -/
def Turn.Disciplined (turn : Turn) : Prop := HybridFtp.Disciplined turn.aborted turn.replies

/-- No reply, and no `ABOR` line is consumed. -/
def Turn.Silent (turn : Turn) : Prop := turn.aborted = false ∧ turn.replies = []

/-! ## What the helpers send -/

section

variable {o : Outcomes} {session : SessionState} {fs : Storage} {argument reply : String}
  {turn : Turn}

theorem concludes_answer (h : Final reply) : (answer session fs reply).Concludes := .final h

theorem disciplined_answer (h : Final reply) : (answer session fs reply).Disciplined := .final h

theorem disciplined_after {opening : String} (ho : Preliminary opening) (h : turn.Concludes) :
    (turn.after [opening]).Disciplined := .opened ho h

theorem disciplined_requireArgument (hm : Final reply) (h : turn.Disciplined) :
    (requireArgument session fs argument reply turn).Disciplined := by
  rw [requireArgument]
  split_ifs
  · exact disciplined_answer hm
  · exact h

theorem disciplined_refuseArgument (name : String) (h : turn.Disciplined) :
    (refuseArgument session fs argument name turn).Disciplined := by
  rw [refuseArgument]
  split_ifs
  · exact disciplined_answer (.append (.append (.lit rfl) _) _)
  · exact h

theorem disciplined_changeStorage {missing refused done : String} (hm : Final missing)
    (hr : Final refused) (hd : Final done) (operation : Bool × Storage) :
    (changeStorage session fs argument missing refused done operation).Disciplined := by
  refine disciplined_requireArgument hm (disciplined_answer ?_)
  split_ifs
  · exact hd
  · exact hr

theorem disciplined_changeCurrent {refused done : String} (hr : Final refused) (hd : Final done)
    (operation : Bool × PathManager) :
    (changeCurrent session fs refused done operation).Disciplined := by
  refine disciplined_answer ?_
  split_ifs
  · exact hd
  · exact hr

theorem disciplined_tell {refused : String} {told : Option String} (hr : Final refused)
    (ht : ∀ reply ∈ told, Final reply) : (tell session fs refused told).Disciplined := by
  refine disciplined_answer ?_
  cases told with
  | none => exact hr
  | some reply => exact ht reply rfl

/-- A channel that is not opened gets a final reply. -/
theorem final_of_openDataChannel (h : openDataChannel o session = .error reply) : Final reply := by
  rw [openDataChannel] at h
  repeat' split at h
  all_goals cases h
  all_goals exact .lit rfl

/-! ## Transfers -/

theorem concludes_sendFile (o : Outcomes) (session : SessionState) (fs : Storage)
    (resolvedPath : NormalPath String) : (sendFile o session fs resolvedPath).Concludes := by
  rw [sendFile]
  split
  · exact concludes_answer (.lit rfl)
  · match o.sent with
    | .completed () | .failed => exact .final (.lit rfl)
    | .aborted => exact .aborted

theorem concludes_sendFileTo (o : Outcomes) (session : SessionState) (fs : Storage)
    (peer : Option Endpoint) (resolvedPath : NormalPath String) :
    (sendFileTo o session fs peer resolvedPath).Concludes := by
  cases peer with
  | some _ => exact concludes_sendFile ..
  | none =>
    rw [sendFileTo]
    split
    · exact concludes_answer (.lit rfl)
    · exact concludes_sendFile ..

theorem final_storeFile (o : Outcomes) (session : SessionState) (fs : Storage)
    (resolvedPath : NormalPath String) (buf : Bytes) (appendMode : Bool) :
    Final (storeFile o session fs resolvedPath buf appendMode).1 := by
  have hcomplete : Final "226 Transfer complete.\r\n" := .lit rfl
  have hwrite : Final "551 Failed to write file.\r\n" := .lit rfl
  have hencoding : Final "551 Invalid transfer mode encoding.\r\n" := .lit rfl
  rw [storeFile]
  split
  · exact hencoding
  · dsimp only
    split_ifs
    · exact hcomplete
    · exact hwrite

theorem concludes_receiveFile (o : Outcomes) (session : SessionState) (fs : Storage)
    (resolvedPath : NormalPath String) (appendMode : Bool) :
    (receiveFile o session fs resolvedPath appendMode).Concludes := by
  rw [receiveFile]
  match o.received with
  | .completed buf => exact concludes_answer (final_storeFile ..)
  | .failed => exact concludes_answer (.lit rfl)
  | .aborted => exact .aborted

theorem concludes_receiveFileFrom (o : Outcomes) (session : SessionState) (fs : Storage)
    (peer : Option Endpoint) (resolvedPath : NormalPath String) (appendMode : Bool) :
    (receiveFileFrom o session fs peer resolvedPath appendMode).Concludes := by
  cases peer with
  | some _ =>
    rw [receiveFileFrom]
    split
    · exact concludes_answer (.lit rfl)
    · exact concludes_receiveFile ..
  | none => exact concludes_receiveFile ..

/-- Without an opening reply of its own. -/
theorem concludes_receiveFileOverDataChannel (o : Outcomes) (session : SessionState) (fs : Storage)
    (destName : String) (appendMode : Bool) :
    (receiveFileOverDataChannel o session fs destName appendMode true).Concludes := by
  rw [receiveFileOverDataChannel]
  split
  · rename_i h
    exact concludes_answer (final_of_openDataChannel h)
  · dsimp only
    split
    · exact concludes_answer (.lit rfl)
    · exact concludes_receiveFileFrom ..

theorem disciplined_receiveFileOverDataChannel (o : Outcomes) (session : SessionState)
    (fs : Storage) (destName : String) (appendMode : Bool) :
    (receiveFileOverDataChannel o session fs destName appendMode false).Disciplined := by
  rw [receiveFileOverDataChannel]
  split
  · rename_i h
    exact disciplined_answer (final_of_openDataChannel h)
  · dsimp only
    split
    · exact disciplined_answer (.lit rfl)
    · exact disciplined_after (.lit rfl) (concludes_receiveFileFrom ..)

theorem disciplined_handleRetr (o : Outcomes) (session : SessionState) (fs : Storage)
    (argument : String) : (handleRetr o session fs argument).Disciplined := by
  refine disciplined_requireArgument (.lit rfl) ?_
  split
  · exact disciplined_answer (.lit rfl)
  · split
    · exact disciplined_answer (.lit rfl)
    · split
      · rename_i h
        exact disciplined_answer (final_of_openDataChannel h)
      · exact disciplined_after (.lit rfl) (concludes_sendFileTo ..)

/-- Nothing is said over the control connection, if the channel can be opened. -/
theorem sendTextOverDataChannel_silent (fs : Storage) {peer : Option Endpoint}
    (h : openDataChannel o session = .ok peer) (text : String) :
    (sendTextOverDataChannel o session fs text).2.Silent := by
  rw [sendTextOverDataChannel, h]
  cases peer with
  | some _ => exact ⟨rfl, rfl⟩
  | none =>
    dsimp only
    split
    · exact ⟨rfl, rfl⟩
    · exact ⟨rfl, rfl⟩

/-- A listing whose data channel can be opened, if it comes to that, is disciplined or
    loses its opening reply. -/
theorem disciplined_sendListing {unavailable opening : String} (hu : Final unavailable)
    (ho : Preliminary opening) (listing : Option String)
    (hopen : listing ≠ none → session.dataMode ≠ .NONE → o.replySent = true →
      ∃ peer, openDataChannel o session = .ok peer) :
    (sendListing o session fs unavailable opening listing).Disciplined ∨
      listing ≠ none ∧ o.replySent = false ∧
        (sendListing o session fs unavailable opening listing).Silent := by
  have hcomplete : Final "226 Directory transfer complete.\r\n" := .lit rfl
  have hclosed : Final "426 Connection closed; directory transfer aborted.\r\n" := .lit rfl
  cases listing with
  | none => exact .inl (disciplined_answer hu)
  | some text =>
    rw [sendListing]
    by_cases hmode : session.dataMode = .NONE
    · rw [if_pos hmode]
      exact .inl (disciplined_answer (.lit rfl))
    · rw [if_neg hmode]
      by_cases hsent : o.replySent = true
      · rw [if_neg (not_not.2 hsent)]
        obtain ⟨peer, hpeer⟩ := hopen (Option.some_ne_none _) hmode hsent
        obtain ⟨haborted, hreplies⟩ := sendTextOverDataChannel_silent fs hpeer text
        rw [Turn.Disciplined]
        dsimp only
        rw [haborted, hreplies]
        refine .inl (.opened ho (.final ?_))
        split_ifs
        · exact hcomplete
        · exact hclosed
      · rw [if_pos hsent]
        exact .inr ⟨Option.some_ne_none _, Bool.not_eq_true _ ▸ hsent, rfl, rfl⟩

/-! ## Other commands -/

theorem disciplined_handlePort (session : SessionState) (fs : Storage) (argument : String) :
    (handlePort session fs argument).Disciplined := by
  refine disciplined_requireArgument (.lit rfl) ?_
  split
  · split
    · exact disciplined_answer (.lit rfl)
    · exact disciplined_answer (.lit rfl)
  · exact disciplined_answer (.lit rfl)

theorem disciplined_handlePasv (o : Outcomes) (session : SessionState) (fs : Storage) :
    (handlePasv o session fs).Disciplined := by
  rw [handlePasv]
  split
  · exact disciplined_answer (.lit rfl)
  · refine disciplined_answer ?_
    iterate 6 refine .append ?_ _
    exact .lit rfl

theorem disciplined_handleStat (session : SessionState) (fs : Storage) (argument : String) :
    (handleStat session fs argument).Disciplined := by
  rw [handleStat]
  split
  · refine disciplined_answer ?_
    iterate 4 refine .append ?_ _
    exact .lit rfl
  · refine disciplined_tell (.lit rfl) fun reply hreply => ?_
    obtain ⟨status, _, rfl⟩ := Option.mem_map.1 hreply
    split
    · exact .append (.append (.lit rfl) _) _
    · exact .append (.append (.lit rfl) _) _

theorem disciplined_handleHash (o : Outcomes) (session : SessionState) (fs : Storage)
    (argument : String) : (handleHash o session fs argument).Disciplined := by
  refine disciplined_requireArgument (.lit rfl) ?_
  split
  · exact disciplined_answer (.lit rfl)
  · split
    · exact disciplined_answer (.lit rfl)
    · dsimp only
      split
      · exact disciplined_answer (.lit rfl)
      · exact disciplined_answer (.append (.append (.lit rfl) _) _)

theorem disciplined_handleHelp (session : SessionState) (fs : Storage) (argument : String) :
    (handleHelp session fs argument).Disciplined := by
  rw [handleHelp]
  split
  · exact disciplined_answer (.append (.append (.append (.lit rfl) _) _) _)
  · dsimp only
    split
    · exact disciplined_answer (.append (.append (.lit rfl) _) _)
    · exact disciplined_answer (.append (.append (.lit rfl) _) _)

theorem disciplined_handleRnto (session : SessionState) (fs : Storage) (argument : String) :
    (handleRnto session fs argument).Disciplined := by
  have hdone : Final "250 Rename successful.\r\n" := .lit rfl
  have hfailed : Final "550 Rename failed or access denied.\r\n" := .lit rfl
  refine disciplined_requireArgument (.lit rfl) ?_
  split
  · exact disciplined_answer (.lit rfl)
  · refine disciplined_answer ?_
    split_ifs
    · exact hdone
    · exact hfailed

/-! ## Commands -/

/-- The command behind the login that a command gets to, if there is one. -/
def Verb.executed (loginState : LoginState) : Option Verb → Option Verb
  | some .QUIT | some .NOOP | some .USER | some .PASS => none
  | verb? => if loginState = .LoggedIn then verb? else none

/-- The command behind the login that a line gets to, if there is one. -/
def executed (session : SessionState) (line : String) : Option Verb :=
  let command := CommandParser.parse line
  if ¬command.valid then none else Verb.executed session.loginState (Verb.ofName? command.name)

/-- The listing that a line asks for, if it is available. -/
def listing? (session : SessionState) (fs : Storage) (line : String) : Option String :=
  let argument := (CommandParser.parse line).argument
  match executed session line with
  | some .LIST => session.pathManager.listDirectory fs argument
  | some .NLST => session.pathManager.listNames fs argument
  | _ => none

theorem disciplined_execute (o : Outcomes) (session : SessionState) (fs : Storage)
    (argument : String) {verb? : Option Verb} (habor : verb? ≠ some .ABOR)
    (hlist : verb? ≠ some .LIST) (hnlst : verb? ≠ some .NLST) :
    (execute o session fs argument verb?).Disciplined := by
  -- A case for each branch of `execute`, in its order.
  match verb? with
  | some .TYPE =>
    rw [execute, handleType]
    split_ifs <;> exact disciplined_answer (.lit rfl)
  | some .MODE =>
    rw [execute, handleMode]
    split_ifs <;> exact disciplined_answer (.lit rfl)
  | some .PORT => exact disciplined_handlePort ..
  | some .PASV => exact disciplined_handlePasv ..
  | some .PWD => exact disciplined_refuseArgument _ (disciplined_answer (.append (.append (.lit rfl) _) _))
  | some .RMD => exact disciplined_changeStorage (.lit rfl) (.lit rfl) (.lit rfl) _
  | some .CWD =>
    exact disciplined_requireArgument (.lit rfl)
      (disciplined_changeCurrent (.lit rfl) (.lit rfl) _)
  | some .CDUP =>
    exact disciplined_refuseArgument _ (disciplined_changeCurrent (.lit rfl) (.lit rfl) _)
  | some .MKD => exact disciplined_changeStorage (.lit rfl) (.lit rfl) (.lit rfl) _
  | some .LIST => exact absurd rfl hlist
  | some .NLST => exact absurd rfl hnlst
  | some .STAT => exact disciplined_handleStat ..
  | some .SIZE =>
    refine disciplined_requireArgument (.lit rfl) (disciplined_tell (.lit rfl) ?_)
    intro reply hreply
    obtain ⟨size, _, rfl⟩ := Option.mem_map.1 hreply
    exact .append (.append (.lit rfl) _) _
  | some .MDTM =>
    refine disciplined_requireArgument (.lit rfl) (disciplined_tell (.lit rfl) ?_)
    intro reply hreply
    obtain ⟨time, _, rfl⟩ := Option.mem_map.1 hreply
    exact .append (.append (.lit rfl) _) _
  | some .HELP => exact disciplined_handleHelp ..
  | some .DELE => exact disciplined_changeStorage (.lit rfl) (.lit rfl) (.lit rfl) _
  | some .RNFR =>
    refine disciplined_requireArgument (.lit rfl) ?_
    split
    · exact disciplined_answer (.lit rfl)
    · exact disciplined_answer (.lit rfl)
  | some .RNTO => exact disciplined_handleRnto ..
  | some .RETR => exact disciplined_handleRetr ..
  | some .STOR =>
    exact disciplined_requireArgument (.lit rfl) (disciplined_receiveFileOverDataChannel ..)
  | some .STOU =>
    exact disciplined_after (.append (.append (.lit rfl) _) _)
      (concludes_receiveFileOverDataChannel ..)
  | some .APPE =>
    exact disciplined_requireArgument (.lit rfl) (disciplined_receiveFileOverDataChannel ..)
  | some .HASH => exact disciplined_handleHash ..
  | some .ABOR => exact absurd rfl habor
  | some .USER | some .PASS | some .QUIT | some .NOOP | none => exact disciplined_answer (.lit rfl)

theorem executed_of_ne {loginState : LoginState} {verb? : Option Verb}
    (hquit : verb? ≠ some .QUIT) (hnoop : verb? ≠ some .NOOP) (huser : verb? ≠ some .USER)
    (hpass : verb? ≠ some .PASS) :
    Verb.executed loginState verb? = if loginState = .LoggedIn then verb? else none := by
  rw [Verb.executed.eq_def]
  split
  · exact absurd rfl hquit
  · exact absurd rfl hnoop
  · exact absurd rfl huser
  · exact absurd rfl hpass
  · rfl

theorem dispatch_of_ne (o : Outcomes) (session : SessionState) (fs : Storage) (argument : String)
    {verb? : Option Verb} (hquit : verb? ≠ some .QUIT) (hnoop : verb? ≠ some .NOOP)
    (huser : verb? ≠ some .USER) (hpass : verb? ≠ some .PASS) :
    dispatch o session fs argument verb? =
      if session.loginState ≠ .LoggedIn then answer session fs "530 Not logged in.\r\n"
      else execute o session fs argument verb? := by
  rw [dispatch.eq_def]
  split
  · exact absurd rfl hquit
  · exact absurd rfl hnoop
  · exact absurd rfl huser
  · exact absurd rfl hpass
  · rfl

/-- A command is answered before the login is needed, or executed behind it. -/
theorem dispatch_cases (o : Outcomes) (session : SessionState) (fs : Storage) (argument : String)
    (verb? : Option Verb) :
    Verb.executed session.loginState verb? = none ∧
        (dispatch o session fs argument verb?).Disciplined ∨
      ∃ verb, Verb.executed session.loginState verb? = some verb ∧
        dispatch o session fs argument verb? = execute o session fs argument (some verb) := by
  by_cases hquit : verb? = some .QUIT
  · subst hquit
    exact .inl ⟨rfl, disciplined_refuseArgument _ (.final (.lit rfl))⟩
  by_cases hnoop : verb? = some .NOOP
  · subst hnoop
    exact .inl ⟨rfl, disciplined_refuseArgument _ (disciplined_answer (.lit rfl))⟩
  by_cases huser : verb? = some .USER
  · subst huser
    exact .inl ⟨rfl, disciplined_requireArgument (.lit rfl) (disciplined_answer (.lit rfl))⟩
  by_cases hpass : verb? = some .PASS
  · subst hpass
    refine .inl ⟨rfl, disciplined_requireArgument (.lit rfl) ?_⟩
    split
    · exact disciplined_answer (.lit rfl)
    · exact disciplined_answer (.lit rfl)
  rw [executed_of_ne hquit hnoop huser hpass,
    dispatch_of_ne o session fs argument hquit hnoop huser hpass]
  by_cases hlogin : session.loginState = .LoggedIn
  · rw [if_pos hlogin, if_neg (not_not.2 hlogin)]
    cases verb? with
    | none => exact .inl ⟨rfl, disciplined_answer (.lit rfl)⟩
    | some verb => exact .inr ⟨verb, rfl, rfl⟩
  · rw [if_neg hlogin, if_pos hlogin]
    exact .inl ⟨rfl, disciplined_answer (.lit rfl)⟩

/-- A line is answered before it gets to a command behind the login, or executes that
    command. -/
theorem handleCommand_cases (o : Outcomes) (session : SessionState) (fs : Storage) (line : String) :
    executed session line = none ∧ (handleCommand o session fs line).Disciplined ∨
      ∃ verb session', executed session line = some verb ∧
        (session' = session ∨ session' = { session with renameFrom := none }) ∧
        handleCommand o session fs line =
          execute o session' fs (CommandParser.parse line).argument (some verb) := by
  rw [handleCommand, executed]
  dsimp only
  by_cases hvalid : (CommandParser.parse line).valid = true
  · rw [if_neg (not_not.2 hvalid), if_neg (not_not.2 hvalid)]
    by_cases hname : (CommandParser.parse line).name ≠ "RNTO"
    · rw [if_pos hname]
      rcases dispatch_cases o { session with renameFrom := none } fs
        (CommandParser.parse line).argument (Verb.ofName? (CommandParser.parse line).name) with
        h | ⟨verb, hverb, h⟩
      · exact .inl h
      · exact .inr ⟨verb, _, hverb, .inr rfl, h⟩
    · rw [if_neg hname]
      rcases dispatch_cases o session fs (CommandParser.parse line).argument
        (Verb.ofName? (CommandParser.parse line).name) with h | ⟨verb, hverb, h⟩
      · exact .inl h
      · exact .inr ⟨verb, _, hverb, .inl rfl, h⟩
  · rw [if_pos hvalid, if_pos hvalid]
    exact .inl ⟨rfl, disciplined_answer (.lit rfl)⟩

/-- `ABOR` without a transfer to abort. -/
theorem replies_of_executed_abor (o : Outcomes) (fs : Storage) {line : String}
    (h : executed session line = some .ABOR) :
    (handleCommand o session fs line).aborted = false ∧
      (handleCommand o session fs line).replies =
        ["426 Connection closed; transfer aborted.\r\n", "226 Abort successful.\r\n"] := by
  rcases handleCommand_cases o session fs line with
    ⟨hnone, _⟩ | ⟨verb, session', hverb, _, hturn⟩
  · rw [hnone] at h
    cases h
  · rw [hverb] at h
    cases h
    rw [hturn]
    exact ⟨rfl, rfl⟩

/-- Every command sends a final reply, after a preliminary one or not, or 426 and 226
    after a preliminary one if an `ABOR` line is consumed: but for `ABOR` itself, and
    listings that lose the opening reply, or whose data channel is not opened after it. -/
theorem disciplined (o : Outcomes) (session : SessionState) (fs : Storage) (line : String)
    (hopen : listing? session fs line ≠ none → session.dataMode ≠ .NONE → o.replySent = true →
      ∃ peer, openDataChannel o session = .ok peer) :
    (executed session line = some .ABOR →
      (handleCommand o session fs line).aborted = false ∧
        (handleCommand o session fs line).replies =
          ["426 Connection closed; transfer aborted.\r\n", "226 Abort successful.\r\n"]) ∧
    (executed session line ≠ some .ABOR →
      (handleCommand o session fs line).Disciplined ∨
        listing? session fs line ≠ none ∧ o.replySent = false ∧
          (handleCommand o session fs line).Silent) := by
  refine ⟨replies_of_executed_abor o fs, fun habor => ?_⟩
  rcases handleCommand_cases o session fs line with
    ⟨_, h⟩ | ⟨verb, session', hverb, hsession', h⟩
  · exact .inl h
  · rw [listing?, hverb] at hopen ⊢
    rw [hverb] at habor
    rw [h]
    by_cases hlist : verb = .LIST
    · subst hlist
      rw [execute]
      -- The listing does not depend on what `RNFR` has set.
      rcases hsession' with rfl | rfl
      · exact disciplined_sendListing (.lit rfl) (.lit rfl) _ hopen
      · exact disciplined_sendListing (.lit rfl) (.lit rfl) _ hopen
    · by_cases hnlst : verb = .NLST
      · subst hnlst
        rw [execute]
        rcases hsession' with rfl | rfl
        · exact disciplined_sendListing (.lit rfl) (.lit rfl) _ hopen
        · exact disciplined_sendListing (.lit rfl) (.lit rfl) _ hopen
      · exact .inl (disciplined_execute o session' fs _ habor
          (fun h => hlist (Option.some.inj h)) (fun h => hnlst (Option.some.inj h)))

end

/-- An empty root directory. -/
def emptyStorage : Storage where
  attributes := 0o755
  entries := [("srv", .dir 0o755 [])]

/-- A listing in passive mode. -/
theorem disciplined_list :
    let session : SessionState :=
      { (Serving.start ["srv"] emptyStorage).session with
        loginState := .LoggedIn, dataMode := .PASSIVE, passiveSocket := some 40000 }
    executed session "LIST" ≠ some .ABOR →
      (handleCommand {} session emptyStorage "LIST").Disciplined ∨
        listing? session emptyStorage "LIST" ≠ none ∧ true = false ∧
          (handleCommand {} session emptyStorage "LIST").Silent :=
  (disciplined {} _ _ _ fun _ _ _ => ⟨none, rfl⟩).2

/-- An `ABOR` without a transfer to abort gets two final replies. -/
theorem not_disciplined :
    ¬∀ s, serving.Reachable s → ¬s.ended → ∀ line o, (s.turn o line).Disciplined := by
  intro h
  have hdir : (Serving.start ["srv"] emptyStorage).fs.IsDir
      (Serving.start ["srv"] emptyStorage).session.pathManager.rootDirectory := by
    decide +kernel
  obtain ⟨s, hs, hsession⟩ := exists_reachable_of_run hdir
    [.command "USER alice" {}, .command "PASS secret" {}]
    (fun s => !s.ended && s.session.loginState = .LoggedIn) (by decide +kernel)
  simp only [Bool.and_eq_true, Bool.not_eq_true', decide_eq_true_eq] at hsession
  have hended : ¬s.ended = true := by rw [hsession.1]; exact Bool.false_ne_true
  have hparse : CommandParser.parse "ABOR" = ⟨"ABOR", "", true⟩ := by decide +kernel
  have habor : executed s.session "ABOR" = some .ABOR := by
    rw [executed, hparse, hsession.2]
    rfl
  obtain ⟨haborted, hreplies⟩ := replies_of_executed_abor {} s.fs habor
  have hturn := h s hs hended "ABOR" {}
  rw [Turn.Disciplined, Serving.turn, haborted, hreplies] at hturn
  -- The first of the two replies would have to be a preliminary one.
  cases hturn with
  | opened hopening _ => exact absurd hopening (by rw [Preliminary]; decide +kernel)

end HybridFtp
