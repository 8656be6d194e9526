import HybridFtp.Server.Steps

/-!
# The data channel

The mode of the data channel and the passive socket, along a session.

* `Paired`: there is a passive socket in passive mode, and in no other;
* `singleUse`: in every reachable session; and a passive socket serves one transfer
  only, unless the client of a download does not show up, or an upload to a unique name
  is refused after its opening reply (`not_singleUse`).
-/

namespace HybridFtp

/-- There is a passive socket in passive mode, and in no other. -/
def SessionState.Paired (session : SessionState) : Prop :=
  session.dataMode = .PASSIVE ↔ session.passiveSocket ≠ none

/-- The session has no data channel. -/
def SessionState.Closed (session : SessionState) : Prop :=
  session.dataMode = .NONE ∧ session.passiveSocket = none

/-- An opening reply has been sent. -/
def Turn.Opened (turn : Turn) : Prop := ∃ reply ∈ turn.replies, Preliminary reply

/-- The commands with a data channel. -/
def Verb.transfers : List Verb := [.LIST, .NLST, .RETR, .STOR, .STOU, .APPE]

/-- The name that `STOU` finds for its argument. -/
def uniqueName (session : SessionState) (fs : Storage) (argument : String) : String :=
  session.pathManager.generateUniqueFilename fs (if argument = "" then "upload" else argument)

/-- A download whose client does not show up, or an upload to a unique name outside the
    root directory. -/
def Verb.LeavesOpen (o : Outcomes) (session : SessionState) (fs : Storage) (argument : String) :
    Verb → Prop
  | .RETR => knockSender o.knock = none
  | .STOU => ¬session.pathManager.isPathInsideRoot (uniqueName session fs argument) = true
  | _ => False

section

variable {o : Outcomes} {session session' : SessionState} {fs : Storage} {argument reply : String}
  {turn : Turn}

/-! ## The mode and the socket -/

theorem paired_of_step {verb? : Option Verb} (h : session.Paired)
    (hstep : SessionStep session fs argument verb? session') : session'.Paired := by
  cases hstep with
  | port _ _ => exact iff_of_false (fun hmode => by cases hmode) fun hsocket => hsocket rfl
  | pasv port => exact ⟨fun _ => Option.some_ne_none port, fun _ => rfl⟩
  | reset _ => exact iff_of_false (fun hmode => by cases hmode) fun hsocket => hsocket rfl
  | same _ | user | pass _ | type _ | mode _ | cwd | cdup | rnfr _ | rnto => exact h

theorem paired_handleCommand (h : session.Paired) (o : Outcomes) (fs : Storage) (line : String) :
    (handleCommand o session fs line).session.Paired := by
  refine paired_of_step ?_ (step_handleCommand o session fs line).1
  rcases given_eq session line with heq | heq
  · rw [heq]
    exact h
  · rw [heq]
    exact h

theorem openDataChannel_of_paired (h : session.Paired) (hmode : session.dataMode = .PASSIVE)
    (o : Outcomes) : openDataChannel o session = .ok none := by
  obtain ⟨socket, hsocket⟩ := Option.ne_none_iff_exists'.1 (h.1 hmode)
  rw [openDataChannel, hmode, hsocket]

theorem closed_reset (session : SessionState) : session.reset.Closed := ⟨rfl, rfl⟩

theorem not_closed_of_passive (hmode : session.dataMode = .PASSIVE) : ¬session.Closed := by
  rintro ⟨hnone, _⟩
  rw [hmode] at hnone
  cases hnone

/-! ## Opening replies -/

theorem Final.not_preliminary (h : Final reply) : ¬Preliminary reply := by
  obtain ⟨d, hd, hclass⟩ := h
  rw [Preliminary, hclass]
  rintro heq
  cases heq
  exact absurd hd (by decide)

theorem not_opened_answer (h : Final reply) : ¬(answer session fs reply).Opened := by
  rintro ⟨reply', hmem, hpreliminary⟩
  rw [List.mem_singleton.1 hmem] at hpreliminary
  exact h.not_preliminary hpreliminary

theorem opened_requireArgument {missing : String} (hm : Final missing)
    (h : (requireArgument session fs argument missing turn).Opened) :
    requireArgument session fs argument missing turn = turn := by
  rw [requireArgument] at h ⊢
  split_ifs at h ⊢
  · exact absurd h (not_opened_answer hm)
  · rfl

/-! ## Transfers in passive mode -/

/-- A listing closes the passive socket. -/
theorem closed_sendListing (hopen : openDataChannel o session = .ok none) {unavailable : String}
    (hu : Final unavailable) {opening : String} {listing : Option String}
    (h : (sendListing o session fs unavailable opening listing).Opened) :
    (sendListing o session fs unavailable opening listing).session.Closed := by
  cases listing with
  | none => exact absurd h (not_opened_answer hu)
  | some text =>
    rw [sendListing] at h ⊢
    split at h
    · exact absurd h (not_opened_answer (.lit rfl))
    · rename_i hmode
      rw [if_neg hmode]
      split at h
      · obtain ⟨reply, hmem, _⟩ := h
        cases hmem
      · rename_i hsent
        rw [if_neg hsent, sendTextOverDataChannel, hopen]
        dsimp only
        split_ifs
        · exact closed_reset session
        · exact closed_reset session

/-- A download closes the passive socket if its client shows up. -/
theorem closed_handleRetr_iff (hopen : openDataChannel o session = .ok none)
    (hmode : session.dataMode = .PASSIVE) (h : (handleRetr o session fs argument).Opened) :
    (handleRetr o session fs argument).session.Closed ↔ ¬knockSender o.knock = none := by
  have hmissing : Final "501 Missing filename.\r\n" := .lit rfl
  have heq := opened_requireArgument hmissing h
  rw [handleRetr, heq] at h ⊢
  dsimp only at h ⊢
  split at h
  · exact absurd h (not_opened_answer (.lit rfl))
  rename_i hinside
  rw [if_neg hinside]
  split at h
  · exact absurd h (not_opened_answer (.lit rfl))
  rename_i hsize
  rw [if_neg hsize, hopen]
  dsimp only [Turn.after]
  rw [sendFileTo]
  split
  · rename_i hknock
    rw [Option.not_isSome_iff_eq_none] at hknock
    exact iff_of_false (not_closed_of_passive hmode) (not_not.2 hknock)
  · rename_i hknock
    rw [Option.not_isSome_iff_eq_none] at hknock
    rw [(sendFile_turn ..).1]
    exact iff_of_true (closed_reset session) hknock

/-- An upload closes the passive socket if it is not refused. -/
theorem closed_receiveFileOverDataChannel_iff (hopen : openDataChannel o session = .ok none)
    (hmode : session.dataMode = .PASSIVE) (fs : Storage) (destName : String)
    (appendMode skipOpeningReply : Bool) :
    (receiveFileOverDataChannel o session fs destName appendMode
        skipOpeningReply).session.Closed ↔
      session.pathManager.isPathInsideRoot destName = true := by
  rw [receiveFileOverDataChannel, hopen]
  dsimp only
  split
  · rename_i hinside
    exact iff_of_false (not_closed_of_passive hmode) hinside
  · rename_i hinside
    rw [Turn.after, receiveFileFrom_session, if_pos rfl]
    exact iff_of_true (closed_reset session) (not_not.1 hinside)

theorem closed_of_opened_upload (hopen : openDataChannel o session = .ok none)
    (hmode : session.dataMode = .PASSIVE) {destName : String} {appendMode : Bool}
    (h : (receiveFileOverDataChannel o session fs destName appendMode false).Opened) :
    (receiveFileOverDataChannel o session fs destName appendMode false).session.Closed := by
  refine (closed_receiveFileOverDataChannel_iff hopen hmode ..).2 ?_
  by_contra hinside
  rw [receiveFileOverDataChannel, hopen] at h
  dsimp only at h
  rw [if_pos hinside] at h
  exact not_opened_answer (.lit rfl) h

/-- A transfer in passive mode that has sent an opening reply closes the passive socket,
    unless it is one of those that leave it open. -/
theorem closed_execute_iff (session : SessionState) (hopen : openDataChannel o session = .ok none)
    (hmode : session.dataMode = .PASSIVE) {verb : Verb} (hverb : verb ∈ Verb.transfers)
    (h : (execute o session fs argument (some verb)).Opened) :
    (execute o session fs argument (some verb)).session.Closed ↔
      ¬verb.LeavesOpen o session fs argument := by
  have hmissing : Final "501 Missing filename.\r\n" := .lit rfl
  simp only [Verb.transfers, List.mem_cons, List.not_mem_nil, or_false] at hverb
  rcases hverb with rfl | rfl | rfl | rfl | rfl | rfl
  · exact iff_of_true (closed_sendListing hopen (.lit rfl) h) id
  · exact iff_of_true (closed_sendListing hopen (.lit rfl) h) id
  · exact closed_handleRetr_iff hopen hmode h
  · have heq := opened_requireArgument hmissing h
    rw [execute, handleStor, heq] at h ⊢
    exact iff_of_true (closed_of_opened_upload hopen hmode h) id
  · exact (closed_receiveFileOverDataChannel_iff hopen hmode ..).trans not_not.symm
  · have heq := opened_requireArgument hmissing h
    rw [execute, handleAppe, heq] at h ⊢
    exact iff_of_true (closed_of_opened_upload hopen hmode h) id

end

/-- In every reachable session, there is a passive socket in passive mode and in no
    other; and the passive socket is closed by every transfer that has sent an opening
    reply, unless that is one of those that leave it open. -/
theorem singleUse {s : Serving} (hs : serving.Reachable s) :
    s.session.Paired ∧ ∀ line o verb, executed s.session line = some verb →
      verb ∈ Verb.transfers → s.session.dataMode = .PASSIVE → (s.turn o line).Opened →
        ((s.turn o line).session.Closed ↔
          ¬verb.LeavesOpen o s.session s.fs (CommandParser.parse line).argument) := by
  have hpaired : s.session.Paired := by
    refine hs.invariant (I := fun s => s.session.Paired) ?_ ?_
    · rintro s ⟨_, _, _, _, hsession, _⟩
      rw [hsession]
      exact iff_of_false (fun hmode => by cases hmode) fun hsocket => hsocket rfl
    · rintro s (⟨line, o⟩ | fs) s' h hstep
      · simp only [serving, Option.ite_none_left_eq_some, Option.some.injEq] at hstep
        obtain ⟨_, rfl⟩ := hstep
        exact paired_handleCommand h o s.fs line
      · simp only [serving, Option.ite_none_right_eq_some, Option.some.injEq] at hstep
        obtain ⟨_, rfl⟩ := hstep
        exact h
  refine ⟨hpaired, fun line o verb hverb htransfer hmode hopened => ?_⟩
  rcases handleCommand_cases o s.session s.fs line with
    ⟨hnone, _⟩ | ⟨verb', session', hverb', hsession', hturn⟩
  · rw [hnone] at hverb
    cases hverb
  · obtain rfl : verb' = verb := by
      rw [hverb'] at hverb
      exact Option.some.inj hverb
    rw [Serving.turn, hturn] at hopened ⊢
    -- The session is the same, but for what `RNFR` has set.
    rcases hsession' with rfl | rfl
    · exact closed_execute_iff _ (openDataChannel_of_paired hpaired hmode o) hmode htransfer hopened
    · exact closed_execute_iff { s.session with renameFrom := none }
        (openDataChannel_of_paired hpaired hmode o) hmode htransfer hopened

/-- A listing closes the passive socket. -/
theorem singleUse_list :
    ∃ s, serving.Reachable s ∧ s.session.dataMode = .PASSIVE ∧
      (s.turn {} "LIST").session.Closed := by
  obtain ⟨s, hs, hP⟩ := exists_reachable_of_run fileStorage_isDir
    [.command "USER alice" {}, .command "PASS secret" {}, .command "PASV" {}]
    (fun s => s.session.dataMode = .PASSIVE ∧ executed s.session "LIST" = some .LIST ∧
      (s.turn {} "LIST").replies.head? =
        some "150 Opening data connection for directory list.\r\n") (by decide +kernel)
  obtain ⟨hmode, hverb, hopening⟩ := of_decide_eq_true hP
  exact ⟨s, hs, hmode, ((singleUse hs).2 "LIST" {} .LIST hverb (by decide) hmode
    ⟨_, List.mem_of_mem_head? hopening, .lit rfl⟩).2 id⟩

/-- A download whose client does not show up leaves the passive socket open. -/
theorem not_singleUse :
    ¬∀ s, serving.Reachable s → ∀ line o verb, executed s.session line = some verb →
      verb ∈ Verb.transfers → s.session.dataMode = .PASSIVE → (s.turn o line).Opened →
        (s.turn o line).session.Closed := by
  intro h
  obtain ⟨s, hs, hP⟩ := exists_reachable_of_run fileStorage_isDir
    [.command "USER alice" {}, .command "PASS secret" {}, .command "PASV" {}]
    (fun s => s.session.dataMode = .PASSIVE ∧ executed s.session "RETR file" = some .RETR ∧
      (s.turn { knock := none } "RETR file").replies.head? =
        some "150 Opening data connection for file download.\r\n" ∧
      (s.turn { knock := none } "RETR file").session.dataMode = .PASSIVE) (by decide +kernel)
  obtain ⟨hmode, hverb, hopening, hafter⟩ := of_decide_eq_true hP
  exact not_closed_of_passive hafter (h s hs "RETR file" { knock := none } .RETR hverb (by decide)
    hmode ⟨_, List.mem_of_mem_head? hopening, .lit rfl⟩)

end HybridFtp
