import HybridFtp.Client.Dialogue

/-!
# The active endpoint

The mode of the data channel and the port of the client's socket, on both sides.

* `Dialogue.EndpointAgrees`: where the client uses its active socket, the server is in
  active mode, with the port of that socket;
* `Dialogue.KeepsEndpoint`: no line takes the server out of active mode, or to another
  port, behind the client's back;
* `prompting`: the machine of both for lines of any length;
* `endpointAgrees`: the endpoints agree as long as that is so, and no line is too long for
  the server; and what is refused changes none of them.
-/

namespace HybridFtp

open Elements

/-- The port of an argument that `PORT` accepts. -/
def acceptedPort (argument : String) : Option UInt16 :=
  match scanNumbers 5 argument.toList with
  | some ([h1, h2, h3, h4, p1, p2], _) =>
    if h1 > 255 ∨ h2 > 255 ∨ h3 > 255 ∨ h4 > 255 ∨ p1 > 255 ∨ p2 > 255 then none
    else some ((p1 <<< 8) ||| p2).toUInt16
  | _ => none

/-- In active mode, with a port. -/
def SessionState.ActiveAt (session : SessionState) (port : UInt16) : Prop :=
  session.dataMode = .ACTIVE ∧ session.activePort = port

/-- The data channel of a session is the same. -/
structure SessionState.SameEndpoint (session session' : SessionState) : Prop where
  dataMode : session'.dataMode = session.dataMode
  activeIP : session'.activeIP = session.activeIP
  activePort : session'.activePort = session.activePort
  passiveSocket : session'.passiveSocket = session.passiveSocket

/-! ## The server -/

section

variable {session session' : SessionState} {fs : Storage} {argument line : String} {o : Outcomes}

theorem SessionState.SameEndpoint.activeAt_iff (h : session.SameEndpoint session') {port : UInt16} :
    session'.ActiveAt port ↔ session.ActiveAt port := by
  rw [ActiveAt, ActiveAt, h.dataMode, h.activePort]

theorem acceptedPort_empty : acceptedPort "" = none := by decide +kernel

/-- `PORT` sets what it accepts, with a success, or nothing, without. -/
theorem handlePort_cases (session : SessionState) (fs : Storage) (argument : String) :
    (∃ port, acceptedPort argument = some port ∧
      (handlePort session fs argument).session.ActiveAt port ∧
        hasCode (handlePort session fs argument).firstReply "200" = true) ∨
      acceptedPort argument = none ∧ (handlePort session fs argument).session = session ∧
        hasCode (handlePort session fs argument).firstReply "200" = false := by
  rw [handlePort, requireArgument]
  split_ifs with hargument
  · rw [hargument, acceptedPort_empty]
    exact .inr ⟨rfl, rfl, hasCode_answer (by decide +kernel)⟩
  · rw [acceptedPort]
    generalize scanNumbers 5 argument.toList = scanned
    have hformat : hasCode (recvReply "501 Invalid PORT format.\r\n".toList).1 "200" = false := by
      decide +kernel
    rcases scanned with
      _ | ⟨_ | ⟨h1, _ | ⟨h2, _ | ⟨h3, _ | ⟨h4, _ | ⟨p1, _ | ⟨p2, _ | ⟨_, _⟩⟩⟩⟩⟩⟩⟩, rest⟩
    -- Six numbers are the seventh case.
    case some.cons.cons.cons.cons.cons.cons.nil =>
      dsimp only
      split_ifs
      · exact .inr ⟨rfl, rfl, hasCode_answer (by decide +kernel)⟩
      · exact .inl ⟨_, rfl, ⟨rfl, rfl⟩, hasCode_answer (by decide +kernel)⟩
    all_goals exact .inr ⟨rfl, rfl, hasCode_answer hformat⟩

/-- `PASV` changes the mode, with its own reply, if there is a socket. -/
theorem handlePasv_cases (o : Outcomes) (session : SessionState) (fs : Storage) :
    o.udpPort = none ∧ (handlePasv o session fs).session = session ∨
      o.udpPort ≠ none ∧ (handlePasv o session fs).session.dataMode = .PASSIVE ∧
        hasCode (handlePasv o session fs).firstReply "227" = true := by
  rw [handlePasv]
  cases o.udpPort with
  | none => exact .inl ⟨rfl, rfl⟩
  | some port =>
    refine .inr ⟨Option.some_ne_none _, rfl, hasCode_answer ?_⟩
    simp only [String.append_assoc]
    rw [String.toList_append]
    exact hasCode_recvReply "227" (by decide) (by decide) _

/-! ### Transfers -/

theorem openDataChannel_ne (h : session.dataMode = .ACTIVE) (o : Outcomes) :
    openDataChannel o session ≠ .ok none := by
  rw [openDataChannel, h]
  dsimp only
  intro hopen
  split at hopen
  · cases hopen
  · split at hopen <;> cases hopen

theorem sendTextOverDataChannel_of_active (h : session.dataMode = .ACTIVE) (o : Outcomes)
    (fs : Storage) (text : String) :
    (sendTextOverDataChannel o session fs text).2.session = session := by
  rw [sendTextOverDataChannel]
  split
  · rfl
  · rfl
  · rename_i hopen
    exact absurd hopen (openDataChannel_ne h o)

theorem sendListing_of_active (h : session.dataMode = .ACTIVE) (o : Outcomes) (fs : Storage)
    (unavailable opening : String) (listing : Option String) :
    (sendListing o session fs unavailable opening listing).session = session := by
  rw [sendListing.eq_def]
  cases listing with
  | none => rfl
  | some text =>
    dsimp only
    split
    · rfl
    · split
      · rfl
      · exact sendTextOverDataChannel_of_active h o fs text

theorem handleRetr_of_active (h : session.dataMode = .ACTIVE) (o : Outcomes) (fs : Storage)
    (argument : String) : (handleRetr o session fs argument).session = session := by
  rw [handleRetr, requireArgument]
  dsimp only
  split
  · rfl
  split
  · rfl
  split
  · rfl
  cases hopen : openDataChannel o session with
  | error reply => rfl
  | ok peer =>
    cases peer with
    | none => exact absurd hopen (openDataChannel_ne h o)
    | some endpoint => exact (sendFile_turn o session _ _).1

theorem receiveFileOverDataChannel_of_active (h : session.dataMode = .ACTIVE) (o : Outcomes)
    (fs : Storage) (destName : String) (appendMode skipOpeningReply : Bool) :
    (receiveFileOverDataChannel o session fs destName appendMode skipOpeningReply).session =
      session := by
  rw [receiveFileOverDataChannel]
  cases hopen : openDataChannel o session with
  | error reply => rfl
  | ok peer =>
    dsimp only
    split
    · rfl
    · rw [Turn.after, receiveFileFrom_session, if_neg]
      rintro rfl
      exact openDataChannel_ne h o hopen

/-- A transfer leaves an active data channel open. -/
theorem execute_of_active (h : session.dataMode = .ACTIVE) (o : Outcomes) (fs : Storage)
    (argument : String) {verb : Verb} (hverb : verb ∈ Verb.transfers) :
    (execute o session fs argument (some verb)).session = session := by
  simp only [Verb.transfers, List.mem_cons, List.not_mem_nil, or_false] at hverb
  rcases hverb with rfl | rfl | rfl | rfl | rfl | rfl
  · exact sendListing_of_active h ..
  · exact sendListing_of_active h ..
  · exact handleRetr_of_active h ..
  · rw [execute, handleStor, requireArgument]
    split
    · rfl
    · exact receiveFileOverDataChannel_of_active h ..
  · exact receiveFileOverDataChannel_of_active h ..
  · rw [execute, handleAppe, requireArgument]
    split
    · rfl
    · exact receiveFileOverDataChannel_of_active h ..

/-! ### Lines -/

/-- A line leaves a session in active mode, with a port. -/
structure SessionState.StaysActive (o : Outcomes) (session : SessionState) (line : String)
    (port : UInt16) : Prop where
  port : executed session line = some .PORT →
    ∀ port' ∈ acceptedPort (CommandParser.parse line).argument, port' = port
  pasv : executed session line = some .PASV → o.udpPort = none
  abor : executed session line ≠ some .ABOR

theorem staysActive_of_ne {port : UInt16} (hport : executed session line ≠ some .PORT)
    (hpasv : executed session line ≠ some .PASV) (habor : executed session line ≠ some .ABOR) :
    session.StaysActive o line port :=
  ⟨fun h => absurd h hport, fun h => absurd h hpasv, habor⟩

theorem given_sameEndpoint (session : SessionState) (line : String) :
    session.SameEndpoint (session.given line) := by
  rcases given_eq session line with h | h
  · rw [h]
    exact ⟨rfl, rfl, rfl, rfl⟩
  · rw [h]
    exact ⟨rfl, rfl, rfl, rfl⟩

/-- Other commands change no active data channel. -/
theorem execute_activeAt {port : UInt16} (h : session.ActiveAt port) (o : Outcomes) (fs : Storage)
    (argument : String) {verb : Verb} (hport : verb ≠ .PORT) (hpasv : verb ≠ .PASV)
    (habor : verb ≠ .ABOR) : (execute o session fs argument (some verb)).session.ActiveAt port := by
  by_cases htransfer : verb ∈ Verb.transfers
  · rw [execute_of_active h.1 o fs argument htransfer]
    exact h
  · have hstep := (step_execute o session fs argument (some verb)).1
    generalize (execute o session fs argument (some verb)).session = session' at hstep ⊢
    cases hstep with
    | port => exact absurd rfl hport
    | pasv => exact absurd rfl hpasv
    | reset hmem =>
      simp only [Verb.transfers, List.mem_cons, List.not_mem_nil, or_false] at hmem htransfer
      tauto
    | _ => exact h

theorem handleCommand_activeAt_iff {port : UInt16} (h : session.ActiveAt port) (o : Outcomes)
    (fs : Storage) (line : String) :
    (handleCommand o session fs line).session.ActiveAt port ↔ session.StaysActive o line port := by
  have hgiven : (session.given line).ActiveAt port :=
    (given_sameEndpoint session line).activeAt_iff.2 h
  cases hverb : executed session line with
  | none =>
    obtain ⟨_, username, loginState, heq⟩ := handleCommand_of_executed_none o fs hverb
    rw [heq]
    exact iff_of_true hgiven (staysActive_of_ne (by simp [hverb]) (by simp [hverb]) (by simp [hverb]))
  | some verb =>
    rw [handleCommand_of_executed o fs hverb]
    -- No other commands than `PORT`, `PASV` and `ABOR` touch the endpoint.
    by_cases hport : verb = .PORT
    · subst hport
      rw [execute]
      rcases handlePort_cases (session.given line) fs (CommandParser.parse line).argument with
        ⟨port', haccepted, hactive, _⟩ | ⟨haccepted, heq, _⟩
      · refine ⟨fun h => ⟨fun _ port'' hmem => ?_, by simp [hverb], by simp [hverb]⟩, fun h => ?_⟩
        · rw [haccepted] at hmem
          cases hmem
          exact hactive.2.symm.trans h.2
        · rw [← h.port hverb port' haccepted]
          exact hactive
      · rw [heq]
        refine iff_of_true hgiven ⟨fun _ port' hmem => ?_, by simp [hverb], by simp [hverb]⟩
        rw [haccepted] at hmem
        cases hmem
    by_cases hpasv : verb = .PASV
    · subst hpasv
      rw [execute]
      rcases handlePasv_cases o (session.given line) fs with ⟨hudp, heq⟩ | ⟨hudp, hmode, _⟩
      · rw [heq]
        exact iff_of_true hgiven ⟨by simp [hverb], fun _ => hudp, by simp [hverb]⟩
      · refine iff_of_false (fun hactive => ?_) fun h => hudp (h.pasv hverb)
        rw [SessionState.ActiveAt, hmode] at hactive
        cases hactive.1
    by_cases habor : verb = .ABOR
    · subst habor
      refine iff_of_false (fun hactive => ?_) fun h => h.abor hverb
      cases hactive.1
    · exact iff_of_true (execute_activeAt hgiven o fs _ hport hpasv habor)
        (staysActive_of_ne (by simp [hverb, hport]) (by simp [hverb, hpasv])
          (by simp [hverb, habor]))

/-- `PORT` does what its argument says, behind the login; the client can tell by the
    reply. -/
theorem handleCommand_port (hverb : lineVerb line = some .PORT) (o : Outcomes) (fs : Storage) :
    (session.loginState = .LoggedIn ∧
      ∃ port, acceptedPort (CommandParser.parse line).argument = some port ∧
        (handleCommand o session fs line).session.ActiveAt port ∧
        hasCode (handleCommand o session fs line).firstReply "200" = true) ∨
      ((session.loginState = .LoggedIn →
          acceptedPort (CommandParser.parse line).argument = none) ∧
        session.SameEndpoint (handleCommand o session fs line).session ∧
        hasCode (handleCommand o session fs line).firstReply "200" = false) := by
  have hlogin := given_loginState session line
  have hgiven := given_sameEndpoint session line
  rw [handleCommand_of_lineVerb o fs hverb,
    dispatch_of_ne o _ fs _ (by simp) (by simp) (by simp) (by simp), hlogin]
  split
  · rename_i hne
    exact .inr ⟨fun h => absurd h hne, hgiven, hasCode_answer (by decide +kernel)⟩
  · rename_i hloggedIn
    rw [execute]
    rcases handlePort_cases (session.given line) fs (CommandParser.parse line).argument with
      ⟨port, haccepted, hactive, hcode⟩ | ⟨haccepted, heq, hcode⟩
    · exact .inl ⟨not_not.1 hloggedIn, port, haccepted, hactive, hcode⟩
    · refine .inr ⟨fun _ => haccepted, ?_, hcode⟩
      rw [heq]
      exact hgiven

end

/-! ## The client -/

namespace ClientCLI

variable {cli cli' : ClientCLI}

/-- The client's part of the data channel is the same. -/
structure SameEndpoint (cli cli' : ClientCLI) : Prop where
  dataMode : cli'.dataMode = cli.dataMode
  activeSocket : cli'.activeSocket = cli.activeSocket
  activePort : cli'.activePort = cli.activePort

theorem SameEndpoint.active (h : cli.SameEndpoint cli') : cli'.active = cli.active := by
  rw [ClientCLI.active, ClientCLI.active, h.dataMode, h.activeSocket]

theorem SameEndpoint.trans {cli'' : ClientCLI} (h : cli.SameEndpoint cli')
    (h' : cli'.SameEndpoint cli'') : cli.SameEndpoint cli'' :=
  ⟨h'.dataMode.trans h.dataMode, h'.activeSocket.trans h.activeSocket,
    h'.activePort.trans h.activePort⟩

theorem Asks.sameEndpoint {allowed : String → Prop} {interrupted : Prop}
    (h : Asks allowed interrupted cli cli') : cli.SameEndpoint cli' :=
  ⟨h.dataMode, h.activeSocket, h.activePort⟩

theorem sameEndpoint_applyAccepted (cli : ClientCLI) (line : String) :
    cli.SameEndpoint (cli.applyAccepted line) := by
  rw [applyAccepted]
  split <;> exact ⟨rfl, rfl, rfl⟩

/-- Only an accepted `PASV` changes the endpoint. -/
theorem applyReply_endpoint (cli : ClientCLI) (line reply : String) :
    (toUpperFirstWord line = "PASV" ∧ hasCode reply "227" = true ∧
        (cli.applyReply line reply).active = false) ∨
      (toUpperFirstWord line = "PASV" → hasCode reply "227" = false) ∧
        cli.SameEndpoint (cli.applyReply line reply) := by
  rw [applyReply]
  by_cases hpasv : toUpperFirstWord line = "PASV" ∧ hasCode reply "227" = true
  · rw [if_pos hpasv]
    refine .inl ⟨hpasv.1, hpasv.2, ?_⟩
    split
    · rw [(sameEndpoint_applyAccepted _ line).active]
      rfl
    · rfl
  · rw [if_neg hpasv]
    refine .inr ⟨fun hword => Bool.eq_false_iff.2 fun hcode => hpasv ⟨hword, hcode⟩, ?_⟩
    split
    · exact sameEndpoint_applyAccepted cli line
    · exact ⟨rfl, rfl, rfl⟩

/-- The client uses the port that has been accepted. -/
theorem afterPort_active (cli : ClientCLI) (port : UInt16) {reply : String}
    (h : hasCode reply "200" = true) :
    (cli.afterPort port reply).active = true ∧ (cli.afterPort port reply).activePort = port := by
  rw [afterPort, if_neg (not_not.2 h)]
  refine ⟨?_, rfl⟩
  simp only [ClientCLI.active, true_and, decide_eq_true_eq]
  split
  · rfl
  · rename_i hnew
    simp only [isNewPort, decide_eq_true_eq, not_or] at hnew
    exact Option.isSome_iff_ne_none.2 hnew.1

end ClientCLI

/-! ## Both -/

/-- Where the client uses its active socket, the server is in active mode with its port. -/
def Dialogue.EndpointAgrees (d : Dialogue) : Prop :=
  d.cli.active = true → d.server.session.ActiveAt d.cli.activePort

/-- An `ABOR` that ends a transfer over the active socket is consumed by the transfer. -/
def Dialogue.AbortInTime (d : Dialogue) : DialogueEvent → Prop
  | .prompt line o _ =>
    d.cli.active = true → o.Interrupts
      (ClientCLI.PromptVerb.ofWord (ClientCLI.toUpperFirstWord (CommandParser.trim line))) →
      o.abortLate = false
  | .others _ => True

/-- What the server makes of a line is no surprise for the client: the port of a `PORT` is
    the same for both, and in active mode no other line changes it, but for `PASV`. -/
def Dialogue.NoSurprise (d : Dialogue) : DialogueEvent → Prop
  | .prompt line o os =>
    ∀ first ∈ readLines (CommandParser.trim line),
      (ClientCLI.toUpperFirstWord (CommandParser.trim line) = "PORT" →
        d.server.session.loginState = .LoggedIn →
          ∀ port ∈ acceptedPort (CommandParser.parse first).argument,
            ∀ port' ∈ d.cli.sentPort o (CommandParser.trim line), port = port') ∧
      (ClientCLI.toUpperFirstWord (CommandParser.trim line) ≠ "PORT" → d.cli.active = true →
        ClientCLI.toUpperFirstWord (CommandParser.trim line) = "PASV" ∨
          d.server.session.StaysActive (os.headD {}) first d.cli.activePort)
  | .others _ => True

/-- No line takes the server out of active mode, or to another port, behind the client's
    back. -/
def Dialogue.KeepsEndpoint (d : Dialogue) (e : DialogueEvent) : Prop :=
  d.AbortInTime e ∧ d.NoSurprise e

/-- A line is a `PORT`, for the client or the server, and has not got a success. -/
structure Dialogue.Refused (d d' : Dialogue) (line : String) : Prop where
  port : ClientCLI.toUpperFirstWord (CommandParser.trim line) = "PORT" ∨
    ∃ first ∈ readLines (CommandParser.trim line), lineVerb first = some .PORT
  returned : ∀ e ∈ d'.cli.exchanges.drop d.cli.exchanges.length, hasCode e.returned "200" = false

/-- The endpoints of both sides are the same. -/
structure Dialogue.SameEndpoints (d d' : Dialogue) : Prop where
  cli : d.cli.SameEndpoint d'.cli
  server : d.server.session.SameEndpoint d'.server.session

section

variable {d d' : Dialogue} {line : String} {o : LineOutcomes} {os : List Outcomes}

/-- A line of a transfer leaves a session in active mode. -/
theorem TransferLine.staysActive {session : SessionState} {port : UInt16} {o : Outcomes}
    (h : TransferLine False line) : session.StaysActive o line port := by
  refine staysActive_of_ne (fun hverb => ?_) (fun hverb => ?_) fun hverb => ?_
  · exact h.ne (by decide) (by decide) (executed_spec hverb).1
  · rcases h with h | ⟨verb, hmem, h⟩ | ⟨_, h⟩
    · rw [(executed_spec hverb).1] at h
      cases h
    · rw [(executed_spec hverb).1] at h
      cases h
      exact absurd hmem (by decide)
    · exact h.elim
  · exact h.ne (by decide) (by decide) (executed_spec hverb).1

/-- The line that the server reads of a transfer, as it is typed. -/
theorem transferLine_firstLine
    (hport : ClientCLI.PromptVerb.ofWord
      (ClientCLI.toUpperFirstWord (CommandParser.trim line)) ≠ .PORT)
    (hother : ClientCLI.PromptVerb.ofWord
      (ClientCLI.toUpperFirstWord (CommandParser.trim line)) ≠ .other) :
    TransferLine False (firstLine line) := by
  have hwords : ∀ word ∈ ClientCLI.dataWords, ClientCLI.PromptVerb.ofWord word ≠ .PORT →
      Verb.ofName? word = none ∨ ∃ verb ∈ Verb.transfers, Verb.ofName? word = some verb := by
    decide +kernel
  obtain ⟨hvalid, hname⟩ := name_of_ofWord hother
  have hverb : lineVerb (firstLine line) =
      Verb.ofName? (ClientCLI.toUpperFirstWord (CommandParser.trim line)) := by
    rw [lineVerb, if_pos hvalid, hname]
  rw [TransferLine, hverb]
  rcases hwords _ (ClientCLI.mem_dataWords hother) hport with h | h
  · exact .inl h
  · exact .inr (.inl h)

theorem endpointAgrees_transfer {server : Serving} {os' : List Outcomes} (hd : d.EndpointAgrees)
    (hasks : ClientCLI.Asks (TransferCommand (d.cli.active = false)) (o.Interrupts
      (ClientCLI.PromptVerb.ofWord (ClientCLI.toUpperFirstWord (CommandParser.trim line))))
      d.cli d'.cli)
    (hserver : d.server.respondAll os (d'.cli.exchanges.drop d.cli.exchanges.length) =
      some (server, os'))
    (hd' : d'.server = (server.handleLines (lateLines o d.cli d'.cli) os').1)
    (htime : d.AbortInTime (.prompt line o os)) : d'.EndpointAgrees := by
  intro hactive
  rw [hasks.sameEndpoint.active] at hactive
  rw [hasks.activePort]
  have hline : ∀ line, TransferLine (d.cli.active = false) line → ∀ (s : Serving) o,
      s.session.ActiveAt d.cli.activePort → (s.after o line).session.ActiveAt d.cli.activePort := by
    intro line hline s o hs
    rw [after_session, handleCommand_activeAt_iff hs o s.fs line]
    rw [hactive] at hline
    exact TransferLine.staysActive (by simpa using hline)
  refine asks_invariant (I := fun s => s.session.ActiveAt d.cli.activePort) hasks hserver hd' hline
    (fun hi hlate => ?_) (hd hactive)
  rw [htime hactive hi] at hlate
  cases hlate

/-- A `PORT` that is sent leaves both sides with one port if it means the same to both. -/
theorem endpointAgrees_port_iff {cli : ClientCLI} {port : UInt16} (hd : d.EndpointAgrees)
    (hlength : line.toList.length < LINE_SIZE) (hne : CommandParser.trim line ≠ "")
    (hword : ClientCLI.toUpperFirstWord (CommandParser.trim line) = "PORT")
    (hsends : d.cli.sentPort o (CommandParser.trim line) = some port)
    (hasks : ClientCLI.Asks (fun _ => True) False d.cli cli)
    (hcli : d'.cli = cli.afterPort port (d.server.turn (os.headD {}) (firstLine line)).firstReply)
    (hserver : d'.server = d.server.after (os.headD {}) (firstLine line)) :
    d'.EndpointAgrees ↔ d.NoSurprise (.prompt line o os) := by
  have hverb : lineVerb (firstLine line) = some .PORT :=
    lineVerb_firstLine (e := ("PORT", .PORT)) (by decide) hword
  rw [Dialogue.NoSurprise, readLines_trim hlength hne]
  simp only [List.mem_singleton, forall_eq]
  rw [Dialogue.EndpointAgrees, hserver, after_session]
  rcases handleCommand_port hverb (os.headD {}) d.server.fs with
    ⟨hlogin, port', haccepted, hactive, hcode⟩ | ⟨haccepted, hsame, hcode⟩
  · obtain ⟨hactive', hport⟩ := cli.afterPort_active port hcode
    rw [hcli, Serving.turn, hactive', hport, haccepted]
    refine ⟨fun h => ⟨fun _ _ p hp p' hp' => ?_, absurd hword⟩, fun h _ => ?_⟩
    · obtain rfl : port' = p := Option.some.inj hp
      obtain rfl : port = p' := Option.some.inj (hsends.symm.trans hp')
      exact hactive.2.symm.trans (h rfl).2
    · rw [← h.1 hword hlogin port' rfl port hsends]
      exact hactive
  · have hafter : cli.afterPort port (d.server.turn (os.headD {}) (firstLine line)).firstReply = cli := by
      rw [ClientCLI.afterPort, if_pos (by rw [Serving.turn, hcode]; decide)]
    rw [hcli, hafter, hasks.sameEndpoint.active, hasks.activePort, hsame.activeAt_iff]
    refine iff_of_true hd ⟨fun _ hlogin port' hmem => ?_, fun h => absurd hword h⟩
    rw [haccepted hlogin] at hmem
    cases hmem

theorem endpointAgrees_other_iff {cli : ClientCLI} (hd : d.EndpointAgrees)
    (hlength : line.toList.length < LINE_SIZE) (hne : CommandParser.trim line ≠ "")
    (hother : ClientCLI.PromptVerb.ofWord
      (ClientCLI.toUpperFirstWord (CommandParser.trim line)) = .other)
    (hasks : ClientCLI.Asks (fun _ => True) False d.cli cli)
    (hcli : ClientCLI.Asks (fun _ => True) False (cli.applyReply (CommandParser.trim line)
      (d.server.turn (os.headD {}) (firstLine line)).firstReply) d'.cli)
    (hserver : d'.server = d.server.after (os.headD {}) (firstLine line)) :
    d'.EndpointAgrees ↔ d.NoSurprise (.prompt line o os) := by
  have hword : ClientCLI.toUpperFirstWord (CommandParser.trim line) ≠ "PORT" := by
    intro hword
    rw [hword] at hother
    cases hother
  rw [Dialogue.NoSurprise, readLines_trim hlength hne]
  simp only [List.mem_singleton, forall_eq]
  rcases cli.applyReply_endpoint (CommandParser.trim line)
    (d.server.turn (os.headD {}) (firstLine line)).firstReply with
    ⟨hpasv, _, hinactive⟩ | ⟨hpasv, hsame⟩
  · -- The client goes back to passive mode, for which there is nothing to agree on.
    refine iff_of_true (fun hactive => ?_) ⟨fun h => absurd h hword, fun _ _ => .inl hpasv⟩
    rw [hcli.sameEndpoint.active, hinactive] at hactive
    cases hactive
  · have hsame' := (hasks.sameEndpoint.trans hsame).trans hcli.sameEndpoint
    rw [Dialogue.EndpointAgrees, hsame'.active, hsame'.activePort, hserver, after_session]
    refine ⟨fun h => ⟨fun h => absurd h hword, fun _ hactive => ?_⟩, fun h hactive => ?_⟩
    · exact .inr ((handleCommand_activeAt_iff (hd hactive) ..).1 (h hactive))
    · rw [handleCommand_activeAt_iff (hd hactive)]
      rcases h.2 hword hactive with hword' | hstays
      · -- The `PASV` has not been answered with a success.
        have hverb : lineVerb (firstLine line) = some .PASV :=
          lineVerb_firstLine (e := ("PASV", .PASV)) (by decide) hword'
        refine ⟨fun hport => ?_, fun hexecuted => ?_, fun habor => ?_⟩
        · rw [(executed_spec hport).1] at hverb
          cases hverb
        · have hcode := hpasv hword'
          rw [Serving.turn, handleCommand_of_executed _ _ hexecuted, execute] at hcode
          rcases handlePasv_cases (os.headD {}) (d.server.session.given (firstLine line))
            d.server.fs with ⟨hudp, _⟩ | ⟨_, _, hcode'⟩
          · exact hudp
          · rw [hcode] at hcode'
            cases hcode'
        · rw [(executed_spec habor).1] at hverb
          cases hverb
      · exact hstays

/-- Where the endpoints agree, a line keeps them so if and only if it is no surprise. -/
theorem endpointAgrees_step_iff {e : DialogueEvent} (hd : d.EndpointAgrees)
    (h : dialogue.step e d = some d') (htime : d.AbortInTime e) :
    d'.EndpointAgrees ↔ d.NoSurprise e := by
  match e, h, htime with
  | .others fs, h, _ =>
    simp only [dialogue, Option.ite_none_right_eq_some, Option.some.injEq] at h
    obtain ⟨_, rfl⟩ := h
    exact iff_of_true hd trivial
  | .prompt line o os, h, htime =>
    obtain ⟨hlength, hstep⟩ := dialogue_step h
    cases hstep with
    | nothing hword =>
      refine iff_of_true hd fun first hfirst => ?_
      obtain ⟨hne, _⟩ := eq_firstLine_of_mem hlength hfirst
      obtain ⟨hword, hsends⟩ := hword hne
      exact ⟨fun _ _ _ _ port' hport' => (by rw [hsends] at hport'; cases hport'),
        fun h => absurd hword h⟩
    | transfer server os' hport hother hasks hserver hd' =>
      refine iff_of_true (endpointAgrees_transfer hd hasks hserver hd' htime) fun first hfirst => ?_
      obtain ⟨_, rfl⟩ := eq_firstLine_of_mem hlength hfirst
      refine ⟨fun hword => ?_, fun _ _ => .inr (transferLine_firstLine hport hother).staysActive⟩
      rw [hword] at hport
      exact absurd rfl hport
    | port port cli hne hword hsends hasks hcli hexchanges hserver =>
      exact endpointAgrees_port_iff hd hlength hne hword hsends hasks hcli hserver
    | other cli hne hother hasks hcli hexchanges hserver =>
      exact endpointAgrees_other_iff hd hlength hne hother hasks hcli hserver

theorem Dialogue.Refused.hasCode {e : Exchange} (h : d.Refused d' line)
    (hexchanges : d'.cli.exchanges = d.cli.exchanges ++ [e]) : hasCode e.returned "200" = false := by
  have hreturned := h.returned
  rw [hexchanges, List.drop_left] at hreturned
  exact hreturned e (List.mem_singleton_self e)

/-- A `PORT` that is refused, or not sent, changes neither side. -/
theorem sameEndpoints_of_refused (h : dialogue.step (.prompt line o os) d = some d')
    (hrefused : d.Refused d' line) : d.SameEndpoints d' := by
  obtain ⟨hlength, hstep⟩ := dialogue_step h
  cases hstep with
  | nothing _ => exact ⟨⟨rfl, rfl, rfl⟩, ⟨rfl, rfl, rfl, rfl⟩⟩
  | transfer server os' hport hother hasks hserver hd' =>
    -- A transfer is no `PORT`.
    exfalso
    rcases hrefused.port with hword | ⟨first, hfirst, hverb⟩
    · rw [hword] at hport
      exact hport rfl
    · obtain ⟨_, rfl⟩ := eq_firstLine_of_mem hlength hfirst
      exact (transferLine_firstLine hport hother).ne (by decide) (by decide) hverb
  | port port cli hne hword hsends hasks hcli hexchanges hserver =>
    have hverb : lineVerb (firstLine line) = some .PORT :=
      lineVerb_firstLine (e := ("PORT", .PORT)) (by decide) hword
    have hcode := hrefused.hasCode hexchanges
    dsimp only at hcode
    constructor
    · rw [hcli, ClientCLI.afterPort, if_pos (by rw [hcode]; decide)]
      exact hasks.sameEndpoint
    · rw [hserver, after_session]
      rcases handleCommand_port hverb (os.headD {}) d.server.fs with
        ⟨_, _, _, _, hcode'⟩ | ⟨_, hsame, _⟩
      · rw [Serving.turn, hcode'] at hcode
        cases hcode
      · exact hsame
  | other cli hne hother hasks hcli hexchanges hserver =>
    have hverb : lineVerb (firstLine line) = some .PORT := by
      rcases hrefused.port with hword | ⟨first, hfirst, hverb⟩
      · rw [hword] at hother
        cases hother
      · obtain ⟨_, rfl⟩ := eq_firstLine_of_mem hlength hfirst
        exact hverb
    have hcode := hrefused.hasCode hexchanges
    dsimp only at hcode
    constructor
    · rcases cli.applyReply_endpoint (CommandParser.trim line)
        (d.server.turn (os.headD {}) (firstLine line)).firstReply with ⟨hpasv, _, _⟩ | ⟨_, hsame⟩
      · rw [lineVerb_firstLine (e := ("PASV", .PASV)) (by decide) hpasv] at hverb
        cases hverb
      · exact (hasks.sameEndpoint.trans hsame).trans hcli.sameEndpoint
    · rw [hserver, after_session]
      rcases handleCommand_port hverb (os.headD {}) d.server.fs with
        ⟨_, _, _, _, hcode'⟩ | ⟨_, hsame, _⟩
      · rw [Serving.turn, hcode'] at hcode
        cases hcode
      · exact hsame

end

/-! ## Lines of any length -/

/-- The machine of both for lines of any length: the server reads a long one in pieces, and
    handles each of them. -/
def prompting : Machine Dialogue DialogueEvent where
  init := dialogue.init
  step
    | .prompt line o os, d =>
      if d.cli.ended ∨ d.cli.aborted ∨ '\n' ∈ line.toList then none
      else
        (d.cli.promptLine o line).bind fun (_, cli) =>
          (d.server.respondAll os (cli.exchanges.drop d.cli.exchanges.length)).map
            fun (server, os) =>
              { cli, server := (server.handleLines (lateLines o d.cli cli) os).1 }
    | .others fs, d => dialogue.step (.others fs) d

/-- The server's line has room for what is typed. -/
def DialogueEvent.Fits : DialogueEvent → Prop
  | .prompt line _ _ => line.toList.length < LINE_SIZE
  | .others _ => True

theorem prompting_step_of_fits {e : DialogueEvent} (he : e.Fits) (d : Dialogue) :
    prompting.step e d = dialogue.step e d := by
  cases e with
  | prompt line o os =>
    have hlength : ¬LINE_SIZE ≤ line.toList.length := not_le.2 he
    simp only [prompting, dialogue, hlength, false_or]
  | others fs => rfl

theorem fits_of_dialogue_step {e : DialogueEvent} {d d' : Dialogue}
    (h : dialogue.step e d = some d') : e.Fits := by
  cases e with
  | prompt line o os => exact (dialogue_step h).1
  | others fs => trivial

/-- What the short lines reach is reached. -/
theorem prompting_of_dialogue {allowed : Dialogue → DialogueEvent → Prop} {d : Dialogue}
    (h : dialogue.ReachableBy allowed d) :
    prompting.ReachableBy (fun d e => e.Fits ∧ allowed d e) d := by
  obtain ⟨d₀, h₀, h⟩ := h
  refine ⟨d₀, h₀, ?_⟩
  induction h with
  | refl => exact .refl
  | tail _ hallowed hstep ih =>
    have hfits := fits_of_dialogue_step hstep
    exact ih.tail ⟨hfits, hallowed⟩ ((prompting_step_of_fits hfits _).trans hstep)

/-- The endpoints agree as long as no line is too long or a surprise, and a surprise ends
    that; and a `PORT` that is refused leaves them as they are. -/
theorem endpointAgrees (d : Dialogue) :
    (prompting.ReachableBy (fun d e => e.Fits ∧ d.KeepsEndpoint e) d → d.EndpointAgrees ∧
      ∀ e d', e.Fits → prompting.step e d = some d' → d.AbortInTime e →
        (d'.EndpointAgrees ↔ d.NoSurprise e)) ∧
      ∀ line o os d', line.toList.length < LINE_SIZE →
        prompting.step (.prompt line o os) d = some d' → d.Refused d' line → d.SameEndpoints d' := by
  refine ⟨fun h => ?_, fun line o os d' hfits hstep hrefused => ?_⟩
  · have hd : d.EndpointAgrees := by
      refine h.invariant ?_ fun d e d' hd ⟨hfits, hkeeps⟩ hstep => ?_
      · rintro d ⟨⟨serverHost, hcli⟩, _⟩ hactive
        rw [hcli] at hactive
        cases hactive
      · rw [prompting_step_of_fits hfits] at hstep
        exact (endpointAgrees_step_iff hd hstep hkeeps.1).2 hkeeps.2
    refine ⟨hd, fun e d' hfits hstep htime => ?_⟩
    rw [prompting_step_of_fits hfits] at hstep
    exact endpointAgrees_step_iff hd hstep htime
  · rw [prompting_step_of_fits (e := .prompt line o os) hfits] at hstep
    exact sameEndpoints_of_refused hstep hrefused

instance (o : Outcomes) (session : SessionState) (line : String) (port : UInt16) :
    Decidable (session.StaysActive o line port) :=
  decidable_of_iff ((executed session line = some .PORT →
      ∀ port' ∈ acceptedPort (CommandParser.parse line).argument, port' = port) ∧
    (executed session line = some .PASV → o.udpPort = none) ∧ executed session line ≠ some .ABOR)
    ⟨fun h => ⟨h.1, h.2.1, h.2.2⟩, fun h => ⟨h.port, h.pasv, h.abor⟩⟩

instance (o : LineOutcomes) (verb : ClientCLI.PromptVerb) : Decidable (o.Interrupts verb) :=
  inferInstanceAs (Decidable (_ ∧ _ ∨ _ ∧ _))

instance (d : Dialogue) (e : DialogueEvent) : Decidable (d.KeepsEndpoint e) :=
  match e with
  | .prompt line o os => inferInstanceAs (Decidable ((d.cli.active = true → o.Interrupts
        (ClientCLI.PromptVerb.ofWord (ClientCLI.toUpperFirstWord (CommandParser.trim line))) →
        o.abortLate = false) ∧
      ∀ first ∈ readLines (CommandParser.trim line),
        (ClientCLI.toUpperFirstWord (CommandParser.trim line) = "PORT" →
          d.server.session.loginState = .LoggedIn →
            ∀ port ∈ acceptedPort (CommandParser.parse first).argument,
              ∀ port' ∈ d.cli.sentPort o (CommandParser.trim line), port = port') ∧
        (ClientCLI.toUpperFirstWord (CommandParser.trim line) ≠ "PORT" → d.cli.active = true →
          ClientCLI.toUpperFirstWord (CommandParser.trim line) = "PASV" ∨
            d.server.session.StaysActive (os.headD {}) first d.cli.activePort)))
  | .others _ => inferInstanceAs (Decidable (True ∧ True))

/-- The answer to a port that is accepted. -/
def portAccepted : Answer :=
  .single (.ofLine "200 PORT command successful." (by decide +kernel)) (by decide +kernel)

theorem endpointAgrees_port :
    ∃ d : Dialogue, d.cli.active = true ∧ d.server.session.ActiveAt d.cli.activePort := by
  obtain ⟨d, hd, hactive⟩ := exists_dialogue_of_run Dialogue.KeepsEndpoint
    (login ++ [typed "port 127,0,0,1,156,64 " portAccepted]) (fun d => d.cli.active)
    (by decide +kernel)
  exact ⟨d, hactive, ((endpointAgrees d).1 (prompting_of_dialogue hd)).1 hactive⟩

/-- `ABOR` without a transfer closes the data channel of the server only. -/
theorem not_endpointAgrees : ¬∀ d, prompting.Reachable d → d.EndpointAgrees := by
  intro h
  obtain ⟨d, hd, hP⟩ := exists_dialogue_of_run (fun _ _ => True)
    (login ++ [typed "PORT 127,0,0,1,156,64" portAccepted,
      typed "ABOR" (.single (.ofLine "426 Connection closed; transfer aborted." (by decide +kernel))
        (by decide +kernel))])
    (fun d => d.cli.active = true ∧ d.server.session.dataMode = .NONE) (by decide +kernel)
  obtain ⟨hactive, hmode⟩ := of_decide_eq_true hP
  have hserver := (h d (prompting_of_dialogue hd).reachable hactive).1
  rw [hmode] at hserver
  cases hserver

end HybridFtp
