import HybridFtp.Client.Representation
import HybridFtp.Rdt.ReliableTransfer
import HybridFtp.Server.Payload

/-!
# The whole system

A client at its prompt with the files on its computer, the session that serves it, and a
network that carries the data of the transfers.

* `ClientCLI.requested`: the data that `requestData` gets to use;
* `ClientCLI.promptFiles`: what a line at the prompt writes to the files of the client;
* `Dialogue.transfer?`: the command of a transfer, as the server handles it;
* `deployment`: the machine of the system, and `Deployment.Faithful`: what a passive
  transfer receives was conveyed, and what is sent was read.
-/

namespace HybridFtp

/-- The files of the client's computer, by the names that the client is given. -/
abbrev LocalFiles := String → Option Bytes

namespace ClientCLI

section

variable (cli : ClientCLI) (o : LineOutcomes)

/-- The opening reply and the data that `requestData` uses, and the client then; `none` if
    it does not get so far. -/
def requested (command : String) (cannotParse : String → String) :
    Option (String × Bytes × ClientCLI) :=
  match cli.dataEndpoint o cannotParse with
  | none | some (.error _, _) => none
  | some (.ok _, cli) =>
    match (if cli.active then none else o.udpError) with
    | some _ => none
    | none =>
      let (openingReply, cli) := cli.sendCommand command o.answer
      if openingReply = "" ∨ ¬hasCode openingReply "150" then none
      else
        match o.received with
        | .completed buffer =>
          let decoded := TransferModeCodec.decode buffer cli.transferMode cli.transferType
          match decoded.error with
          | some _ => none
          | none => some (openingReply, decoded.output, cli)
        | .failed | .aborted => none

/-- What `handleRetr` does to the local files: the disk has `room` for so many bytes, and
    nobody looks at whether the others have been written. -/
def retrFiles (remoteFile localFile : String) (room : Nat) (files : LocalFiles) : LocalFiles :=
  match cli.requested o ("RETR " ++ remoteFile) ("Error: Cannot parse PASV reply: " ++ ·) with
  | none => files
  | some (_, buffer, _) =>
    if o.created then Function.update files localFile (some (buffer.take room)) else files

/-- What a line at the prompt does to the local files. -/
def promptFiles (line : String) (room : Nat) (files : LocalFiles) : LocalFiles :=
  let line := CommandParser.trim line
  if line = "" then files
  else
    match PromptVerb.ofWord (toUpperFirstWord line), names line with
    | .RETR, some (remoteFile, localFile) => cli.retrFiles o remoteFile localFile room files
    | _, _ => files

/-- The name of the local file that a line at the prompt sends. -/
def sentName (line : String) : Option String :=
  let line := CommandParser.trim line
  match PromptVerb.ofWord (toUpperFirstWord line) with
  | .STOR | .STOU | .APPE => (names line).map Prod.fst
  | .PORT | .RETR | .LIST | .NLST | .other => none

end

variable {cli cli' : ClientCLI} {o : LineOutcomes}

/-- The data are used if and only if `requestData` gets so far. -/
theorem requestData_eq (command noReply failure : String) (cannotParse : String → String)
    (use : String → Bytes → ClientCLI → String × ClientCLI) :
    cli.requestData o command noReply failure cannotParse use =
      match cli.requested o command cannotParse with
      | some (openingReply, buffer, cli') => some (use openingReply buffer cli')
      | none => cli.requestData o command noReply failure cannotParse fun _ _ cli => ("", cli) := by
  rw [requestData, requestData, requested]
  cases cli.dataEndpoint o cannotParse with
  | none => rfl
  | some opened =>
    obtain ⟨endpoint, cli₁⟩ := opened
    cases endpoint with
    | error text => rfl
    | ok endpoint =>
      dsimp only
      cases (if cli₁.active = true then none else o.udpError) with
      | some error => rfl
      | none =>
        dsimp only
        by_cases hempty : (cli₁.sendCommand command o.answer).1 = ""
        · rw [if_pos hempty, if_pos (.inl hempty), if_pos hempty]
        by_cases hcode : hasCode (cli₁.sendCommand command o.answer).1 "150" = true
        · rw [if_neg hempty, if_neg (not_not.2 hcode), if_neg (not_or.2 ⟨hempty, not_not.2 hcode⟩),
            if_neg hempty, if_neg (not_not.2 hcode), receiveData, receiveData]
          cases o.received with
          | completed buffer =>
            dsimp only
            cases (TransferModeCodec.decode buffer (cli₁.sendCommand command o.answer).2.transferMode
              (cli₁.sendCommand command o.answer).2.transferType).error with
            | some codecError => rfl
            | none => rfl
          | failed => rfl
          | aborted => rfl
        · rw [if_neg hempty, if_pos hcode, if_pos (.inr hcode), if_neg hempty, if_pos hcode]

/-! ## Exchanges -/

theorem dataEndpoint_ok {cannotParse : String → String} {endpoint : Endpoint}
    (h : cli.dataEndpoint o cannotParse = some (.ok endpoint, cli')) :
    cli' = cli ∨ cli' = (cli.sendCommand "PASV" o.pasvAnswer).2 := by
  rw [dataEndpoint] at h
  split at h
  · cases h
    exact .inl rfl
  · dsimp only at h
    split at h
    · cases h
    · split at h
      · cases h
      · split at h
        · cases h
        · cases h
          exact .inr rfl

/-- The client has sent some `PASV`, and then a command that got a reply. -/
def Sends (cli cli' : ClientCLI) (command reply : String) : Prop :=
  ∃ es e, cli'.exchanges = cli.exchanges ++ (es ++ [e]) ∧ (∀ e ∈ es, e.command = "PASV") ∧
    e.command = command ∧ e.returned = reply

theorem sends_sendCommand {cannotParse : String → String} {endpoint : Endpoint}
    (h : cli.dataEndpoint o cannotParse = some (.ok endpoint, cli')) (command : String)
    (answer : Answer) :
    cli.Sends (cli'.sendCommand command answer).2 command (cli'.sendCommand command answer).1 := by
  rcases dataEndpoint_ok h with rfl | rfl
  · exact ⟨[], _, rfl, by simp, rfl, rfl⟩
  · refine ⟨[⟨"PASV", o.pasvAnswer, (cli.sendCommand "PASV" o.pasvAnswer).1⟩],
      ⟨command, answer, ((cli.sendCommand "PASV" o.pasvAnswer).2.sendCommand command answer).1⟩,
      ?_, by simp, rfl, rfl⟩
    rw [sendCommand_exchanges, sendCommand_exchanges, List.append_assoc]

theorem dataEndpoint_representation {cannotParse : String → String} {endpoint : Endpoint}
    (h : cli.dataEndpoint o cannotParse = some (.ok endpoint, cli')) :
    cli'.transferMode = cli.transferMode ∧ cli'.transferType = cli.transferType := by
  rcases dataEndpoint_ok h with rfl | rfl
  · exact ⟨rfl, rfl⟩
  · exact ⟨rfl, rfl⟩

/-- The data that are used have been received after the reply to the command, and
    decoded. -/
theorem requested_spec {command : String} {cannotParse : String → String} {openingReply : String}
    {buffer : Bytes} (h : cli.requested o command cannotParse = some (openingReply, buffer, cli')) :
    cli.Sends cli' command openingReply ∧ hasCode openingReply "150" = true ∧
      ∃ raw, o.received = .completed raw ∧
        TransferModeCodec.decode raw cli.transferMode cli.transferType = { output := buffer } := by
  rw [requested] at h
  split at h
  · cases h
  · cases h
  · rename_i endpoint cli₁ hendpoint
    obtain ⟨hmode, htype⟩ := dataEndpoint_representation hendpoint
    split at h
    · cases h
    · dsimp only at h
      split at h
      · cases h
      · rename_i hcode
        rw [not_or, not_not] at hcode
        split at h
        · rename_i raw hreceived
          split at h
          · cases h
          · rename_i herror
            cases h
            refine ⟨sends_sendCommand hendpoint _ _, hcode.2, raw, hreceived, ?_⟩
            rw [← hmode, ← htype]
            exact congrArg (TransferModeCodec.Decoded.mk _) herror
        · cases h
        · cases h

end ClientCLI

/-! ## The server's side -/

/-- The last command that the client has sent, as the server handles it. -/
def Serving.lastHandled (s : Serving) (os : List Outcomes) (es : List Exchange) : Option Handled :=
  (s.respondAll os es.dropLast).bind fun (server, os) =>
    es.getLast?.bind fun e =>
      (readLines e.command).head?.map fun line => ⟨server, line, os.headD {}⟩

/-- The command of the transfer at the prompt, as the server handles it: the last one
    that is sent. -/
def Dialogue.transfer? (d : Dialogue) (line : String) (o : LineOutcomes) (os : List Outcomes) :
    Option Handled :=
  (d.cli.promptLine o line).bind fun (_, cli) =>
    d.server.lastHandled os (cli.exchanges.drop d.cli.exchanges.length)

theorem respondAll_append (s : Serving) (os : List Outcomes) (es es' : List Exchange) :
    s.respondAll os (es ++ es') =
      (s.respondAll os es).bind fun (s, os) => s.respondAll os es' := by
  induction es generalizing s os with
  | nil => rfl
  | cons e es ih =>
    rw [List.cons_append, Serving.respondAll, Serving.respondAll, Option.bind_assoc]
    exact congrArg _ (funext fun _ => ih _ _)

/-- What matters to the data of a transfer is the same. -/
structure Serving.SameData (s s' : Serving) : Prop where
  fs : s'.fs = s.fs
  pathManager : s'.session.pathManager = s.session.pathManager
  transferMode : s'.session.transferMode = s.session.transferMode

theorem sameData_pasv {s s' : Serving} {line : String} (h : s.SameData s')
    (hverb : lineVerb line = some .PASV) (o : Outcomes) : s.SameData (s'.after o line) := by
  obtain ⟨hsession, hstorage⟩ := step_handleCommand o s'.session s'.fs line
  rw [hverb] at hsession hstorage
  obtain ⟨hmode, _, hmanager⟩ := given_frame s'.session line
  have hfs : (s'.after o line).fs = s'.fs := by
    show (handleCommand o s'.session s'.fs line).fs = s'.fs
    generalize (handleCommand o s'.session s'.fs line).fs = fs at hstorage ⊢
    cases hstorage
    rfl
  have hafter : (s'.after o line).session.pathManager = (s'.session.given line).pathManager ∧
      (s'.after o line).session.transferMode = (s'.session.given line).transferMode := by
    show (handleCommand o s'.session s'.fs line).session.pathManager = _ ∧
      (handleCommand o s'.session s'.fs line).session.transferMode = _
    generalize (handleCommand o s'.session s'.fs line).session = session at hsession ⊢
    cases hsession with
    | same => exact ⟨rfl, rfl⟩
    | pasv => exact ⟨rfl, rfl⟩
    | reset hmem => exact absurd hmem (by decide)
  exact ⟨hfs.trans h.fs, (hafter.1.trans hmanager).trans h.pathManager,
    (hafter.2.trans hmode).trans h.transferMode⟩

theorem sameData_of_pasv {s s' : Serving} {os os' : List Outcomes} {es : List Exchange}
    (hpasv : ∀ e ∈ es, e.command = "PASV") (h : s.respondAll os es = some (s', os')) :
    s.SameData s' := by
  refine respondAll_invariant (fun e he line hline s' o hs => ?_) ⟨rfl, rfl, rfl⟩ h
  rw [hpasv e he] at hline
  have hread : readLines "PASV" = ["PASV"] := by decide +kernel
  rw [hread, List.mem_singleton] at hline
  subst hline
  exact sameData_pasv hs (by decide +kernel) o

/-! ## The machine -/

/-- The two sides of the control connection, and the files of the client. -/
structure Deployment extends Dialogue where
  files : LocalFiles

/-- A line at the prompt, with the room on the client's disk; whatever others do to the
    file system of the server; or whatever the user does to the files of the client. -/
inductive DeploymentEvent
  | prompt (line : String) (o : LineOutcomes) (os : List Outcomes) (room : Nat)
  | others (fs : Storage)
  | edits (files : LocalFiles)

/-- The machine of a client with its files and the session that serves it. -/
def deployment : Machine Deployment DeploymentEvent where
  init := {w | w.toDialogue ∈ dialogue.init}
  step
    | .prompt line o os room, w =>
      (dialogue.step (.prompt line o os) w.toDialogue).map fun d =>
        { toDialogue := d, files := w.cli.promptFiles o line room w.files }
    | .others fs, w =>
      (dialogue.step (.others fs) w.toDialogue).map fun d => { w with toDialogue := d }
    | .edits files, w => some { w with files }

/-- The line begins with one of the words. -/
def PromptsFor (line : String) (verbs : List ClientCLI.PromptVerb) : Prop :=
  ClientCLI.PromptVerb.ofWord (ClientCLI.toUpperFirstWord (CommandParser.trim line)) ∈ verbs

instance (line : String) (verbs : List ClientCLI.PromptVerb) : Decidable (PromptsFor line verbs) :=
  inferInstanceAs (Decidable (_ ∈ verbs))

variable (α : Type) [Double α]

/-- The data of a transfer are carried by the two calls over the network, and the local
    file has been read. Only the sockets of a passive transfer are made for it: after
    `PORT` the client keeps one for all transfers, and what it finds there may be of an
    earlier one, so that nothing is said about these. -/
structure Deployment.Carried (w : Deployment) (line : String) (o : LineOutcomes)
    (os : List Outcomes) : Prop where
  download : w.cli.active = false → PromptsFor line [.RETR, .LIST, .NLST] →
    ∀ p ∈ w.transfer? line o os, hasCode p.turn.firstReply "150" = true →
      ∀ buffer, o.received = .completed buffer →
        ∃ wire ∈ p.turn.data, Conveys α wire p.o.sent (.completed buffer)
  upload : w.cli.active = false → PromptsFor line [.STOR, .STOU, .APPE] →
    ∀ p ∈ w.transfer? line o os, ∀ buffer, p.o.received = .completed buffer →
      ∃ content, o.localFile = .content content ∧
        Conveys α (TransferModeCodec.encode content w.cli.transferMode) o.sent (.completed buffer)
  read : ∀ name ∈ ClientCLI.sentName line, ∀ content, o.localFile = .content content →
    w.files name = some content

/-- What a line sets is spelled out, and the data of its passive transfer are carried. -/
def Deployment.Faithful (w : Deployment) : DeploymentEvent → Prop
  | .prompt line o os _ => w.SpelledOut (.prompt line o os) ∧ w.Carried α line o os
  | .others _ => True
  | .edits _ => True

variable {α}

/-- A client and a session that have just been started. -/
theorem agrees_of_init {d : Dialogue} (h : d ∈ dialogue.init) : d.Agrees := by
  obtain ⟨⟨serverHost, hcli⟩, _, _, _, _, hsession, _⟩ := h
  constructor
  · rw [hcli, hsession]
  · rw [hcli, hsession]

/-- Faithful events keep the two sides agreed on the representation of data. -/
theorem agrees_of_faithful {w : Deployment}
    (h : deployment.ReachableBy (Deployment.Faithful α) w) : w.Agrees := by
  refine h.invariant (I := fun w : Deployment => w.toDialogue.Agrees) ?_ fun w e w' hw hfaithful hstep => ?_
  · intro w hw
    exact agrees_of_init hw
  · cases e with
    | prompt line o os room =>
      obtain ⟨d, hd, rfl⟩ := Option.map_eq_some_iff.1 hstep
      exact (agrees_step_iff hw hd).2 hfaithful.1
    | others fs =>
      obtain ⟨d, hd, rfl⟩ := Option.map_eq_some_iff.1 hstep
      exact (agrees_step_iff hw hd).2 trivial
    | edits files =>
      cases hstep
      exact hw

end HybridFtp
