import HybridFtp.Client.ClientCLI
import HybridFtp.Lib.Machine

/-!
# Replies in step

Whether the client has read every reply to what it has sent when it is back at the
prompt, so that the next command gets the reply to that very command.

* `client`: the machine of a client at its prompt;
* `Matched`: the lines whose answers and outcomes leave the client in step
  (`step_inStep_iff`): a preliminary reply comes only where a transfer waits for one, and
  nothing fails after it;
* `inStep`: a client whose lines are all matched is in step;
* `not_inStep`: a file that cannot be created leaves a reply behind, which the next
  command gets.
-/

namespace HybridFtp

/-- What happens at the prompt. -/
inductive ClientEvent
  /-- A line at the prompt. -/
  | prompt (line : String) (o : LineOutcomes)
  /-- The handler of the signals. -/
  | interrupt
  /-- The end of the loop, by an interrupt or at the end of the input. -/
  | leave (eof : Bool) (abor quit : Answer)

/-! ## What matches -/

/-- The two lines read after an `ABOR` line are all that the server sends. -/
def AbortAnswer.Matched (final : Reply) : AbortAnswer → Prop
  | .consumed aborted completed => aborted.more = [] ∧ completed.more = []
  | .late answer => final.more = [] ∧ answer.first.more = [] ∧ answer.rest = []

/-- An answer with a preliminary reply has one of the codes that are waited for, and its
    final reply is read. -/
def Answer.Matched (codes : List String) (read : Reply → Prop) : Answer → Prop
  | .single .. => True
  | .opened opening final .. => (∃ code ∈ codes, hasCode opening.text code) ∧ read final

namespace LineOutcomes

variable (o : LineOutcomes)

/-- `PASV` gives an endpoint. -/
def hasEndpoint (host : String) : Bool :=
  hasCode o.pasvAnswer.first.text "227" &&
    match ClientCLI.parsePasvReply o.pasvAnswer.first.text host with
    | some (port, _) => port ≠ 0
    | none => false

end LineOutcomes

namespace ClientCLI

section

variable (cli : ClientCLI) (o : LineOutcomes)

/-- What is received can be decoded and used, or else the transfer is aborted. -/
def ReceiveMatched (used : Prop) (final : Reply) : Prop :=
  match o.received with
  | .completed buffer =>
    (TransferModeCodec.decode buffer cli.transferMode cli.transferType).error = none ∧ used ∧
      final.more = []
  | .failed => False
  | .aborted => o.abortAnswer.Matched final

/-- There is a socket and a peer to send to, and what is sent arrives, or else the
    transfer is aborted. -/
def SendMatched (final : Reply) : Prop :=
  (cli.active = false → o.udpError = none) ∧ (cli.active = true → knockSender o.knock ≠ none) ∧
    match o.sent with
    | .completed () => final.more = []
    | .failed => False
    | .aborted => o.abortAnswer.Matched final

/-- A `PASV` that is sent gets one reply, and what follows is matched if it gives an
    endpoint. -/
def EndpointMatched (follows : Prop) : Prop :=
  (cli.active = true → follows) ∧
    (cli.active = false → o.pasvAnswer.rest = [] ∧ (o.hasEndpoint cli.serverHost = true → follows))

/-- The replies to a download or a listing, with those to its `PASV`. -/
def RequestMatched (used : Prop) : Prop :=
  cli.EndpointMatched o ((cli.active = false → o.udpError = none) →
    o.answer.Matched ["150"] (cli.ReceiveMatched o used))

/-- The replies to an upload. A file that cannot be read is not announced to the server. -/
def StoreMatched : Prop :=
  match o.localFile with
  | .content _ => cli.EndpointMatched o (o.answer.Matched ["150", "125"] (cli.SendMatched o))
  | .missing | .unreadable | .tooLarge => True

/-- `PORT` gets one reply, if it is sent: the argument must be a port, and a socket for it must
    be there or be opened. -/
def PortMatched (line : String) : Prop :=
  match parsePort (((words line.toList)[1]?).getD []) with
  | .error _ => True
  | .ok port => (cli.isNewPort port = true → o.udpError = none) → o.answer.rest = []

/-- The command of a line gets one reply, or the replies of a transfer that goes well
    or is aborted. -/
def VerbMatched (line : String) : PromptVerb → Prop
  | .PORT => cli.PortMatched o line
  | .RETR => names line ≠ none → cli.RequestMatched o (o.created = true)
  | .STOR | .STOU | .APPE => names line ≠ none → cli.StoreMatched o
  | .LIST | .NLST => cli.RequestMatched o True
  | .other => o.answer.rest = []

/-- An empty line sends nothing. -/
def LineMatched (line : String) : Prop :=
  line ≠ "" → cli.VerbMatched o line (PromptVerb.ofWord (toUpperFirstWord line))

/-- The replies that the server sends in the event are those that the client reads in it. -/
def Matched : ClientEvent → Prop
  | .prompt line o => cli.LineMatched o (CommandParser.trim line)
  | .interrupt => True
  | .leave eof abor quit =>
    (cli.aborted = true → eof = false →
      (cli.abortCommandSent = false → abor.rest = []) ∧ quit.rest = []) ∧
    (cli.aborted = false → quit.rest = [])

end

/-! ## Reading and sending -/

/-- Everything sent has been read, but for what is due, and each command got its reply. -/
structure Pending (due : List Char) (cli : ClientCLI) : Prop where
  control : cli.control = []
  due : cli.due = due
  returned : ∀ exchange ∈ cli.exchanges, exchange.returned = exchange.answer.first.text

/-- Every reply has been read. -/
def InStep (cli : ClientCLI) : Prop := Pending [] cli

variable {cli : ClientCLI} {o : LineOutcomes} {due : List Char} {final : Reply}

theorem inStep_iff_due (h : Pending due cli) : cli.InStep ↔ due = [] :=
  ⟨fun hs => h.due.symm.trans hs.due, fun hdue => by rw [InStep, ← hdue]; exact h⟩

/-- The client after a command that got its reply. -/
def asked (cli : ClientCLI) (command : String) (answer : Answer) : ClientCLI :=
  { cli with
    control := []
    due := answer.rest
    exchanges := cli.exchanges ++ [{ command, answer, returned := answer.first.text }] }

theorem sendCommand_eq (h : cli.InStep) (command : String) (answer : Answer) :
    cli.sendCommand command answer = (answer.first.text, cli.asked command answer) := by
  have hrecv := recvReply_wire answer.first []
  rw [List.append_nil] at hrecv
  rw [sendCommand, h.control, h.due, List.append_nil, List.nil_append, hrecv]
  rfl

theorem pending_asked (h : cli.InStep) (command : String) (answer : Answer) :
    (cli.asked command answer).Pending answer.rest := by
  refine ⟨rfl, rfl, fun exchange hexchange => ?_⟩
  rcases List.mem_append.1 hexchange with hold | hnew
  · exact h.returned exchange hold
  · rw [List.mem_singleton.1 hnew]

theorem recvControl_eq {line : List Char} (hline : '\n' ∉ line) (rest : List Char)
    (h : cli.control ++ cli.due = line ++ '\r' :: '\n' :: rest) :
    cli.recvControl.2 = { cli with control := rest, due := [] } := by
  rw [recvControl, h, recvControlReply_line hline]

/-- A reply of which the first line is read is read if it has no other. -/
theorem recvControl_inStep_iff (h : Pending final.wire cli) :
    cli.recvControl.2.InStep ↔ final.more = [] := by
  have hstream : cli.control ++ cli.due =
      final.first ++ '\r' :: '\n' :: Reply.wireLines final.more := by
    rw [h.control, h.due, Reply.wire, Reply.wireLines_cons, List.nil_append]
  rw [recvControl_eq (final.isLine _ List.mem_cons_self).2 _ hstream]
  exact ⟨fun hs => Reply.wireLines_eq_nil_iff.1 hs.control,
    fun hmore => ⟨Reply.wireLines_eq_nil_iff.2 hmore, rfl, h.returned⟩⟩

/-- Two replies of which two lines are read are read, if they have no others and nothing
    follows. -/
theorem recvControl_recvControl_inStep_iff {aborted completed : Reply} {rest : List Char}
    (h : Pending (aborted.wire ++ completed.wire ++ rest) cli) :
    cli.recvControl.2.recvControl.2.InStep ↔
      aborted.more = [] ∧ completed.more = [] ∧ rest = [] := by
  have hstream : cli.control ++ cli.due = aborted.first ++ '\r' :: '\n' ::
      (Reply.wireLines aborted.more ++ (completed.wire ++ rest)) := by
    rw [h.control, h.due, Reply.wire, Reply.wireLines_cons]
    simp
  rw [recvControl_eq (aborted.isLine _ List.mem_cons_self).2 _ hstream]
  cases hmore : aborted.more with
  | nil =>
    rw [recvControl_eq (completed.isLine _ List.mem_cons_self).2
      (Reply.wireLines completed.more ++ rest) (by simp [Reply.wire])]
    refine ⟨fun hs => ?_, ?_⟩
    · obtain ⟨hcompleted, hrest⟩ := List.append_eq_nil_iff.1 hs.control
      exact ⟨rfl, Reply.wireLines_eq_nil_iff.1 hcompleted, hrest⟩
    · rintro ⟨_, hcompleted, hrest⟩
      have hcontrol := List.append_eq_nil_iff.2 ⟨Reply.wireLines_eq_nil_iff.2 hcompleted, hrest⟩
      exact ⟨hcontrol, rfl, h.returned⟩
  | cons line more =>
    -- The second line is one of the first reply, which leaves the second one.
    have hline : line ∈ aborted.first :: aborted.more := by rw [hmore]; simp
    rw [recvControl_eq (aborted.isLine _ hline).2
      (Reply.wireLines more ++ (completed.wire ++ rest)) (by simp)]
    refine iff_of_false (fun hs => ?_) fun hs => List.cons_ne_nil _ _ hs.1
    have hcompleted := (List.append_eq_nil_iff.1 (List.append_eq_nil_iff.1 hs.control).2).1
    exact completed.wire_ne_nil hcompleted

/-! ## Transfers -/

theorem finishTransfer_inStep_iff (h : Pending final.wire cli) (printed missing : String) :
    (cli.finishTransfer printed missing).2.InStep ↔ final.more = [] :=
  recvControl_inStep_iff h

/-- Without an abort, the final reply is not read. -/
theorem not_inStep_failTransfer (h : Pending final.wire cli) (hsent : cli.abortCommandSent = false)
    (openingReply error : String) :
    ¬(cli.failTransfer o false openingReply error).2.InStep := by
  rw [failTransfer]
  simp only [Bool.false_eq_true, if_false, hsent]
  intro hs
  exact final.wire_ne_nil ((inStep_iff_due h).1 hs)

theorem failTransfer_inStep_iff (h : Pending final.wire cli) (hsent : cli.abortCommandSent = false)
    (openingReply error : String) :
    (cli.failTransfer o true openingReply error).2.InStep ↔ o.abortAnswer.Matched final := by
  cases ho : o.abortAnswer with
  | consumed aborted completed =>
    have hpending : Pending (aborted.wire ++ completed.wire ++ []) { cli.notifyAbort with
        abortCommandSent := true, due := aborted.wire ++ completed.wire
        abortOnly := fun _ => rfl } :=
      ⟨h.control, (List.append_nil _).symm, h.returned⟩
    simp only [failTransfer, interruptTransfer, hsent, ho, if_true, Bool.false_eq_true, if_false]
    exact (recvControl_recvControl_inStep_iff hpending).trans (by simp [AbortAnswer.Matched])
  | late answer =>
    have hpending : Pending (final.wire ++ answer.first.wire ++ answer.rest) { cli.notifyAbort with
        abortCommandSent := true, due := cli.due ++ answer.first.wire ++ answer.rest
        abortOnly := fun _ => rfl } :=
      ⟨h.control, by rw [h.due], h.returned⟩
    simp only [failTransfer, interruptTransfer, hsent, ho, if_true, Bool.false_eq_true, if_false]
    exact recvControl_recvControl_inStep_iff hpending

/-- What is received is used, and the final reply read if it is read after that. -/
theorem receiveData_inStep_iff (h : Pending final.wire cli) (hsent : cli.abortCommandSent = false)
    (openingReply failure : String) {use : Bytes → ClientCLI → String × ClientCLI} {used : Prop}
    (huse : ∀ buffer, (use buffer cli).2.InStep ↔ used ∧ final.more = []) :
    (cli.receiveData o openingReply failure use).2.InStep ↔ cli.ReceiveMatched o used final := by
  rw [receiveData, ReceiveMatched]
  cases o.received with
  | completed buffer =>
    dsimp only
    cases herror :
        (TransferModeCodec.decode buffer cli.transferMode cli.transferType).error with
    | none => exact (huse _).trans (by simp)
    | some codecError =>
      refine iff_of_false (fun hs => ?_) fun hs => Option.some_ne_none _ hs.1
      exact final.wire_ne_nil ((inStep_iff_due h).1 hs)
  | failed => exact iff_of_false (not_inStep_failTransfer h hsent _ _) id
  | aborted => exact failTransfer_inStep_iff h hsent _ _

/-- What is sent over a socket that is open, to a peer that is known. -/
theorem sent_inStep_iff (h : Pending final.wire cli) (hsent : cli.abortCommandSent = false)
    (openingReply failure printed missing : String) :
    (match o.sent with
      | .completed () => cli.finishTransfer printed missing
      | .failed => cli.failTransfer o false openingReply failure
      | .aborted => cli.failTransfer o true openingReply failure).2.InStep ↔
    match o.sent with
      | .completed () => final.more = []
      | .failed => False
      | .aborted => o.abortAnswer.Matched final := by
  match o.sent with
  | .completed () => exact finishTransfer_inStep_iff h _ _
  | .failed => exact iff_of_false (not_inStep_failTransfer h hsent _ _) id
  | .aborted => exact failTransfer_inStep_iff h hsent _ _

theorem sendData_inStep_iff (h : Pending final.wire cli) (hsent : cli.abortCommandSent = false)
    (openingReply : String) :
    (cli.sendData o openingReply).2.InStep ↔ cli.SendMatched o final := by
  have hnot : ¬cli.InStep := fun hs => final.wire_ne_nil ((inStep_iff_due h).1 hs)
  rw [sendData, SendMatched]
  cases hactive : cli.active with
  | false =>
    simp only [Bool.false_eq_true, if_false, false_and, true_imp_iff, false_imp_iff, true_and]
    cases hudp : o.udpError with
    | none => exact (sent_inStep_iff h hsent _ _ _ _).trans (by simp)
    | some error => exact iff_of_false hnot (by simp)
  | true =>
    simp only [if_true, true_and, true_imp_iff]
    by_cases hknock : knockSender o.knock = none
    · rw [if_pos hknock]
      exact iff_of_false hnot fun hs => hs.2.1 hknock
    · rw [if_neg hknock]
      exact (sent_inStep_iff h hsent _ _ _ _).trans (by simp [hknock])

/-! ## Commands -/

theorem text_ne_empty (r : Reply) : r.text ≠ "" := by
  obtain ⟨hne, _⟩ := r.isLine r.first List.mem_cons_self
  intro h
  have hlist := congrArg String.toList h
  rw [Reply.text, String.toList_ofList] at hlist
  exact hne (List.append_eq_nil_iff.1 hlist).1

/-- The first digit of a code that a reply has. -/
theorem head_of_hasCode {r : Reply} {code : String} {c : Char}
    (hcode : code.toList.head? = some c) (h : hasCode r.text code = true) :
    r.first.head? = some c := by
  rw [hasCode, Reply.text, String.toList_ofList, List.isPrefixOf_iff_prefix] at h
  obtain ⟨hne, _⟩ := r.isLine r.first List.mem_cons_self
  obtain ⟨d, first, hfirst⟩ := List.exists_cons_of_ne_nil hne
  obtain ⟨rest, hrest⟩ := List.head?_eq_some_iff.1 hcode
  rw [hrest, hfirst, List.cons_append, List.cons_prefix_cons] at h
  rw [hfirst, h.1]
  rfl

/-- A command whose transfer goes on if the opening reply has one of the codes. -/
theorem answer_inStep_iff {codes : List String} (hcodes : ∀ code ∈ codes, code.toList.head? = some '1')
    (h : cli.InStep) (command : String) {read : Reply → Prop} {cli' : ClientCLI}
    (hopened : ∀ opening final ho hf, o.answer = .opened opening final ho hf →
      (∃ code ∈ codes, hasCode opening.text code = true) → (cli'.InStep ↔ read final))
    (hother : (¬∃ code ∈ codes, hasCode o.answer.first.text code = true) →
      cli' = cli.asked command o.answer) :
    cli'.InStep ↔ o.answer.Matched codes read := by
  cases hanswer : o.answer with
  | single reply hreply =>
    -- A single reply is none of those that are waited for.
    rw [hother]
    · refine iff_of_true ((inStep_iff_due (pending_asked h command o.answer)).2 ?_) trivial
      rw [hanswer]
      rfl
    · rintro ⟨code, hmem, hcode⟩
      rw [hanswer] at hcode
      exact hreply (head_of_hasCode (hcodes code hmem) hcode)
  | opened opening final ho hf =>
    by_cases hcode : ∃ code ∈ codes, hasCode opening.text code = true
    · rw [hopened opening final ho hf hanswer hcode]
      exact ⟨fun hread => ⟨hcode, hread⟩, fun hmatched => hmatched.2⟩
    · rw [hother (by rw [hanswer]; exact hcode)]
      refine iff_of_false (fun hs => ?_) fun hs => hcode hs.1
      have hrest := (inStep_iff_due (pending_asked h command o.answer)).1 hs
      rw [hanswer] at hrest
      exact final.wire_ne_nil hrest

/-- Without `PASV`, or with one that gets a reply, the client is in step, and it has an
    endpoint if `PASV` gives one. -/
theorem dataEndpoint_cases (h : cli.InStep) {cannotParse : String → String}
    {result : Except String Endpoint} {cli' : ClientCLI}
    (hsome : cli.dataEndpoint o cannotParse = some (result, cli')) :
    cli.active = true ∧ cli' = cli ∧ (∃ endpoint, result = .ok endpoint) ∨
      cli.active = false ∧ cli' = cli.asked "PASV" o.pasvAnswer ∧
        ((∃ endpoint, result = .ok endpoint) ↔ o.hasEndpoint cli.serverHost = true) := by
  rw [dataEndpoint] at hsome
  cases hactive : cli.active with
  | true =>
    rw [if_pos hactive] at hsome
    cases hsome
    exact .inl ⟨rfl, rfl, _, rfl⟩
  | false =>
    refine .inr ⟨rfl, ?_⟩
    rw [if_neg (by rw [hactive]; exact Bool.false_ne_true), sendCommand_eq h] at hsome
    dsimp only at hsome
    rw [LineOutcomes.hasEndpoint]
    have hserver : (cli.asked "PASV" o.pasvAnswer).serverHost = cli.serverHost := rfl
    rw [hserver] at hsome
    by_cases hcode : hasCode o.pasvAnswer.first.text "227" = true
    · rw [if_neg (by simp [hcode, text_ne_empty])] at hsome
      rw [hcode, Bool.true_and]
      cases hparse : parsePasvReply o.pasvAnswer.first.text cli.serverHost with
      | none => rw [hparse] at hsome; cases hsome
      | some found =>
        rw [hparse] at hsome
        dsimp only at hsome ⊢
        split_ifs at hsome with hport
        · cases hsome
          exact ⟨rfl, by simp [hport]⟩
        · cases hsome
          exact ⟨rfl, by simp [hport]⟩
    · rw [if_pos (.inr hcode)] at hsome
      cases hsome
      exact ⟨rfl, by simp [hcode]⟩

/-- A `PASV` that gives an endpoint gets one reply. -/
theorem rest_of_hasEndpoint {host : String} (h : o.hasEndpoint host = true) :
    o.pasvAnswer.rest = [] := by
  rw [LineOutcomes.hasEndpoint, Bool.and_eq_true] at h
  cases hanswer : o.pasvAnswer with
  | single => rfl
  | opened opening final ho hf =>
    rw [hanswer] at h
    have hhead := head_of_hasCode (c := '2') (by decide +kernel) h.1
    rw [Answer.first, ho] at hhead
    cases hhead

/-- The commands that need an endpoint. -/
theorem endpoint_inStep_iff (h : cli.InStep) {cannotParse : String → String}
    {result : Except String Endpoint} {cli₁ cli₂ : ClientCLI} {follows : Prop}
    (hsome : cli.dataEndpoint o cannotParse = some (result, cli₁))
    (herror : ∀ text, result = .error text → cli₂ = cli₁)
    (hok : ∀ endpoint, result = .ok endpoint → cli₁.InStep → (cli₂.InStep ↔ follows)) :
    cli₂.InStep ↔ cli.EndpointMatched o follows := by
  rcases dataEndpoint_cases h hsome with
    ⟨hactive, rfl, endpoint, hendpoint⟩ | ⟨hactive, rfl, hendpoint⟩
  · rw [hok endpoint hendpoint h]
    exact ⟨fun hf => ⟨fun _ => hf, fun hp => absurd (hactive.symm.trans hp) (by simp)⟩,
      fun hm => hm.1 hactive⟩
  · have hpending := inStep_iff_due (pending_asked h "PASV" o.pasvAnswer)
    cases result with
    | error text =>
      have hnone : ¬o.hasEndpoint cli.serverHost = true := fun htrue =>
        let ⟨_, he⟩ := hendpoint.2 htrue
        nomatch he
      rw [herror text rfl, hpending]
      exact ⟨fun hrest => ⟨fun ha => absurd (hactive.symm.trans ha) (by simp),
        fun _ => ⟨hrest, fun htrue => absurd htrue hnone⟩⟩, fun hm => (hm.2 hactive).1⟩
    | ok endpoint =>
      have htrue := hendpoint.1 ⟨endpoint, rfl⟩
      have hrest := rest_of_hasEndpoint htrue
      rw [hok endpoint rfl (hpending.2 hrest)]
      exact ⟨fun hf => ⟨fun _ => hf, fun _ => ⟨hrest, fun _ => hf⟩⟩,
        fun hm => (hm.2 hactive).2 htrue⟩

/-- Asking for an endpoint only changes what has been read. -/
theorem dataEndpoint_eq_or (h : cli.InStep) {cannotParse : String → String}
    {result : Except String Endpoint} {cli₁ : ClientCLI}
    (hsome : cli.dataEndpoint o cannotParse = some (result, cli₁)) :
    cli₁ = cli ∨ cli₁ = cli.asked "PASV" o.pasvAnswer := by
  rcases dataEndpoint_cases h hsome with ⟨_, heq, _⟩ | ⟨_, heq, _⟩
  · exact .inl heq
  · exact .inr heq

theorem requestData_inStep_iff (h : cli.InStep) (hsent : cli.abortCommandSent = false)
    {command noReply failure text : String} {cannotParse : String → String}
    {use : String → Bytes → ClientCLI → String × ClientCLI} {used : Prop} {cli₂ : ClientCLI}
    (huse : ∀ (openingReply : String) (buffer : Bytes) (final : Reply) (cli : ClientCLI),
      Pending final.wire cli → ((use openingReply buffer cli).2.InStep ↔ used ∧ final.more = []))
    (hsome : cli.requestData o command noReply failure cannotParse use = some (text, cli₂)) :
    cli₂.InStep ↔ cli.RequestMatched o used := by
  rw [requestData] at hsome
  cases hendpoint : cli.dataEndpoint o cannotParse with
  | none => rw [hendpoint] at hsome; cases hsome
  | some found =>
    obtain ⟨result, cli₁⟩ := found
    rw [hendpoint] at hsome
    refine endpoint_inStep_iff h hendpoint (fun error hresult => ?_) fun endpoint hresult h₁ => ?_
    · rw [hresult] at hsome
      cases hsome
      rfl
    · rw [hresult] at hsome
      dsimp only at hsome
      have hcli := dataEndpoint_eq_or h hendpoint
      have hactive : cli₁.active = cli.active := by rcases hcli with rfl | rfl <;> rfl
      have hsent₁ : cli₁.abortCommandSent = false := by rcases hcli with rfl | rfl <;> exact hsent
      have hreceive : ∀ final, cli₁.ReceiveMatched o used final = cli.ReceiveMatched o used final := by
        intro final
        rcases hcli with rfl | rfl <;> rfl
      rw [hactive] at hsome
      by_cases hudp : cli.active = false → o.udpError = none
      · have hopen : (if cli.active then none else o.udpError) = none := by
          split_ifs with ha
          · rfl
          · exact hudp (Bool.not_eq_true _ ▸ ha)
        rw [hopen] at hsome
        dsimp only at hsome
        rw [sendCommand_eq h₁] at hsome
        dsimp only at hsome
        rw [if_neg (text_ne_empty _)] at hsome
        rw [forall_prop_of_true hudp]
        refine answer_inStep_iff (by decide +kernel) h₁ command
          (fun opening final ho hf hanswer hcode => ?_) fun hcode => ?_
        · obtain ⟨code, hmem, hcode⟩ := hcode
          have hfirst : hasCode o.answer.first.text "150" = true := by
            rw [hanswer, ← List.mem_singleton.1 hmem]
            exact hcode
          have hpending : Pending final.wire (cli₁.asked command o.answer) := by
            have hasked := pending_asked h₁ command o.answer
            rwa [hanswer] at hasked ⊢
          rw [if_neg (not_not.2 hfirst)] at hsome
          have hcli₂ : _ = cli₂ := congrArg Prod.snd (Option.some.inj hsome)
          rw [← hreceive final, ← hcli₂]
          exact receiveData_inStep_iff hpending hsent₁ _ _ fun buffer =>
            huse _ buffer final _ hpending
        · rw [if_pos fun hc => hcode ⟨"150", List.mem_singleton_self _, hc⟩] at hsome
          cases hsome
          rfl
      · -- The socket cannot be opened, and the command is not sent.
        have hopen : cli.active = false ∧ o.udpError ≠ none := by
          by_contra hcon
          exact hudp fun ha => by_contra fun he => hcon ⟨ha, he⟩
        obtain ⟨error, herror⟩ := Option.ne_none_iff_exists'.1 hopen.2
        rw [hopen.1, herror] at hsome
        cases hsome
        exact iff_of_true h₁ fun himp => absurd himp hudp

theorem handleStor_inStep_iff (h : cli.InStep) (hsent : cli.abortCommandSent = false)
    {localFile remoteFile text : String} {unique append : Bool} {cli₂ : ClientCLI}
    (hsome : cli.handleStor o localFile remoteFile unique append = some (text, cli₂)) :
    cli₂.InStep ↔ cli.StoreMatched o := by
  rw [handleStor] at hsome
  rw [StoreMatched]
  cases hfile : o.localFile with
  | missing =>
    rw [hfile] at hsome
    cases hsome
    exact iff_of_true h trivial
  | unreadable =>
    rw [hfile] at hsome
    cases hsome
    exact iff_of_true h trivial
  | tooLarge =>
    rw [hfile] at hsome
    cases hsome
  | content bytes =>
    rw [hfile] at hsome
    dsimp only at hsome ⊢
    cases hendpoint : cli.dataEndpoint o ("Error: Cannot parse PASV reply: " ++ ·) with
    | none => rw [hendpoint] at hsome; cases hsome
    | some found =>
      obtain ⟨result, cli₁⟩ := found
      rw [hendpoint] at hsome
      refine endpoint_inStep_iff h hendpoint (fun error hresult => ?_) fun endpoint hresult h₁ => ?_
      · rw [hresult] at hsome
        cases hsome
        rfl
      · rw [hresult] at hsome
        dsimp only at hsome
        have hcli := dataEndpoint_eq_or h hendpoint
        have hsent₁ : cli₁.abortCommandSent = false := by rcases hcli with rfl | rfl <;> exact hsent
        have hsend : ∀ final, cli₁.SendMatched o final = cli.SendMatched o final := by
          intro final
          rcases hcli with rfl | rfl <;> rfl
        generalize hcommand : (if unique then if remoteFile = "" then "STOU" else "STOU " ++ remoteFile
          else if append then "APPE " ++ remoteFile else "STOR " ++ remoteFile) = command at hsome
        rw [sendCommand_eq h₁] at hsome
        dsimp only at hsome
        rw [if_neg (text_ne_empty _)] at hsome
        refine answer_inStep_iff (by decide +kernel) h₁ command
          (fun opening final ho hf hanswer hcode => ?_) fun hcode => ?_
        · have hfirst : ¬(¬hasCode o.answer.first.text "150" = true ∧
              ¬hasCode o.answer.first.text "125" = true) := by
            rw [hanswer]
            obtain ⟨code, hmem, hcode⟩ := hcode
            rcases List.mem_pair.1 hmem with rfl | rfl
            · exact fun hnot => hnot.1 hcode
            · exact fun hnot => hnot.2 hcode
          have hpending : Pending final.wire (cli₁.asked command o.answer) := by
            have hasked := pending_asked h₁ command o.answer
            rwa [hanswer] at hasked ⊢
          rw [if_neg hfirst] at hsome
          have hcli₂ : _ = cli₂ := congrArg Prod.snd (Option.some.inj hsome)
          rw [← hsend final, ← hcli₂]
          exact sendData_inStep_iff hpending hsent₁ _
        · rw [if_pos ⟨fun hc => hcode ⟨"150", List.mem_pair.2 (.inl rfl), hc⟩,
            fun hc => hcode ⟨"125", List.mem_pair.2 (.inr rfl), hc⟩⟩] at hsome
          cases hsome
          rfl

theorem handleRetr_inStep_iff (h : cli.InStep) (hsent : cli.abortCommandSent = false)
    {remoteFile localFile text : String} {cli₂ : ClientCLI}
    (hsome : cli.handleRetr o remoteFile localFile = some (text, cli₂)) :
    cli₂.InStep ↔ cli.RequestMatched o (o.created = true) := by
  refine requestData_inStep_iff h hsent (fun openingReply _ final cli hpending => ?_) hsome
  cases hcreated : o.created with
  | true => exact (finishTransfer_inStep_iff hpending _ _).trans (by simp)
  | false =>
    refine iff_of_false (fun hs => ?_) fun hs => Bool.false_ne_true hs.1
    exact final.wire_ne_nil ((inStep_iff_due hpending).1 hs)

theorem handleList_inStep_iff (h : cli.InStep) (hsent : cli.abortCommandSent = false)
    {path text : String} {namesOnly : Bool} {cli₂ : ClientCLI}
    (hsome : cli.handleList o path namesOnly = some (text, cli₂)) :
    cli₂.InStep ↔ cli.RequestMatched o True := by
  rw [handleList] at hsome
  dsimp only at hsome
  refine requestData_inStep_iff h hsent (fun openingReply _ final cli hpending => ?_) hsome
  exact (finishTransfer_inStep_iff hpending _ _).trans (by simp)

theorem handlePort_inStep_iff (h : cli.InStep) (line : String) :
    (cli.handlePort o line).2.InStep ↔ cli.PortMatched o line := by
  rw [handlePort, PortMatched]
  cases hport : parsePort (((words line.toList)[1]?).getD []) with
  | error text => exact iff_of_true h trivial
  | ok port =>
    dsimp only
    by_cases hudp : cli.isNewPort port = true → o.udpError = none
    · have hopen : (if cli.isNewPort port then o.udpError else none) = none := by
        split_ifs with hnew
        · exact hudp hnew
        · rfl
      rw [hopen, sendCommand_eq h, forall_prop_of_true hudp]
      have hpending := pending_asked h line o.answer
      dsimp only
      split
      · exact inStep_iff_due hpending
      · exact inStep_iff_due ⟨hpending.control, hpending.due, hpending.returned⟩
    · -- The socket cannot be bound, and the command is not sent.
      have hopen : cli.isNewPort port = true ∧ o.udpError ≠ none := by
        by_contra hcon
        exact hudp fun ha => by_contra fun he => hcon ⟨ha, he⟩
      obtain ⟨error, herror⟩ := Option.ne_none_iff_exists'.1 hopen.2
      rw [hopen.1, herror]
      exact iff_of_true h fun himp => by simp at himp

theorem applyAccepted_pending (h : Pending due cli) (line : String) :
    (cli.applyAccepted line).Pending due := by
  rw [applyAccepted]
  split <;> exact ⟨h.control, h.due, h.returned⟩

theorem applyReply_pending (h : Pending due cli) (line reply : String) :
    (cli.applyReply line reply).Pending due := by
  have hpasv : Pending due { cli with dataMode := .Passive, activeSocket := none, activePort := 0 } :=
    ⟨h.control, h.due, h.returned⟩
  rw [applyReply]
  split_ifs
  · exact applyAccepted_pending hpasv line
  · exact applyAccepted_pending h line
  · exact hpasv
  · exact h

theorem handleOther_inStep_iff (h : cli.InStep) (line : String) :
    (cli.handleOther o line).2.InStep ↔ o.answer.rest = [] := by
  have hpending := applyReply_pending (pending_asked h line o.answer) line o.answer.first.text
  rw [handleOther, sendCommand_eq h]
  exact inStep_iff_due ⟨hpending.control, hpending.due, hpending.returned⟩

theorem storeNames_inStep_iff (h : cli.InStep) (hsent : cli.abortCommandSent = false)
    {line text usage : String} {unique append : Bool} {cli₂ : ClientCLI}
    (hsome : (match names line with
      | some (localFile, remoteFile) => cli.handleStor o localFile remoteFile unique append
      | none => some (usage, cli)) = some (text, cli₂)) :
    cli₂.InStep ↔ (names line ≠ none → cli.StoreMatched o) := by
  cases hnames : names line with
  | none =>
    rw [hnames] at hsome
    cases hsome
    exact iff_of_true h fun hne => absurd rfl hne
  | some found =>
    rw [hnames] at hsome
    rw [forall_prop_of_true (Option.some_ne_none _)]
    exact handleStor_inStep_iff h hsent hsome

/-- A line leaves the client in step if and only if it is matched. -/
theorem promptLine_inStep_iff (h : cli.InStep) (hsent : cli.abortCommandSent = false)
    {line text : String} {cli₂ : ClientCLI} (hsome : cli.promptLine o line = some (text, cli₂)) :
    cli₂.InStep ↔ cli.LineMatched o (CommandParser.trim line) := by
  rw [promptLine] at hsome
  rw [LineMatched]
  generalize CommandParser.trim line = line at hsome ⊢
  generalize PromptVerb.ofWord (toUpperFirstWord line) = verb at hsome ⊢
  by_cases hline : line = ""
  · rw [if_pos hline] at hsome
    cases hsome
    exact iff_of_true h fun hne => absurd hline hne
  · rw [if_neg hline] at hsome
    rw [forall_prop_of_true hline]
    cases verb with
    | PORT =>
      have hcli₂ : (cli.handlePort o line).2 = cli₂ := congrArg Prod.snd (Option.some.inj hsome)
      rw [← hcli₂]
      exact handlePort_inStep_iff h line
    | RETR =>
      dsimp only at hsome
      rw [VerbMatched]
      cases hnames : names line with
      | none =>
        rw [hnames] at hsome
        cases hsome
        exact iff_of_true h fun hne => absurd rfl hne
      | some found =>
        rw [hnames] at hsome
        rw [forall_prop_of_true (Option.some_ne_none _)]
        exact handleRetr_inStep_iff h hsent hsome
    | STOR =>
      exact storeNames_inStep_iff h hsent hsome
    | STOU =>
      exact storeNames_inStep_iff h hsent hsome
    | APPE =>
      exact storeNames_inStep_iff h hsent hsome
    | LIST =>
      exact handleList_inStep_iff h hsent hsome
    | NLST =>
      exact handleList_inStep_iff h hsent hsome
    | other =>
      have hcli₂ : (cli.handleOther o line).2 = cli₂ := congrArg Prod.snd (Option.some.inj hsome)
      rw [← hcli₂]
      exact handleOther_inStep_iff h line

/-! ## Runs -/

/-- `ABOR`, unless it has been sent, and `QUIT`. -/
def leaveAborted (cli : ClientCLI) (abor quit : Answer) : ClientCLI :=
  let cli := if cli.abortCommandSent then cli else (cli.sendCommand "ABOR" abor).2
  (cli.sendCommand "QUIT" quit).2

/-- The machine of a client that has read the welcome banner. -/
def client : Machine ClientCLI ClientEvent where
  init := {cli | ∃ serverHost, cli = { serverHost }}
  step
    | .prompt line o, cli =>
      if cli.ended ∨ cli.aborted then none else (cli.promptLine o line).map Prod.snd
    | .interrupt, cli => if cli.ended then none else some cli.notifyAbort
    | .leave eof abor quit, cli =>
      if cli.ended then none
      else if cli.aborted then
        some { (if eof then cli else cli.leaveAborted abor quit) with ended := true }
      else if eof then some { (cli.sendCommand "QUIT" quit).2 with ended := true }
      else none

theorem sendCommand_inStep_iff (h : cli.InStep) (command : String) (answer : Answer) :
    (cli.sendCommand command answer).2.InStep ↔ answer.rest = [] := by
  rw [sendCommand_eq h]
  exact inStep_iff_due (pending_asked h command answer)

/-- A command after a final reply that has not been read gets that reply. -/
theorem not_inStep_sendCommand (h : Pending final.wire cli) (command : String) (answer : Answer) :
    ¬(cli.sendCommand command answer).2.InStep := by
  intro hs
  have hcontrol := hs.control
  rw [sendCommand, h.control, h.due, List.nil_append, recvReply_wire] at hcontrol
  exact answer.first.wire_ne_nil hcontrol

theorem leaveAborted_inStep_iff (h : cli.InStep) (abor quit : Answer) :
    (cli.leaveAborted abor quit).InStep ↔
      (cli.abortCommandSent = false → abor.rest = []) ∧ quit.rest = [] := by
  rw [leaveAborted]
  cases hsent : cli.abortCommandSent with
  | true => exact (sendCommand_inStep_iff h _ _).trans (by simp)
  | false =>
    rw [if_neg Bool.false_ne_true, forall_prop_of_true rfl]
    cases habor : abor with
    | single reply hr =>
      have hs : (cli.sendCommand "ABOR" (.single reply hr)).2.InStep :=
        (sendCommand_inStep_iff h _ _).2 rfl
      exact (sendCommand_inStep_iff hs _ _).trans ⟨fun hq => ⟨rfl, hq⟩, fun hm => hm.2⟩
    | opened opening final ho hf =>
      have hpending : Pending final.wire (cli.sendCommand "ABOR" (.opened opening final ho hf)).2 := by
        rw [sendCommand_eq h]
        exact pending_asked h "ABOR" (.opened opening final ho hf)
      exact iff_of_false (not_inStep_sendCommand hpending _ _) fun hm => final.wire_ne_nil hm.1

theorem inStep_ended (cli : ClientCLI) : InStep { cli with ended := true } ↔ cli.InStep :=
  ⟨fun h => ⟨h.control, h.due, h.returned⟩, fun h => ⟨h.control, h.due, h.returned⟩⟩

/-- A step leaves the client in step if and only if it is matched. -/
theorem step_inStep_iff (h : cli.InStep) {e : ClientEvent} {cli₂ : ClientCLI}
    (hstep : client.step e cli = some cli₂) : cli₂.InStep ↔ cli.Matched e := by
  cases e with
  | prompt line o =>
    simp only [client, Option.ite_none_left_eq_some, not_or, Option.map_eq_some_iff] at hstep
    obtain ⟨⟨_, haborted⟩, ⟨text, cli'⟩, hsome, rfl⟩ := hstep
    have hsent : cli.abortCommandSent = false :=
      Bool.not_eq_true _ ▸ fun hs => haborted (cli.abortOnly hs)
    exact promptLine_inStep_iff h hsent hsome
  | interrupt =>
    simp only [client, Option.ite_none_left_eq_some, Option.some.injEq] at hstep
    obtain ⟨_, rfl⟩ := hstep
    exact iff_of_true ⟨h.control, h.due, h.returned⟩ trivial
  | leave eof abor quit =>
    simp only [client, Option.ite_none_left_eq_some] at hstep
    obtain ⟨_, hstep⟩ := hstep
    rw [Matched]
    cases haborted : cli.aborted with
    | true =>
      rw [if_pos haborted, Option.some.injEq] at hstep
      rw [← hstep, inStep_ended]
      cases eof with
      | true => exact iff_of_true h (by simp)
      | false => exact (leaveAborted_inStep_iff h abor quit).trans (by simp)
    | false =>
      rw [if_neg (by rw [haborted]; exact Bool.false_ne_true), Option.ite_none_right_eq_some,
        Option.some.injEq] at hstep
      rw [← hstep.2, inStep_ended]
      exact (sendCommand_inStep_iff h _ _).trans (by simp)

/-- A client whose lines are all matched has read every reply, and each of its commands
    has got the reply to it; and any other line leaves it out of step. -/
theorem inStep {cli : ClientCLI} (h : client.ReachableBy Matched cli) :
    cli.InStep ∧ ∀ e cli₂, client.step e cli = some cli₂ → (cli₂.InStep ↔ cli.Matched e) := by
  have hs : cli.InStep := by
    refine h.invariant ?_ fun cli e cli₂ hs hm hstep => (step_inStep_iff hs hstep).2 hm
    rintro cli ⟨serverHost, rfl⟩
    exact ⟨rfl, rfl, nofun⟩
  exact ⟨hs, fun e cli₂ hstep => step_inStep_iff hs hstep⟩

/-- A download that goes well, if the file can be `created`. -/
def download (created : Bool) : LineOutcomes where
  pasvAnswer := .single (.ofLine "227 Entering Passive Mode (127,0,0,1,156,64)." (by decide +kernel))
    (by decide +kernel)
  answer := .opened (.ofLine "150 Opening data connection for file download." (by decide +kernel))
    (.ofLine "226 Transfer complete." (by decide +kernel)) (by decide +kernel) (by decide +kernel)
  abortAnswer := .consumed
    (.ofLine "426 Connection closed; transfer aborted." (by decide +kernel))
    (.ofLine "226 Abort successful." (by decide +kernel))
  created := created

theorem inStep_download :
    ∃ cli, client.step (.prompt "GET notes.txt" (download true)) {} = some cli ∧ cli.InStep := by
  obtain ⟨cli, hstep⟩ := Option.isSome_iff_exists.1
    (show (client.step (.prompt "GET notes.txt" (download true)) {}).isSome = true by decide +kernel)
  refine ⟨cli, hstep, (inStep ⟨{}, ⟨"127.0.0.1", rfl⟩, .tail .refl ?_ hstep⟩).1⟩
  have hverb : PromptVerb.ofWord (toUpperFirstWord (CommandParser.trim "GET notes.txt")) = .RETR := by
    decide +kernel
  have hactive : ({} : ClientCLI).active = false := rfl
  rw [Matched, LineMatched, hverb, VerbMatched, RequestMatched, EndpointMatched, hactive]
  refine fun _ _ => ⟨nofun, fun _ => ⟨rfl, fun _ _ => ?_⟩⟩
  exact ⟨⟨"150", List.mem_singleton_self _, by decide +kernel⟩, by decide +kernel, rfl, rfl⟩

/-- After a download whose file cannot be created, the next command gets its reply. -/
theorem not_inStep : ¬∀ cli, client.Reachable cli → cli.InStep := by
  intro h
  have hstart : ∀ cli ∈ some ({} : ClientCLI), cli ∈ client.init := by
    intro cli hcli
    cases hcli
    exact ⟨"127.0.0.1", rfl⟩
  obtain ⟨cli, hcli, hreturned⟩ := client.exists_reachableBy_of_run (fun _ _ => True) hstart
    [.prompt "GET notes.txt" (download false),
      .prompt "NOOP" { download true with
        answer := .single (.ofLine "200 NOOP command successful." (by decide +kernel))
          (by decide +kernel) }]
    (fun cli => cli.exchanges.any fun exchange => exchange.returned ≠ exchange.answer.first.text)
    (by decide +kernel)
  obtain ⟨exchange, hmem, hne⟩ := List.any_eq_true.1 hreturned
  exact of_decide_eq_true hne ((h cli hcli).returned exchange hmem)

end ClientCLI

end HybridFtp
