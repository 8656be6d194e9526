import HybridFtp.Client.Dialogue
import HybridFtp.Client.ReplyStream
import HybridFtp.Client.ReplySync

/-!
# The control connection, from end to end

A client and the session that serves it, where what the client gets to read are the
characters that the session sends: nothing is assumed any more about the answers to the
commands.

* `TransferReply`, `Turn.Single`: what is sent in answer to the command of a transfer, and
  to any other one;
* `Serving.converse`, `conversation`: the machine of both, with the stream between them;
* `Answer.Heard`: what the client has heard of a command when it goes on;
* `in_dialogue`: both sides stay in step, and do what the client and the server do where
  each command is assumed to get its own reply.
-/

namespace HybridFtp

open Elements

/-! ## What the server sends -/

/-- The codes of the replies that open the transfer of a command. -/
def Verb.openings : Verb → List String
  | .RETR | .LIST | .NLST => ["150"]
  | .STOR | .STOU | .APPE => ["150", "125"]
  | _ => []

/-- A reply of one line, which opens a transfer by one of the codes or is final. -/
def TransferReply (codes : List String) (reply : String) : Prop :=
  IsLine reply ∧ ((∃ code ∈ codes, hasCode (recvReply reply.toList).1 code = true) ∨ Final reply)

theorem TransferReply.final {codes : List String} {reply : String} (h : IsLine reply)
    (hf : Final reply) : TransferReply codes reply :=
  ⟨h, .inr hf⟩

theorem TransferReply.opening {codes : List String} {code reply : String} {rest : List Char}
    (hmem : code ∈ codes) (hlength : code.toList.length = 3) (hbreak : '\n' ∉ code.toList)
    (hreply : reply.toList = code.toList ++ ' ' :: rest) (h : IsLine reply) :
    TransferReply codes reply := by
  refine ⟨h, .inl ⟨code, hmem, ?_⟩⟩
  rw [hreply]
  exact hasCode_recvReply code hlength hbreak rest

section

variable {o : Outcomes} {session : SessionState} {fs : Storage} {argument line reply : String}
  {turn : Turn} {verb : Verb}

/-- A single reply. -/
def Turn.Single (turn : Turn) : Prop := ∃ reply, turn.replies = [reply]

theorem single_answer : (answer session fs reply).Single := ⟨reply, rfl⟩

theorem single_requireArgument {missing : String} (h : turn.Single) :
    (requireArgument session fs argument missing turn).Single := by
  rw [requireArgument]
  split_ifs
  · exact single_answer
  · exact h

theorem single_refuseArgument {name : String} (h : turn.Single) :
    (refuseArgument session fs argument name turn).Single := by
  rw [refuseArgument]
  split_ifs
  · exact single_answer
  · exact h

/-- The replies of what is no transfer. -/
theorem single_execute (o : Outcomes) (session : SessionState) (fs : Storage) (argument : String)
    (hverb : verb ∉ Verb.transfers) (habor : verb ≠ .ABOR) :
    (execute o session fs argument (some verb)).Single := by
  cases verb with
  | LIST | NLST | RETR | STOR | STOU | APPE => exact absurd (by decide) hverb
  | ABOR => exact absurd rfl habor
  | USER | PASS | QUIT | NOOP => exact single_answer
  | PWD => exact single_refuseArgument single_answer
  | CWD | MKD | RMD | DELE | SIZE | MDTM => exact single_requireArgument single_answer
  | CDUP => exact single_refuseArgument single_answer
  | TYPE =>
    rw [execute, handleType]
    split_ifs <;> exact single_answer
  | MODE =>
    rw [execute, handleMode]
    split_ifs <;> exact single_answer
  | STAT =>
    rw [execute, handleStat]
    split_ifs <;> exact single_answer
  | HELP =>
    rw [execute, handleHelp]
    split
    · exact single_answer
    · dsimp only
      split <;> exact single_answer
  | HASH =>
    refine single_requireArgument ?_
    split
    · exact single_answer
    · split
      · exact single_answer
      · dsimp only
        split <;> exact single_answer
  | RNFR =>
    refine single_requireArgument ?_
    split <;> exact single_answer
  | RNTO =>
    refine single_requireArgument ?_
    split <;> exact single_answer
  | PORT =>
    refine single_requireArgument ?_
    split
    · dsimp only
      split <;> exact single_answer
    · exact single_answer
  | PASV =>
    rw [execute, handlePasv]
    split <;> exact single_answer

/-- The replies of a transfer. -/
theorem each_execute (o : Outcomes) (session : SessionState) (fs : Storage)
    (hargument : OneLine argument) (hverb : verb ∈ Verb.transfers) :
    (execute o session fs argument (some verb)).Each (TransferReply verb.openings) := by
  have hfinal : ∀ {codes : List String} {reply}, IsLine reply → Final reply →
      TransferReply codes reply := TransferReply.final
  have hopen : ∀ {codes : List String} {reply : String} {rest : List Char}, "150" ∈ codes →
      reply.toList = "150".toList ++ ' ' :: rest → IsLine reply → TransferReply codes reply :=
    fun hmem hreply h => .opening hmem (by decide) (by decide) hreply h
  have hmissing : ∀ {codes : List String}, TransferReply codes "501 Missing filename.\r\n" :=
    hfinal (.lit rfl) (.lit rfl)
  cases verb with
  | LIST =>
    exact each_sendListing hfinal o session fs (hfinal (.lit rfl) (.lit rfl))
      (hopen (by decide) rfl (.lit rfl)) _
  | NLST =>
    exact each_sendListing hfinal o session fs (hfinal (.lit rfl) (.lit rfl))
      (hopen (by decide) rfl (.lit rfl)) _
  | RETR => exact each_handleRetr hfinal o session fs argument (hopen (by decide) rfl (.lit rfl))
  | STOR =>
    exact each_requireArgument hmissing (each_receiveFileOverDataChannel hfinal o session fs _ _ _
      (hopen (by decide) rfl (.lit rfl)))
  | APPE =>
    exact each_requireArgument hmissing (each_receiveFileOverDataChannel hfinal o session fs _ _ _
      (hopen (by decide) rfl (.lit rfl)))
  | STOU =>
    have hname : "125" ∈ Verb.openings .STOU := by decide
    have hreply : ("125 FILE: " ++ uniqueName session fs argument ++ "\r\n").toList =
        "125".toList ++ ' ' :: ("FILE: ".toList ++
          (uniqueName session fs argument).toList ++ "\r\n".toList) := by
      rw [String.toList_append, String.toList_append]
      rfl
    exact each_after (List.forall_mem_singleton.2 (.opening hname (by decide) (by decide) hreply
      (isLine_uniqueName session fs hargument))) (each_receiveFileOverDataChannel hfinal o
        session fs _ _ _ (hopen (by decide) rfl (.lit rfl)))
  | _ => exact absurd hverb (by decide)

/-- A line that gets to no command behind the login. -/
theorem single_of_executed_none (o : Outcomes) (fs : Storage) (h : executed session line = none) :
    (handleCommand o session fs line).Single := by
  rw [executed_eq, ← given_loginState session line] at h
  rw [handleCommand_eq]
  generalize session.given line = session at h ⊢
  split
  · rw [dispatch.eq_def]
    split
    · exact single_refuseArgument ⟨_, rfl⟩
    · exact single_refuseArgument single_answer
    · exact single_requireArgument single_answer
    · refine single_requireArgument ?_
      split <;> exact single_answer
    · rename_i hquit hnoop huser hpass
      rw [executed_of_ne hquit hnoop huser hpass] at h
      split
      · exact single_answer
      · rename_i hlogin
        rw [if_pos (not_not.1 hlogin)] at h
        rw [h]
        exact single_answer
  · exact single_answer

/-- What is assumed of the server and of the system when a line is handled: the line is no
    `ABOR`, a path that it asks for is within one line, and the data channel of a listing
    can be opened after its opening reply. -/
structure Serving.Ready (s : Serving) (o : Outcomes) (line : String) : Prop where
  not_abor : executed s.session line ≠ some .ABOR
  plain : s.Plain (.command line o)
  replySent : o.replySent = true
  channel : listing? s.session s.fs line ≠ none → s.session.dataMode ≠ .NONE →
    (openDataChannel o s.session).isOk = true

variable {s : Serving}

theorem Serving.Ready.turn_disciplined (h : s.Ready o line) : (s.turn o line).Disciplined := by
  have hopen : ∀ session', session' = s.session ∨ session' = { s.session with renameFrom := none } →
      listing? s.session s.fs line ≠ none → session'.dataMode ≠ .NONE → o.replySent = true →
        ∃ peer, openDataChannel o session' = .ok peer := by
    intro session' hsession' hlisting hmode _
    have hchannel : (openDataChannel o session').isOk = true := by
      rcases hsession' with rfl | rfl <;> exact h.channel hlisting hmode
    cases hopened : openDataChannel o session' with
    | ok peer => exact ⟨peer, rfl⟩
    | error reply =>
      rw [hopened] at hchannel
      cases hchannel
  have hreplied : ∀ {turn : Turn} {listing : Option String},
      turn.Disciplined ∨ listing ≠ none ∧ o.replySent = false ∧ turn.Silent → turn.Disciplined :=
    fun hor => hor.elim id fun hlost => absurd (hlost.2.1.symm.trans h.replySent) Bool.false_ne_true
  have hlisting := hopen
  rw [listing?] at hlisting
  rcases handleCommand_cases o s.session s.fs line with ⟨_, hturn⟩ | ⟨verb, session', hverb, hsession', hturn⟩
  · exact hturn
  · have hne := h.not_abor
    rw [hverb] at hne hlisting
    have hpm : session'.pathManager = s.session.pathManager := by
      rcases hsession' with rfl | rfl <;> rfl
    rw [Serving.turn, hturn]
    by_cases hlist : verb = .LIST
    · subst hlist
      rw [execute, handleList]
      refine hreplied (disciplined_sendListing (.lit rfl) (.lit rfl) _ ?_)
      rw [hpm]
      exact hlisting session' hsession'
    by_cases hnlst : verb = .NLST
    · subst hnlst
      rw [execute, handleNlst]
      refine hreplied (disciplined_sendListing (.lit rfl) (.lit rfl) _ ?_)
      rw [hpm]
      exact hlisting session' hsession'
    exact disciplined_execute o session' s.fs _ hne (fun heq => hlist (Option.some.inj heq))
      fun heq => hnlst (Option.some.inj heq)

/-- A line gets the replies of a transfer, or a single one. -/
theorem Serving.Ready.replies (h : s.Ready o line) :
    (∃ verb ∈ Verb.transfers, lineVerb line = some verb ∧
        (s.turn o line).Each (TransferReply verb.openings)) ∨
      (s.turn o line).Single := by
  cases hverb : executed s.session line with
  | none => exact .inr (single_of_executed_none o s.fs hverb)
  | some verb =>
    rw [Serving.turn, handleCommand_of_executed o s.fs hverb]
    by_cases htransfer : verb ∈ Verb.transfers
    · exact .inl ⟨verb, htransfer, (executed_spec hverb).1,
        each_execute o _ s.fs (oneLine_argument h.plain.1) htransfer⟩
    · refine .inr (single_execute o _ s.fs _ htransfer ?_)
      rintro rfl
      exact h.not_abor hverb

end

/-! ## What the client hears -/

/-- The first of two replies, and what follows it, can be told from the characters. -/
theorem Reply.wire_append_inj {r r' : Reply} {rest rest' : List Char}
    (h : r.wire ++ rest = r'.wire ++ rest') : r.text = r'.text ∧ r.wire = r'.wire ∧ rest = rest' := by
  have hread := congrArg recvReply h
  rw [recvReply_wire, recvReply_wire, Prod.mk.injEq] at hread
  obtain ⟨htext, rfl⟩ := hread
  exact ⟨htext, List.append_cancel_right h, rfl⟩

/-- A reply that is sent in one line is one of one line. -/
theorem Reply.more_eq_nil {r r' : Reply} (h : r.wire = r'.wire) (hmore : r'.more = []) :
    r.more = [] := by
  have hread := congrArg (fun stream => (recvControlReply (stream ++ [])).2) h
  rw [recvControlReply_wire, recvControlReply_wire, hmore, List.append_nil] at hread
  exact wireLines_eq_nil_iff.1 hread

/-- The answer is made of the characters that the server sends. If it consumes an `ABOR`
    line, the replies to that come instead of the final one. -/
def LineOutcomes.hears (o : LineOutcomes) (answer : Answer) (turn : Turn) : Bool :=
  let stream := turn.replies.flatMap String.toList
  if turn.aborted then
    match o.abortAnswer with
    | .consumed aborted completed => answer.first.wire ++ (aborted.wire ++ completed.wire) = stream
    | .late _ => false
  else answer.first.wire ++ answer.rest = stream

/-- The answers that the client knows how to read: a single reply, or one that opens a
    transfer by a code that is waited for, with a final line to come, or two if the server
    has consumed an `ABOR` line. -/
inductive Answer.Heard (o : LineOutcomes) (codes : List String) : Bool → Answer → Prop
  | single (reply : Reply) (h : ¬reply.Preliminary) : Heard o codes false (.single reply h)
  | concluded (opening final : Reply) (ho : opening.Preliminary) (hf : ¬final.Preliminary) :
    (∃ code ∈ codes, hasCode opening.text code = true) → final.more = [] →
      Heard o codes false (.opened opening final ho hf)
  | aborted (answer : Answer) (aborted completed : Reply) :
    (∃ code ∈ codes, hasCode answer.first.text code = true) →
      o.abortAnswer = .consumed aborted completed → aborted.more = [] → completed.more = [] →
        Heard o codes true answer

section

variable {o : LineOutcomes} {answer : Answer} {turn : Turn} {codes : List String} {reply : String}

/-- What is left of an answer is read if its final reply is. -/
theorem Answer.Heard.matched {aborted : Bool} {read : Reply → Prop}
    (h : answer.Heard o codes aborted)
    (hread : ∀ opening final : Reply, answer.first.text = opening.text →
      (∃ code ∈ codes, hasCode opening.text code = true) → (aborted = false → final.more = []) →
        read final) : answer.Matched codes read := by
  cases h with
  | single => trivial
  | concluded opening final _ _ hcode hmore =>
    exact ⟨hcode, hread opening final rfl hcode fun _ => hmore⟩
  | aborted _ _ _ hcode =>
    cases answer with
    | single => trivial
    | opened opening final => exact ⟨hcode, hread opening final rfl hcode nofun⟩

theorem not_final_of_preliminary (h : Preliminary reply) : ¬Final reply := by
  rintro ⟨d, hd, hclass⟩
  rw [Preliminary] at h
  obtain rfl := Option.some.inj (h.symm.trans hclass)
  exact absurd hd (by decide)

/-- The code of an opening reply, as it is read. -/
theorem exists_opening (h : TransferReply codes reply) (hp : Preliminary reply) :
    ∃ r : Reply, r.more = [] ∧ reply = String.ofList r.wire ∧
      ∃ code ∈ codes, hasCode r.text code = true := by
  obtain ⟨⟨r, hmore, rfl⟩, hcode | hfinal⟩ := h
  · refine ⟨r, hmore, rfl, ?_⟩
    have hread := recvReply_wire r []
    rw [List.append_nil] at hread
    rwa [String.toList_ofList, hread] at hcode
  · exact absurd hfinal (not_final_of_preliminary hp)

/-- A single reply. -/
theorem heard_of_single (hd : turn.Disciplined) (hsingle : turn.Single) (hframed : turn.Framed)
    (h : o.hears answer turn = true) : answer.Heard o codes turn.aborted := by
  obtain ⟨reply, hreplies⟩ := hsingle
  obtain ⟨r, rfl⟩ := hframed reply (by rw [hreplies]; exact List.mem_singleton_self _)
  have haborted : turn.aborted = false := by
    rw [Turn.Disciplined, hreplies] at hd
    generalize turn.aborted = aborted at hd
    cases hd with
    | final _ => rfl
    | opened _ hc => cases hc
  rw [LineOutcomes.hears, haborted, hreplies] at h
  have hstream : answer.first.wire ++ answer.rest = r.wire ++ [] := by simpa using h
  obtain ⟨_, _, hrest⟩ := Reply.wire_append_inj hstream
  rw [haborted]
  cases answer with
  | single reply hr => exact .single reply hr
  | opened opening final ho hf => exact absurd hrest final.wire_ne_nil

/-- The replies of a transfer. -/
theorem heard_of_each (hd : turn.Disciplined) (heach : turn.Each (TransferReply codes))
    (h : o.hears answer turn = true) : answer.Heard o codes turn.aborted := by
  rw [Turn.Disciplined] at hd
  rw [Turn.Each] at heach
  rw [LineOutcomes.hears] at h
  generalize turn.aborted = aborted at hd h ⊢
  generalize turn.replies = replies at hd heach h
  -- Replies that make up the same characters are the same, one by one.
  cases hd with
  | final hf =>
    obtain ⟨⟨r, _, rfl⟩, _⟩ := heach _ List.mem_cons_self
    have hstream : answer.first.wire ++ answer.rest = r.wire ++ [] := by simpa using h
    obtain ⟨_, _, hrest⟩ := Reply.wire_append_inj hstream
    cases answer with
    | single reply hr => exact .single reply hr
    | opened opening final ho hf => exact absurd hrest final.wire_ne_nil
  | opened ho hc =>
    obtain ⟨opening, _, rfl, hcode⟩ := exists_opening (heach _ List.mem_cons_self) ho
    cases hc with
    | final hf =>
      obtain ⟨⟨final, hmore, rfl⟩, _⟩ := heach _ (List.mem_cons_of_mem _ List.mem_cons_self)
      have hstream : answer.first.wire ++ answer.rest = opening.wire ++ final.wire := by simpa using h
      obtain ⟨htext, _, hrest⟩ := Reply.wire_append_inj hstream
      cases answer with
      | single reply hr => exact absurd hrest.symm final.wire_ne_nil
      | opened opening' final' ho' hf' =>
        exact .concluded opening' final' ho' hf' (htext ▸ hcode) (Reply.more_eq_nil hrest hmore)
    | aborted =>
      obtain ⟨⟨first, hfirst, heq⟩, _⟩ := heach _ (List.mem_cons_of_mem _ List.mem_cons_self)
      obtain ⟨⟨second, hsecond, heq'⟩, _⟩ :=
        heach _ (List.mem_cons_of_mem _ (List.mem_cons_of_mem _ List.mem_cons_self))
      cases habort : o.abortAnswer with
      | late late => simp [habort] at h
      | consumed aborted completed =>
        have hstream : answer.first.wire ++ (aborted.wire ++ completed.wire) =
            opening.wire ++ (first.wire ++ second.wire) := by simpa [habort, heq, heq'] using h
        obtain ⟨htext, _, hrest⟩ := Reply.wire_append_inj hstream
        obtain ⟨_, haborted, hcompleted⟩ := Reply.wire_append_inj hrest
        exact .aborted answer aborted completed (htext ▸ hcode) habort
          (Reply.more_eq_nil haborted hfirst) (Reply.more_eq_nil hcompleted hsecond)

/-- What the client reads first is the first reply. -/
theorem firstReply_of_hears (hd : turn.Disciplined) (hframed : turn.Framed)
    (h : o.hears answer turn = true) : turn.firstReply = answer.first.text := by
  have hcons : ∃ reply more, turn.replies = reply :: more := by
    rw [Turn.Disciplined] at hd
    generalize turn.aborted = aborted at hd
    generalize turn.replies = replies at hd ⊢
    cases hd with
    | final _ => exact ⟨_, _, rfl⟩
    | opened _ _ => exact ⟨_, _, rfl⟩
  obtain ⟨reply, more, hreplies⟩ := hcons
  obtain ⟨r, rfl⟩ := hframed reply (by rw [hreplies]; exact List.mem_cons_self)
  have hstream : ∃ rest, answer.first.wire ++ rest = r.wire ++ more.flatMap String.toList := by
    rw [LineOutcomes.hears, hreplies] at h
    cases haborted : turn.aborted with
    | false => exact ⟨answer.rest, by simpa [haborted] using h⟩
    | true =>
      cases habort : o.abortAnswer with
      | late late => simp [haborted, habort] at h
      | consumed aborted completed =>
        exact ⟨aborted.wire ++ completed.wire, by simpa [haborted, habort] using h⟩
  obtain ⟨rest, hrest⟩ := hstream
  have hread := recvReply_wire r []
  rw [List.append_nil] at hread
  rw [Turn.firstReply, hreplies, List.headD_cons, String.toList_ofList, hread]
  exact (Reply.wire_append_inj hrest).1.symm

end

/-! ## The machine -/

/-- The session handles commands, of one line each, and the client hears the answers: the
    state then, and whether an `ABOR` line has been consumed. -/
def Serving.converse (s : Serving) (o : LineOutcomes) (os : List Outcomes) :
    List Exchange → Option (Serving × List Outcomes × Bool)
  | [] => some (s, os, false)
  | e :: es =>
    match readLines e.command with
    | [line] =>
      let turn := s.turn (os.headD {}) line
      if s.ended ∨ ¬o.hears e.answer turn then none
      else
        ((s.after (os.headD {}) line).converse o os.tail es).map fun (s, os, aborted) =>
          (s, os, turn.aborted || aborted)
    | _ => none

/-- The machine of a client and the session that serves it, which hears what the session
    sends. An `ABOR` line that is consumed is one that the client has sent. -/
def conversation : Machine Dialogue DialogueEvent where
  init := dialogue.init
  step
    | .prompt line o os, d =>
      if d.cli.ended ∨ d.cli.aborted ∨ LINE_SIZE ≤ line.toList.length ∨ '\n' ∈ line.toList then none
      else
        (d.cli.promptLine o line).bind fun (_, cli) =>
          (d.server.converse o os (cli.exchanges.drop d.cli.exchanges.length)).bind
            fun (server, os, aborted) =>
              if aborted = (!d.cli.abortCommandSent && cli.abortCommandSent && !o.abortLate) then
                some { cli, server := (server.handleLines (lateLines o d.cli cli) os).1 }
              else none
    | .others fs, d => dialogue.step (.others fs) d

/-- What is assumed of the server and of the system while commands are handled. -/
def Serving.ReadyFor : Serving → List Outcomes → List Exchange → Prop
  | _, _, [] => True
  | s, os, e :: es => ∀ line ∈ readLines e.command,
      s.Ready (os.headD {}) line ∧ (s.after (os.headD {}) line).ReadyFor os.tail es

/-- The codes of the replies that open the transfer that a line asks for. -/
def lineOpenings (line : String) : List String := ((lineVerb line).map Verb.openings).getD []

/-- What the client has heard of a command, and whether its transfer has been aborted. -/
def Exchange.Heard (o : LineOutcomes) (e : Exchange) (aborted : Bool) : Prop :=
  ∃ line, readLines e.command = [line] ∧ e.answer.Heard o (lineOpenings line) aborted

section

variable {s s' : Serving} {o : LineOutcomes} {os os' : List Outcomes} {e : Exchange}
  {es : List Exchange} {aborted : Bool} {line : String} {outcomes : Outcomes}

theorem Serving.Ready.framed (h : s.Ready outcomes line) : (s.turn outcomes line).Framed :=
  framed_handleCommand outcomes s.session s.fs h.plain.1 h.plain.2

theorem Serving.Ready.heard (h : s.Ready outcomes line) {answer : Answer}
    (hears : o.hears answer (s.turn outcomes line) = true) :
    answer.Heard o (lineOpenings line) (s.turn outcomes line).aborted := by
  rcases h.replies with ⟨verb, _, hverb, heach⟩ | hsingle
  · rw [lineOpenings, hverb]
    exact heard_of_each h.turn_disciplined heach hears
  · exact heard_of_single h.turn_disciplined hsingle h.framed hears

theorem converse_cons (h : s.converse o os (e :: es) = some (s', os', aborted)) :
    ∃ line aborted', readLines e.command = [line] ∧ ¬s.ended ∧
      o.hears e.answer (s.turn (os.headD {}) line) = true ∧
      (s.after (os.headD {}) line).converse o os.tail es = some (s', os', aborted') ∧
      aborted = ((s.turn (os.headD {}) line).aborted || aborted') := by
  rw [Serving.converse] at h
  split at h
  · rename_i line hline
    rw [Option.ite_none_left_eq_some, not_or, not_not] at h
    obtain ⟨⟨hended, hears⟩, h⟩ := h
    obtain ⟨⟨s₁, os₁, aborted'⟩, hconverse, heq⟩ := Option.map_eq_some_iff.1 h
    cases heq
    exact ⟨line, aborted', hline, hended, hears, hconverse, rfl⟩
  · cases h

/-- Everything is heard, and if an `ABOR` line has been consumed, the answer to that, too. -/
theorem heard_of_converse (h : s.converse o os es = some (s', os', aborted))
    (hready : s.ReadyFor os es) :
    (∀ e ∈ es, ∃ aborted', e.Heard o aborted' ∧ (aborted' = true → aborted = true)) ∧
      (aborted = true → ∃ e ∈ es, e.Heard o true) := by
  induction es generalizing s os aborted with
  | nil =>
    cases h
    exact ⟨List.forall_mem_nil _, nofun⟩
  | cons e es ih =>
    obtain ⟨line, aborted', hline, _, hears, hconverse, rfl⟩ := converse_cons h
    obtain ⟨hready, hmore⟩ := hready line (by rw [hline]; exact List.mem_singleton_self _)
    obtain ⟨hall, hsome⟩ := ih hconverse hmore
    have heard := hready.heard hears
    refine ⟨List.forall_mem_cons.2 ⟨⟨_, ⟨line, hline, heard⟩, fun hfirst => ?_⟩, fun e he => ?_⟩,
      fun haborted => ?_⟩
    · exact Bool.or_eq_true_iff.2 (.inl hfirst)
    · obtain ⟨aborted'', he', himp⟩ := hall e he
      exact ⟨aborted'', he', fun h => Bool.or_eq_true_iff.2 (.inr (himp h))⟩
    · rcases Bool.or_eq_true_iff.1 haborted with hfirst | hrest
      · rw [hfirst] at heard
        exact ⟨e, List.mem_cons_self, line, hline, heard⟩
      · obtain ⟨e', hmem, he'⟩ := hsome hrest
        exact ⟨e', List.mem_cons_of_mem _ hmem, he'⟩

/-- Where each command has got its own reply, the session has responded to it. -/
theorem respondAll_of_converse (h : s.converse o os es = some (s', os', aborted))
    (hready : s.ReadyFor os es) (hreturned : ∀ e ∈ es, e.returned = e.answer.first.text) :
    s.respondAll os es = some (s', os') := by
  induction es generalizing s os aborted with
  | nil =>
    cases h
    rfl
  | cons e es ih =>
    obtain ⟨line, aborted', hline, hended, hears, hconverse, _⟩ := converse_cons h
    obtain ⟨hready, hmore⟩ := hready line (by rw [hline]; exact List.mem_singleton_self _)
    rw [List.forall_mem_cons] at hreturned
    have hreply := firstReply_of_hears hready.turn_disciplined hready.framed hears
    have hrespond : s.respond os e = some (s.after (os.headD {}) line, os.tail) := by
      rw [Serving.respond, hline]
      dsimp only
      rw [if_neg (not_or.2 ⟨hended, not_not.2 (hreturned.1.trans hreply.symm)⟩)]
      rfl
    rw [Serving.respondAll, hrespond, Option.bind_some]
    exact ih hconverse hmore hreturned.2

end

/-! ## What the client makes of it -/

namespace ClientCLI

variable {cli cli₁ cli' : ClientCLI} {o : LineOutcomes}

/-- How far `requestData` gets: to an endpoint or not, to a command that is answered, and to
    the data. -/
theorem requestData_cases (h : cli.InStep) {command noReply failure text : String}
    {cannotParse : String → String} {use : String → Bytes → ClientCLI → String × ClientCLI}
    (hsome : cli.requestData o command noReply failure cannotParse use = some (text, cli')) :
    ∃ result cli₁, cli.dataEndpoint o cannotParse = some (result, cli₁) ∧
      ((∀ endpoint, result = .ok endpoint → (cli.active = false → o.udpError = none) → False) ∧
          cli' = cli₁ ∨
        hasCode o.answer.first.text "150" = false ∧ cli' = cli₁.asked command o.answer ∨
        cli' = ((cli₁.asked command o.answer).receiveData o o.answer.first.text failure
          (use o.answer.first.text)).2) := by
  rw [requestData] at hsome
  cases hendpoint : cli.dataEndpoint o cannotParse with
  | none =>
    rw [hendpoint] at hsome
    cases hsome
  | some found =>
    obtain ⟨result, cli₁⟩ := found
    refine ⟨result, cli₁, rfl, ?_⟩
    rw [hendpoint] at hsome
    cases result with
    | error text =>
      cases hsome
      exact .inl ⟨fun _ hok _ => (by cases hok), rfl⟩
    | ok endpoint =>
      dsimp only at hsome
      have hactive : cli₁.active = cli.active := by
        rcases dataEndpoint_eq_or h hendpoint with rfl | rfl <;> rfl
      rw [hactive] at hsome
      cases hudp : (if cli.active = true then none else o.udpError) with
      | some error =>
        rw [hudp] at hsome
        cases hsome
        refine .inl ⟨fun _ _ hnone => ?_, rfl⟩
        cases hcli : cli.active with
        | true => simp [hcli] at hudp
        | false => simp [hcli, hnone hcli] at hudp
      | none =>
        have hstep : cli₁.InStep := by
          rcases dataEndpoint_cases h hendpoint with ⟨_, rfl, _⟩ | ⟨_, rfl, hok⟩
          · exact h
          · exact (inStep_iff_due (pending_asked h _ _)).2 (rest_of_hasEndpoint (hok.1 ⟨_, rfl⟩))
        rw [hudp] at hsome
        dsimp only at hsome
        rw [sendCommand_eq hstep] at hsome
        dsimp only at hsome
        rw [if_neg (text_ne_empty _)] at hsome
        split at hsome
        · rename_i hcode
          cases hsome
          exact .inr (.inl ⟨Bool.eq_false_iff.2 hcode, rfl⟩)
        · exact .inr (.inr (congrArg Prod.snd (Option.some.inj hsome)).symm)

/-- What the client has heard since it was at the prompt: an answer to every command, and
    if the server has consumed its `ABOR` line, two lines to end the transfer. -/
structure Hears (cli cli' : ClientCLI) (o : LineOutcomes) : Prop where
  heard : ∀ e ∈ cli'.exchanges.drop cli.exchanges.length,
    ∃ aborted, e.Heard o aborted ∧ (aborted = true → cli'.abortCommandSent = true)
  consumed : cli'.abortCommandSent = true → o.abortLate = false →
    ∃ aborted completed, o.abortAnswer = .consumed aborted completed ∧ aborted.more = [] ∧
      completed.more = []

/-- A command whose line opens no transfer gets a single reply. -/
theorem rest_of_heard {answer : Answer} {aborted : Bool} (h : answer.Heard o [] aborted) :
    answer.rest = [] := by
  cases h with
  | single => rfl
  | concluded _ _ _ _ hcode =>
    obtain ⟨_, hmem, _⟩ := hcode
    cases hmem
  | aborted _ _ _ hcode =>
    obtain ⟨_, hmem, _⟩ := hcode
    cases hmem

/-- A command that has been sent since, with the answer to it. -/
def Sent (cli cli' : ClientCLI) (command : String) (answer : Answer) : Prop :=
  ∃ returned, ⟨command, answer, returned⟩ ∈ cli'.exchanges.drop cli.exchanges.length

theorem Sent.of_append {command : String} {answer : Answer} {before after : List Exchange}
    (h : cli'.exchanges = cli.exchanges ++ before ++
      ⟨command, answer, answer.first.text⟩ :: after) : cli.Sent cli' command answer := by
  refine ⟨answer.first.text, ?_⟩
  rw [h, List.append_assoc, List.drop_left]
  exact List.mem_append_right _ List.mem_cons_self

theorem Hears.answer (h : cli.Hears cli' o) {command line : String} {more : List String}
    {answer : Answer} (hsent : cli.Sent cli' command answer)
    (hline : readLines command = line :: more) :
    ∃ aborted, answer.Heard o (lineOpenings line) aborted ∧
      (aborted = true → cli'.abortCommandSent = true) := by
  obtain ⟨returned, hmem⟩ := hsent
  obtain ⟨aborted, ⟨line', hline', heard⟩, himp⟩ := h.heard _ hmem
  obtain ⟨rfl, _⟩ := List.cons.inj (hline.symm.trans hline')
  exact ⟨aborted, heard, himp⟩

/-- The exchanges of an endpoint. -/
theorem exchanges_dataEndpoint (h : cli.InStep) {cannotParse : String → String}
    {result : Except String Endpoint}
    (hsome : cli.dataEndpoint o cannotParse = some (result, cli₁)) :
    ∃ before, cli₁.exchanges = cli.exchanges ++ before ∧
      (cli.active = false → before = [⟨"PASV", o.pasvAnswer, o.pasvAnswer.first.text⟩]) := by
  rcases dataEndpoint_cases h hsome with ⟨hactive, rfl, _⟩ | ⟨_, rfl, _⟩
  · exact ⟨[], (List.append_nil _).symm, fun h => absurd (hactive.symm.trans h) (by simp)⟩
  · exact ⟨_, rfl, fun _ => rfl⟩

/-- The endpoint that a command needs is asked for by a command with a single reply. -/
theorem endpointMatched (h : cli.InStep) {cannotParse : String → String}
    {result : Except String Endpoint} {follows : Prop}
    (hsome : cli.dataEndpoint o cannotParse = some (result, cli₁)) (hears : cli.Hears cli' o)
    (hexchanges : ∃ after, cli'.exchanges = cli₁.exchanges ++ after)
    (hok : ∀ endpoint, result = .ok endpoint → follows) : cli.EndpointMatched o follows := by
  obtain ⟨before, hbefore, hpasv⟩ := exchanges_dataEndpoint h hsome
  obtain ⟨after, hafter⟩ := hexchanges
  rcases dataEndpoint_cases h hsome with
    ⟨hactive, _, endpoint, hendpoint⟩ | ⟨hactive, _, hendpoint⟩
  · exact ⟨fun _ => hok endpoint hendpoint, fun hp => absurd (hactive.symm.trans hp) (by simp)⟩
  · refine ⟨fun ha => absurd (hactive.symm.trans ha) (by simp), fun _ => ⟨?_, fun htrue => ?_⟩⟩
    · have hsplit : cli'.exchanges = cli.exchanges ++ [] ++
          ⟨"PASV", o.pasvAnswer, o.pasvAnswer.first.text⟩ :: after := by
        rw [hafter, hbefore, hpasv hactive, List.append_nil, List.append_assoc]
        rfl
      obtain ⟨aborted, heard, _⟩ :=
        hears.answer (.of_append hsplit) (by decide +kernel : readLines "PASV" = ["PASV"])
      have hopenings : lineOpenings "PASV" = [] := by decide +kernel
      rw [hopenings] at heard
      exact rest_of_heard heard
    · obtain ⟨endpoint, hendpoint⟩ := hendpoint.2 htrue
      exact hok endpoint hendpoint

/-- What the client has heard of the command that follows an endpoint: it is aborted only if
    the client has interrupted it. -/
theorem Hears.answer_of_endpoint (hears : cli.Hears cli' o) (h : cli.InStep)
    (hacs : cli.abortCommandSent = false) {interrupted : Prop}
    (hasks : Asks (fun _ => True) interrupted cli cli') {cannotParse : String → String}
    {result : Except String Endpoint}
    (hsome : cli.dataEndpoint o cannotParse = some (result, cli₁)) {command line : String}
    {lines : List String} {after : List Exchange}
    (hafter : cli'.exchanges = cli₁.exchanges ++ ⟨command, o.answer, o.answer.first.text⟩ :: after)
    (hline : readLines command = line :: lines) :
    ∃ aborted, o.answer.Heard o (lineOpenings line) aborted ∧ (aborted = true → interrupted) := by
  obtain ⟨before, hbefore, _⟩ := exchanges_dataEndpoint h hsome
  rw [hbefore] at hafter
  obtain ⟨aborted, heard, haborted⟩ := hears.answer (.of_append hafter) hline
  refine ⟨aborted, heard, fun htrue => hasks.abortCommandSent.resolve_left fun heq => ?_⟩
  exact absurd ((haborted htrue).symm.trans (heq.trans hacs)) (by decide)

/-- A transfer that is interrupted has `ABOR` sent. -/
theorem abortCommandSent_failTransfer (cli : ClientCLI) (openingReply error : String) :
    (cli.failTransfer o true openingReply error).2.abortCommandSent = true := by
  have hinterrupt : (cli.interruptTransfer o.abortAnswer).abortCommandSent = true := by
    rw [interruptTransfer.eq_def]
    split
    · assumption
    · rfl
  rw [failTransfer]
  simp only [if_true, hinterrupt]
  exact hinterrupt

/-- What is received can be decoded, or the server is told in time that it is not wanted. -/
def ReceiveFares (cli : ClientCLI) (o : LineOutcomes) : Prop :=
  match o.received with
  | .completed buffer =>
    (TransferModeCodec.decode buffer cli.transferMode cli.transferType).error = none
  | .failed => False
  | .aborted => o.abortLate = false

/-- There is a socket and a peer to send to, and what is sent arrives, or the server is told
    in time that nothing more comes. -/
def SendFares (cli : ClientCLI) (o : LineOutcomes) : Prop :=
  (cli.active = false → o.udpError = none) ∧ (cli.active = true → knockSender o.knock ≠ none) ∧
    match o.sent with
    | .completed () => True
    | .failed => False
    | .aborted => o.abortLate = false

theorem Hears.abortMatched (h : cli.Hears cli' o) (hsent : cli'.abortCommandSent = true)
    (hlate : o.abortLate = false) (final : Reply) : o.abortAnswer.Matched final := by
  obtain ⟨aborted, completed, heq, haborted, hcompleted⟩ := h.consumed hsent hlate
  rw [heq]
  exact ⟨haborted, hcompleted⟩

theorem receiveData_aborted (h : o.received = .aborted) (openingReply failure : String)
    (use : Bytes → ClientCLI → String × ClientCLI) :
    (cli.receiveData o openingReply failure use).2.abortCommandSent = true := by
  rw [receiveData, h]
  exact abortCommandSent_failTransfer cli openingReply _

theorem requestMatched (h : cli.InStep) (hacs : cli.abortCommandSent = false)
    {command noReply failure text line : String} {more : List String}
    {cannotParse : String → String}
    {use : String → Bytes → ClientCLI → String × ClientCLI} {used : Prop}
    (huse : ∀ openingReply buffer cli,
      Asks (fun _ => True) (o.received = .aborted) cli (use openingReply buffer cli).2)
    (hsome : cli.requestData o command noReply failure cannotParse use = some (text, cli'))
    (hears : cli.Hears cli' o) (hline : readLines command = line :: more)
    (hopenings : lineOpenings line = ["150"]) (hfares : cli.ReceiveFares o) (hused : used) :
    cli.RequestMatched o used := by
  have hasks : Asks (fun _ => True) (o.received = .aborted) cli cli' :=
    asks_requestData (fun _ => trivial) trivial id huse hsome
  obtain ⟨result, cli₁, hendpoint, hcases⟩ := requestData_cases h hsome
  -- The command is the first thing that is sent after the `PASV`, if it is sent at all.
  have hafter : ∃ after, cli'.exchanges = cli₁.exchanges ++ after ∧
      ((∀ endpoint, result = .ok endpoint → (cli.active = false → o.udpError = none) → False) ∨
        ∃ more, after = ⟨command, o.answer, o.answer.first.text⟩ :: more) := by
    rcases hcases with ⟨hnot, rfl⟩ | ⟨_, rfl⟩ | rfl
    · exact ⟨[], (List.append_nil _).symm, .inl hnot⟩
    · exact ⟨_, rfl, .inr ⟨[], rfl⟩⟩
    · obtain ⟨more, hmore, _⟩ := (asks_receiveData (huse o.answer.first.text)
        (cli₁.asked command o.answer) id o.answer.first.text failure).exchanges
      exact ⟨⟨command, o.answer, o.answer.first.text⟩ :: more,
        hmore.trans (List.append_assoc _ _ _), .inr ⟨more, rfl⟩⟩
  obtain ⟨after, hafter, hsent⟩ := hafter
  refine endpointMatched h hendpoint hears ⟨after, hafter⟩ fun endpoint hok hudp => ?_
  obtain ⟨more, rfl⟩ := hsent.resolve_left fun hnot => hnot endpoint hok hudp
  obtain ⟨aborted, heard, hinterrupted⟩ :=
    hears.answer_of_endpoint h hacs hasks hendpoint hafter hline
  rw [hopenings] at heard
  refine heard.matched fun opening final hfirst hfound hmore => ?_
  obtain ⟨code, hmem, hcode⟩ := hfound
  rw [List.mem_singleton.1 hmem, ← hfirst] at hcode
  -- A transfer that is aborted has been under way, and `ABOR` has been sent for it.
  have hdata : o.received = .aborted → cli'.abortCommandSent = true := by
    intro hreceived
    rcases hcases with ⟨hnot, _⟩ | ⟨hno, _⟩ | rfl
    · exact absurd (hnot endpoint hok hudp) id
    · exact absurd (hno.symm.trans hcode) Bool.false_ne_true
    · exact receiveData_aborted hreceived _ _ _
  rw [ReceiveFares] at hfares
  rw [ReceiveMatched]
  cases hreceived : o.received with
  | completed buffer =>
    rw [hreceived] at hfares
    have hnot : aborted = false :=
      Bool.eq_false_iff.2 fun htrue => by simpa [hreceived] using hinterrupted htrue
    exact ⟨hfares, hused, hmore hnot⟩
  | failed =>
    rw [hreceived] at hfares
    exact hfares
  | aborted =>
    rw [hreceived] at hfares
    exact hears.abortMatched (hdata hreceived) hfares final

/-- How far `handleStor` gets: to an endpoint or not, to a command that is answered, and to
    the data. -/
theorem handleStor_cases (h : cli.InStep) {localFile remoteFile command text : String}
    {unique append : Bool} {bytes : Bytes} (hfile : o.localFile = .content bytes)
    (hcommand : (if unique then if remoteFile = "" then "STOU" else "STOU " ++ remoteFile
      else if append then "APPE " ++ remoteFile else "STOR " ++ remoteFile) = command)
    (hsome : cli.handleStor o localFile remoteFile unique append = some (text, cli')) :
    ∃ result cli₁,
      cli.dataEndpoint o ("Error: Cannot parse PASV reply: " ++ ·) = some (result, cli₁) ∧
      ((∀ endpoint, result = .ok endpoint → False) ∧ cli' = cli₁ ∨
        hasCode o.answer.first.text "150" = false ∧ hasCode o.answer.first.text "125" = false ∧
          cli' = cli₁.asked command o.answer ∨
        cli' = ((cli₁.asked command o.answer).sendData o o.answer.first.text).2) := by
  rw [handleStor, hfile] at hsome
  dsimp only at hsome
  cases hendpoint : cli.dataEndpoint o ("Error: Cannot parse PASV reply: " ++ ·) with
  | none =>
    rw [hendpoint] at hsome
    cases hsome
  | some found =>
    obtain ⟨result, cli₁⟩ := found
    refine ⟨result, cli₁, rfl, ?_⟩
    rw [hendpoint] at hsome
    cases result with
    | error text =>
      cases hsome
      exact .inl ⟨fun _ hok => (by cases hok), rfl⟩
    | ok endpoint =>
      have hstep : cli₁.InStep := by
        rcases dataEndpoint_cases h hendpoint with ⟨_, rfl, _⟩ | ⟨_, rfl, hok⟩
        · exact h
        · exact (inStep_iff_due (pending_asked h _ _)).2 (rest_of_hasEndpoint (hok.1 ⟨_, rfl⟩))
      dsimp only at hsome
      rw [hcommand, sendCommand_eq hstep] at hsome
      dsimp only at hsome
      rw [if_neg (text_ne_empty _)] at hsome
      split at hsome
      · rename_i hcode
        cases hsome
        exact .inr (.inl ⟨Bool.eq_false_iff.2 hcode.1, Bool.eq_false_iff.2 hcode.2, rfl⟩)
      · exact .inr (.inr (congrArg Prod.snd (Option.some.inj hsome)).symm)

theorem sendData_aborted (hudp : cli.active = false → o.udpError = none)
    (hknock : cli.active = true → knockSender o.knock ≠ none) (h : o.sent = .aborted)
    (openingReply : String) : (cli.sendData o openingReply).2.abortCommandSent = true := by
  have hopen : (if cli.active then none else o.udpError) = none := by
    split
    · rfl
    · exact hudp (Bool.eq_false_iff.2 ‹_›)
  rw [sendData, hopen]
  dsimp only
  rw [if_neg fun hno => hknock hno.1 hno.2, h]
  exact abortCommandSent_failTransfer cli openingReply _

theorem storeMatched (h : cli.InStep) (hacs : cli.abortCommandSent = false)
    {localFile remoteFile command text line : String} {more : List String} {unique append : Bool}
    (hcommand : (if unique then if remoteFile = "" then "STOU" else "STOU " ++ remoteFile
      else if append then "APPE " ++ remoteFile else "STOR " ++ remoteFile) = command)
    (hsome : cli.handleStor o localFile remoteFile unique append = some (text, cli'))
    (hears : cli.Hears cli' o) (hline : readLines command = line :: more)
    (hopenings : lineOpenings line = ["150", "125"]) (hfares : cli.SendFares o) :
    cli.StoreMatched o := by
  rw [StoreMatched]
  cases hfile : o.localFile with
  | missing | unreadable | tooLarge => trivial
  | content bytes =>
    have hasks : Asks (fun _ => True) (o.sent = .aborted) cli cli' :=
      asks_handleStor (fun _ => trivial) trivial id hsome
    obtain ⟨result, cli₁, hendpoint, hcases⟩ := handleStor_cases h hfile hcommand hsome
    have hactive : (cli₁.asked command o.answer).active = cli.active := by
      rcases dataEndpoint_eq_or h hendpoint with rfl | rfl <;> rfl
    -- As for a download: the command comes right after the `PASV`.
    have hafter : ∃ after, cli'.exchanges = cli₁.exchanges ++ after ∧
        ((∀ endpoint, result = .ok endpoint → False) ∨
          ∃ more, after = ⟨command, o.answer, o.answer.first.text⟩ :: more) := by
      rcases hcases with ⟨hnot, rfl⟩ | ⟨_, _, rfl⟩ | rfl
      · exact ⟨[], (List.append_nil _).symm, .inl hnot⟩
      · exact ⟨_, rfl, .inr ⟨[], rfl⟩⟩
      · obtain ⟨more, hmore, _⟩ := (asks_sendData (cli₁.asked command o.answer)
          (id : o.sent = .aborted → o.sent = .aborted) o.answer.first.text :
            Asks (fun _ => True) _ _ _).exchanges
        exact ⟨⟨command, o.answer, o.answer.first.text⟩ :: more,
          hmore.trans (List.append_assoc _ _ _), .inr ⟨more, rfl⟩⟩
    obtain ⟨after, hafter, hsent⟩ := hafter
    refine endpointMatched h hendpoint hears ⟨after, hafter⟩ fun endpoint hok => ?_
    obtain ⟨more, rfl⟩ := hsent.resolve_left fun hnot => hnot endpoint hok
    obtain ⟨aborted, heard, hinterrupted⟩ :=
      hears.answer_of_endpoint h hacs hasks hendpoint hafter hline
    rw [hopenings] at heard
    refine heard.matched fun opening final hfirst hfound hmore => ?_
    obtain ⟨code, hmem, hcode⟩ := hfound
    rw [← hfirst] at hcode
    obtain ⟨hudp, hknock, hfares⟩ := hfares
    have hdata : o.sent = .aborted → cli'.abortCommandSent = true := by
      intro hinterrupt
      rcases hcases with ⟨hnot, _⟩ | ⟨hno, hno', _⟩ | rfl
      · exact absurd (hnot endpoint hok) id
      · rcases List.mem_pair.1 hmem with rfl | rfl
        · exact absurd (hno.symm.trans hcode) Bool.false_ne_true
        · exact absurd (hno'.symm.trans hcode) Bool.false_ne_true
      · exact sendData_aborted (fun h => hudp (hactive.symm.trans h))
          (fun h => hknock (hactive.symm.trans h)) hinterrupt _
    refine ⟨hudp, hknock, ?_⟩
    cases hsent : o.sent with
    | completed =>
      exact hmore (Bool.eq_false_iff.2 fun htrue => by simpa [hsent] using hinterrupted htrue)
    | failed =>
      rw [hsent] at hfares
      exact hfares
    | aborted =>
      rw [hsent] at hfares
      exact hears.abortMatched (hdata hsent) hfares final

/-! ### Lines at the prompt -/

/-- A command that begins with a name. -/
theorem readLines_command {word command : String} {verb : Verb} (hmem : (word, verb) ∈ Verb.table)
    {rest : List Char} (hcommand : command.toList = word.toList ++ rest)
    (hrest : ∀ c ∈ rest.head?, c = ' ') (hlength : command.toList.length ≤ LINE_SIZE) :
    ∃ line more, readLines command = line :: more ∧ lineOpenings line = verb.openings := by
  have htable : ∀ e ∈ Verb.table, e.1.toList ≠ [] ∧ e.1.toList.length < LINE_SIZE - 1 ∧
      (∀ c ∈ e.1.toList, c ≠ '\r') ∧ ∀ c ∈ e.1.toList, c ≠ Char.ofNat 0 := by decide
  obtain ⟨hne, hshort, hcr, hnul⟩ := htable _ hmem
  obtain ⟨first, more, rest', hread, hfirst, hrest', _⟩ :=
    readLines_of_word hne hshort hcr hnul hrest hcommand hlength
  refine ⟨first, more, hread, ?_⟩
  rw [lineOpenings, lineVerb_of_startsWith hmem ⟨rest', hfirst, hrest'⟩]
  rfl

theorem readLines_named {word name : String} {verb : Verb} (hmem : (word, verb) ∈ Verb.table)
    (hlength : name.toList.length + 1 + word.toList.length ≤ LINE_SIZE) :
    ∃ line more, readLines (word ++ (" " ++ name)) = line :: more ∧
      lineOpenings line = verb.openings := by
  have hcommand : (word ++ (" " ++ name)).toList = word.toList ++ ' ' :: name.toList := by
    rw [String.toList_append, String.toList_append]
    rfl
  refine readLines_command hmem hcommand (by simp) ?_
  rw [hcommand, List.length_append, List.length_cons]
  omega

/-- A line that is sent as it is typed, and opens no transfer. -/
theorem Hears.rest (h : cli.Hears cli' o) {line : String} (hlength : line.toList.length < LINE_SIZE)
    (hne : CommandParser.trim line ≠ "") (hopenings : lineOpenings (firstLine line) = [])
    (hexchanges : cli'.exchanges =
      (cli.sendCommand (CommandParser.trim line) o.answer).2.exchanges) : o.answer.rest = [] := by
  have hsent : cli.Sent cli' (CommandParser.trim line) o.answer := by
    refine ⟨(cli.sendCommand (CommandParser.trim line) o.answer).1, ?_⟩
    rw [hexchanges, sendCommand_exchanges, List.drop_left]
    exact List.mem_singleton_self _
  obtain ⟨aborted, heard, _⟩ := h.answer hsent (readLines_trim hlength hne)
  rw [hopenings] at heard
  exact rest_of_heard heard

theorem toUpperFirstWord_ne {line : String} (hne : CommandParser.trim line ≠ "") :
    toUpperFirstWord (CommandParser.trim line) ≠ "" := by
  obtain ⟨_, _, _, _, _, hhead⟩ := CommandParser.trim_spec line
  generalize CommandParser.trim line = text at hne hhead ⊢
  cases htext : text.toList with
  | nil => exact absurd (String.toList_eq_nil_iff.1 htext) hne
  | cons c rest =>
    have hblank := hhead c (by rw [htext]; rfl)
    have hc : c ≠ ' ' := by
      rintro rfl
      exact absurd hblank (by decide)
    intro hempty
    have hnil := congrArg String.toList hempty
    rw [toUpperFirstWord, CommandParser.toUpper, htext, String.toList_ofList, String.toList_ofList]
      at hnil
    simp [hc] at hnil

/-- What the client does not take for a transfer is none, if its word is a plain one. -/
theorem lineOpenings_firstLine {line : String} (hne : CommandParser.trim line ≠ "")
    (hword : ∀ c ∈ (toUpperFirstWord (CommandParser.trim line)).toList,
      isSpace c = false ∧ c ≠ Char.ofNat 0)
    (hother : PromptVerb.ofWord (toUpperFirstWord (CommandParser.trim line)) = .other) :
    lineOpenings (firstLine line) = [] := by
  have htable : ∀ e ∈ Verb.table, PromptVerb.ofWord e.1 = .other → e.2.openings = [] := by
    decide +kernel
  rw [lineOpenings]
  cases hverb : lineVerb (firstLine line) with
  | none => rfl
  | some verb =>
    have hmem := (lineVerb_spec hverb).2
    rw [(name_firstLine (toUpperFirstWord_ne hne) (fun c hc => (hword c hc).1)
      fun c hc => (hword c hc).2).2] at hmem
    exact htable _ hmem hother

theorem portMatched_iff {line : String} :
    cli.PortMatched o line ↔ ∀ port, cli.sentPort o line = some port → o.answer.rest = [] := by
  rw [PortMatched, sentPort]
  cases parsePort (((words line.toList)[1]?).getD []) with
  | error text => exact iff_of_true trivial fun _ hsends => by cases hsends
  | ok port =>
    dsimp only
    refine ⟨fun h port hsends => ?_, fun h hudp => ?_⟩
    · rw [Option.ite_none_left_eq_some] at hsends
      exact h fun hnew => by_contra fun herror => hsends.1 ⟨hnew, herror⟩
    · exact h port (if_neg fun hunbound => hunbound.2 (hudp hunbound.1))

/-- A `PORT` that is sent gets a single reply. -/
theorem Hears.rest_of_port {line : String} {port : UInt16} (hlength : line.toList.length < LINE_SIZE)
    (hne : CommandParser.trim line ≠ "")
    (hport : PromptVerb.ofWord (toUpperFirstWord (CommandParser.trim line)) = .PORT)
    (hcli : (cli.handlePort o (CommandParser.trim line)).2 = cli') (hears : cli.Hears cli' o)
    (hsends : cli.sentPort o (CommandParser.trim line) = some port) : o.answer.rest = [] := by
  have hopenings : lineOpenings (firstLine line) = [] := by
    have hmem : ("PORT", Verb.PORT) ∈ Verb.table := by decide
    rw [lineOpenings, lineVerb_firstLine hmem (word_of_port hport)]
    rfl
  rcases cli.handlePort_cases o (CommandParser.trim line) with ⟨hnone, _⟩ | ⟨port, _, heq⟩
  · exact absurd (hsends.symm.trans hnone) (Option.some_ne_none _)
  · exact hears.rest hlength hne hopenings
      ((congrArg exchanges (hcli.symm.trans heq)).trans (afterPort_frame _ _ port).1)

/-- What is assumed of the system for a transfer at the prompt. -/
structure Fares (cli : ClientCLI) (o : LineOutcomes) (verb : PromptVerb) : Prop where
  received : verb ∈ [.RETR, .LIST, .NLST] → cli.ReceiveFares o
  created : verb = .RETR → o.created = true
  sent : verb ∈ [.STOR, .STOU, .APPE] → cli.SendFares o

/-- What `STOR`, `STOU` and `APPE` at the prompt have in common. -/
theorem namedStoreMatched (h : cli.InStep) (hacs : cli.abortCommandSent = false)
    {localFile remoteFile text : String} {unique append : Bool}
    (hroom : remoteFile.toList.length + 5 ≤ LINE_SIZE)
    (hsome : cli.handleStor o localFile remoteFile unique append = some (text, cli'))
    (hears : cli.Hears cli' o) (hfares : cli.SendFares o) : cli.StoreMatched o := by
  have hnamed : ∀ {word verb}, (word, verb) ∈ Verb.table → word.toList.length = 4 →
      ∃ line more, readLines (word ++ (" " ++ remoteFile)) = line :: more ∧
        lineOpenings line = verb.openings := fun hmem hfour => readLines_named hmem (by omega)
  have hcommand : ∃ command line more, (if unique then if remoteFile = "" then "STOU"
        else "STOU " ++ remoteFile
      else if append then "APPE " ++ remoteFile else "STOR " ++ remoteFile) = command ∧
      readLines command = line :: more ∧ lineOpenings line = ["150", "125"] := by
    split
    · split
      · exact ⟨"STOU", "STOU", [], rfl, by decide +kernel, by decide +kernel⟩
      · obtain ⟨line, more, hline, hopenings⟩ :=
          hnamed (by decide : ("STOU", Verb.STOU) ∈ Verb.table) rfl
        exact ⟨_, line, more, rfl, hline, hopenings⟩
    · split
      · obtain ⟨line, more, hline, hopenings⟩ :=
          hnamed (by decide : ("APPE", Verb.APPE) ∈ Verb.table) rfl
        exact ⟨_, line, more, rfl, hline, hopenings⟩
      · obtain ⟨line, more, hline, hopenings⟩ :=
          hnamed (by decide : ("STOR", Verb.STOR) ∈ Verb.table) rfl
        exact ⟨_, line, more, rfl, hline, hopenings⟩
  obtain ⟨command, sent, more, hcommand, hline, hopenings⟩ := hcommand
  exact storeMatched h hacs hcommand hsome hears hline hopenings hfares

/-- What `LIST` and `NLST` at the prompt have in common. -/
theorem listMatched (h : cli.InStep) (hacs : cli.abortCommandSent = false) {path text : String}
    {namesOnly : Bool} (hroom : path.toList.length + 5 ≤ LINE_SIZE)
    (hsome : cli.handleList o path namesOnly = some (text, cli')) (hears : cli.Hears cli' o)
    (hfares : cli.ReceiveFares o) : cli.RequestMatched o True := by
  have hword : ∀ {word verb}, (word, verb) ∈ Verb.table → word.toList.length = 4 →
      verb.openings = ["150"] →
      ∃ line more, readLines (word ++ if path = "" then "" else " " ++ path) = line :: more ∧
        lineOpenings line = ["150"] := by
    intro word verb hmem hfour hopenings
    rw [← hopenings]
    split
    · have hcommand : (word ++ "").toList = word.toList ++ [] := by
        rw [String.toList_append]
        rfl
      refine readLines_command hmem hcommand (by simp) ?_
      rw [hcommand, List.append_nil, hfour]
      decide
    · exact readLines_named hmem (by omega)
  have hcommand : ∃ line more, readLines ((if namesOnly then "NLST" else "LIST") ++
      if path = "" then "" else " " ++ path) = line :: more ∧ lineOpenings line = ["150"] := by
    cases namesOnly with
    | true => exact hword (by decide : ("NLST", Verb.NLST) ∈ Verb.table) rfl rfl
    | false => exact hword (by decide : ("LIST", Verb.LIST) ∈ Verb.table) rfl rfl
  obtain ⟨line, more, hline, hopenings⟩ := hcommand
  rw [handleList] at hsome
  exact requestMatched h hacs (fun _ _ cli => asks_finishTransfer cli _ _) hsome hears hline
    hopenings hfares trivial

/-- A line that downloads a file. -/
theorem retrLineMatched (h : cli.InStep) (hacs : cli.abortCommandSent = false) {line text : String}
    (hroom : ∀ {a b}, names line = some (a, b) → a.toList.length + 5 ≤ LINE_SIZE)
    (hsome : ∀ {a b}, names line = some (a, b) → cli.handleRetr o a b = some (text, cli'))
    (hears : cli.Hears cli' o) (hfares : cli.ReceiveFares o) (hcreated : o.created = true)
    (hnamed : names line ≠ none) : cli.RequestMatched o (o.created = true) := by
  obtain ⟨⟨remoteFile, localFile⟩, hnames⟩ := Option.ne_none_iff_exists'.1 hnamed
  obtain ⟨sent, more, hsent, hopenings⟩ := readLines_named
    (by decide : ("RETR", Verb.RETR) ∈ Verb.table) (hroom hnames)
  have hretr := hsome hnames
  rw [handleRetr] at hretr
  refine requestMatched h hacs (fun openingReply buffer cli => ?_) hretr hears hsent hopenings
    hfares hcreated
  split
  · exact .refl cli
  · exact asks_finishTransfer cli ..

/-- A line that sends a file. -/
theorem storLineMatched (h : cli.InStep) (hacs : cli.abortCommandSent = false) {line text : String}
    {unique append : Bool}
    (hroom : ∀ {a b}, names line = some (a, b) → b.toList.length + 5 ≤ LINE_SIZE)
    (hsome : ∀ {a b}, names line = some (a, b) →
      cli.handleStor o a b unique append = some (text, cli'))
    (hears : cli.Hears cli' o) (hfares : cli.SendFares o) (hnamed : names line ≠ none) :
    cli.StoreMatched o := by
  obtain ⟨⟨localFile, remoteFile⟩, hnames⟩ := Option.ne_none_iff_exists'.1 hnamed
  exact namedStoreMatched h hacs (hroom hnames) (hsome hnames) hears hfares

/-- A line that asks for a listing, of the current directory if it names no other. -/
theorem listLineMatched (h : cli.InStep) (hacs : cli.abortCommandSent = false) {line text : String}
    {namesOnly : Bool}
    (hroom : ∀ {a b}, names line = some (a, b) → a.toList.length + 5 ≤ LINE_SIZE)
    (hsome : cli.handleList o (((names line).map Prod.fst).getD "") namesOnly = some (text, cli'))
    (hears : cli.Hears cli' o) (hfares : cli.ReceiveFares o) : cli.RequestMatched o True := by
  refine listMatched h hacs ?_ hsome hears hfares
  cases hnames : names line with
  | none => decide
  | some words => exact hroom hnames

/-- What the client hears of a line, if its transfer fares well, leaves it in step. -/
theorem Hears.stays_inStep (hears : cli.Hears cli' o) (h : cli.InStep)
    (hacs : cli.abortCommandSent = false) {line text : String}
    (hline : line.toList.length < LINE_SIZE)
    (hword : ∀ c ∈ (toUpperFirstWord (CommandParser.trim line)).toList,
      isSpace c = false ∧ c ≠ Char.ofNat 0)
    (hsome : cli.promptLine o line = some (text, cli'))
    (hfares : cli.Fares o (PromptVerb.ofWord (toUpperFirstWord (CommandParser.trim line)))) :
    cli'.InStep := by
  refine (promptLine_inStep_iff h hacs hsome).2 ?_
  have htrim := (length_trim_le line).trans_lt hline
  rw [LineMatched]
  generalize hverb : PromptVerb.ofWord (toUpperFirstWord (CommandParser.trim line)) = verb
    at hfares ⊢
  intro hne
  have hroom : verb ≠ .other → ∀ {a b : String}, names (CommandParser.trim line) = some (a, b) →
      a.toList.length + 5 ≤ LINE_SIZE ∧ b.toList.length + 5 ≤ LINE_SIZE := by
    intro hother a b hnames
    obtain ⟨ha, hb⟩ := length_of_names (hverb ▸ hother) hnames
    omega
  cases verb with
  | PORT =>
    rw [promptLine_port cli o line hne hverb] at hsome
    have hcli : (cli.handlePort o (CommandParser.trim line)).2 = cli' :=
      congrArg Prod.snd (Option.some.inj hsome)
    rw [VerbMatched, portMatched_iff]
    exact fun port hsends => hears.rest_of_port hline hne hverb hcli hsends
  | other =>
    rw [promptLine_other cli o line hne hverb] at hsome
    have hcli : (cli.handleOther o (CommandParser.trim line)).2 = cli' :=
      congrArg Prod.snd (Option.some.inj hsome)
    refine hears.rest hline hne (lineOpenings_firstLine hne hword hverb) ?_
    rw [← hcli]
    exact (cli.handleOther_frame o _).1
  | RETR =>
    rw [promptLine, if_neg hne, hverb] at hsome
    exact retrLineMatched h hacs (fun hnames => (hroom (by decide) hnames).1) (fun hnames => by
      rw [hnames] at hsome
      exact hsome) hears (hfares.received (by decide)) (hfares.created rfl)
  | STOR | STOU | APPE =>
    rw [promptLine, if_neg hne, hverb] at hsome
    exact storLineMatched h hacs (fun hnames => (hroom (by decide) hnames).2) (fun hnames => by
      rw [hnames] at hsome
      exact hsome) hears (hfares.sent (by decide))
  | LIST | NLST =>
    rw [promptLine, if_neg hne, hverb] at hsome
    exact listLineMatched h hacs (fun hnames => (hroom (by decide) hnames).1) hsome hears
      (hfares.received (by decide))

end ClientCLI

/-! ## Runs -/

/-- What is assumed of a line: its first word is the name of a command, or at least no text
    that the two sides read in different ways, the transfer fares well, and so does the
    server while it handles what the client sends. -/
def Dialogue.Benign (d : Dialogue) : DialogueEvent → Prop
  | .prompt line o os =>
    (∀ c ∈ (ClientCLI.toUpperFirstWord (CommandParser.trim line)).toList,
      isSpace c = false ∧ c ≠ Char.ofNat 0) ∧
    d.cli.Fares o (ClientCLI.PromptVerb.ofWord
      (ClientCLI.toUpperFirstWord (CommandParser.trim line))) ∧
    ∀ result ∈ d.cli.promptLine o line,
      d.server.ReadyFor os (result.2.exchanges.drop d.cli.exchanges.length)
  | .others _ => True

/-- A step of both sides is one of the client and the server that are assumed to be in step,
    and leaves the client so. -/
theorem conversation_step {d d' : Dialogue} {e : DialogueEvent} (hd : d.cli.InStep)
    (hbenign : d.Benign e) (h : conversation.step e d = some d') :
    d'.cli.InStep ∧ dialogue.step e d = some d' := by
  cases e with
  | others fs =>
    refine ⟨?_, h⟩
    simp only [conversation, dialogue, Option.ite_none_right_eq_some, Option.some.injEq] at h
    obtain ⟨_, rfl⟩ := h
    exact hd
  | prompt line o os =>
    obtain ⟨hword, hfares, hready⟩ := hbenign
    simp only [conversation, Option.ite_none_left_eq_some, Option.bind_eq_some_iff] at h
    obtain ⟨hguard, ⟨text, cli⟩, hprompt, ⟨server, os', aborted⟩, hconverse, h⟩ := h
    rw [Option.ite_none_right_eq_some, Option.some.injEq] at h
    obtain ⟨haborted, rfl⟩ := h
    have hready := hready _ hprompt
    dsimp only at haborted hconverse hready
    have hacs : d.cli.abortCommandSent = false :=
      Bool.eq_false_iff.2 fun hs => hguard (.inr (.inl (d.cli.abortOnly hs)))
    obtain ⟨hall, hsome⟩ := heard_of_converse hconverse hready
    -- Whether the `ABOR` line has been consumed, the machine has settled for both sides.
    have hears : d.cli.Hears cli o := by
      refine ⟨fun e he => ?_, fun hsent hlate => ?_⟩
      · obtain ⟨aborted', heard, himp⟩ := hall e he
        refine ⟨aborted', heard, fun htrue => ?_⟩
        have hboth := haborted.symm.trans (himp htrue)
        rw [Bool.and_eq_true, Bool.and_eq_true] at hboth
        exact hboth.1.2
      · have htrue : aborted = true := by
          rw [haborted, hacs, hsent, hlate]
          rfl
        obtain ⟨e, _, line, _, heard⟩ := hsome htrue
        cases heard with
        | aborted _ aborted completed _ heq haborted hcompleted =>
          exact ⟨aborted, completed, heq, haborted, hcompleted⟩
    have hlength : line.toList.length < LINE_SIZE :=
      not_le.1 fun hle => hguard (.inr (.inr (.inl hle)))
    have hstep : cli.InStep := hears.stays_inStep hd hacs hlength hword hprompt hfares
    refine ⟨hstep, ?_⟩
    have hrespond : d.server.respondAll os (cli.exchanges.drop d.cli.exchanges.length) =
        some (server, os') :=
      respondAll_of_converse hconverse hready fun e he => hstep.returned e (List.mem_of_mem_drop he)
    simp only [dialogue, if_neg hguard, hprompt, Option.bind_some, hrespond, Option.map_some]

instance (s : Serving) (o : Outcomes) (line : String) : Decidable (s.Ready o line) :=
  decidable_of_iff (executed s.session line ≠ some .ABOR ∧ s.Plain (.command line o) ∧
      o.replySent = true ∧ (listing? s.session s.fs line ≠ none → s.session.dataMode ≠ .NONE →
        (openDataChannel o s.session).isOk = true))
    ⟨fun h => ⟨h.1, h.2.1, h.2.2.1, h.2.2.2⟩, fun h => ⟨h.1, h.2, h.3, h.4⟩⟩

instance decidableReadyFor : ∀ (s : Serving) (os : List Outcomes) (es : List Exchange),
    Decidable (s.ReadyFor os es)
  | _, _, [] => inferInstanceAs (Decidable True)
  | s, os, e :: es =>
    have : ∀ line, Decidable ((s.after (os.headD {}) line).ReadyFor os.tail es) := fun line =>
      decidableReadyFor (s.after (os.headD {}) line) os.tail es
    inferInstanceAs (Decidable (∀ line ∈ readLines e.command,
      s.Ready (os.headD {}) line ∧ (s.after (os.headD {}) line).ReadyFor os.tail es))

instance (cli : ClientCLI) (o : LineOutcomes) : Decidable (cli.ReceiveFares o) := by
  rw [ClientCLI.ReceiveFares]
  split <;> infer_instance

instance (cli : ClientCLI) (o : LineOutcomes) : Decidable (cli.SendFares o) := by
  have : Decidable (match o.sent with
      | .completed () => True
      | .failed => False
      | .aborted => o.abortLate = false) := by
    split <;> infer_instance
  rw [ClientCLI.SendFares]
  infer_instance

instance (cli : ClientCLI) (o : LineOutcomes) (verb : ClientCLI.PromptVerb) :
    Decidable (cli.Fares o verb) :=
  decidable_of_iff ((verb ∈ [.RETR, .LIST, .NLST] → cli.ReceiveFares o) ∧
      (verb = .RETR → o.created = true) ∧ (verb ∈ [.STOR, .STOU, .APPE] → cli.SendFares o))
    ⟨fun h => ⟨h.1, h.2.1, h.2.2⟩, fun h => ⟨h.1, h.2, h.3⟩⟩

instance (d : Dialogue) : DecidablePred d.Benign
  | .prompt line o os => inferInstanceAs (Decidable (
      (∀ c ∈ (ClientCLI.toUpperFirstWord (CommandParser.trim line)).toList,
        isSpace c = false ∧ c ≠ Char.ofNat 0) ∧
      d.cli.Fares o (ClientCLI.PromptVerb.ofWord
        (ClientCLI.toUpperFirstWord (CommandParser.trim line))) ∧
      ∀ result ∈ d.cli.promptLine o line,
        d.server.ReadyFor os (result.2.exchanges.drop d.cli.exchanges.length)))
  | .others _ => inferInstanceAs (Decidable True)

/-- A download that goes well, and one that the client aborts. -/
def transfers : List DialogueEvent :=
  [.prompt "GET file" (ClientCLI.download true) [],
    .prompt "RETR file" { ClientCLI.download true with received := .aborted }
      [{}, { sent := .aborted }]]

end HybridFtp
