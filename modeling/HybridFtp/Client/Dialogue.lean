import HybridFtp.Client.ClientCLI
import HybridFtp.Common.CommandLine
import HybridFtp.Server.DataChannel

/-!
# Client and server

A client at its prompt, and the session that serves it. The commands that the client
sends are handled by the server one after the other, and what the client reads of each is
the first reply to that very command.

* `Serving.respond`: the session handles what it reads of a command;
* `dialogue`: the machine of both;
* `Asks`, `asks_promptLine`: what a transfer sends, and that it changes no setting of the
  client.
-/

namespace HybridFtp

open Elements

/-- What the client reads of the first reply. -/
def Turn.firstReply (turn : Turn) : String := (recvReply (turn.replies.headD "").toList).1

theorem hasCode_answer {session : SessionState} {fs : Storage} {reply code : String} {b : Bool}
    (h : hasCode (recvReply reply.toList).1 code = b) :
    hasCode (answer session fs reply).firstReply code = b :=
  h

/-- A reply that begins with its code. -/
theorem hasCode_recvReply (code : String) (hlength : code.toList.length = 3)
    (hbreak : '\n' ∉ code.toList) (rest : List Char) :
    hasCode (recvReply (code.toList ++ ' ' :: rest)).1 code = true := by
  obtain ⟨u, hu⟩ := exists_recvReply hlength hbreak rest
  rw [hu, hasCode, String.toList_ofList, List.isPrefixOf_iff_prefix]
  exact List.prefix_append _ _

/-- The session handles some lines. -/
def Serving.handleLines (s : Serving) : List String → List Outcomes → Serving × List Outcomes
  | [], os => (s, os)
  | line :: lines, os =>
    if s.ended then (s, os) else (s.after (os.headD {}) line).handleLines lines os.tail

/-- The session handles a command of the client, if it is its first reply that the client
    has read. -/
def Serving.respond (s : Serving) (os : List Outcomes) (e : Exchange) :
    Option (Serving × List Outcomes) :=
  match readLines e.command with
  | [] => none
  | line :: lines =>
    if s.ended ∨ e.returned ≠ (s.turn (os.headD {}) line).firstReply then none
    else some ((s.after (os.headD {}) line).handleLines lines os.tail)

/-- The session handles the commands of the client, one after the other. -/
def Serving.respondAll (s : Serving) (os : List Outcomes) :
    List Exchange → Option (Serving × List Outcomes)
  | [] => some (s, os)
  | e :: es => (s.respond os e).bind fun (s, os) => s.respondAll os es

/-! ## The machine -/

/-- A client and the session that serves it. -/
structure Dialogue where
  cli : ClientCLI
  server : Serving

/-- A line at the prompt, with the outcomes of the client and those of the server; or
    whatever others do to the file system. -/
inductive DialogueEvent
  | prompt (line : String) (o : LineOutcomes) (os : List Outcomes)
  | others (fs : Storage)

/-- The server has not consumed the `ABOR` that ends a transfer. -/
def LineOutcomes.abortLate (o : LineOutcomes) : Bool :=
  match o.abortAnswer with
  | .late _ => true
  | .consumed .. => false

/-- The lines that the server handles after the commands: an `ABOR` that is late. -/
def lateLines (o : LineOutcomes) (cli cli' : ClientCLI) : List String :=
  if ¬cli.abortCommandSent ∧ cli'.abortCommandSent ∧ o.abortLate then ["ABOR"] else []

/-- The machine of a client and the session that serves it. A line has no end in it, and
    the server's line has room for it. -/
def dialogue : Machine Dialogue DialogueEvent where
  init := {d | (∃ serverHost, d.cli = { serverHost }) ∧ d.server ∈ serving.init}
  step
    | .prompt line o os, d =>
      if d.cli.ended ∨ d.cli.aborted ∨ LINE_SIZE ≤ line.toList.length ∨ '\n' ∈ line.toList then none
      else
        (d.cli.promptLine o line).bind fun (_, cli) =>
          (d.server.respondAll os (cli.exchanges.drop d.cli.exchanges.length)).map
            fun (server, os) =>
              { cli, server := (server.handleLines (lateLines o d.cli cli) os).1 }
    | .others fs, d =>
      if fs.IsDir d.server.session.pathManager.rootDirectory then
        some { d with server := { d.server with fs } }
      else none

/-! ## What the client asks for -/

/-- The text begins with a word, up to a space or its end. -/
def StartsWith (text word : String) : Prop :=
  ∃ rest, text.toList = word.toList ++ rest ∧ ∀ c ∈ rest.head?, c = ' '

/-- A command of a transfer, or `PASV`, if it may be sent. -/
def TransferCommand (passive : Prop) (command : String) : Prop :=
  command.toList.length ≤ LINE_SIZE ∧
    (command = "PASV" ∧ passive ∨ ∃ e ∈ Verb.table, e.2 ∈ Verb.transfers ∧ StartsWith command e.1)

/-- What interrupts a transfer. -/
def LineOutcomes.Interrupts (o : LineOutcomes) (verb : ClientCLI.PromptVerb) : Prop :=
  verb ∈ [.RETR, .LIST, .NLST] ∧ o.received = .aborted ∨
    verb ∈ [.STOR, .STOU, .APPE] ∧ o.sent = .aborted

namespace ClientCLI

/-- Commands have been sent, maybe a transfer has been interrupted, and the settings are
    the same. -/
structure Asks (allowed : String → Prop) (interrupted : Prop) (cli cli' : ClientCLI) : Prop where
  transferType : cli'.transferType = cli.transferType
  transferMode : cli'.transferMode = cli.transferMode
  dataMode : cli'.dataMode = cli.dataMode
  activeSocket : cli'.activeSocket = cli.activeSocket
  activePort : cli'.activePort = cli.activePort
  abortCommandSent : cli'.abortCommandSent = cli.abortCommandSent ∨ interrupted
  exchanges : ∃ es, cli'.exchanges = cli.exchanges ++ es ∧ ∀ e ∈ es, allowed e.command

section

variable {allowed : String → Prop} {interrupted : Prop} {cli cli' cli'' : ClientCLI}
  {o : LineOutcomes}

theorem Asks.refl (cli : ClientCLI) : Asks allowed interrupted cli cli :=
  ⟨rfl, rfl, rfl, rfl, rfl, .inl rfl, [], by simp, by simp⟩

theorem Asks.trans (h : Asks allowed interrupted cli cli') (h' : Asks allowed interrupted cli' cli'') :
    Asks allowed interrupted cli cli'' := by
  obtain ⟨es, hes, hall⟩ := h.exchanges
  obtain ⟨es', hes', hall'⟩ := h'.exchanges
  refine ⟨h'.transferType.trans h.transferType, h'.transferMode.trans h.transferMode,
    h'.dataMode.trans h.dataMode, h'.activeSocket.trans h.activeSocket,
    h'.activePort.trans h.activePort, ?_, es ++ es', ?_, fun e he => ?_⟩
  · rcases h.abortCommandSent with heq | hi
    · rcases h'.abortCommandSent with heq' | hi
      · exact .inl (heq'.trans heq)
      · exact .inr hi
    · exact .inr hi
  · rw [hes', hes, List.append_assoc]
  · exact (List.mem_append.1 he).elim (hall e) (hall' e)

theorem asks_sendCommand (interrupted : Prop) {command : String} (h : allowed command) (cli : ClientCLI)
    (answer : Answer) : Asks allowed interrupted cli (cli.sendCommand command answer).2 := by
  refine ⟨rfl, rfl, rfl, rfl, rfl, .inl rfl, _, rfl, fun e he => ?_⟩
  rw [List.mem_singleton.1 he]
  exact h

theorem asks_recvControl (cli : ClientCLI) : Asks allowed interrupted cli cli.recvControl.2 :=
  ⟨rfl, rfl, rfl, rfl, rfl, .inl rfl, [], by simp [recvControl], by simp⟩

theorem asks_interruptTransfer (hi : interrupted) (cli : ClientCLI) (answer : AbortAnswer) :
    Asks allowed interrupted cli (cli.interruptTransfer answer) := by
  rw [interruptTransfer.eq_def]
  split
  · exact ⟨rfl, rfl, rfl, rfl, rfl, .inr hi, [], by simp [notifyAbort], by simp⟩
  · exact ⟨rfl, rfl, rfl, rfl, rfl, .inr hi, [], by simp [notifyAbort], by simp⟩

theorem asks_failTransfer (cli : ClientCLI) (o : LineOutcomes) {signal : Bool}
    (hi : signal = true → interrupted) (openingReply error : String) :
    Asks allowed interrupted cli (cli.failTransfer o signal openingReply error).2 := by
  have hinterrupt : Asks allowed interrupted cli
      (if signal then cli.interruptTransfer o.abortAnswer else cli) := by
    split
    · rename_i hsignal
      exact asks_interruptTransfer (hi hsignal) cli _
    · exact .refl cli
  rw [failTransfer]
  generalize (if signal then cli.interruptTransfer o.abortAnswer else cli) = cli' at hinterrupt ⊢
  dsimp only
  split
  · exact hinterrupt.trans ((asks_recvControl cli').trans (asks_recvControl _))
  · exact hinterrupt

theorem asks_finishTransfer (cli : ClientCLI) (printed missing : String) :
    Asks allowed interrupted cli (cli.finishTransfer printed missing).2 :=
  asks_recvControl cli

theorem asks_receiveData {use : Bytes → ClientCLI → String × ClientCLI}
    (huse : ∀ buffer cli, Asks allowed interrupted cli (use buffer cli).2) (cli : ClientCLI)
    {o : LineOutcomes} (hi : o.received = .aborted → interrupted) (openingReply failure : String) :
    Asks allowed interrupted cli (cli.receiveData o openingReply failure use).2 := by
  rw [receiveData]
  split
  · dsimp only
    split
    · exact .refl cli
    · exact huse _ cli
  · exact asks_failTransfer cli o nofun ..
  · rename_i haborted
    exact asks_failTransfer cli o (fun _ => hi haborted) ..

/-- `PASV` is sent unless the active socket is used. -/
theorem asks_dataEndpoint {cannotParse : String → String} {endpoint : Except String Endpoint}
    (hpasv : cli.active = false → allowed "PASV")
    (h : cli.dataEndpoint o cannotParse = some (endpoint, cli')) : Asks allowed interrupted cli cli' := by
  rw [dataEndpoint] at h
  split at h
  · cases h
    exact .refl cli
  · rename_i hactive
    have hasks := asks_sendCommand interrupted (hpasv (Bool.eq_false_iff.2 hactive)) cli o.pasvAnswer
    dsimp only at h
    split at h
    · cases h
      exact hasks
    · split at h
      · cases h
      · split at h
        · cases h
          exact hasks
        · cases h
          exact hasks

theorem asks_requestData {command noReply failure : String} {cannotParse : String → String}
    {use : String → Bytes → ClientCLI → String × ClientCLI} {text : String}
    (hpasv : cli.active = false → allowed "PASV") (hcommand : allowed command)
    (hi : o.received = .aborted → interrupted)
    (huse : ∀ openingReply buffer cli, Asks allowed interrupted cli (use openingReply buffer cli).2)
    (h : cli.requestData o command noReply failure cannotParse use = some (text, cli')) :
    Asks allowed interrupted cli cli' := by
  rw [requestData] at h
  split at h
  · cases h
  · rename_i hendpoint
    cases h
    exact asks_dataEndpoint hpasv hendpoint
  · rename_i cli₁ hendpoint
    refine (asks_dataEndpoint hpasv hendpoint).trans ?_
    dsimp only at h
    split at h
    · cases h
      exact .refl _
    · have hasks := asks_sendCommand interrupted hcommand cli₁ o.answer
      split at h
      · cases h
        exact hasks
      · split at h
        · cases h
          exact hasks
        · obtain rfl : _ = cli' := congrArg Prod.snd (Option.some.inj h)
          exact hasks.trans (asks_receiveData (huse _) _ hi _ _)

theorem asks_handleRetr {remoteFile localFile text : String}
    (hpasv : cli.active = false → allowed "PASV") (hcommand : allowed ("RETR " ++ remoteFile))
    (hi : o.received = .aborted → interrupted)
    (h : cli.handleRetr o remoteFile localFile = some (text, cli')) : Asks allowed interrupted cli cli' := by
  refine asks_requestData hpasv hcommand hi (fun openingReply buffer cli => ?_) h
  split
  · exact .refl cli
  · exact asks_finishTransfer cli ..

theorem asks_handleList {path text : String} {namesOnly : Bool}
    (hpasv : cli.active = false → allowed "PASV")
    (hcommand : allowed ((if namesOnly then "NLST" else "LIST") ++ if path = "" then "" else " " ++ path))
    (hi : o.received = .aborted → interrupted)
    (h : cli.handleList o path namesOnly = some (text, cli')) : Asks allowed interrupted cli cli' := by
  rw [handleList] at h
  exact asks_requestData hpasv hcommand hi (fun _ _ cli => asks_finishTransfer cli _ _) h

theorem asks_sendData (cli : ClientCLI) {o : LineOutcomes} (hi : o.sent = .aborted → interrupted)
    (openingReply : String) :
    Asks allowed interrupted cli (cli.sendData o openingReply).2 := by
  rw [sendData.eq_def]
  split
  · exact .refl cli
  · split
    · exact .refl cli
    · dsimp only
      split
      · exact asks_finishTransfer cli ..
      · exact asks_failTransfer cli o nofun ..
      · rename_i haborted
        exact asks_failTransfer cli o (fun _ => hi haborted) ..

theorem asks_handleStor {localFile remoteFile text : String} {unique append : Bool}
    (hpasv : cli.active = false → allowed "PASV")
    (hcommand : allowed (if unique then if remoteFile = "" then "STOU" else "STOU " ++ remoteFile
      else if append then "APPE " ++ remoteFile else "STOR " ++ remoteFile))
    (hi : o.sent = .aborted → interrupted)
    (h : cli.handleStor o localFile remoteFile unique append = some (text, cli')) :
    Asks allowed interrupted cli cli' := by
  rw [handleStor.eq_def] at h
  split at h
  · cases h
    exact .refl cli
  · cases h
    exact .refl cli
  · cases h
  · split at h
    · cases h
    · rename_i hendpoint
      cases h
      exact asks_dataEndpoint hpasv hendpoint
    · rename_i cli₁ hendpoint
      refine (asks_dataEndpoint hpasv hendpoint).trans ?_
      dsimp only at h
      generalize (if unique = true then if remoteFile = "" then "STOU" else "STOU " ++ remoteFile
        else if append = true then "APPE " ++ remoteFile else "STOR " ++ remoteFile) = command
        at hcommand h
      have hasks := asks_sendCommand interrupted hcommand cli₁ o.answer
      split at h
      · cases h
        exact hasks
      · split at h
        · cases h
          exact hasks
        · obtain rfl : _ = cli' := congrArg Prod.snd (Option.some.inj h)
          exact hasks.trans (asks_sendData _ hi _)

/-- The first word of a line, if its upper case has no space in it. -/
theorem firstWord_spec {line : String}
    (h : ∀ c ∈ (toUpperFirstWord line).toList, isSpace c = false) :
    ∃ w rest, line.toList = w ++ rest ∧ (∀ c ∈ rest.head?, c = ' ') ∧
      (∀ c ∈ w, isSpace c = false) ∧ toUpperFirstWord line = CommandParser.toUpper (String.ofList w) := by
  refine ⟨line.toList.takeWhile (· ≠ ' '), line.toList.dropWhile (· ≠ ' '),
    List.takeWhile_append_dropWhile.symm, fun c hc => ?_, fun c hc => ?_, rfl⟩
  · simpa using head?_dropWhile (· ≠ ' ') line.toList c hc
  · by_contra hs
    rw [Bool.not_eq_false] at hs
    have hupper : c.toUpper ∈ (toUpperFirstWord line).toList := by
      rw [toUpperFirstWord, CommandParser.toUpper, String.toList_ofList, String.toList_ofList]
      exact List.mem_map_of_mem hc
    have hc' := h _ hupper
    rw [CommandParser.toUpper_of_isSpace hs, hs] at hc'
    cases hc'

/-- The words that `run` tells apart. -/
def dataWords : List String :=
  ["PORT", "RETR", "GET", "STOR", "PUT", "STOU", "APPE", "LIST", "NLST"]

theorem mem_dataWords {word : String} (h : PromptVerb.ofWord word ≠ .other) : word ∈ dataWords := by
  by_contra hmem
  simp only [dataWords, List.mem_cons, List.not_mem_nil, or_false, not_or] at hmem
  obtain ⟨hport, hretr, hget, hstor, hput, hstou, happe, hlist, hnlst⟩ := hmem
  refine h ?_
  simp only [PromptVerb.ofWord, hport, hretr, hget, hstor, hput, hstou, happe, hlist, hnlst,
    if_false, or_self]

/-- The word of a command that `run` tells apart. -/
theorem word_of_ofWord {line : String} (h : PromptVerb.ofWord (toUpperFirstWord line) ≠ .other) :
    ∃ w rest, line.toList = w ++ rest ∧ (∀ c ∈ rest.head?, c = ' ') ∧
      (∀ c ∈ w, isSpace c = false) ∧ 3 ≤ w.length := by
  have hwords : ∀ word ∈ dataWords, 3 ≤ word.toList.length ∧ ∀ c ∈ word.toList, isSpace c = false := by
    decide
  obtain ⟨hlength, hspace⟩ := hwords _ (mem_dataWords h)
  obtain ⟨w, rest, hline, hrest, hns, hupper⟩ := firstWord_spec hspace
  refine ⟨w, rest, hline, hrest, hns, ?_⟩
  rwa [hupper, CommandParser.length_toUpper, String.toList_ofList] at hlength

/-- The names in such a line leave room for more than a command. -/
theorem length_of_names {line a b : String} (h : PromptVerb.ofWord (toUpperFirstWord line) ≠ .other)
    (hnames : names line = some (a, b)) :
    a.toList.length + 4 ≤ line.toList.length ∧ b.toList.length + 4 ≤ line.toList.length := by
  obtain ⟨w, rest, hline, hrest, hns, hlength⟩ := word_of_ofWord h
  have hw : w ≠ [] := by
    rintro rfl
    simp at hlength
  have hwords : words line.toList = w :: words rest := by
    rw [hline]
    refine words_append_of_head hw hns fun c hc => ?_
    rw [hrest c hc]
    rfl
  have hle : ∀ w' ∈ words rest, w'.length + 4 ≤ line.toList.length := by
    intro w' hmem
    have hlt := length_lt_of_mem_words hwords hmem
    omega
  rw [names, hwords, List.map_cons] at hnames
  match hws : words rest with
  | [] =>
    rw [hws] at hnames
    cases hnames
  | [w₁] =>
    rw [hws] at hnames hle
    cases hnames
    simpa using hle
  | w₁ :: w₂ :: ws =>
    rw [hws] at hnames hle
    cases hnames
    simpa using And.intro (hle w₁ (by simp)) (hle w₂ (by simp))

/-- A command with a name, or none. -/
theorem transferCommand_of_table {passive : Prop} {command : String} (word : String) (verb : Verb)
    (hmem : (word, verb) ∈ Verb.table) (hverb : verb ∈ Verb.transfers) {rest : List Char}
    (hcommand : command.toList = word.toList ++ rest) (hrest : ∀ c ∈ rest.head?, c = ' ')
    (hlength : command.toList.length ≤ LINE_SIZE) : TransferCommand passive command :=
  ⟨hlength, .inr ⟨(word, verb), hmem, hverb, rest, hcommand, hrest⟩⟩

theorem transferCommand_append {passive : Prop} {name : String} (word : String) (verb : Verb)
    (hmem : (word, verb) ∈ Verb.table) (hverb : verb ∈ Verb.transfers)
    (hlength : name.toList.length + 1 + word.toList.length ≤ LINE_SIZE) :
    TransferCommand passive (word ++ (" " ++ name)) := by
  have hcommand : (word ++ (" " ++ name)).toList = word.toList ++ ' ' :: name.toList := by
    rw [String.toList_append, String.toList_append]
    rfl
  refine transferCommand_of_table word verb hmem hverb hcommand (by simp) ?_
  rw [hcommand, List.length_append, List.length_cons]
  omega

theorem length_trim_le (text : String) :
    (CommandParser.trim text).toList.length ≤ text.toList.length := by
  obtain ⟨before, after, heq, _⟩ := CommandParser.trim_spec text
  rw [heq]
  simp only [List.length_append]
  omega

/-- A file is sent by a command with its name, or by `STOU` without one. -/
theorem transferCommand_store {passive : Prop} {name : String} (unique append : Bool)
    (hlength : name.toList.length + 5 ≤ LINE_SIZE) :
    TransferCommand passive (if unique then if name = "" then "STOU" else "STOU " ++ name
      else if append then "APPE " ++ name else "STOR " ++ name) := by
  split
  · split
    · have hcommand : "STOU".toList = "STOU".toList ++ [] := rfl
      exact transferCommand_of_table "STOU" .STOU (by decide) (by decide) hcommand (by simp)
        (by decide)
    · exact transferCommand_append "STOU" .STOU (by decide) (by decide) hlength
  · split
    · exact transferCommand_append "APPE" .APPE (by decide) (by decide) hlength
    · exact transferCommand_append "STOR" .STOR (by decide) (by decide) hlength

theorem transferCommand_list {passive : Prop} {path : String} (namesOnly : Bool)
    (hlength : path.toList.length + 5 ≤ LINE_SIZE) :
    TransferCommand passive
      ((if namesOnly then "NLST" else "LIST") ++ if path = "" then "" else " " ++ path) := by
  have hword : ∀ word verb, (word, verb) ∈ Verb.table → verb ∈ Verb.transfers →
      word.toList.length = 4 →
      TransferCommand passive (word ++ if path = "" then "" else " " ++ path) := by
    intro word verb hmem hverb hfour
    split
    · have hcommand : (word ++ "").toList = word.toList ++ [] := by
        rw [String.toList_append]
        rfl
      refine transferCommand_of_table word verb hmem hverb hcommand (by simp) ?_
      rw [hcommand, List.append_nil, hfour]
      decide
    · exact transferCommand_append word verb hmem hverb (by omega)
  split
  · exact hword "NLST" .NLST (by decide) (by decide) (by decide)
  · exact hword "LIST" .LIST (by decide) (by decide) (by decide)

/-- What `STOR`, `STOU` and `APPE` at the prompt have in common. -/
theorem asks_namesHandleStor {line usage text : String} {interrupted : Prop} {unique append : Bool}
    (hpasv : cli.active = false → TransferCommand (cli.active = false) "PASV")
    (hnames : ∀ {a b : String}, names line = some (a, b) →
      a.toList.length + 5 ≤ LINE_SIZE ∧ b.toList.length + 5 ≤ LINE_SIZE)
    (hi : o.sent = .aborted → interrupted)
    (h : (match names line with
      | some (localFile, remoteFile) => cli.handleStor o localFile remoteFile unique append
      | none => some (usage, cli)) = some (text, cli')) :
    Asks (TransferCommand (cli.active = false)) interrupted cli cli' := by
  split at h
  · rename_i hsome
    exact asks_handleStor hpasv (transferCommand_store _ _ (hnames hsome).2) hi h
  · cases h
    exact .refl cli

/-- A transfer changes no setting, and sends the commands of one. -/
theorem asks_promptLine {line text : String} (hlength : line.toList.length < LINE_SIZE)
    (h : cli.promptLine o line = some (text, cli'))
    (hport : PromptVerb.ofWord (toUpperFirstWord (CommandParser.trim line)) ≠ .PORT)
    (hother : PromptVerb.ofWord (toUpperFirstWord (CommandParser.trim line)) ≠ .other) :
    Asks (TransferCommand (cli.active = false))
      (o.Interrupts (PromptVerb.ofWord (toUpperFirstWord (CommandParser.trim line)))) cli cli' := by
  have hlength' := (length_trim_le line).trans_lt hlength
  have hpasv : cli.active = false → TransferCommand (cli.active = false) "PASV" := fun hactive =>
    ⟨by decide, .inl ⟨rfl, hactive⟩⟩
  have hnames : ∀ {a b : String}, names (CommandParser.trim line) = some (a, b) →
      a.toList.length + 5 ≤ LINE_SIZE ∧ b.toList.length + 5 ≤ LINE_SIZE := by
    intro a b hnames
    obtain ⟨ha, hb⟩ := length_of_names hother hnames
    omega
  rw [promptLine] at h
  generalize CommandParser.trim line = line at h hport hother hnames
  split at h
  · cases h
    exact .refl cli
  have hlist : ∀ {interrupted : Prop} {namesOnly : Bool}, (o.received = .aborted → interrupted) →
      cli.handleList o (((names line).map Prod.fst).getD "") namesOnly = some (text, cli') →
      Asks (TransferCommand (cli.active = false)) interrupted cli cli' := by
    intro interrupted namesOnly hi h
    refine asks_handleList hpasv (transferCommand_list _ ?_) hi h
    cases hsome : names line with
    | none => decide
    | some words => exact (hnames hsome).1
  generalize PromptVerb.ofWord (toUpperFirstWord line) = verb at h hport hother ⊢
  cases verb with
  | PORT => exact absurd rfl hport
  | RETR =>
    dsimp only at h
    split at h
    · rename_i hsome
      refine asks_handleRetr hpasv ?_ (fun h => .inl ⟨by decide, h⟩) h
      exact transferCommand_append "RETR" .RETR (by decide) (by decide) (hnames hsome).1
    · cases h
      exact .refl cli
  | STOR => exact asks_namesHandleStor hpasv hnames (fun h => .inr ⟨by decide, h⟩) h
  | STOU => exact asks_namesHandleStor hpasv hnames (fun h => .inr ⟨by decide, h⟩) h
  | APPE => exact asks_namesHandleStor hpasv hnames (fun h => .inr ⟨by decide, h⟩) h
  | LIST => exact hlist (fun h => .inl ⟨by decide, h⟩) h
  | NLST => exact hlist (fun h => .inl ⟨by decide, h⟩) h
  | other => exact absurd rfl hother

end

end ClientCLI

/-! ## What the server makes of it -/

section

variable {s s' : Serving} {os os' : List Outcomes} {command line : String}

theorem mem_table_of_ofName? {name : String} {verb : Verb} (h : Verb.ofName? name = some verb) :
    (name, verb) ∈ Verb.table := by
  obtain ⟨before, after, htable, _⟩ := List.lookup_eq_some_iff.1 h
  rw [htable]
  simp

theorem lineVerb_spec {verb : Verb} (h : lineVerb line = some verb) :
    (CommandParser.parse line).valid = true ∧ ((CommandParser.parse line).name, verb) ∈ Verb.table := by
  rw [lineVerb, Option.ite_none_right_eq_some] at h
  exact ⟨h.1, mem_table_of_ofName? h.2⟩

/-- A line that begins with the name of a command. -/
theorem lineVerb_of_startsWith {e : String × Verb} (hmem : e ∈ Verb.table)
    (h : StartsWith line e.1) : lineVerb line = some e.2 := by
  have htable : ∀ e ∈ Verb.table, e.1.toList ≠ [] ∧
      (∀ c ∈ e.1.toList, CommandParser.isBlank c = false) ∧
      CommandParser.toUpper (String.ofList e.1.toList) = e.1 ∧ Verb.ofName? e.1 = some e.2 := by
    decide +kernel
  obtain ⟨hne, hblank, hupper, hname⟩ := htable e hmem
  obtain ⟨rest, hline, hrest⟩ := h
  obtain ⟨hvalid, heq⟩ := CommandParser.parse_of_word hne hblank hrest hline
  rw [lineVerb, if_pos hvalid, heq, hupper, hname]

/-- There is no command whose name is a single letter. -/
theorem lineVerb_of_length_le_one (h : line.toList.length ≤ 1) : lineVerb line = none := by
  by_contra hne
  obtain ⟨verb, hverb⟩ := Option.ne_none_iff_exists'.1 hne
  rw [lineVerb, Option.ite_none_right_eq_some] at hverb
  have hlength : ∀ e ∈ Verb.table, 3 ≤ e.1.toList.length := by decide
  have hthree := hlength _ (mem_table_of_ofName? hverb.2)
  rcases CommandParser.parse_spec line with ⟨hinvalid, _⟩ | ⟨_, before, name, rest, hline, _, _, _, _, _, hname, _⟩
  · rw [hinvalid] at hverb
    cases hverb.1
  · rw [hname, CommandParser.toUpper, String.toList_ofList, String.toList_ofList,
      List.length_map] at hthree
    rw [hline, List.length_append, List.length_append] at h
    omega

/-- What the server may read of the commands of a transfer. -/
def TransferLine (passive : Prop) (line : String) : Prop :=
  lineVerb line = none ∨ (∃ verb ∈ Verb.transfers, lineVerb line = some verb) ∨
    lineVerb line = some .PASV ∧ passive

theorem TransferLine.ne {passive : Prop} {verb : Verb} (h : TransferLine passive line)
    (htransfer : verb ∉ Verb.transfers) (hpasv : verb ≠ .PASV) : lineVerb line ≠ some verb := by
  intro hverb
  rcases h with h | ⟨verb', hmem, h⟩ | ⟨h, _⟩
  · rw [h] at hverb
    cases hverb
  · rw [h] at hverb
    cases hverb
    exact htransfer hmem
  · rw [h] at hverb
    exact hpasv (Option.some.inj hverb).symm

/-- The commands of a transfer are read as such. -/
theorem lineVerb_of_mem_readLines {passive : Prop} (h : TransferCommand passive command)
    (hline : line ∈ readLines command) : TransferLine passive line := by
  have htable : ∀ e ∈ Verb.table, e.1.toList ≠ [] ∧ e.1.toList.length < LINE_SIZE - 1 ∧
      (∀ c ∈ e.1.toList, c ≠ '\r') ∧ ∀ c ∈ e.1.toList, c ≠ Char.ofNat 0 := by decide
  have hread : ∀ e ∈ Verb.table, StartsWith command e.1 →
      lineVerb line = none ∨ lineVerb line = some e.2 := by
    rintro e hmem ⟨rest, hcommand, hrest⟩
    obtain ⟨hne, hshort, hcr, hnul⟩ := htable e hmem
    obtain ⟨first, more, rest', hread, hfirst, hrest', hmore⟩ :=
      readLines_of_word hne hshort hcr hnul hrest hcommand h.1
    rw [hread] at hline
    rcases List.mem_cons.1 hline with rfl | hline
    · exact .inr (lineVerb_of_startsWith hmem ⟨rest', hfirst, hrest'⟩)
    · exact .inl (lineVerb_of_length_le_one (hmore line hline))
  rcases h.2 with ⟨rfl, hpassive⟩ | ⟨e, hmem, hverb, hstarts⟩
  · rcases hread ("PASV", .PASV) (by decide) ⟨[], rfl, by simp⟩ with hnone | hpasv
    · exact .inl hnone
    · exact .inr (.inr ⟨hpasv, hpassive⟩)
  · rcases hread e hmem hstarts with hnone | hsome
    · exact .inl hnone
    · exact .inr (.inl ⟨e.2, hverb, hsome⟩)

/-- What every line keeps holds after some lines. -/
theorem handleLines_invariant {I : Serving → Prop} {lines : List String}
    (hstep : ∀ line ∈ lines, ∀ s o, I s → I (s.after o line)) (hs : I s) :
    I (s.handleLines lines os).1 := by
  induction lines generalizing s os with
  | nil => exact hs
  | cons line lines ih =>
    rw [Serving.handleLines]
    split
    · exact hs
    · exact ih (fun line hline => hstep line (List.mem_cons_of_mem _ hline))
        (hstep line List.mem_cons_self s _ hs)

theorem respond_invariant {I : Serving → Prop} {e : Exchange}
    (hstep : ∀ line ∈ readLines e.command, ∀ s o, I s → I (s.after o line)) (hs : I s)
    (h : s.respond os e = some (s', os')) : I s' := by
  rw [Serving.respond] at h
  split at h
  · cases h
  · rename_i line lines hlines
    rw [hlines] at hstep
    rw [Option.ite_none_left_eq_some] at h
    obtain ⟨_, heq⟩ := h
    have hs' : ((s.after (os.headD {}) line).handleLines lines os.tail).1 = s' :=
      congrArg Prod.fst (Option.some.inj heq)
    rw [← hs']
    exact handleLines_invariant (fun line hline => hstep line (List.mem_cons_of_mem _ hline))
      (hstep line List.mem_cons_self s _ hs)

/-- What every line of the commands keeps holds after the commands. -/
theorem respondAll_invariant {I : Serving → Prop} {es : List Exchange}
    (hstep : ∀ e ∈ es, ∀ line ∈ readLines e.command, ∀ s o, I s → I (s.after o line)) (hs : I s)
    (h : s.respondAll os es = some (s', os')) : I s' := by
  induction es generalizing s os with
  | nil =>
    obtain ⟨rfl, rfl⟩ := Prod.mk.inj (Option.some.inj h)
    exact hs
  | cons e es ih =>
    obtain ⟨⟨s₁, os₁⟩, h₁, h⟩ := Option.bind_eq_some_iff.1 h
    exact ih (fun e he => hstep e (List.mem_cons_of_mem _ he))
      (respond_invariant (hstep e List.mem_cons_self) hs h₁) h

end

/-! ## Steps -/

/-- The line that the server reads of what is typed at the prompt. -/
def firstLine (line : String) : String :=
  String.ofList (readText (CommandParser.trim line).toList)

theorem readLines_trim {line : String} (hlength : line.toList.length < LINE_SIZE)
    (hne : CommandParser.trim line ≠ "") : readLines (CommandParser.trim line) = [firstLine line] := by
  refine readLines_of_length_lt ((ClientCLI.length_trim_le line).trans_lt hlength) fun hnil => ?_
  obtain ⟨_, _, _, _, _, hhead⟩ := CommandParser.trim_spec line
  cases htrim : (CommandParser.trim line).toList with
  | nil => exact hne (String.toList_eq_nil_iff.1 htrim)
  | cons c text =>
    rw [htrim] at hhead hnil
    have hblank := hhead c rfl
    have hcr : c = '\r' := by simpa using List.filter_eq_nil_iff.1 hnil c List.mem_cons_self
    rw [hcr] at hblank
    exact absurd hblank (by decide)

theorem eq_firstLine_of_mem {line first : String} (hlength : line.toList.length < LINE_SIZE)
    (hfirst : first ∈ readLines (CommandParser.trim line)) :
    CommandParser.trim line ≠ "" ∧ first = firstLine line := by
  have hne : CommandParser.trim line ≠ "" := by
    intro hempty
    rw [hempty] at hfirst
    cases hfirst
  rw [readLines_trim hlength hne] at hfirst
  exact ⟨hne, List.mem_singleton.1 hfirst⟩

/-- What the client takes for the name of a command, so does the server. -/
theorem name_firstLine {line : String}
    (hne : ClientCLI.toUpperFirstWord (CommandParser.trim line) ≠ "")
    (hspace : ∀ c ∈ (ClientCLI.toUpperFirstWord (CommandParser.trim line)).toList, isSpace c = false)
    (hnul : ∀ c ∈ (ClientCLI.toUpperFirstWord (CommandParser.trim line)).toList, c ≠ Char.ofNat 0) :
    (CommandParser.parse (firstLine line)).valid = true ∧
      (CommandParser.parse (firstLine line)).name =
        ClientCLI.toUpperFirstWord (CommandParser.trim line) := by
  obtain ⟨w, rest, hline, hrest, hns, hupper⟩ := ClientCLI.firstWord_spec hspace
  rw [hupper] at hne hnul ⊢
  have hw : w ≠ [] := by
    rintro rfl
    exact hne rfl
  have hfirst : (firstLine line).toList = w ++ readText rest := by
    rw [firstLine, String.toList_ofList, hline,
      readText_append (fun c hc => ne_cr_of_not_isSpace (hns c hc))
        (CommandParser.ne_nul_of_toUpper hnul)]
  -- The word still ends at a blank once the line has been read.
  have hhead : ∀ c ∈ (readText rest).head?, c = ' ' := by
    cases rest with
    | nil => simp [readText]
    | cons c rest =>
      obtain rfl := hrest c rfl
      have hread := readText_of_space (s := [' ']) (by decide) rest
      rw [List.singleton_append] at hread
      rw [hread]
      intro d hd
      exact (Option.some.inj hd).symm
  have hblank : ∀ c ∈ w, CommandParser.isBlank c = false := by
    intro c hc
    by_contra hblank
    rw [Bool.not_eq_false] at hblank
    have hc' := hns c hc
    rw [CommandParser.isSpace_of_isBlank hblank] at hc'
    cases hc'
  exact CommandParser.parse_of_word hw hblank hhead hfirst

theorem lineVerb_firstLine {line : String} {e : String × Verb} (hmem : e ∈ Verb.table)
    (h : ClientCLI.toUpperFirstWord (CommandParser.trim line) = e.1) :
    lineVerb (firstLine line) = some e.2 := by
  have htable : ∀ e ∈ Verb.table, e.1 ≠ "" ∧ (∀ c ∈ e.1.toList, isSpace c = false) ∧
      (∀ c ∈ e.1.toList, c ≠ Char.ofNat 0) ∧ Verb.ofName? e.1 = some e.2 := by decide +kernel
  obtain ⟨hne, hspace, hnul, hname⟩ := htable e hmem
  rw [← h] at hne hspace hnul hname
  obtain ⟨hvalid, heq⟩ := name_firstLine hne hspace hnul
  rw [lineVerb, if_pos hvalid, heq, hname]

/-- The name that the server reads in a line with a data channel is the client's. -/
theorem name_of_ofWord {line : String} (h : ClientCLI.PromptVerb.ofWord
      (ClientCLI.toUpperFirstWord (CommandParser.trim line)) ≠ .other) :
    (CommandParser.parse (firstLine line)).valid = true ∧
      (CommandParser.parse (firstLine line)).name =
        ClientCLI.toUpperFirstWord (CommandParser.trim line) := by
  have hwords : ∀ word ∈ ClientCLI.dataWords, word ≠ "" ∧
      (∀ c ∈ word.toList, isSpace c = false) ∧ ∀ c ∈ word.toList, c ≠ Char.ofNat 0 := by decide
  obtain ⟨hne, hspace, hnul⟩ := hwords _ (ClientCLI.mem_dataWords h)
  exact name_firstLine hne hspace hnul

/-- A single command that is sent as it is typed. -/
theorem respondAll_single {s s' : Serving} {os os' : List Outcomes} {line : String} {e : Exchange}
    (hlength : line.toList.length < LINE_SIZE) (hne : CommandParser.trim line ≠ "")
    (hcommand : e.command = CommandParser.trim line) (h : s.respondAll os [e] = some (s', os')) :
    e.returned = (s.turn (os.headD {}) (firstLine line)).firstReply ∧
      s' = s.after (os.headD {}) (firstLine line) := by
  obtain ⟨⟨s₁, os₁⟩, hrespond, hrest⟩ := Option.bind_eq_some_iff.1 h
  obtain ⟨rfl, rfl⟩ := Prod.mk.inj (Option.some.inj hrest)
  clear h hrest
  rw [Serving.respond.eq_def, hcommand, readLines_trim hlength hne]
    at hrespond
  simp only [Option.ite_none_left_eq_some, not_or, not_not] at hrespond
  obtain ⟨⟨_, hreturned⟩, heq⟩ := hrespond
  obtain ⟨rfl, _⟩ := Prod.mk.inj (Option.some.inj heq)
  exact ⟨hreturned, rfl⟩

/-- The port that a line tells the server about, if the client can bind it. -/
def ClientCLI.sentPort (cli : ClientCLI) (o : LineOutcomes) (line : String) : Option UInt16 :=
  match parsePort (((words line.toList)[1]?).getD []) with
  | .ok port => if cli.isNewPort port = true ∧ o.udpError ≠ none then none else some port
  | .error _ => none

/-- The client after `PORT` has been answered. -/
def ClientCLI.afterPort (cli : ClientCLI) (port : UInt16) (reply : String) : ClientCLI :=
  if ¬hasCode reply "200" then cli
  else { cli with
    activeSocket := if cli.isNewPort port then some port else cli.activeSocket
    activePort := port
    dataMode := .Active }

namespace ClientCLI

variable (cli : ClientCLI) (o : LineOutcomes) (line reply : String) (port : UInt16)

theorem afterPort_frame : (cli.afterPort port reply).exchanges = cli.exchanges ∧
    (cli.afterPort port reply).abortCommandSent = cli.abortCommandSent := by
  rw [afterPort]
  split <;> exact ⟨rfl, rfl⟩

theorem applyAccepted_frame : (cli.applyAccepted line).exchanges = cli.exchanges ∧
    (cli.applyAccepted line).abortCommandSent = cli.abortCommandSent := by
  rw [applyAccepted]
  split <;> exact ⟨rfl, rfl⟩

theorem applyReply_frame : (cli.applyReply line reply).exchanges = cli.exchanges ∧
    (cli.applyReply line reply).abortCommandSent = cli.abortCommandSent := by
  rw [applyReply]
  split_ifs
  · exact applyAccepted_frame _ line
  · exact applyAccepted_frame cli line
  · exact ⟨rfl, rfl⟩
  · exact ⟨rfl, rfl⟩

theorem handleOther_eq : (cli.handleOther o line).2 =
    { (cli.sendCommand line o.answer).2.applyReply line (cli.sendCommand line o.answer).1 with
      ended := toUpperFirstWord line = "QUIT" } := by
  rw [handleOther]

theorem handleOther_frame :
    (cli.handleOther o line).2.exchanges = (cli.sendCommand line o.answer).2.exchanges ∧
      (cli.handleOther o line).2.abortCommandSent = cli.abortCommandSent := by
  have hsent : (cli.sendCommand line o.answer).2.abortCommandSent = cli.abortCommandSent := rfl
  obtain ⟨hexchanges, habort⟩ :=
    applyReply_frame (cli.sendCommand line o.answer).2 line (cli.sendCommand line o.answer).1
  rw [handleOther_eq]
  exact ⟨hexchanges, habort.trans hsent⟩

theorem asks_handleOther : Asks (fun _ => True) False
    ((cli.sendCommand line o.answer).2.applyReply line (cli.sendCommand line o.answer).1)
    (cli.handleOther o line).2 := by
  rw [handleOther_eq]
  generalize (cli.sendCommand line o.answer).2.applyReply line _ = cli
  exact ⟨rfl, rfl, rfl, rfl, rfl, .inl rfl, [], (List.append_nil _).symm, by simp⟩

theorem word_of_port {word : String} (h : PromptVerb.ofWord word = .PORT) : word = "PORT" := by
  rw [PromptVerb.ofWord] at h
  split_ifs at h with hport
  exact hport

theorem promptLine_port (hne : CommandParser.trim line ≠ "")
    (h : PromptVerb.ofWord (toUpperFirstWord (CommandParser.trim line)) = .PORT) :
    cli.promptLine o line = some (cli.handlePort o (CommandParser.trim line)) := by
  rw [promptLine, if_neg hne, h]

theorem promptLine_other (hne : CommandParser.trim line ≠ "")
    (h : PromptVerb.ofWord (toUpperFirstWord (CommandParser.trim line)) = .other) :
    cli.promptLine o line = some (cli.handleOther o (CommandParser.trim line)) := by
  rw [promptLine, if_neg hne, h]

theorem sendCommand_exchanges (answer : Answer) :
    (cli.sendCommand line answer).2.exchanges =
      cli.exchanges ++ [⟨line, answer, (cli.sendCommand line answer).1⟩] :=
  rfl

/-- `PORT` is not sent at all, or as it is. -/
theorem handlePort_cases :
    cli.sentPort o line = none ∧ (cli.handlePort o line).2 = cli ∨
      ∃ port, cli.sentPort o line = some port ∧ (cli.handlePort o line).2 =
        (cli.sendCommand line o.answer).2.afterPort port (cli.sendCommand line o.answer).1 := by
  rw [handlePort.eq_def, sentPort]
  generalize parsePort (((words line.toList)[1]?).getD []) = parsed
  cases parsed with
  | error text => exact .inl ⟨rfl, rfl⟩
  | ok port =>
    dsimp only
    split
    · rename_i hunbound
      obtain ⟨error, herror⟩ := Option.ne_none_iff_exists'.1 hunbound.2
      rw [if_pos hunbound.1, herror]
      exact .inl ⟨rfl, rfl⟩
    · rename_i hbound
      have hnone : (if cli.isNewPort port = true then o.udpError else none) = none := by
        rw [ite_eq_right_iff]
        exact fun hnew => by_contra fun herror => hbound ⟨hnew, herror⟩
      rw [hnone]
      refine .inr ⟨port, rfl, ?_⟩
      dsimp only
      rw [afterPort]
      split
      · rfl
      · rfl

end ClientCLI

/-- What a line at the prompt does, to the client and to the server. -/
inductive Dialogue.Step (line : String) (o : LineOutcomes) (os : List Outcomes) (d : Dialogue) :
    Dialogue → Prop
  /-- A line without a command, or a `PORT` that is not sent. -/
  | nothing :
    (CommandParser.trim line ≠ "" →
      ClientCLI.toUpperFirstWord (CommandParser.trim line) = "PORT" ∧
        d.cli.sentPort o (CommandParser.trim line) = none) →
    Step line o os d d
  | transfer (server : Serving) (os' : List Outcomes) {d' : Dialogue} :
    ClientCLI.PromptVerb.ofWord (ClientCLI.toUpperFirstWord (CommandParser.trim line)) ≠ .PORT →
    ClientCLI.PromptVerb.ofWord (ClientCLI.toUpperFirstWord (CommandParser.trim line)) ≠ .other →
    ClientCLI.Asks (TransferCommand (d.cli.active = false)) (o.Interrupts
      (ClientCLI.PromptVerb.ofWord (ClientCLI.toUpperFirstWord (CommandParser.trim line))))
      d.cli d'.cli →
    d.server.respondAll os (d'.cli.exchanges.drop d.cli.exchanges.length) = some (server, os') →
    d'.server = (server.handleLines (lateLines o d.cli d'.cli) os').1 → Step line o os d d'
  | port (port : UInt16) (cli : ClientCLI) {d' : Dialogue} :
    CommandParser.trim line ≠ "" →
    ClientCLI.toUpperFirstWord (CommandParser.trim line) = "PORT" →
    d.cli.sentPort o (CommandParser.trim line) = some port →
    ClientCLI.Asks (fun _ => True) False d.cli cli →
    d'.cli = cli.afterPort port (d.server.turn (os.headD {}) (firstLine line)).firstReply →
    d'.cli.exchanges = d.cli.exchanges ++ [⟨CommandParser.trim line, o.answer,
      (d.server.turn (os.headD {}) (firstLine line)).firstReply⟩] →
    d'.server = d.server.after (os.headD {}) (firstLine line) → Step line o os d d'
  | other (cli : ClientCLI) {d' : Dialogue} :
    CommandParser.trim line ≠ "" →
    ClientCLI.PromptVerb.ofWord (ClientCLI.toUpperFirstWord (CommandParser.trim line)) = .other →
    ClientCLI.Asks (fun _ => True) False d.cli cli →
    ClientCLI.Asks (fun _ => True) False (cli.applyReply (CommandParser.trim line)
      (d.server.turn (os.headD {}) (firstLine line)).firstReply) d'.cli →
    d'.cli.exchanges = d.cli.exchanges ++ [⟨CommandParser.trim line, o.answer,
      (d.server.turn (os.headD {}) (firstLine line)).firstReply⟩] →
    d'.server = d.server.after (os.headD {}) (firstLine line) → Step line o os d d'

/-- What the lines of a transfer keep holds after it. -/
theorem asks_invariant {I : Serving → Prop} {d d' : Dialogue} {o : LineOutcomes} {server : Serving}
    {os os' : List Outcomes} {passive interrupted : Prop}
    (hasks : ClientCLI.Asks (TransferCommand passive) interrupted d.cli d'.cli)
    (hserver : d.server.respondAll os (d'.cli.exchanges.drop d.cli.exchanges.length) =
      some (server, os'))
    (hd' : d'.server = (server.handleLines (lateLines o d.cli d'.cli) os').1)
    (hline : ∀ line, TransferLine passive line → ∀ s o, I s → I (s.after o line))
    (hlate : interrupted → o.abortLate = true → ∀ s o, I s → I (s.after o "ABOR")) (hs : I d.server) :
    I d'.server := by
  rw [hd']
  refine handleLines_invariant (fun line hmem => ?_)
    (respondAll_invariant (fun e he line hmem => hline line ?_) hs hserver)
  · rw [lateLines] at hmem
    split at hmem
    · rename_i hlate'
      obtain rfl := List.mem_singleton.1 hmem
      rcases hasks.abortCommandSent with heq | hi
      · rw [heq] at hlate'
        exact absurd hlate'.2.1 hlate'.1
      · exact hlate hi hlate'.2.2
    · cases hmem
  · obtain ⟨es, hexchanges, hall⟩ := hasks.exchanges
    rw [hexchanges, List.drop_left] at he
    exact lineVerb_of_mem_readLines (hall e he) hmem

/-- A line at the prompt does one of these. -/
theorem dialogue_step {d d' : Dialogue} {line : String} {o : LineOutcomes} {os : List Outcomes}
    (h : dialogue.step (.prompt line o os) d = some d') :
    line.toList.length < LINE_SIZE ∧ d.Step line o os d' := by
  simp only [dialogue, Option.ite_none_left_eq_some, not_or, not_le, Option.bind_eq_some_iff,
    Option.map_eq_some_iff] at h
  obtain ⟨⟨_, _, hlength, _⟩, ⟨text, cli⟩, hprompt, ⟨server, os'⟩, hserver, rfl⟩ := h
  dsimp only at hserver ⊢
  refine ⟨hlength, ?_⟩
  -- Nothing is sent, and nothing comes late.
  have hnothing : cli = d.cli →
      ({ cli, server := (server.handleLines (lateLines o d.cli cli) os').1 } : Dialogue) = d := by
    rintro rfl
    rw [List.drop_length] at hserver
    obtain ⟨rfl, rfl⟩ := Prod.mk.inj (Option.some.inj hserver)
    rw [lateLines, if_neg fun h => h.1 h.2.1, Serving.handleLines]
  by_cases hne : CommandParser.trim line = ""
  · rw [ClientCLI.promptLine, hne, if_pos rfl] at hprompt
    rw [hnothing (congrArg Prod.snd (Option.some.inj hprompt)).symm]
    exact .nothing (absurd hne)
  -- What the client has sent is that very line.
  have hsent : ∀ cli : ClientCLI,
      cli.exchanges = (d.cli.sendCommand (CommandParser.trim line) o.answer).2.exchanges ∧
        cli.abortCommandSent = d.cli.abortCommandSent →
      d.server.respondAll os (cli.exchanges.drop d.cli.exchanges.length) = some (server, os') →
      (d.cli.sendCommand (CommandParser.trim line) o.answer).1 =
          (d.server.turn (os.headD {}) (firstLine line)).firstReply ∧
        (server.handleLines (lateLines o d.cli cli) os').1 =
          d.server.after (os.headD {}) (firstLine line) := by
    rintro cli ⟨hexchanges, habort⟩ hserver
    rw [hexchanges, ClientCLI.sendCommand_exchanges, List.drop_left] at hserver
    obtain ⟨hreturned, rfl⟩ := respondAll_single hlength hne rfl hserver
    refine ⟨hreturned, ?_⟩
    rw [lateLines, habort, if_neg fun h => h.1 h.2.1, Serving.handleLines]
  have hasks : ClientCLI.Asks (fun _ => True) False d.cli
      (d.cli.sendCommand (CommandParser.trim line) o.answer).2 :=
    ClientCLI.asks_sendCommand False trivial d.cli o.answer
  by_cases hport : ClientCLI.PromptVerb.ofWord
      (ClientCLI.toUpperFirstWord (CommandParser.trim line)) = .PORT
  · have hcli : (d.cli.handlePort o (CommandParser.trim line)).2 = cli := by
      rw [d.cli.promptLine_port o line hne hport] at hprompt
      rw [Option.some.inj hprompt]
    have hword := ClientCLI.word_of_port hport
    rcases d.cli.handlePort_cases o (CommandParser.trim line) with
      ⟨hsends, heq⟩ | ⟨port, hsends, heq⟩
    · rw [hnothing (hcli.symm.trans heq)]
      exact .nothing fun _ => ⟨hword, hsends⟩
    · rw [heq] at hcli
      subst hcli
      have hframe := ClientCLI.afterPort_frame
        (d.cli.sendCommand (CommandParser.trim line) o.answer).2
        (d.cli.sendCommand (CommandParser.trim line) o.answer).1 port
      obtain ⟨hreturned, hafter⟩ := hsent _ hframe hserver
      refine .port port (d.cli.sendCommand (CommandParser.trim line) o.answer).2 hne hword hsends
        hasks ?_ ?_ hafter
      · rw [← hreturned]
      · rw [← hreturned]
        exact hframe.1.trans (d.cli.sendCommand_exchanges _ _)
  by_cases hother : ClientCLI.PromptVerb.ofWord
      (ClientCLI.toUpperFirstWord (CommandParser.trim line)) = .other
  · have hcli : (d.cli.handleOther o (CommandParser.trim line)).2 = cli := by
      rw [d.cli.promptLine_other o line hne hother] at hprompt
      rw [Option.some.inj hprompt]
    subst hcli
    have hframe := d.cli.handleOther_frame o (CommandParser.trim line)
    obtain ⟨hreturned, hafter⟩ := hsent _ hframe hserver
    refine .other _ hne hother hasks ?_ ?_ hafter
    · rw [← hreturned]
      exact d.cli.asks_handleOther o _
    · rw [← hreturned]
      exact hframe.1.trans (d.cli.sendCommand_exchanges _ _)
  · exact .transfer server os' hport hother
      (ClientCLI.asks_promptLine hlength hprompt hport hother) hserver rfl

/-! ## Runs -/

/-- A client that has just connected. -/
def Dialogue.start : Dialogue where
  cli := {}
  server := .start ["srv"] fileStorage

/-- What is reached by a run of a client that has just connected. -/
theorem exists_dialogue_of_run (allowed : Dialogue → DialogueEvent → Prop)
    [∀ d e, Decidable (allowed d e)] (events : List DialogueEvent) (P : Dialogue → Bool)
    (hP : (dialogue.run allowed events .start).any P = true) :
    ∃ d, dialogue.ReachableBy allowed d ∧ P d = true := by
  have hstart : ∀ d ∈ some Dialogue.start, d ∈ dialogue.init := by
    intro d hd
    cases hd
    exact ⟨⟨"127.0.0.1", rfl⟩, start_mem_init fileStorage_isDir⟩
  exact dialogue.exists_reachableBy_of_run allowed hstart events P hP

/-- A line that gets a single reply. -/
def typed (line : String) (reply : Answer) : DialogueEvent :=
  .prompt line { pasvAnswer := reply, answer := reply, abortAnswer := .late reply } []

/-- The login. -/
def login : List DialogueEvent :=
  [typed "USER alice" (.single (.ofLine "331 Username OK, need password." (by decide +kernel))
      (by decide +kernel)),
    typed "PASS secret" (.single (.ofLine "230 Login successful." (by decide +kernel))
      (by decide +kernel))]

end HybridFtp
