import HybridFtp.Client.Deployment
import HybridFtp.Client.ReplySync

/-!
# Delivery

What a transfer at the prompt of the client leaves on both sides, in passive mode.

* `exists_transfer`: the server handles the command of a transfer in the same place as
  the line at the prompt, but for a `PASV`;
* `downloads_exact`: a line at the prompt changes no file of the client, or writes what
  the server has under the name;
* `uploads_exact`: an upload that the server answers by 226 has stored the file of the
  client, if all of it has reached the disk;
* `listings_exact`: a listing is printed as the server has it.
-/

namespace HybridFtp

open Elements

/-- The argument that the server reads in a command. -/
def sentArgument (command : String) : String :=
  (CommandParser.parse ((readLines command).headD "")).argument

/-- The file of the server that a name of the client stands for. -/
def Serving.named (s : Serving) (name : String) : Option FileData :=
  s.fs.fileAt (s.session.pathManager.resolvePath (sentArgument ("RETR " ++ name)))

/-! ## The command of a transfer -/

section

variable {s s' : Serving} {os os' : List Outcomes} {es : List Exchange} {e : Exchange}

theorem lastHandled_concat : s.lastHandled os (es ++ [e]) =
    (s.respondAll os es).bind fun (server, os) =>
      (readLines e.command).head?.map fun line => ⟨server, line, os.headD {}⟩ := by
  rw [Serving.lastHandled, List.dropLast_concat, List.getLast?_concat]
  rfl

theorem readLines_pasv : readLines "PASV" = ["PASV"] := by decide +kernel

/-- The last one may be a `PASV`, too. -/
theorem lineVerb_of_pasv {p : Handled} (hpasv : ∀ e ∈ es, e.command = "PASV")
    (h : s.lastHandled os es = some p) : lineVerb p.line = some .PASV := by
  rcases List.eq_nil_or_concat es with rfl | ⟨es, e, rfl⟩
  · rw [Serving.lastHandled, List.getLast?_nil] at h
    simp at h
  · rw [List.concat_eq_append] at hpasv h
    rw [lastHandled_concat, Option.bind_eq_some_iff] at h
    obtain ⟨⟨server, os₁⟩, _, h⟩ := h
    rw [hpasv e (by simp), readLines_pasv] at h
    cases h
    show lineVerb "PASV" = some .PASV
    decide +kernel

/-- What has been answered has been handled. -/
theorem exists_lastHandled (hpasv : ∀ e ∈ es, e.command = "PASV")
    (h : s.respondAll os (es ++ [e]) = some (s', os')) :
    ∃ p, s.lastHandled os (es ++ [e]) = some p ∧ s.SameData p.before ∧
      (∃ more os', readLines e.command = p.line :: more ∧
        s' = ((p.before.after p.o p.line).handleLines more os').1) ∧
      e.returned = p.turn.firstReply := by
  rw [respondAll_append, Option.bind_eq_some_iff] at h
  obtain ⟨⟨server, os₁⟩, hserver, h⟩ := h
  obtain ⟨⟨server', os₂⟩, hrespond, h⟩ := Option.bind_eq_some_iff.1 h
  obtain ⟨rfl, rfl⟩ := Prod.mk.inj (Option.some.inj h)
  rw [Serving.respond] at hrespond
  split at hrespond
  · cases hrespond
  · rename_i line lines hlines
    rw [Option.ite_none_left_eq_some, not_or, not_not] at hrespond
    obtain ⟨⟨_, hreturned⟩, hafter⟩ := hrespond
    refine ⟨⟨server, line, os₁.headD {}⟩, ?_, sameData_of_pasv hpasv hserver,
      ⟨lines, os₁.tail, hlines, (congrArg Prod.fst (Option.some.inj hafter)).symm⟩, hreturned⟩
    rw [lastHandled_concat, hserver, Option.bind_some, hlines]
    rfl

end

/-- A line at the prompt goes through the client and then through the server. -/
theorem dialogue_prompt {d d' : Dialogue} {line : String} {o : LineOutcomes} {os : List Outcomes}
    (h : dialogue.step (.prompt line o os) d = some d') :
    line.toList.length < LINE_SIZE ∧ ∃ text server os',
      d.cli.promptLine o line = some (text, d'.cli) ∧
      d.server.respondAll os (d'.cli.exchanges.drop d.cli.exchanges.length) = some (server, os') ∧
      d'.server = (server.handleLines (lateLines o d.cli d'.cli) os').1 := by
  simp only [dialogue, Option.ite_none_left_eq_some, not_or, not_le, Option.bind_eq_some_iff,
    Option.map_eq_some_iff] at h
  obtain ⟨⟨_, _, hlength, _⟩, ⟨text, cli⟩, hprompt, ⟨server, os'⟩, hserver, rfl⟩ := h
  exact ⟨hlength, text, server, os', hprompt, hserver, rfl⟩

/-- The server handles the command in the same place as the line. -/
theorem exists_transfer {d : Dialogue} {cli cli' : ClientCLI} {server : Serving}
    {line text command reply : String} {o : LineOutcomes} {os os' : List Outcomes}
    (hprompt : d.cli.promptLine o line = some (text, cli')) (hsends : d.cli.Sends cli command reply)
    (hexchanges : cli'.exchanges = cli.exchanges)
    (hserver : d.server.respondAll os (cli'.exchanges.drop d.cli.exchanges.length) =
      some (server, os')) :
    ∃ p, d.transfer? line o os = some p ∧ d.server.SameData p.before ∧
      (∃ more os', readLines command = p.line :: more ∧
        server = ((p.before.after p.o p.line).handleLines more os').1) ∧
      reply = p.turn.firstReply := by
  obtain ⟨es, e, hes, hpasv, rfl, rfl⟩ := hsends
  rw [hexchanges, hes, List.drop_left] at hserver
  obtain ⟨p, hp, hsame, hline, hreply⟩ := exists_lastHandled hpasv hserver
  refine ⟨p, ?_, hsame, hline, hreply⟩
  rw [Dialogue.transfer?, hprompt, Option.bind_some]
  dsimp only
  rw [hexchanges, hes, List.drop_left, hp]

theorem sentArgument_of_lines {command line : String} {more : List String}
    (h : readLines command = line :: more) :
    sentArgument command = (CommandParser.parse line).argument := by
  rw [sentArgument, h]
  rfl

/-! ## Names -/

/-- What the server reads of a command that begins with the name of one. -/
theorem lineVerb_of_readLines {command first : String} {more : List String} {e : String × Verb}
    (hmem : e ∈ Verb.table) (hstarts : StartsWith command e.1)
    (hlength : command.toList.length ≤ LINE_SIZE) (h : readLines command = first :: more) :
    lineVerb first = some e.2 ∧ ∀ line ∈ more, lineVerb line = none := by
  have htable : ∀ e ∈ Verb.table, e.1.toList ≠ [] ∧ e.1.toList.length < LINE_SIZE - 1 ∧
      (∀ c ∈ e.1.toList, c ≠ '\r') ∧ ∀ c ∈ e.1.toList, c ≠ Char.ofNat 0 := by decide
  obtain ⟨hne, hshort, hcr, hnul⟩ := htable e hmem
  obtain ⟨rest, hcommand, hrest⟩ := hstarts
  obtain ⟨first', more', rest', hread, hfirst, hrest', hmore⟩ :=
    readLines_of_word hne hshort hcr hnul hrest hcommand hlength
  rw [h] at hread
  obtain ⟨rfl, rfl⟩ := List.cons.inj hread
  exact ⟨lineVerb_of_startsWith hmem ⟨rest', hfirst, hrest'⟩, fun line hline =>
    lineVerb_of_length_le_one (hmore line hline)⟩

/-- The command with the name of a file. -/
theorem lineVerb_of_named {name first : String} {more : List String} (word : String) (verb : Verb)
    (hmem : (word, verb) ∈ Verb.table) (hlength : name.toList.length + 1 + word.toList.length ≤ LINE_SIZE)
    (h : readLines (word ++ (" " ++ name)) = first :: more) :
    lineVerb first = some verb ∧ ∀ line ∈ more, lineVerb line = none := by
  have hcommand : (word ++ (" " ++ name)).toList = word.toList ++ ' ' :: name.toList := by
    rw [String.toList_append, String.toList_append]
    rfl
  refine lineVerb_of_readLines hmem ⟨_, hcommand, by simp⟩ ?_ h
  rw [hcommand, List.length_append, List.length_cons]
  omega

/-! ## Runs without transfers -/

/-- A line without a transfer that spells out what it sets, or no line at all. -/
def Deployment.Plain (w : Deployment) : DeploymentEvent → Prop
  | .prompt line o os _ => w.SpelledOut (.prompt line o os) ∧
      ClientCLI.PromptVerb.ofWord (ClientCLI.toUpperFirstWord (CommandParser.trim line)) = .other
  | .others _ => True
  | .edits _ => True

instance (w : Deployment) : DecidablePred w.Plain
  | .prompt line o os _ => inferInstanceAs (Decidable (w.SpelledOut (.prompt line o os) ∧
      ClientCLI.PromptVerb.ofWord (ClientCLI.toUpperFirstWord (CommandParser.trim line)) = .other))
  | .others _ => inferInstanceAs (Decidable True)
  | .edits _ => inferInstanceAs (Decidable True)

theorem Deployment.Plain.faithful {α : Type} [Double α] {w : Deployment} {e : DeploymentEvent}
    (h : w.Plain e) : w.Faithful α e := by
  cases e with
  | prompt line o os room =>
    obtain ⟨hspelled, hother⟩ := h
    refine ⟨hspelled, ?_, ?_, ?_⟩
    · intro _ hprompt
      rw [PromptsFor, hother] at hprompt
      exact absurd hprompt (by decide)
    · intro _ hprompt
      rw [PromptsFor, hother] at hprompt
      exact absurd hprompt (by decide)
    · intro name hname
      rw [ClientCLI.sentName, hother] at hname
      cases hname
  | others fs => trivial
  | edits files => trivial

/-- The storage of a server with a file of two bytes. -/
def greetingStorage : Storage where
  attributes := 0o755
  entries := [("srv", .dir 0o755 [("greeting", .file { content := [104, 105] })])]

/-- The server has the file, and the client has logged in. -/
def greetingRun : List DeploymentEvent :=
  .others greetingStorage :: login.filterMap fun
    | .prompt line o os => some (.prompt line o os 0)
    | .others _ => none

theorem exists_deployment_of_run (files : LocalFiles) (events : List DeploymentEvent)
    (P : Deployment → Bool)
    (hP : (deployment.run Deployment.Plain events { toDialogue := .start, files }).any P = true) :
    ∃ w, deployment.ReachableBy (Deployment.Faithful ℚ) w ∧ P w = true := by
  have hstart : ∀ w ∈ some ({ toDialogue := .start, files } : Deployment), w ∈ deployment.init := by
    intro w hw
    cases hw
    exact ⟨⟨"127.0.0.1", rfl⟩, start_mem_init fileStorage_isDir⟩
  obtain ⟨w, ⟨w₀, hw₀, hw⟩, hP⟩ :=
    deployment.exists_reachableBy_of_run Deployment.Plain hstart events P hP
  exact ⟨w, ⟨w₀, hw₀, hw.mono fun _ _ => Deployment.Plain.faithful⟩, hP⟩

/-! ## Downloads -/

namespace ClientCLI

variable {cli cli' : ClientCLI} {o : LineOutcomes} {line text : String}

theorem promptLine_retr {remoteFile localFile : String} (hprompt : PromptsFor line [.RETR])
    (hnames : names (CommandParser.trim line) = some (remoteFile, localFile)) :
    cli.promptLine o line = cli.handleRetr o remoteFile localFile := by
  have hne : CommandParser.trim line ≠ "" := by
    intro hempty
    rw [hempty] at hnames
    cases hnames
  rw [promptLine, if_neg hne, List.mem_singleton.1 hprompt, hnames]

theorem of_retrFiles_ne {remoteFile localFile : String} {room : Nat} {files : LocalFiles}
    (h : cli.retrFiles o remoteFile localFile room files ≠ files) :
    ∃ openingReply buffer cli',
      cli.requested o ("RETR " ++ remoteFile) ("Error: Cannot parse PASV reply: " ++ ·) =
        some (openingReply, buffer, cli') ∧
      cli.retrFiles o remoteFile localFile room files =
        Function.update files localFile (some (buffer.take room)) := by
  rw [retrFiles] at h ⊢
  cases hrequested : cli.requested o ("RETR " ++ remoteFile)
      ("Error: Cannot parse PASV reply: " ++ ·) with
  | none =>
    rw [hrequested] at h
    exact absurd rfl h
  | some requested =>
    obtain ⟨openingReply, buffer, cli'⟩ := requested
    rw [hrequested] at h
    dsimp only at h ⊢
    by_cases hcreated : o.created = true
    · rw [if_pos hcreated]
      exact ⟨openingReply, buffer, cli', rfl, rfl⟩
    · rw [if_neg hcreated] at h
      exact absurd rfl h

/-- A line that changes a file has received it. -/
theorem of_promptFiles_ne {room : Nat} {files : LocalFiles}
    (h : cli.promptFiles o line room files ≠ files) :
    PromptsFor line [.RETR] ∧ ∃ remoteFile localFile openingReply buffer cli',
      names (CommandParser.trim line) = some (remoteFile, localFile) ∧
      cli.requested o ("RETR " ++ remoteFile) ("Error: Cannot parse PASV reply: " ++ ·) =
        some (openingReply, buffer, cli') ∧
      cli.promptFiles o line room files =
        Function.update files localFile (some (buffer.take room)) := by
  rw [promptFiles] at h ⊢
  split at h
  · exact absurd rfl h
  · rename_i hne
    rw [if_neg hne]
    split at h
    · rename_i remoteFile localFile hverb hnames
      obtain ⟨openingReply, buffer, cli', hrequested, hfiles⟩ := of_retrFiles_ne h
      exact ⟨List.mem_singleton.2 hverb, remoteFile, localFile, openingReply, buffer, cli', hnames,
        hrequested, hfiles⟩
    · exact absurd rfl h

/-- The exchanges that a download leaves are those before the data are used. -/
theorem handleRetr_of_requested {remoteFile openingReply : String} (localFile : String)
    {buffer : Bytes}
    (h : cli.requested o ("RETR " ++ remoteFile) ("Error: Cannot parse PASV reply: " ++ ·) =
      some (openingReply, buffer, cli')) :
    ∃ text cli'', cli.handleRetr o remoteFile localFile = some (text, cli'') ∧
      cli''.exchanges = cli'.exchanges := by
  rw [handleRetr, requestData_eq, h]
  dsimp only
  split
  · exact ⟨_, _, rfl, rfl⟩
  · exact ⟨_, _, rfl, rfl⟩

end ClientCLI

/-- What a command of a transfer has received is what the server has sent for it. -/
theorem Deployment.Carried.received {α : Type} [Double α] {w : Deployment} {line : String}
    {o : LineOutcomes} {os : List Outcomes} {p : Handled} {buffer : Bytes}
    (h : w.Carried α line o os) (hpassive : w.cli.active = false)
    (hprompt : PromptsFor line [.RETR, .LIST, .NLST])
    (hp : w.transfer? line o os = some p) (hcode : hasCode p.turn.firstReply "150" = true)
    (hreceived : o.received = .completed buffer)
    (hsmall : ∀ wire ∈ p.turn.data, wire.length ≤ BUFFER_CAPACITY) : buffer ∈ p.turn.data := by
  obtain ⟨wire, hwire, hconveys⟩ := h.download hpassive hprompt p hp hcode buffer hreceived
  rwa [hconveys.eq (hsmall wire hwire)]

section

variable {α : Type} [Double α] {w w' : Deployment} {line : String} {o : LineOutcomes}
  {os : List Outcomes} {room : Nat}

/-- What a line at the prompt writes, where both sides agree on the representation of data. -/
theorem files_of_prompt (hagrees : w.Agrees) (hpassive : w.cli.active = false)
    (hfaithful : w.Faithful α (.prompt line o os room))
    (hstep : deployment.step (.prompt line o os room) w = some w')
    (hsmall : ∀ remoteFile localFile file,
      ClientCLI.names (CommandParser.trim line) = some (remoteFile, localFile) →
        w.server.named remoteFile = some file →
          (TransferModeCodec.encode file.content w.cli.transferMode).length ≤ BUFFER_CAPACITY) :
    w'.files = w.files ∨ PromptsFor line [.RETR] ∧ ∃ remoteFile localFile file,
      ClientCLI.names (CommandParser.trim line) = some (remoteFile, localFile) ∧
      w.server.named remoteFile = some file ∧
      w'.files = Function.update w.files localFile (some (file.content.take room)) := by
  refine or_iff_not_imp_left.2 fun hne => ?_
  obtain ⟨d, hd, rfl⟩ := Option.map_eq_some_iff.1 hstep
  dsimp only at hne ⊢
  obtain ⟨hprompt, remoteFile, localFile, openingReply, buffer, cli, hnames, hrequested, hfiles⟩ :=
    ClientCLI.of_promptFiles_ne hne
  obtain ⟨hsends, hcode, raw, hreceived, hdecode⟩ := ClientCLI.requested_spec hrequested
  obtain ⟨hlength, text, server, os', hline, hserver, hafter⟩ := dialogue_prompt hd
  obtain ⟨text', cli', hretr, hexchanges⟩ :=
    ClientCLI.handleRetr_of_requested localFile hrequested
  have hcli : cli' = d.cli := by
    rw [ClientCLI.promptLine_retr hprompt hnames, hretr] at hline
    exact (Prod.mk.inj (Option.some.inj hline)).2
  rw [hcli] at hexchanges
  obtain ⟨p, hp, hsame, ⟨more, _, hlines, _⟩, hreply⟩ :=
    exists_transfer hline hsends hexchanges hserver
  have hroom : remoteFile.toList.length + 1 + "RETR".toList.length ≤ LINE_SIZE := by
    have hshort := (ClientCLI.length_of_names (by rw [List.mem_singleton.1 hprompt]; decide) hnames).1
    have hfour : "RETR".toList.length = 4 := by decide
    have htrim := ClientCLI.length_trim_le line
    omega
  obtain ⟨hverb, _⟩ := lineVerb_of_named "RETR" .RETR (by decide) hroom hlines
  -- The server encodes in the mode in which the client decodes.
  have hspec : ∀ wire ∈ p.turn.data, ∃ file, w.server.named remoteFile = some file ∧
      wire = TransferModeCodec.encode file.content w.cli.transferMode := by
    intro wire hwire
    obtain ⟨file, hfile, hencode⟩ := mem_data_retr hverb hwire
    rw [hsame.fs, hsame.pathManager] at hfile
    rw [hsame.transferMode, ← hagrees.transferMode] at hencode
    rw [Serving.named, sentArgument_of_lines hlines]
    exact ⟨file, hfile, hencode⟩
  have hmem := hfaithful.2.received hpassive (by simp_all [PromptsFor]) hp (hreply ▸ hcode) hreceived
    fun wire hwire => by
      obtain ⟨file, hfile, rfl⟩ := hspec wire hwire
      exact hsmall remoteFile localFile file hnames hfile
  obtain ⟨file, hfile, rfl⟩ := hspec raw hmem
  refine ⟨hprompt, remoteFile, localFile, file, hnames, hfile, hfiles.trans ?_⟩
  rw [TransferModeCodec.decode_of_encode] at hdecode
  rw [(TransferModeCodec.Decoded.mk.inj hdecode).1]

/-- In passive mode, a line at the prompt changes no file of the client, or it writes to the
    one that it names what the server has under the other name, as far as there is room. -/
theorem downloads_exact (hw : deployment.ReachableBy (Deployment.Faithful α) w)
    (hpassive : w.cli.active = false)
    (hfaithful : w.Faithful α (.prompt line o os room))
    (hstep : deployment.step (.prompt line o os room) w = some w')
    (hsmall : ∀ remoteFile localFile file,
      ClientCLI.names (CommandParser.trim line) = some (remoteFile, localFile) →
        w.server.named remoteFile = some file →
          (TransferModeCodec.encode file.content w.cli.transferMode).length ≤ BUFFER_CAPACITY) :
    w'.files = w.files ∨ PromptsFor line [.RETR] ∧ ∃ remoteFile localFile file,
      ClientCLI.names (CommandParser.trim line) = some (remoteFile, localFile) ∧
      w.server.named remoteFile = some file ∧
      w'.files = Function.update w.files localFile (some (file.content.take room)) :=
  files_of_prompt (agrees_of_faithful hw) hpassive hfaithful hstep hsmall

end

/-- The two bytes of the file arrive. -/
def greetingDownload : LineOutcomes :=
  { ClientCLI.download true with received := .completed [104, 105] }

theorem downloads_exact_greeting : ∃ w w' : Deployment,
    w.files "copy" = none ∧ w'.files "copy" = some [104, 105] ∧
      PromptsFor "GET greeting copy" [.RETR] ∧ ∃ remoteFile localFile file,
        ClientCLI.names (CommandParser.trim "GET greeting copy") = some (remoteFile, localFile) ∧
        w.server.named remoteFile = some file ∧
        w'.files = Function.update w.files localFile (some (file.content.take 10)) := by
  obtain ⟨w, hw, hP⟩ := exists_deployment_of_run (fun _ => none) greetingRun (fun w =>
    w.files "copy" = none ∧ w.cli.active = false ∧
      (deployment.step (.prompt "GET greeting copy" greetingDownload [{}, {}] 10) w).any (fun w' =>
        w'.files "copy" = some [104, 105]) = true ∧
      w.SpelledOut (.prompt "GET greeting copy" greetingDownload [{}, {}]) ∧
      (w.transfer? "GET greeting copy" greetingDownload [{}, {}]).all (fun p =>
        [104, 105] ∈ p.turn.data ∧ p.o.sent = .completed ()) = true ∧
      (w.server.named "greeting").all (fun file =>
        (TransferModeCodec.encode file.content w.cli.transferMode).length ≤ BUFFER_CAPACITY) = true)
    (by decide +kernel)
  obtain ⟨hnone, hpassive, hany, hspelled, htransfer, hfile⟩ := of_decide_eq_true hP
  obtain ⟨w', hstep, hcopy⟩ := (Option.any_eq_true _ _).1 hany
  have hcopy := of_decide_eq_true hcopy
  have hfaithful : w.Faithful ℚ (.prompt "GET greeting copy" greetingDownload [{}, {}] 10) := by
    refine ⟨hspelled, fun _ _ p hp _ buffer hreceived => ?_, fun _ h => absurd h (by decide +kernel),
      fun name hname => ?_⟩
    · obtain ⟨hdata, hsent⟩ := of_decide_eq_true ((Option.all_eq_true _ _).1 htransfer p hp)
      cases hreceived
      exact ⟨_, hdata, hsent ▸ conveys_of_run (by decide +kernel)⟩
    · have hnone : ClientCLI.sentName "GET greeting copy" = none := by decide +kernel
      rw [hnone] at hname
      cases hname
  have hnames : ClientCLI.names (CommandParser.trim "GET greeting copy") =
      some ("greeting", "copy") := by
    decide +kernel
  refine ⟨w, w', hnone, hcopy, (downloads_exact hw hpassive hfaithful hstep ?_).resolve_left ?_⟩
  · intro remoteFile localFile file h hnamed
    rw [hnames] at h
    obtain ⟨rfl, rfl⟩ := Prod.mk.inj (Option.some.inj h)
    exact of_decide_eq_true ((Option.all_eq_true _ _).1 hfile file hnamed)
  · intro hsame
    rw [hsame, hnone] at hcopy
    cases hcopy

/-! ## Uploads -/

namespace ClientCLI

variable {cli cli' : ClientCLI} {o : LineOutcomes} {line text : String}

/-- The command that sends a file. -/
def storCommand (remoteFile : String) (unique append : Bool) : String :=
  if unique then if remoteFile = "" then "STOU" else "STOU " ++ remoteFile
  else if append then "APPE " ++ remoteFile
  else "STOR " ++ remoteFile

theorem sendData_exchanges (cli : ClientCLI) (o : LineOutcomes) (openingReply : String) :
    (cli.sendData o openingReply).2.exchanges = cli.exchanges := by
  have hasks : Asks (fun _ => False) True cli (cli.sendData o openingReply).2 :=
    asks_sendData cli (fun _ => trivial) openingReply
  obtain ⟨es, hes, hall⟩ := hasks.exchanges
  rw [hes, List.eq_nil_iff_forall_not_mem.2 fun e he => hall e he, List.append_nil]

/-- At most a `PASV` has been sent, or the file has been read and the command has been sent
    after it. -/
theorem handleStor_sends {localFile remoteFile : String} {unique append : Bool}
    (h : cli.handleStor o localFile remoteFile unique append = some (text, cli')) :
    (∃ es, cli'.exchanges = cli.exchanges ++ es ∧ ∀ e ∈ es, e.command = "PASV") ∨
      ∃ content cli'' reply, o.localFile = .content content ∧
        cli.Sends cli'' (storCommand remoteFile unique append) reply ∧
        cli'.exchanges = cli''.exchanges := by
  rw [handleStor.eq_def] at h
  split at h
  · cases h
    exact .inl ⟨[], by simp, by simp⟩
  · cases h
    exact .inl ⟨[], by simp, by simp⟩
  · cases h
  · rename_i content hcontent
    split at h
    · cases h
    · rename_i hendpoint
      cases h
      left
      have hasks : Asks (· = "PASV") True cli cli' := asks_dataEndpoint (fun _ => rfl) hendpoint
      obtain ⟨es, hes, hall⟩ := hasks.exchanges
      exact ⟨es, hes, hall⟩
    · rename_i cli₁ hendpoint
      right
      have hsends := sends_sendCommand hendpoint (storCommand remoteFile unique append) o.answer
      refine ⟨content, _, _, hcontent, hsends, ?_⟩
      dsimp only at h
      rw [← storCommand] at h
      split at h
      · cases h
        rfl
      · split at h
        · cases h
          rfl
        · obtain rfl : _ = cli' := congrArg Prod.snd (Option.some.inj h)
          exact sendData_exchanges ..

/-- A line that sends a file, or not even names one. -/
theorem promptLine_stor (hprompt : PromptsFor line [.STOR, .STOU, .APPE])
    (h : cli.promptLine o line = some (text, cli')) :
    cli' = cli ∨ ∃ localFile remoteFile unique append,
      names (CommandParser.trim line) = some (localFile, remoteFile) ∧
      sentName line = some localFile ∧
      cli.handleStor o localFile remoteFile unique append = some (text, cli') := by
  have hverb : PromptVerb.ofWord (toUpperFirstWord (CommandParser.trim line)) ∈
      [.STOR, .STOU, .APPE] := hprompt
  have hother : ∀ verb ∈ [PromptVerb.STOR, .STOU, .APPE], verb ≠ .RETR ∧ verb ≠ .LIST ∧
      verb ≠ .NLST ∧ verb ≠ .PORT ∧ verb ≠ .other := by
    decide
  replace hother := hother _ hverb
  clear hprompt
  rw [promptLine] at h
  rw [sentName]
  split at h
  · cases h
    exact .inl rfl
  · generalize PromptVerb.ofWord (toUpperFirstWord (CommandParser.trim line)) = verb
      at hverb hother h ⊢
    cases hnames : names (CommandParser.trim line) with
    | none =>
      rw [hnames] at h
      simp only [List.mem_cons, List.not_mem_nil, or_false] at hverb
      rcases hverb with rfl | rfl | rfl
      · cases h
        exact .inl rfl
      · cases h
        exact .inl rfl
      · cases h
        exact .inl rfl
    | some pair =>
      obtain ⟨localFile, remoteFile⟩ := pair
      rw [hnames] at h
      right
      simp only [List.mem_cons, List.not_mem_nil, or_false] at hverb
      rcases hverb with rfl | rfl | rfl
      · exact ⟨localFile, remoteFile, false, false, rfl, rfl, h⟩
      · exact ⟨localFile, remoteFile, true, false, rfl, rfl, h⟩
      · exact ⟨localFile, remoteFile, false, true, rfl, rfl, h⟩

/-- What the server reads of it. -/
theorem lineVerb_of_storCommand {name first : String} {more : List String} {unique append : Bool}
    (hlength : name.toList.length + 5 ≤ LINE_SIZE)
    (h : readLines (storCommand name unique append) = first :: more) :
    (∃ verb ∈ [Verb.STOR, .STOU, .APPE], lineVerb first = some verb) ∧
      ∀ line ∈ more, lineVerb line = none := by
  rw [storCommand] at h
  split at h
  · split at h
    · obtain ⟨hverb, hmore⟩ := lineVerb_of_readLines (e := ("STOU", .STOU)) (by decide)
        ⟨[], rfl, by simp⟩ (by decide) h
      exact ⟨⟨_, by decide, hverb⟩, hmore⟩
    · obtain ⟨hverb, hmore⟩ := lineVerb_of_named "STOU" .STOU (by decide) hlength h
      exact ⟨⟨_, by decide, hverb⟩, hmore⟩
  · split at h
    · obtain ⟨hverb, hmore⟩ := lineVerb_of_named "APPE" .APPE (by decide) hlength h
      exact ⟨⟨_, by decide, hverb⟩, hmore⟩
    · obtain ⟨hverb, hmore⟩ := lineVerb_of_named "STOR" .STOR (by decide) hlength h
      exact ⟨⟨_, by decide, hverb⟩, hmore⟩

end ClientCLI

theorem fs_after_of_lineVerb (s : Serving) (o : Outcomes) {line : String}
    (h : ∀ verb ∈ lineVerb line, verb ∉ Verb.changes) : (s.after o line).fs = s.fs :=
  fs_of_not_changes o s.session s.fs fun verb hverb =>
    h verb (executed_spec hverb).1

/-- Lines that change nothing. -/
theorem fs_handleLines (s : Serving) {lines : List String} (os : List Outcomes)
    (h : ∀ line ∈ lines, ∀ verb ∈ lineVerb line, verb ∉ Verb.changes) :
    (s.handleLines lines os).1.fs = s.fs :=
  handleLines_invariant (I := fun s' => s'.fs = s.fs)
    (fun line hline s' o hs => (fs_after_of_lineVerb s' o (h line hline)).trans hs) rfl

theorem fs_handleLines_lateLines (s : Serving) (o : LineOutcomes) (cli cli' : ClientCLI)
    (os : List Outcomes) : (s.handleLines (lateLines o cli cli') os).1.fs = s.fs := by
  refine fs_handleLines s os fun line hline verb hverb => ?_
  rw [lateLines] at hline
  split at hline
  · have habor : lineVerb "ABOR" = some .ABOR := by decide +kernel
    rw [List.mem_singleton.1 hline, habor] at hverb
    cases hverb
    decide
  · cases hline

section

variable {α : Type} [Double α] {w w' : Deployment} {line : String} {o : LineOutcomes}
  {os : List Outcomes} {room : Nat}

theorem ne_other_of_promptsFor (h : PromptsFor line [.STOR, .STOU, .APPE]) :
    ClientCLI.PromptVerb.ofWord (ClientCLI.toUpperFirstWord (CommandParser.trim line)) ≠ .other := by
  have hother : ∀ verb ∈ [ClientCLI.PromptVerb.STOR, .STOU, .APPE], verb ≠ .other := by decide
  exact hother _ h

/-- What is stored, where both sides agree on the representation of data. -/
theorem stored_of_prompt (hagrees : w.Agrees) (hpassive : w.cli.active = false)
    (hprompt : PromptsFor line [.STOR, .STOU, .APPE])
    (hfaithful : w.Faithful α (.prompt line o os room))
    (hstep : deployment.step (.prompt line o os room) w = some w')
    (hsmall : ∀ name ∈ ClientCLI.sentName line, ∀ content, w.files name = some content →
      (TransferModeCodec.encode content w.cli.transferMode).length ≤ BUFFER_CAPACITY)
    {p : Handled} (hp : w.transfer? line o os = some p)
    (hcomplete : p.turn.replies.getLast? = some transferComplete)
    (hflushed : p.o.written.Flushed) :
    ∃ name content u, ClientCLI.sentName line = some name ∧ w.files name = some content ∧
      Uploading.start? p.before.session p.before.fs p.line = some u ∧
      (w.server.fs.status (w.server.session.pathManager.resolvePath u.destName) ≠ some .unknown →
        u.Stored w.server.session w.server.fs w'.server.fs content) := by
  obtain ⟨d, hd, rfl⟩ := Option.map_eq_some_iff.1 hstep
  obtain ⟨hlength, text, server, os', hline, hserver, hafter⟩ := dialogue_prompt hd
  rcases ClientCLI.promptLine_stor hprompt hline with
    hcli | ⟨localFile, remoteFile, unique, append, hnames, hsent, hstor⟩
  · -- Nothing is sent.
    rw [Dialogue.transfer?, hline, Option.bind_some] at hp
    dsimp only at hp
    rw [hcli, List.drop_length] at hp
    exact absurd hcomplete (ne_complete_of_pasv _ _ _ (lineVerb_of_pasv (by simp) hp))
  rcases ClientCLI.handleStor_sends hstor with
    ⟨es, hes, hpasv⟩ | ⟨content, cli, reply, hcontent, hsends, hexchanges⟩
  · -- At most a `PASV` is sent, which is not answered by 226.
    rw [Dialogue.transfer?, hline, Option.bind_some] at hp
    dsimp only at hp
    rw [hes, List.drop_left] at hp
    exact absurd hcomplete (ne_complete_of_pasv _ _ _ (lineVerb_of_pasv hpasv hp))
  obtain ⟨p', hp', hsame, ⟨more, os₁, hlines, hmore⟩, hreply⟩ :=
    exists_transfer hline hsends hexchanges hserver
  obtain rfl := Option.some.inj (hp.symm.trans hp')
  have hroom : remoteFile.toList.length + 5 ≤ LINE_SIZE := by
    have hshort := (ClientCLI.length_of_names (ne_other_of_promptsFor hprompt) hnames).2
    have htrim := ClientCLI.length_trim_le line
    omega
  obtain ⟨⟨verb, hupload, hverb⟩, hnone⟩ := ClientCLI.lineVerb_of_storCommand hroom hlines
  obtain ⟨u, hu⟩ := exists_start_of_complete hverb hupload hcomplete
  have hname := hfaithful.2.read localFile hsent content hcontent
  refine ⟨localFile, content, u, hsent, hname, hu, fun hspecial => ?_⟩
  have hstored := stored_of_complete hu
    (by rw [hsame.fs, hsame.pathManager]; exact hspecial) hflushed hcomplete
  obtain ⟨buf, hreceived, hok, hstored⟩ := hstored
  -- What is left of a command that is longer than a line changes nothing.
  have hquiet : ∀ line ∈ more, ∀ verb ∈ lineVerb line, verb ∉ Verb.changes := by
    intro line hline verb hverb
    rw [hnone line hline] at hverb
    cases hverb
  have hfs : d.server.fs = (handleCommand p.o p.before.session p.before.fs p.line).fs := by
    rw [hafter, fs_handleLines_lateLines, hmore, fs_handleLines _ _ hquiet, Serving.after,
      Serving.turn]
  rw [← hfs] at hstored
  obtain ⟨content', hcontent', hconveys⟩ := hfaithful.2.upload hpassive hprompt p hp buf hreceived
  rw [hcontent] at hcontent'
  cases hcontent'
  rwa [hconveys.eq (hsmall localFile hsent content hname), hagrees.transferMode, ← hsame.transferMode,
    TransferModeCodec.decode_of_encode, Uploading.Stored, hsame.fs, hsame.pathManager] at hstored

/-- A file that is sent at the prompt in passive mode and that the server answers by 226 is
    stored there as it is on the client's computer, if nothing of it is lost when the file
    is closed. -/
theorem uploads_exact (hw : deployment.ReachableBy (Deployment.Faithful α) w)
    (hpassive : w.cli.active = false)
    (hprompt : PromptsFor line [.STOR, .STOU, .APPE])
    (hfaithful : w.Faithful α (.prompt line o os room))
    (hstep : deployment.step (.prompt line o os room) w = some w')
    (hsmall : ∀ name ∈ ClientCLI.sentName line, ∀ content, w.files name = some content →
      (TransferModeCodec.encode content w.cli.transferMode).length ≤ BUFFER_CAPACITY)
    {p : Handled} (hp : w.transfer? line o os = some p)
    (hcomplete : p.turn.replies.getLast? = some transferComplete)
    (hflushed : p.o.written.Flushed) :
    ∃ name content u, ClientCLI.sentName line = some name ∧ w.files name = some content ∧
      Uploading.start? p.before.session p.before.fs p.line = some u ∧
      (w.server.fs.status (w.server.session.pathManager.resolvePath u.destName) ≠ some .unknown →
        u.Stored w.server.session w.server.fs w'.server.fs content) :=
  stored_of_prompt (agrees_of_faithful hw) hpassive hprompt hfaithful hstep hsmall hp hcomplete hflushed

end

theorem isLine_complete : "226 Transfer complete.".toList ≠ [] ∧
    '\n' ∉ "226 Transfer complete.".toList ∧ "226 Transfer complete.".toList[3]? ≠ some '-' := by
  decide +kernel

theorem not_preliminary_complete :
    ¬(Reply.ofLine "226 Transfer complete." isLine_complete).Preliminary := by
  decide +kernel

/-- A passive transfer that is opened by another reply. -/
def passiveOutcomes (opening : String)
    (ho : opening.toList ≠ [] ∧ '\n' ∉ opening.toList ∧ opening.toList[3]? ≠ some '-')
    (hpreliminary : (Reply.ofLine opening ho).Preliminary) : LineOutcomes :=
  { ClientCLI.download true with
    answer := .opened (.ofLine opening ho) (.ofLine "226 Transfer complete." isLine_complete)
      hpreliminary not_preliminary_complete
    localFile := .content [104, 105] }

/-- A file of two bytes is sent in passive mode. -/
def greetingUpload : LineOutcomes :=
  passiveOutcomes "150 Opening data connection for file upload." (by decide +kernel)
    (by decide +kernel)

theorem uploads_exact_greeting : ∃ w w' : Deployment, ∃ name content u,
    ClientCLI.sentName "PUT greeting copy" = some name ∧ w.files name = some content ∧
      Uploading.Stored u w.server.session w.server.fs w'.server.fs content := by
  obtain ⟨w, hw, hP⟩ := exists_deployment_of_run
    (fun name => if name = "greeting" then some [104, 105] else none) greetingRun (fun w =>
      w.files "greeting" = some [104, 105] ∧ w.cli.active = false ∧
      (deployment.step (.prompt "PUT greeting copy" greetingUpload
        [{}, { received := .completed [104, 105] }] 10) w).isSome = true ∧
      w.SpelledOut (.prompt "PUT greeting copy" greetingUpload
        [{}, { received := .completed [104, 105] }]) ∧
      (w.transfer? "PUT greeting copy" greetingUpload
        [{}, { received := .completed [104, 105] }]).any (fun p =>
          p.turn.replies.getLast? = some transferComplete ∧ p.o.received = .completed [104, 105] ∧
          p.o.written = .complete ∧
          (Uploading.start? p.before.session p.before.fs p.line).all (fun u =>
            w.server.fs.status (w.server.session.pathManager.resolvePath u.destName) ≠
              some .unknown) = true) = true ∧
      w.cli.transferMode = .Stream)
    (by decide +kernel)
  obtain ⟨hfile, hpassive, hsome, hspelled, htransfer, hmode⟩ := of_decide_eq_true hP
  obtain ⟨w', hstep⟩ := Option.isSome_iff_exists.1 hsome
  obtain ⟨p, hp, hany⟩ := (Option.any_eq_true _ _).1 htransfer
  obtain ⟨hcomplete, hreceived, hwritten, hstatus⟩ := of_decide_eq_true hany
  have hname : ClientCLI.sentName "PUT greeting copy" = some "greeting" := by decide +kernel
  have hsmall : (TransferModeCodec.encode [104, 105] .Stream).length ≤ BUFFER_CAPACITY := by
    decide +kernel
  have hfaithful : w.Faithful ℚ (.prompt "PUT greeting copy" greetingUpload
      [{}, { received := .completed [104, 105] }] 10) := by
    refine ⟨hspelled, fun _ h => absurd h (by decide +kernel), fun _ _ p' hp' buffer hbuffer => ?_,
      fun name hsent content hcontent => ?_⟩
    · obtain rfl := Option.some.inj (hp.symm.trans hp')
      rw [hreceived] at hbuffer
      cases hbuffer
      refine ⟨[104, 105], rfl, ?_⟩
      rw [hmode]
      exact conveys_of_run (by decide +kernel)
    · rw [hname] at hsent
      cases hsent
      cases hcontent
      exact hfile
  obtain ⟨name, content, u, hsent, hcontent, hu, hstored⟩ :=
    uploads_exact hw hpassive (by decide +kernel) hfaithful hstep (fun name hsent content hcontent => by
      rw [hname] at hsent
      cases hsent
      rw [hfile] at hcontent
      cases hcontent
      rw [hmode]
      exact hsmall) hp hcomplete (by rw [hwritten]; trivial)
  exact ⟨w, w', name, content, u, hsent, hcontent, hstored
    (of_decide_eq_true ((Option.all_eq_true _ _).1 hstatus u hu))⟩

section

variable {α : Type} [Double α] {w w' : Deployment} {line : String} {o : LineOutcomes}
  {os : List Outcomes} {room : Nat}

/-! ## Listings -/

/-- The command that asks for a listing. -/
def ClientCLI.listCommand (path : String) (namesOnly : Bool) : String :=
  (if namesOnly then "NLST" else "LIST") ++ if path = "" then "" else " " ++ path

/-- The path of a line that asks for a listing. -/
def ClientCLI.listPath (line : String) : String :=
  ((names (CommandParser.trim line)).map Prod.fst).getD ""

/-- The listing that a line shows, and the client then. -/
def ClientCLI.shown (cli : ClientCLI) (o : LineOutcomes) (line : String) (namesOnly : Bool) :
    Option (String × Bytes × ClientCLI) :=
  cli.requested o (listCommand (listPath line) namesOnly)
    fun _ => "Error: Cannot parse PASV reply."

/-- The listing that the server has for an argument. -/
def PathManager.listing (pm : PathManager) (fs : Storage) (namesOnly : Bool) (path : String) :
    Option String :=
  if namesOnly then pm.listNames fs path else pm.listDirectory fs path

theorem mem_data_listing {o : Outcomes} {session : SessionState} {fs : Storage} {line : String}
    {wire : Bytes} {namesOnly : Bool}
    (hverb : lineVerb line = some (if namesOnly then .NLST else .LIST))
    (h : wire ∈ (handleCommand o session fs line).data) :
    ∃ text, session.pathManager.listing fs namesOnly (CommandParser.parse line).argument =
        some text ∧ wire = TransferModeCodec.encode (textBytes text) session.transferMode := by
  cases namesOnly with
  | true =>
    rw [if_pos rfl] at hverb
    obtain ⟨text, htext, hwire⟩ := mem_data_nlst hverb h
    exact ⟨text, by rw [PathManager.listing, if_pos rfl, htext], hwire⟩
  | false =>
    rw [if_neg Bool.false_ne_true] at hverb
    obtain ⟨text, htext, hwire⟩ := mem_data_list hverb h
    exact ⟨text, by rw [PathManager.listing, if_neg Bool.false_ne_true, htext], hwire⟩

/-- A listing is printed after the reply to the command, on lines of its own. -/
theorem ClientCLI.promptLine_of_shown {cli cli' : ClientCLI} {o : LineOutcomes}
    {line openingReply : String} {buffer : Bytes} {namesOnly : Bool}
    (hprompt : PromptsFor line [if namesOnly then .NLST else .LIST])
    (h : cli.shown o line namesOnly = some (openingReply, buffer, cli')) :
    ∃ finalReply cli'', cli.promptLine o line = some (openingReply ++ "\n" ++
        String.ofList (buffer.map fun b => Char.ofNat b.toNat) ++
        (if buffer ≠ [] ∧ buffer.getLast? ≠ some 10 then "\n" else "") ++ finalReply, cli'') ∧
      cli''.exchanges = cli'.exchanges := by
  have hne : CommandParser.trim line ≠ "" := by
    intro hempty
    have hword : PromptVerb.ofWord (toUpperFirstWord "") = .other := by decide
    have hverb := List.mem_singleton.1 hprompt
    rw [hempty, hword] at hverb
    cases namesOnly <;> cases hverb
  have hline : cli.promptLine o line = cli.handleList o (listPath line) namesOnly := by
    rw [promptLine, if_neg hne, List.mem_singleton.1 hprompt, listPath]
    cases namesOnly <;> rfl
  rw [shown, listCommand] at h
  rw [hline, handleList]
  dsimp only
  rw [requestData_eq, h]
  exact ⟨_, _, rfl, rfl⟩

theorem ClientCLI.length_listPath {line : String} (hlength : line.toList.length < LINE_SIZE)
    (hword : PromptVerb.ofWord (toUpperFirstWord (CommandParser.trim line)) ≠ .other) :
    (listPath line).toList.length + 5 ≤ LINE_SIZE := by
  rw [listPath]
  cases hnames : names (CommandParser.trim line) with
  | none =>
    rw [Option.map_none, Option.getD_none]
    decide
  | some pair =>
    have hshort := (length_of_names hword hnames).1
    have htrim := length_trim_le line
    rw [Option.map_some, Option.getD_some]
    omega

/-- What the server reads of the command. -/
theorem ClientCLI.lineVerb_of_listCommand {path first : String} {more : List String}
    {namesOnly : Bool} (hlength : path.toList.length + 5 ≤ LINE_SIZE)
    (h : readLines (listCommand path namesOnly) = first :: more) :
    lineVerb first = some (if namesOnly then .NLST else .LIST) := by
  have hword : ∀ word verb, (word, verb) ∈ Verb.table → word.toList.length = 4 →
      readLines (word ++ if path = "" then "" else " " ++ path) = first :: more →
      lineVerb first = some verb := by
    intro word verb hmem hfour h
    split at h
    · have hcommand : (word ++ "").toList = word.toList ++ [] := by
        rw [String.toList_append]
        rfl
      refine (lineVerb_of_readLines hmem ⟨[], hcommand, by simp⟩ ?_ h).1
      rw [hcommand, List.append_nil, hfour]
      decide
    · exact (lineVerb_of_named word verb hmem (by omega) h).1
  rw [listCommand] at h
  cases namesOnly with
  | true => exact hword "NLST" .NLST (by decide) (by decide) h
  | false => exact hword "LIST" .LIST (by decide) (by decide) h

/-- A listing that is printed in passive mode is the one that the server has. -/
theorem listings_exact (hw : deployment.ReachableBy (Deployment.Faithful α) w) {namesOnly : Bool}
    (hpassive : w.cli.active = false)
    (hprompt : PromptsFor line [if namesOnly then .NLST else .LIST])
    (hfaithful : w.Faithful α (.prompt line o os room))
    (hstep : deployment.step (.prompt line o os room) w = some w')
    (hsmall : ∀ listing,
      w.server.session.pathManager.listing w.server.fs namesOnly (sentArgument
        (ClientCLI.listCommand (ClientCLI.listPath line) namesOnly)) = some listing →
        (TransferModeCodec.encode (textBytes listing) w.cli.transferMode).length ≤ BUFFER_CAPACITY)
    {openingReply : String} {buffer : Bytes} {cli : ClientCLI}
    (hshown : w.cli.shown o line namesOnly = some (openingReply, buffer, cli)) :
    ∃ listing, buffer = textBytes listing ∧
      w.server.session.pathManager.listing w.server.fs namesOnly (sentArgument
        (ClientCLI.listCommand (ClientCLI.listPath line) namesOnly)) = some listing := by
  have hagrees := agrees_of_faithful hw
  obtain ⟨d, hd, rfl⟩ := Option.map_eq_some_iff.1 hstep
  obtain ⟨hsends, hcode, raw, hreceived, hdecode⟩ := ClientCLI.requested_spec hshown
  obtain ⟨hlength, text, server, os', hline, hserver, hafter⟩ := dialogue_prompt hd
  obtain ⟨finalReply, cli', hprinted, hexchanges⟩ := ClientCLI.promptLine_of_shown hprompt hshown
  have hcli : cli' = d.cli := by
    rw [hline] at hprinted
    exact (Prod.mk.inj (Option.some.inj hprinted)).2.symm
  rw [hcli] at hexchanges
  obtain ⟨p, hp, hsame, ⟨more, _, hlines, _⟩, hreply⟩ :=
    exists_transfer hline hsends hexchanges hserver
  have hlists : PromptsFor line [.RETR, .LIST, .NLST] := by
    have hmem := List.mem_singleton.1 hprompt
    rw [PromptsFor, hmem]
    cases namesOnly <;> decide
  have hverb := ClientCLI.lineVerb_of_listCommand (ClientCLI.length_listPath hlength
    (by rw [List.mem_singleton.1 hprompt]; cases namesOnly <;> decide)) hlines
  -- The listing is sent in the mode in which it is received.
  have hspec : ∀ wire ∈ p.turn.data, ∃ listing,
      w.server.session.pathManager.listing w.server.fs namesOnly (sentArgument
        (ClientCLI.listCommand (ClientCLI.listPath line) namesOnly)) = some listing ∧
      wire = TransferModeCodec.encode (textBytes listing) w.cli.transferMode := by
    intro wire hwire
    rw [sentArgument_of_lines hlines, hagrees.transferMode, ← hsame.transferMode, ← hsame.fs,
      ← hsame.pathManager]
    exact mem_data_listing hverb hwire
  have hmem := hfaithful.2.received hpassive hlists hp (hreply ▸ hcode) hreceived fun wire hwire => by
    obtain ⟨listing, hlisting, rfl⟩ := hspec wire hwire
    exact hsmall listing hlisting
  obtain ⟨listing, hlisting, rfl⟩ := hspec raw hmem
  refine ⟨listing, ?_, hlisting⟩
  rw [TransferModeCodec.decode_of_encode] at hdecode
  exact (TransferModeCodec.Decoded.mk.inj hdecode).1.symm

end

/-- The names in the root directory arrive. -/
def greetingListing : LineOutcomes :=
  { passiveOutcomes "150 Opening data connection for name list." (by decide +kernel)
      (by decide +kernel) with received := .completed (textBytes "greeting\r\n") }

theorem listings_exact_greeting : ∃ w : Deployment, ∃ listing,
    textBytes "greeting\r\n" = textBytes listing ∧
      w.server.session.pathManager.listing w.server.fs true (sentArgument
        (ClientCLI.listCommand (ClientCLI.listPath "nlst .") true)) = some listing := by
  obtain ⟨w, hw, hP⟩ := exists_deployment_of_run (fun _ => none) greetingRun (fun w =>
      w.cli.active = false ∧
      (deployment.step (.prompt "nlst ." greetingListing [{}, {}] 10) w).isSome = true ∧
      w.SpelledOut (.prompt "nlst ." greetingListing [{}, {}]) ∧
      (w.transfer? "nlst ." greetingListing [{}, {}]).all (fun p =>
        textBytes "greeting\r\n" ∈ p.turn.data ∧ p.o.sent = .completed ()) = true ∧
      (w.server.session.pathManager.listing w.server.fs true (sentArgument
        (ClientCLI.listCommand (ClientCLI.listPath "nlst .") true))).all (fun listing =>
          (TransferModeCodec.encode (textBytes listing) w.cli.transferMode).length ≤
            BUFFER_CAPACITY) = true ∧
      (w.cli.shown greetingListing "nlst ." true).any (fun shown =>
        shown.2.1 = textBytes "greeting\r\n") = true)
    (by decide +kernel)
  obtain ⟨hpassive, hsome, hspelled, htransfer, hsmall, hany⟩ := of_decide_eq_true hP
  obtain ⟨w', hstep⟩ := Option.isSome_iff_exists.1 hsome
  obtain ⟨⟨openingReply, buffer, cli⟩, hshown, hbuffer⟩ := (Option.any_eq_true _ _).1 hany
  have hfaithful : w.Faithful ℚ (.prompt "nlst ." greetingListing [{}, {}] 10) := by
    refine ⟨hspelled, fun _ _ p hp _ buffer hreceived => ?_, fun _ h => absurd h (by decide +kernel),
      fun name hname => ?_⟩
    · obtain ⟨hdata, hsent⟩ := of_decide_eq_true ((Option.all_eq_true _ _).1 htransfer p hp)
      cases hreceived
      exact ⟨_, hdata, hsent ▸ conveys_of_run (by decide +kernel)⟩
    · have hnone : ClientCLI.sentName "nlst ." = none := by decide +kernel
      rw [hnone] at hname
      cases hname
  have hprompt : PromptsFor "nlst ." [if true then .NLST else .LIST] := by decide +kernel
  obtain ⟨listing, hlisting, hserver⟩ := listings_exact hw hpassive hprompt hfaithful hstep
    (fun listing h => of_decide_eq_true ((Option.all_eq_true _ _).1 hsmall listing h)) hshown
  exact ⟨w, listing, (of_decide_eq_true hbuffer).symm.trans hlisting, hserver⟩

end HybridFtp
