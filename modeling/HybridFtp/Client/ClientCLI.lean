import HybridFtp.Client.ControlChannel
import HybridFtp.Common.CommandParser
import HybridFtp.Common.TransferModeCodec
import HybridFtp.Lib.Scan
import HybridFtp.Rdt.Socket

/-!
# The client

`ClientCLI`: what the client does with a line typed at the prompt. The server's answers
and the outcomes of the local steps are given.

* `sendCommand`, `recvControl`: commands and replies, over a stream of characters;
* `handlePort`, `handleRetr`, `handleStor`, `handleList`: the commands with a data
  channel of their own;
* `promptLine`: a line at the prompt.
-/

namespace HybridFtp

/-- What the server answers to a command: a reply, or a preliminary one and the final
    one that it announces. -/
inductive Answer
  | single (reply : Reply) (h : ¬reply.Preliminary)
  | opened (opening final : Reply) (ho : opening.Preliminary) (hf : ¬final.Preliminary)

/-- The reply that comes at once. -/
def Answer.first : Answer → Reply
  | .single reply _ => reply
  | .opened opening .. => opening

/-- What is still to come then. -/
def Answer.rest : Answer → List Char
  | .single .. => []
  | .opened _ final .. => final.wire

/-- What the server answers to `ABOR` while a transfer runs: the two replies that end the
    transfer, if it consumes the line during the transfer, and if it does not, it
    answers it like any other command afterwards. -/
inductive AbortAnswer
  | consumed (aborted completed : Reply)
  | late (answer : Answer)

/-- How opening and reading a local file ends. The size of what is no file may be too
    large for a vector, which raises an exception. -/
inductive LocalFile
  | missing
  | unreadable
  | tooLarge
  | content (bytes : Bytes)
  deriving DecidableEq, Repr

/-- The answers of the server and the outcomes of the local steps, for one line. -/
structure LineOutcomes where
  pasvAnswer : Answer
  answer : Answer
  abortAnswer : AbortAnswer
  /-- The error, if a UDP socket cannot be opened and bound. -/
  udpError : Option String := none
  knock : Received := none
  received : TransferResult Bytes := .completed []
  sent : TransferResult Unit := .completed ()
  /-- The congestion window at the end, without its fraction. -/
  finalCwnd : Int := 1
  localFile : LocalFile := .content []
  /-- The local file to write can be created. -/
  created : Bool := true

/-- `ClientCLI::DataMode` -/
inductive ClientDataMode
  | Passive
  | Active
  deriving DecidableEq, Repr

/-- A command sent by `m_sendCommand`: the server's answer to it, and what is returned. -/
structure Exchange where
  command : String
  answer : Answer
  returned : String

/-- The client at its prompt: what `ClientCLI` keeps between two lines, what can be read of
    the control connection, and the commands that it has sent. -/
structure ClientCLI where
  serverHost : String := "127.0.0.1"
  aborted : Bool := false
  abortCommandSent : Bool := false
  transferType : TransferType := .ASCII
  transferMode : TransferMode := .Stream
  dataMode : ClientDataMode := .Passive
  /-- The port that the socket is bound to. -/
  activeSocket : Option UInt16 := none
  activePort : UInt16 := 0
  /-- What the server has sent and has not been read. -/
  control : List Char := []
  /-- What the server is going to send when the transfer that runs ends. -/
  due : List Char := []
  exchanges : List Exchange := []
  /-- The loop of `run` has been left. -/
  ended : Bool := false
  abortOnly : abortCommandSent = true → aborted = true := by exact fun h => h

/-- `reply.rfind(code, 0) == 0` -/
def hasCode (reply code : String) : Bool := code.toList.isPrefixOf reply.toList

namespace ClientCLI

variable (cli : ClientCLI) (o : LineOutcomes)

/-! ## The control channel -/

/-- `m_sendCommand` -/
def sendCommand (commandLine : String) (answer : Answer) : String × ClientCLI :=
  let (reply, control) := recvReply (cli.control ++ cli.due ++ answer.first.wire)
  let exchange := { command := commandLine, answer, returned := reply }
  (reply, { cli with control, due := answer.rest, exchanges := cli.exchanges ++ [exchange] })

/-- `recvControlReply`, which waits for what is due. -/
def recvControl : String × ClientCLI :=
  let (reply, control) := recvControlReply (cli.control ++ cli.due)
  (reply, { cli with control, due := [] })

/-- `notifyAbort`, by the handler of the signals. -/
def notifyAbort : ClientCLI := { cli with aborted := true, abortOnly := fun _ => rfl }

/-- `sendAbortWithoutWaiting`, by the callback of a transfer that a signal interrupts. -/
def interruptTransfer (answer : AbortAnswer) : ClientCLI :=
  -- `ABOR` is sent once.
  if cli.abortCommandSent then cli.notifyAbort
  else
    let due :=
      match answer with
      -- The final reply that was due is not sent.
      | .consumed aborted completed => aborted.wire ++ completed.wire
      | .late answer => cli.due ++ answer.first.wire ++ answer.rest
    { cli.notifyAbort with abortCommandSent := true, due, abortOnly := fun _ => rfl }

/-! ## The data channel -/

/-- `count + 1` numbers with commas between them, at the start of a text. -/
def matchNumbers : Nat → List Char → Option (List (List Char))
  | count, text =>
    let digits := text.takeWhile Char.isDigit
    if digits = [] then none
    else
      match count, text.dropWhile Char.isDigit with
      | 0, _ => some [digits]
      | count + 1, ',' :: rest => (matchNumbers count rest).map (digits :: ·)
      | _ + 1, _ => none

/-- `regex_search` of six numbers with commas between them. -/
def searchNumbers : List Char → Option (List (List Char))
  | [] => none
  | c :: text => (matchNumbers 5 (c :: text)).orElse fun _ => searchNumbers text

/-- The port and the address of a reply to `PASV`; `none` if `stoul` throws. -/
def parsePasvReply (reply outIP : String) : Option (UInt16 × String) :=
  match searchNumbers reply.toList with
  | some [m1, m2, m3, m4, m5, m6] =>
    if decimal m5 ≥ 2 ^ 64 ∨ decimal m6 ≥ 2 ^ 64 then none
    else
      -- Numbers of more than 16 bits are cut.
      let p1 := UInt16.ofNat (decimal m5)
      let p2 := UInt16.ofNat (decimal m6)
      some ((p1 <<< 8) ||| p2, String.intercalate "." ([m1, m2, m3, m4].map String.ofList))
  -- The port 0 stands for a reply without an endpoint.
  | _ => some (0, outIP)

/-- The transfers use the socket that `PORT` has bound. -/
def active : Bool := cli.dataMode = .Active ∧ cli.activeSocket.isSome

/-- The server's endpoint that `PASV` gives, unless the active socket is used, or the
    text to print if there is none; `none` if an exception ends the program. -/
def dataEndpoint (cannotParse : String → String) :
    Option (Except String Endpoint × ClientCLI) :=
  if cli.active then some (.ok { ip := cli.serverHost, port := cli.activePort }, cli)
  else
    let (pasvReply, cli) := cli.sendCommand "PASV" o.pasvAnswer
    if pasvReply = "" ∨ ¬hasCode pasvReply "227" then
      some (.error ("Error: PASV failed: " ++ pasvReply), cli)
    else
      match parsePasvReply pasvReply cli.serverHost with
      | none => none
      | some (dataPort, serverIP) =>
        if dataPort = 0 then some (.error (cannotParse pasvReply), cli)
        else some (.ok { ip := serverIP, port := dataPort }, cli)

/-- A transfer over RDT that has ended without success. -/
def failTransfer (interrupted : Bool) (openingReply error : String) : String × ClientCLI :=
  let cli := if interrupted then cli.interruptTransfer o.abortAnswer else cli
  if cli.abortCommandSent then
    -- The two replies that end an aborted transfer.
    let (aborted, cli) := cli.recvControl
    let (completed, cli) := cli.recvControl
    (openingReply ++ "\n" ++ aborted ++ "\n" ++ completed, cli)
  else (error, cli)

/-- The final reply, after what has been printed before. -/
def finishTransfer (printed missing : String) : String × ClientCLI :=
  let (finalReply, cli) := cli.recvControl
  (printed ++ if finalReply = "" then missing else finalReply, cli)

/-- What is received after the opening reply, to be used by `use` if it can be decoded. -/
def receiveData (openingReply failure : String)
    (use : Bytes → ClientCLI → String × ClientCLI) : String × ClientCLI :=
  match o.received with
  | .completed buffer =>
    let decoded := TransferModeCodec.decode buffer cli.transferMode cli.transferType
    match decoded.error with
    | some codecError => (openingReply ++ "\nError: MODE decode failed: " ++ codecError, cli)
    | none => use decoded.output cli
  | .failed => cli.failTransfer o false openingReply (openingReply ++ failure)
  | .aborted => cli.failTransfer o true openingReply (openingReply ++ failure)

/-! ## Commands -/

/-- The port of the argument of `PORT`, up to its first NUL, or the text to print. -/
def parsePort (argument : List Char) : Except String UInt16 :=
  match scanNumbers 5 (argument.takeWhile (· ≠ Char.ofNat 0)) with
  | some ([h1, h2, h3, h4, p1, p2], []) =>
    if h1 > 255 ∨ h2 > 255 ∨ h3 > 255 ∨ h4 > 255 ∨ p1 > 255 ∨ p2 > 255 then
      .error "Error: PORT requires h1,h2,h3,h4,p1,p2 (0-255)."
    else
      let port := ((p1 <<< 8) ||| p2).toUInt16
      if port = 0 then .error "Error: PORT cannot advertise port 0." else .ok port
  | _ => .error "Error: PORT requires h1,h2,h3,h4,p1,p2 (0-255)."

/-- A port that no active socket is bound to. -/
def isNewPort (port : UInt16) : Bool := cli.activeSocket = none ∨ cli.activePort ≠ port

/-- `handlePort`. The socket is bound before the server is told about it. -/
def handlePort (commandLine : String) : String × ClientCLI :=
  match parsePort (((words commandLine.toList)[1]?).getD []) with
  | .error text => (text, cli)
  | .ok port =>
    -- A port that is bound already is used again.
    let candidate := cli.isNewPort port
    match (if candidate then o.udpError else none) with
    | some error => ("Error: Cannot prepare active UDP port: " ++ error, cli)
    | none =>
      let (reply, cli) := cli.sendCommand commandLine o.answer
      if ¬hasCode reply "200" then (reply, cli)
      else
        (reply, { cli with
          activeSocket := if candidate then some port else cli.activeSocket
          activePort := port
          dataMode := .Active })

/-- Requesting data by a command, on a socket that is opened before, and using it. -/
def requestData (command noReply failure : String) (cannotParse : String → String)
    (use : String → Bytes → ClientCLI → String × ClientCLI) : Option (String × ClientCLI) :=
  match cli.dataEndpoint o cannotParse with
  | none => none
  | some (.error text, cli) => some (text, cli)
  | some (.ok _, cli) =>
    -- The active socket has been opened by `PORT`.
    match (if cli.active then none else o.udpError) with
    | some error => some ("Error: Cannot open UDP socket: " ++ error, cli)
    | none =>
      let (openingReply, cli) := cli.sendCommand command o.answer
      if openingReply = "" then some (noReply, cli)
      else if ¬hasCode openingReply "150" then some (openingReply, cli)
      else some (cli.receiveData o openingReply failure (use openingReply))

/-- The file that is received is written before the final reply is read. -/
def handleRetr (remoteFile localFile : String) : Option (String × ClientCLI) :=
  cli.requestData o ("RETR " ++ remoteFile) "Error: No reply to RETR"
    "\nError: RDT receive failed" ("Error: Cannot parse PASV reply: " ++ ·)
    fun retrReply _ cli =>
      if ¬o.created then ("Error: Cannot create local file: " ++ localFile, cli)
      else cli.finishTransfer (retrReply ++ "\n") "Error: Missing final server reply."

/-- `LIST` and `NLST` at the prompt: what is received is printed between the two replies. -/
def handleList (path : String) (namesOnly : Bool) : Option (String × ClientCLI) :=
  let command := (if namesOnly then "NLST" else "LIST") ++ if path = "" then "" else " " ++ path
  cli.requestData o command ("Error: No reply to " ++ command)
    "\nError: Directory transfer failed." (fun _ => "Error: Cannot parse PASV reply.")
    fun openingReply buffer cli =>
      let listing := String.ofList (buffer.map fun b => Char.ofNat b.toNat)
      -- The final reply starts a line of its own.
      let separator := if buffer ≠ [] ∧ buffer.getLast? ≠ some 10 then "\n" else ""
      cli.finishTransfer (openingReply ++ "\n" ++ listing ++ separator)
        "Error: Missing final server reply.\n"

/-- What is sent after the opening reply: the passive socket is opened only then, and
    the active one waits for a datagram of the server. -/
def sendData (openingReply : String) : String × ClientCLI :=
  match (if cli.active then none else o.udpError) with
  | some error => ("Error: Cannot open UDP socket: " ++ error, cli)
  | none =>
    if cli.active ∧ knockSender o.knock = none then
      ("Error: Active data handshake failed.", cli)
    else
      let failure := "Error: RDT send failed (cwnd=" ++ toString o.finalCwnd ++ ")"
      match o.sent with
      | .completed () =>
        cli.finishTransfer (openingReply ++ "\n") "Error: Missing final server reply."
      | .failed => cli.failTransfer o false openingReply failure
      | .aborted => cli.failTransfer o true openingReply failure

/-- `STOR`, `STOU` and `APPE` at the prompt: the file is read before anything is sent. -/
def handleStor (localFile remoteFile : String) (unique append : Bool) :
    Option (String × ClientCLI) :=
  match o.localFile with
  | .missing => some ("Error: Local file not found: " ++ localFile, cli)
  | .unreadable => some ("Error: Cannot read local file: " ++ localFile, cli)
  | .tooLarge => none
  | .content _ =>
    match cli.dataEndpoint o ("Error: Cannot parse PASV reply: " ++ ·) with
    | none => none
    | some (.error text, cli) => some (text, cli)
    | some (.ok _, cli) =>
      let command :=
        if unique then if remoteFile = "" then "STOU" else "STOU " ++ remoteFile
        else if append then "APPE " ++ remoteFile
        else "STOR " ++ remoteFile
      let (openingReply, cli) := cli.sendCommand command o.answer
      if openingReply = "" then some ("Error: No reply to " ++ command, cli)
      else if ¬hasCode openingReply "150" ∧ ¬hasCode openingReply "125" then
        some (openingReply, cli)
      else some (cli.sendData o openingReply)

/-! ## The prompt -/

/-- What is before the first space, in upper case. -/
def toUpperFirstWord (s : String) : String :=
  CommandParser.toUpper (String.ofList (s.toList.takeWhile (· ≠ ' ')))

/-- The commands that `run` tells apart. -/
inductive PromptVerb
  | PORT
  | RETR
  | STOR
  | STOU
  | APPE
  | LIST
  | NLST
  | other
  deriving DecidableEq, Repr

/-- The branch of `run` that the first word of a line takes. -/
def PromptVerb.ofWord (verb : String) : PromptVerb :=
  if verb = "PORT" then .PORT
  else if verb = "RETR" ∨ verb = "GET" then .RETR
  else if verb = "STOR" ∨ verb = "PUT" then .STOR
  else if verb = "STOU" then .STOU
  else if verb = "APPE" then .APPE
  else if verb = "LIST" then .LIST
  else if verb = "NLST" then .NLST
  else .other

/-- The words of a line after the first: one or two names, the second by default the
    first. -/
def names (line : String) : Option (String × String) :=
  match (words line.toList).map String.ofList with
  | _ :: name :: other :: _ => some (name, other)
  | [_, name] => some (name, name)
  | _ => none

/-- The representation of data that a command which has been accepted sets. -/
def applyAccepted (line : String) : ClientCLI :=
  let accepted := (words line.toList).map fun word => CommandParser.toUpper (String.ofList word)
  match accepted.getD 0 "", accepted.getD 1 "" with
  | "MODE", "S" => { cli with transferMode := .Stream }
  | "MODE", "B" => { cli with transferMode := .Block }
  | "MODE", "C" => { cli with transferMode := .Compressed }
  | "TYPE", "A" => { cli with transferType := .ASCII }
  | "TYPE", "I" => { cli with transferType := .Binary }
  | _, _ => cli

/-- What the reply to a command without a data channel changes. -/
def applyReply (line reply : String) : ClientCLI :=
  let cli :=
    if toUpperFirstWord line = "PASV" ∧ hasCode reply "227" then
      { cli with dataMode := .Passive, activeSocket := none, activePort := 0 }
    else cli
  if hasCode reply "200" then cli.applyAccepted line else cli

/-- A command without a data channel, sent as it is. -/
def handleOther (line : String) : String × ClientCLI :=
  let (reply, cli) := cli.sendCommand line o.answer
  (reply, { cli.applyReply line reply with ended := toUpperFirstWord line = "QUIT" })

/-- A line at the prompt: the text that is printed, unless an exception ends the program. -/
def promptLine (line : String) : Option (String × ClientCLI) :=
  let line := CommandParser.trim line
  if line = "" then some ("", cli)
  else
    match PromptVerb.ofWord (toUpperFirstWord line) with
    | .PORT => some (cli.handlePort o line)
    | .RETR =>
      match names line with
      | some (remoteFile, localFile) => cli.handleRetr o remoteFile localFile
      | none => some ("Usage: RETR <remote_file> [local_file]", cli)
    | .STOR =>
      match names line with
      | some (localFile, remoteFile) => cli.handleStor o localFile remoteFile false false
      | none => some ("Usage: STOR <local_file> [remote_file]", cli)
    | .STOU =>
      match names line with
      | some (localFile, remoteFile) => cli.handleStor o localFile remoteFile true false
      | none => some ("Usage: STOU <local_file> [remote_file]", cli)
    | .APPE =>
      match names line with
      | some (localFile, remoteFile) => cli.handleStor o localFile remoteFile false true
      | none => some ("Usage: APPE <local_file> [remote_file]", cli)
    | .LIST => cli.handleList o (((names line).map Prod.fst).getD "") false
    | .NLST => cli.handleList o (((names line).map Prod.fst).getD "") true
    | .other => some (cli.handleOther o line)

end ClientCLI

end HybridFtp
