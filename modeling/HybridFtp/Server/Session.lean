import HybridFtp.Common.CommandParser
import HybridFtp.Common.FileHandler
import HybridFtp.Common.Listing
import HybridFtp.Common.TransferModeCodec
import HybridFtp.Lib.Scan
import HybridFtp.Rdt.Socket

/-!
# The server session

The state of a session, and what `handle_command` does with a command line: the
replies it sends, the data it sends over the data channel, the next state, and the
file system it leaves. What the system and the peer answer meanwhile is up to the
`Outcomes`.

* `openDataChannel`, `sendTextOverDataChannel`, `receiveFileOverDataChannel`: the
  helpers of the transfers, which send replies of their own;
* `handleCommand`: the commands, behind the login.
-/

namespace HybridFtp

/-- How far the login has got. -/
inductive LoginState
  | NotLoggedIn
  | UsernameAccepted
  | LoggedIn
  deriving DecidableEq, Repr

/-- Who connects to whom for the next transfer: nobody, the server after `PORT`, or the
    client after `PASV`. -/
inductive DataMode
  | NONE
  | ACTIVE
  | PASSIVE
  deriving DecidableEq, Repr

/-- What the server keeps of a session. -/
structure SessionState where
  loginState : LoginState := .NotLoggedIn
  username : String := ""
  transferType : TransferType := .ASCII
  transferMode : TransferMode := .Stream
  pathManager : PathManager
  renameFrom : Option String := none
  dataMode : DataMode := .NONE
  activeIP : String := ""
  activePort : UInt16 := 0
  /-- The port that the socket is bound to. -/
  passiveSocket : Option UInt16 := none

/-- Without a data channel. -/
def SessionState.reset (session : SessionState) : SessionState :=
  { session with passiveSocket := none, dataMode := .NONE }

/-- An address, byte by byte. -/
structure IPv4 where
  h1 : UInt8
  h2 : UInt8
  h3 : UInt8
  h4 : UInt8
  deriving DecidableEq, Repr

/-- `inet_ntop` -/
def IPv4.dotted (ip : IPv4) : String :=
  String.intercalate "." [toString ip.h1, toString ip.h2, toString ip.h3, toString ip.h4]

/-- What the system and the peer answer while a command is handled. -/
structure Outcomes where
  /-- The port of a UDP socket, if it can be opened and bound. -/
  udpPort : Option UInt16 := some 40000
  /-- The local address of the control connection. -/
  localAddress : IPv4 := ⟨127, 0, 0, 1⟩
  /-- The control connection takes the opening reply of a listing. -/
  replySent : Bool := true
  /-- The first datagram on the passive socket. -/
  knock : Received := some ({}, List.replicate 15 0)
  /-- The active endpoint can be sent a datagram. -/
  knockSent : Bool := true
  sent : TransferResult Unit := .completed ()
  received : TransferResult Bytes := .completed []
  /-- The file to read can be opened and read. -/
  readable : Bool := true
  written : WriteOutcome := .complete
  stamp : Stamp := {}
  /-- The nanoseconds from the reading of the clock of the file system to that of the
      system's. -/
  clockSkew : Int := 0
  /-- The permissions of new directories. -/
  directoryPerms : Perms := 0o755
  /-- The hash function of the library. -/
  SHA256 : Bytes → Bytes := fun _ => List.replicate 32 0

/-- What a command does: the replies that are sent and the data for the data channel,
    in order, whether an `ABOR` line is consumed, and whether the session ends. -/
structure Turn where
  session : SessionState
  fs : Storage
  replies : List String
  data : List Bytes := []
  aborted : Bool := false
  quit : Bool := false

/-- One reply, and that is it. -/
def answer (session : SessionState) (fs : Storage) (reply : String) : Turn :=
  { session, fs, replies := [reply] }

/-- The replies `opening` come first. -/
def Turn.after (opening : List String) (turn : Turn) : Turn :=
  { turn with replies := opening ++ turn.replies }

/-- The bytes of a text. -/
def textBytes (text : String) : Bytes := text.toList.map fun c => UInt8.ofNat c.toNat

/-! ## The commands -/

/-- The commands that the server knows. -/
inductive Verb
  | USER | PASS | QUIT | NOOP | PWD | CWD | CDUP | MKD | RMD | LIST | NLST | STAT | SIZE | MDTM
  | DELE | RNFR | RNTO | TYPE | MODE | PORT | PASV | RETR | STOR | STOU | APPE | HASH | ABOR | HELP
  deriving DecidableEq, Repr

/-- Their names. -/
def Verb.table : List (String × Verb) :=
  [("USER", .USER), ("PASS", .PASS), ("QUIT", .QUIT), ("NOOP", .NOOP), ("PWD", .PWD),
    ("CWD", .CWD), ("CDUP", .CDUP), ("MKD", .MKD), ("RMD", .RMD), ("LIST", .LIST),
    ("NLST", .NLST), ("STAT", .STAT), ("SIZE", .SIZE), ("MDTM", .MDTM), ("DELE", .DELE),
    ("RNFR", .RNFR), ("RNTO", .RNTO), ("TYPE", .TYPE), ("MODE", .MODE), ("PORT", .PORT),
    ("PASV", .PASV), ("RETR", .RETR), ("STOR", .STOR), ("STOU", .STOU), ("APPE", .APPE),
    ("HASH", .HASH), ("ABOR", .ABOR), ("HELP", .HELP)]

/-- The command of a name, if there is one. -/
def Verb.ofName? (name : String) : Option Verb := Verb.table.lookup name

/-- `syntaxTable`, of `HELP` -/
def Verb.usage : Verb → String
  | .USER => "USER <username>"
  | .PASS => "PASS <password>"
  | .QUIT => "QUIT"
  | .NOOP => "NOOP"
  | .PWD => "PWD"
  | .CWD => "CWD <path>"
  | .CDUP => "CDUP"
  | .MKD => "MKD <dirname>"
  | .RMD => "RMD <dirname>"
  | .LIST => "LIST [path]"
  | .NLST => "NLST [path]"
  | .STAT => "STAT [path]"
  | .SIZE => "SIZE <filename>"
  | .MDTM => "MDTM <filename>"
  | .DELE => "DELE <filename>"
  | .RNFR => "RNFR <oldname>"
  | .RNTO => "RNTO <newname>"
  | .TYPE => "TYPE \x7bA | I\x7d"
  | .MODE => "MODE \x7bS | B | C\x7d"
  | .PORT => "PORT <h1,h2,h3,h4,p1,p2>"
  | .PASV => "PASV"
  | .RETR => "RETR <filename>"
  | .STOR => "STOR <filename>"
  | .STOU => "STOU"
  | .APPE => "APPE <filename>"
  | .HASH => "HASH <filename>"
  | .ABOR => "ABOR"
  | .HELP => "HELP [command]"

section

variable (o : Outcomes) (session : SessionState) (fs : Storage) (argument : String)

/-- `turn`, if there is an argument. -/
def requireArgument (missing : String) (turn : Turn) : Turn :=
  if argument = "" then answer session fs missing else turn

/-- `turn`, if there is no argument. -/
def refuseArgument (name : String) (turn : Turn) : Turn :=
  if argument ≠ "" then
    answer session fs ("501 " ++ name ++ " does not accept an argument.\r\n")
  else turn

/-! ### Login -/

/-- The reply is the last one: the session ends after it. -/
def handleQuit : Turn :=
  refuseArgument session fs argument "QUIT"
    { answer session fs "221 Goodbye.\r\n" with quit := true }

/-- Nothing is done. -/
def handleNoop : Turn :=
  refuseArgument session fs argument "NOOP" (answer session fs "200 NOOP command successful.\r\n")

/-- Any name is taken, and the password is asked for. -/
def handleUser : Turn :=
  requireArgument session fs argument "501 Missing username.\r\n"
    -- Whoever was logged in is not any more.
    (answer { session with username := argument, loginState := .UsernameAccepted } fs
      "331 Username OK, need password.\r\n")

/-- Any password will do. -/
def handlePass : Turn :=
  requireArgument session fs argument "501 Missing password.\r\n"
    (if session.loginState ≠ .UsernameAccepted then
      answer session fs "503 Login with USER first.\r\n"
    else answer { session with loginState := .LoggedIn } fs "230 Login successful.\r\n")

/-! ### The representation of data -/

/-- The representation of data: the codec uses it for fillers only. -/
def handleType : Turn :=
  if argument = "A" ∨ argument = "a" then
    answer { session with transferType := .ASCII } fs "200 Type set to A (ASCII).\r\n"
  else if argument = "I" ∨ argument = "i" then
    answer { session with transferType := .Binary } fs "200 Type set to I (Binary).\r\n"
  else answer session fs "501 TYPE requires A or I.\r\n"

/-- The mode of the transfers from now on. -/
def handleMode : Turn :=
  if argument = "S" ∨ argument = "s" then
    answer { session with transferMode := .Stream } fs "200 Mode set to S (Stream).\r\n"
  else if argument = "B" ∨ argument = "b" then
    answer { session with transferMode := .Block } fs "200 Mode set to B (Block).\r\n"
  else if argument = "C" ∨ argument = "c" then
    answer { session with transferMode := .Compressed } fs "200 Mode set to C (Compressed).\r\n"
  else answer session fs "501 MODE requires S, B, or C.\r\n"

/-! ### The data channel -/

/-- Six numbers: an address and a port to connect to, instead of a passive socket. -/
def handlePort : Turn :=
  requireArgument session fs argument "501 Missing IP and port.\r\n"
    (match scanNumbers 5 argument.toList with
    | some ([h1, h2, h3, h4, p1, p2], _) =>
      if h1 > 255 ∨ h2 > 255 ∨ h3 > 255 ∨ h4 > 255 ∨ p1 > 255 ∨ p2 > 255 then
        answer session fs "501 Invalid IP/port values.\r\n"
      else
        let session := { session with
          activeIP := String.intercalate "." [toString h1, toString h2, toString h3, toString h4]
          activePort := ((p1 <<< 8) ||| p2).toUInt16
          dataMode := .ACTIVE
          passiveSocket := none }
        answer session fs "200 PORT command successful.\r\n"
    | _ => answer session fs "501 Invalid PORT format.\r\n")

/-- An argument is ignored. -/
def handlePasv : Turn :=
  match o.udpPort with
  | none => answer session fs "425 Cannot open passive connection.\r\n"
  | some port =>
    let ip := o.localAddress.dotted.map fun c => if c = '.' then ',' else c
    answer { session with passiveSocket := some port, dataMode := .PASSIVE } fs
      ("227 Entering Passive Mode (" ++ ip ++ "," ++ toString (port >>> 8) ++ "," ++
        toString (port &&& 0xFF) ++ ").\r\n")

/-- The peer of the data channel, unless it is to be learned from a datagram; or the
    reply that is sent if there is no data channel. -/
def openDataChannel : Except String (Option Endpoint) :=
  match session.dataMode with
  | .PASSIVE =>
    match session.passiveSocket with
    | none => .error "425 No passive socket available.\r\n"
    | some _ => .ok none
  | .ACTIVE =>
    if session.activeIP = "" ∨ session.activePort = 0 then
      .error "425 Use PORT or PASV first.\r\n"
    else
      match o.udpPort with
      | none => .error "425 Cannot open data connection.\r\n"
      | some _ => .ok (some { ip := session.activeIP, port := session.activePort })
  | .NONE => .error "425 Use PORT or PASV first.\r\n"

/-- A passive socket serves one transfer only. -/
def sendTextOverDataChannel (text : String) : Bool × Turn :=
  let encoded := TransferModeCodec.encode (textBytes text) session.transferMode
  match openDataChannel o session with
  | .error reply => (false, answer session fs reply)
  | .ok (some _) => (o.sent = .completed (), { session, fs, replies := [], data := [encoded] })
  -- The first datagram on the passive socket tells where the client is.
  | .ok none =>
    if ¬(knockSender o.knock).isSome then (false, { session := session.reset, fs, replies := [] })
    else
      (o.sent = .completed (),
        { session := session.reset, fs, replies := [], data := [encoded] })

/-- `LIST` and `NLST`: the text of a listing. -/
def sendListing (unavailable opening : String) (listing : Option String) : Turn :=
  match listing with
  | none => answer session fs unavailable
  | some text =>
    if session.dataMode = .NONE then answer session fs "425 Use PORT or PASV first.\r\n"
    -- Without the opening reply, the passive socket stays open.
    else if ¬o.replySent then { session, fs, replies := [] }
    else
      let sent := sendTextOverDataChannel o session fs text
      let final :=
        if sent.1 then "226 Directory transfer complete.\r\n"
        else "426 Connection closed; directory transfer aborted.\r\n"
      { sent.2 with replies := opening :: sent.2.replies ++ [final] }

/-- The records of a directory or a file, over the data channel. -/
def handleList : Turn :=
  sendListing o session fs "550 Directory unavailable or access denied.\r\n"
    "150 Opening data connection for directory list.\r\n"
    (session.pathManager.listDirectory fs argument)

/-- The names, over the data channel. -/
def handleNlst : Turn :=
  sendListing o session fs "550 Path unavailable or access denied.\r\n"
    "150 Opening data connection for name list.\r\n"
    (session.pathManager.listNames fs argument)

/-- A transfer that an `ABOR` line has ended, after the replies `opening`. -/
def abortTransfer (opening : List String) : Turn where
  session := session
  fs := fs
  replies := opening ++
    ["426 Connection closed; transfer aborted.\r\n", "226 Abort successful.\r\n"]
  aborted := true

/-- The file at a path, to the peer of the data channel. -/
def sendFile (resolvedPath : NormalPath String) : Turn :=
  match FileHandler.readBinaryFile fs o.readable resolvedPath with
  | none => answer session fs "451 Cannot read file.\r\n"
  | some raw =>
    let turn : Turn :=
      match o.sent with
      | .completed () => answer session fs "226 Transfer complete.\r\n"
      | .failed => answer session fs "426 Connection closed; transfer aborted.\r\n"
      | .aborted => abortTransfer session fs []
    { turn with data := [TransferModeCodec.encode raw session.transferMode] }

/-- The file at a path, once the peer is known. -/
def sendFileTo (peer : Option Endpoint) (resolvedPath : NormalPath String) : Turn :=
  match peer with
  | some _ => sendFile o session fs resolvedPath
  | none =>
    -- This return leaves the passive socket open.
    if ¬(knockSender o.knock).isSome then answer session fs "425 No connection from client on passive port.\r\n"
    else sendFile o session.reset fs resolvedPath

/-- The file is read after its data channel has been opened, and sent encoded. -/
def handleRetr : Turn :=
  requireArgument session fs argument "501 Missing filename.\r\n"
    (let resolvedPath := session.pathManager.resolvePath argument
    if ¬session.pathManager.isPathInsideRoot argument then
      answer session fs "550 Access denied.\r\n"
    else if session.pathManager.getFileSize fs argument = none then
      answer session fs "550 File not found or access denied.\r\n"
    else
      match openDataChannel o session with
      | .error reply => answer session fs reply
      | .ok peer =>
        -- Directories are created before reading as well.
        let fs := (fs.createDirectories o.directoryPerms resolvedPath.parentPath).2
        .after ["150 Opening data connection for file download.\r\n"]
          (sendFileTo o session fs peer resolvedPath))

/-- What has been received, into the file at a path: the reply, and the file system. -/
def storeFile (resolvedPath : NormalPath String) (buf : Bytes) (appendMode : Bool) :
    String × Storage :=
  let decoded := TransferModeCodec.decode buf session.transferMode session.transferType
  if ¬decoded.ok then ("551 Invalid transfer mode encoding.\r\n", fs)
  else
    let (wrote, fs) :=
      match session.transferType with
      | .Binary =>
        FileHandler.writeBinaryFile fs o.written o.stamp resolvedPath decoded.output appendMode
      | .ASCII =>
        FileHandler.writeTextFile fs o.written o.stamp resolvedPath decoded.output appendMode
    (if wrote then "226 Transfer complete.\r\n" else "551 Failed to write file.\r\n", fs)

/-- What the peer of the data channel sends, into the file at a path. -/
def receiveFile (resolvedPath : NormalPath String) (appendMode : Bool) : Turn :=
  match o.received with
  | .completed buf =>
    let (reply, fs) := storeFile o session fs resolvedPath buf appendMode
    answer session fs reply
  | .failed => answer session fs "426 Connection closed; transfer aborted.\r\n"
  | .aborted => abortTransfer session fs []

/-- What comes over the data channel, once the peer of an active one knows its socket. -/
def receiveFileFrom (peer : Option Endpoint) (resolvedPath : NormalPath String)
    (appendMode : Bool) : Turn :=
  match peer with
  -- A datagram shows the client which socket to send to.
  | some _ =>
    if ¬o.knockSent then answer session fs "425 Cannot reach active data endpoint.\r\n"
    else receiveFile o session fs resolvedPath appendMode
  | none => receiveFile o session.reset fs resolvedPath appendMode

/-- What `STOR`, `STOU` and `APPE` have in common: the directories on the way are made, the
    data is received and decoded, and the file is written. -/
def receiveFileOverDataChannel (destName : String) (appendMode skipOpeningReply : Bool) : Turn :=
  match openDataChannel o session with
  | .error reply => answer session fs reply
  | .ok peer =>
    let resolvedPath := session.pathManager.resolvePath destName
    if ¬session.pathManager.isPathInsideRoot destName then
      answer session fs "550 Access denied.\r\n"
    else
      let fs := (fs.createDirectories o.directoryPerms resolvedPath.parentPath).2
      .after (if skipOpeningReply then []
          else ["150 Opening data connection for file upload.\r\n"])
        (receiveFileFrom o session fs peer resolvedPath appendMode)

/-- The file is replaced. -/
def handleStor : Turn :=
  requireArgument session fs argument "501 Missing filename.\r\n"
    (receiveFileOverDataChannel o session fs argument false false)

/-- The file gets a name that is free, which the client is told first. -/
def handleStou : Turn :=
  let baseName := if argument = "" then "upload" else argument
  let uniqueName := session.pathManager.generateUniqueFilename fs baseName
  .after ["125 FILE: " ++ uniqueName ++ "\r\n"]
    (receiveFileOverDataChannel o session fs uniqueName false true)

/-- The file is extended. -/
def handleAppe : Turn :=
  requireArgument session fs argument "501 Missing filename.\r\n"
    (receiveFileOverDataChannel o session fs argument true false)

/-- Without a transfer to abort. -/
def handleAbor : Turn :=
  { abortTransfer session.reset fs [] with aborted := false }

/-! ### Directories and files -/

/-- The current directory, between quotes. -/
def handlePwd : Turn :=
  refuseArgument session fs argument "PWD"
    (answer session fs ("257 \"" ++ session.pathManager.getCurrentFTPPath fs ++
      "\" is the current directory.\r\n"))

/-- A command that changes the file system by its argument. -/
def changeStorage (missing refused done : String) (operation : Bool × Storage) : Turn :=
  requireArgument session fs argument missing
    (answer session operation.2 (if operation.1 then done else refused))

/-- An empty directory is removed. -/
def handleRmd : Turn :=
  changeStorage session fs argument "501 Missing directory name.\r\n"
    "550 Cannot remove directory.\r\n" "250 Directory removed successfully.\r\n"
    (session.pathManager.removeDirectory fs argument)

/-- A directory is made. -/
def handleMkd : Turn :=
  changeStorage session fs argument "501 Missing directory name.\r\n"
    "550 Cannot create directory.\r\n" "257 Directory created successfully.\r\n"
    (session.pathManager.createDirectory fs o.directoryPerms argument)

/-- A regular file is deleted. -/
def handleDele : Turn :=
  changeStorage session fs argument "501 Missing filename.\r\n"
    "550 File unavailable or access denied.\r\n" "250 File deleted successfully.\r\n"
    (session.pathManager.deleteFile fs argument)

/-- A command that changes the current directory. -/
def changeCurrent (refused done : String) (operation : Bool × PathManager) : Turn :=
  answer { session with pathManager := operation.2 } fs (if operation.1 then done else refused)

/-- The current directory is changed. -/
def handleCwd : Turn :=
  requireArgument session fs argument "501 Missing directory path.\r\n"
    (changeCurrent session fs "550 Directory unavailable or access denied.\r\n"
      "250 Directory changed successfully.\r\n"
      (session.pathManager.changeDirectory fs argument))

/-- The current directory becomes its parent. -/
def handleCdup : Turn :=
  refuseArgument session fs argument "CDUP"
    (changeCurrent session fs "550 Already at root directory.\r\n"
      "250 Parent directory changed successfully.\r\n"
      (session.pathManager.changeToParentDirectory fs))

/-- A command that tells something about its argument. -/
def tell (refused : String) (told : Option String) : Turn :=
  answer session fs (told.getD refused)

/-- The settings of the session, or the listing of a path over the control connection. -/
def handleStat : Turn :=
  if argument = "" then
    answer session fs ("211-Hybrid FTP server status:\r\n Server is running\r\n TYPE: " ++
      (match session.transferType with | .ASCII => "ASCII" | .Binary => "Binary") ++
      "\r\n MODE: " ++
      (match session.transferMode with
        | .Stream => "Stream" | .Block => "Block" | .Compressed => "Compressed") ++
      "\r\n211 End of status.\r\n")
  else
    tell session fs "550 Path unavailable or access denied.\r\n"
      ((session.pathManager.getStatus fs argument).map fun status =>
        if status.isDirectory then
          "212-Directory status follows.\r\n" ++ status.listing ++ "212 End of status.\r\n"
        else "213-File status follows.\r\n" ++ status.listing ++ "213 End of status.\r\n")

/-- The number of bytes of a file. -/
def handleSize : Turn :=
  requireArgument session fs argument "501 Missing filename.\r\n"
    (tell session fs "550 File unavailable or access denied.\r\n"
      ((session.pathManager.getFileSize fs argument).map fun size =>
        "213 " ++ toString size ++ "\r\n"))

/-- The time at which a file was last written. -/
def handleMdtm : Turn :=
  requireArgument session fs argument "501 Missing filename.\r\n"
    (tell session fs "550 File unavailable or access denied.\r\n"
      ((session.pathManager.getModificationTime fs o.clockSkew argument).map fun time =>
        "213 " ++ time ++ "\r\n"))

/-- The SHA-256 of a file, in hexadecimal digits. -/
def handleHash : Turn :=
  requireArgument session fs argument "501 Missing filename.\r\n"
    (if ¬session.pathManager.isPathInsideRoot argument then
      answer session fs "550 Access denied.\r\n"
    else if session.pathManager.getFileSize fs argument = none then
      answer session fs "550 File not found or access denied.\r\n"
    else
      let hash := CryptoHash.computeSHA256FromFile o.SHA256 fs o.readable
        (session.pathManager.resolvePath argument)
      if hash = "" then answer session fs "550 Could not compute hash.\r\n"
      else answer session fs ("213 SHA-256=" ++ hash ++ "\r\n"))

/-- The names of the commands, or how one of them is used. -/
def handleHelp : Turn :=
  if argument = "" then
    answer session fs ("214-The following commands are recognized:\r\n" ++
      " USER PASS QUIT NOOP HELP\r\n PWD CWD CDUP MKD RMD\r\n LIST NLST STAT SIZE MDTM\r\n" ++
      " DELE RNFR RNTO\r\n TYPE MODE PORT PASV\r\n RETR STOR STOU APPE\r\n HASH ABOR\r\n" ++
      "214 End of HELP.\r\n")
  else
    let command := CommandParser.toUpper argument
    match Verb.ofName? command with
    | some verb => answer session fs ("214 Syntax: " ++ verb.usage ++ "\r\n")
    | none => answer session fs ("502 Unknown command: " ++ command ++ "\r\n")

/-- The path to rename is kept for `RNTO`. -/
def handleRnfr : Turn :=
  requireArgument session fs argument "501 Missing source path.\r\n"
    (if ¬session.pathManager.canRename fs argument then
      answer session fs "550 File or directory unavailable.\r\n"
    else
      answer { session with renameFrom := some argument } fs
        "350 Requested file action pending RNTO.\r\n")

/-- What `RNFR` has set is used up, even if the command fails. -/
def handleRnto : Turn :=
  let renameSource := session.renameFrom
  let session := { session with renameFrom := none }
  requireArgument session fs argument "501 Missing destination path.\r\n"
    (match renameSource with
    | none => answer session fs "503 RNTO must be preceded by RNFR.\r\n"
    | some source =>
      let (renamed, fs) := session.pathManager.renamePath fs source argument
      answer session fs
        (if renamed then "250 Rename successful.\r\n" else "550 Rename failed or access denied.\r\n"))

/-- The commands behind the login. -/
def execute (verb? : Option Verb) : Turn :=
  match verb? with
  | some .TYPE => handleType session fs argument
  | some .MODE => handleMode session fs argument
  | some .PORT => handlePort session fs argument
  | some .PASV => handlePasv o session fs
  | some .PWD => handlePwd session fs argument
  | some .RMD => handleRmd session fs argument
  | some .CWD => handleCwd session fs argument
  | some .CDUP => handleCdup session fs argument
  | some .MKD => handleMkd o session fs argument
  | some .LIST => handleList o session fs argument
  | some .NLST => handleNlst o session fs argument
  | some .STAT => handleStat session fs argument
  | some .SIZE => handleSize session fs argument
  | some .MDTM => handleMdtm o session fs argument
  | some .HELP => handleHelp session fs argument
  | some .DELE => handleDele session fs argument
  | some .RNFR => handleRnfr session fs argument
  | some .RNTO => handleRnto session fs argument
  | some .RETR => handleRetr o session fs argument
  | some .STOR => handleStor o session fs argument
  | some .STOU => handleStou o session fs argument
  | some .APPE => handleAppe o session fs argument
  | some .HASH => handleHash o session fs argument
  | some .ABOR => handleAbor session fs
  | some .USER | some .PASS | some .QUIT | some .NOOP | none =>
    answer session fs "502 Command not implemented.\r\n"

/-- The commands, behind the login but for four of them. -/
def dispatch (verb? : Option Verb) : Turn :=
  match verb? with
  | some .QUIT => handleQuit session fs argument
  | some .NOOP => handleNoop session fs argument
  | some .USER => handleUser session fs argument
  | some .PASS => handlePass session fs argument
  | verb? =>
    if session.loginState ≠ .LoggedIn then answer session fs "530 Not logged in.\r\n"
    else execute o session fs argument verb?

/-- `handle_command`: a line is parsed, and its command executed. -/
def handleCommand (line : String) : Turn :=
  let command := CommandParser.parse line
  if ¬command.valid then
    answer { session with renameFrom := none } fs "500 Invalid command.\r\n"
  else
    -- Any command but `RNTO` cancels what `RNFR` has set.
    let session := if command.name ≠ "RNTO" then { session with renameFrom := none } else session
    dispatch o session fs command.argument (Verb.ofName? command.name)

end

end HybridFtp
