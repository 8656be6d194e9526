import HybridFtp.Lib.Numbers
import HybridFtp.Rdt.Lossless
import HybridFtp.Rdt.ReliableTransfer

/-!
# Sending a file

The programs `rdt_file_client` and `rdt_file_server`: the one sends a file, the other
writes what it receives. Their arguments ask for the segment size and the windows.

* `atoi`, `FileClient.ofArgs`, `FileServer.ofArgs`: what is made of the arguments;
* `RDTSender.sendFile`, `RDTReceiver.receiveFile`: how sending and receiving a file ends,
  and so do the programs (`FileClient.exitCode`, `FileServer.exitCode`);
* `file_copied`: the exit codes tell the truth, whatever the windows.
-/

namespace HybridFtp

/-! ## Arguments -/

/-- `strtol` to the base ten: beyond 64 bits, it is the bound. -/
def strtol (text : List Char) : Int :=
  let text := text.dropWhile isSpace
  let negative := text.head? = some '-'
  let text := if negative ∨ text.head? = some '+' then text.tail else text
  let value : Int := decimal (text.takeWhile Char.isDigit)
  if negative then max (-2 ^ 63) (-value) else min (2 ^ 63 - 1) value

/-- `atoi`, of which an `int` is left. -/
def atoi (arg : String) : Int32 := Int32.ofInt (strtol arg.toList)

section

variable {α : Type} [Double α]

/-- What `rdt_file_client` is asked for. -/
structure FileClient (α : Type) [Double α] where
  serverIP : String := "127.0.0.1"
  port : UInt16 := 9001
  filePath : String := "test_send.bin"
  mss : Nat := 1024
  initCwnd : α := Double.one
  ssthresh : α := Double.ofUInt32 8
  maxWin : UInt32 := 32

/-- What `rdt_file_server` is asked for. -/
structure FileServer where
  port : UInt16 := 9001
  outputPath : String := "received_output.bin"
  advWindow : UInt16 := 8

/-- The arguments that are there replace the defaults: `atof` reads a `double`. -/
def FileClient.ofArgs (atof : String → α) (args : List String) : FileClient α where
  serverIP := (args[0]?).getD "127.0.0.1"
  port := ((args[1]?).map fun arg => UInt16.ofInt (atoi arg).toInt).getD 9001
  filePath := (args[2]?).getD "test_send.bin"
  -- A negative number becomes a large one.
  mss := ((args[3]?).map fun arg => (UInt64.ofInt (atoi arg).toInt).toNat).getD 1024
  initCwnd := ((args[4]?).map atof).getD Double.one
  ssthresh := ((args[5]?).map atof).getD (Double.ofUInt32 8)
  maxWin := ((args[6]?).map fun arg => UInt32.ofInt (atoi arg).toInt).getD 32

/-- Those of `rdt_file_server`. -/
def FileServer.ofArgs (args : List String) : FileServer where
  port := ((args[0]?).map fun arg => UInt16.ofInt (atoi arg).toInt).getD 9001
  outputPath := (args[1]?).getD "received_output.bin"
  advWindow := ((args[2]?).map fun arg => UInt16.ofInt (atoi arg).toInt).getD 8

/-! ## The programs -/

/-- What `sendData` has returned. -/
def SenderPoint.result? : SenderPoint → Option Bool
  | .returned ok => some ok
  | .loopHead | .sending _ | .awaitAck | .finHead _ | .awaitFinAck _ => none

/-- What `sendFile` has returned, given what is in the file, unless it cannot be read,
    and what `sendData` has returned. -/
def RDTSender.sendFile (fileData : Option Bytes) (sent : Option Bool) : Option Bool :=
  match fileData with
  | none => some false
  | some _ => sent

/-- What `receiveFile` has returned, and what is in the file if it can be `opened`: the
    disk has `room` for so many bytes, and nobody looks at whether the others have been
    written. -/
def RDTReceiver.receiveFile (opened : Bool) (room : Nat) (receiver : ReceiverState) :
    Option (Bool × Option Bytes) :=
  match receiver.point with
  | .loopHead | .awaitDatagram => none
  | .returned false => some (false, none)
  | .returned true => some (opened, if opened then some (receiver.outData.take room) else none)

/-- The bytes, added up. -/
def simpleSum (data : Bytes) : UInt32 := data.foldl (fun sum b => sum + b.toUInt32) 0

/-- `return ok ? 0 : 1;` -/
def exitCode (ok : Bool) : Nat := if ok then 0 else 1

/-- The exit code of `rdt_file_client`, once `sendFile` has returned. -/
def FileClient.exitCode (fileData : Option Bytes) (point : SenderPoint) : Option Nat :=
  (RDTSender.sendFile fileData point.result?).map HybridFtp.exitCode

/-- The exit code of `rdt_file_server`, once `receiveFile` has returned. -/
def FileServer.exitCode (opened : Bool) (room : Nat) (receiver : ReceiverState) : Option Nat :=
  (RDTReceiver.receiveFile opened room receiver).map fun (ok, _) => HybridFtp.exitCode ok

/-- The two programs, of which the one sends what is in its file from its `socket`. -/
def FileClient.transfer (client : FileClient α) (server : FileServer) (socket : BoundEndpoint)
    (data : Bytes) : Transfer α where
  sender := {
    dest := { ip := client.serverIP, port := client.port }
    mss := client.mss
    initialCwnd := client.initCwnd
    initialSsthresh := client.ssthresh
    maxWindowSegments := client.maxWin
    maxRetransmitRounds := 20 }
  socket := socket
  advertisedWindow := server.advWindow
  data := data

/-! ## What the exit codes tell -/

variable {client : FileClient α} {server : FileServer} {socket : BoundEndpoint} {data : Bytes}

theorem exitCode_eq_zero_iff {ok : Bool} : exitCode ok = 0 ↔ ok = true := by
  cases ok <;> simp [exitCode]

theorem FileClient.exitCode_eq_zero_iff {point : SenderPoint} :
    FileClient.exitCode (some data) point = some 0 ↔ point = .returned true := by
  rw [FileClient.exitCode, RDTSender.sendFile]
  cases point with
  | returned ok => cases ok <;> simp [SenderPoint.result?, HybridFtp.exitCode]
  | loopHead | sending _ | awaitAck | finHead _ | awaitFinAck _ => simp [SenderPoint.result?]

theorem RDTReceiver.receiveFile_of_returned {receiver : ReceiverState}
    (hp : receiver.point = .returned true) (hdata : receiver.outData = data) (opened : Bool)
    (room : Nat) : RDTReceiver.receiveFile opened room receiver =
      some (opened, if opened then some (data.take room) else none) := by
  rw [RDTReceiver.receiveFile, hp, hdata]

theorem FileServer.returned_of_exitCode {opened : Bool} {room : Nat} {receiver : ReceiverState}
    (h : FileServer.exitCode opened room receiver = some 0) :
    opened = true ∧ receiver.point = .returned true := by
  rw [FileServer.exitCode, RDTReceiver.receiveFile] at h
  cases hp : receiver.point with
  | loopHead | awaitDatagram =>
    rw [hp] at h
    cases h
  | returned ok =>
    rw [hp] at h
    cases ok with
    | false => cases h
    | true => exact ⟨exitCode_eq_zero_iff.1 (Option.some.inj h), rfl⟩

/-- The exit codes of the programs that transfer `data` tell what becomes of them. -/
structure FileClient.Truthful (client : FileClient α) (server : FileServer)
    (socket : BoundEndpoint) (data : Bytes) : Prop where
  /-- A server that reports success has written what there is room for, and reports the
      sum of the data. -/
  received : ∀ s, (client.transfer server socket data).machine.Reachable s → ∀ opened room,
    FileServer.exitCode opened room s.receiver = some 0 →
      RDTReceiver.receiveFile opened room s.receiver = some (true, some (data.take room)) ∧
        simpleSum s.receiver.outData = simpleSum data
  /-- If the client reports success, then so does the server, unless it cannot open its
      file. -/
  sent : ∀ s, (client.transfer server socket data).machine.ReachableBy ReadsIntact s →
    FileClient.exitCode (some data) s.sender.point = some 0 → ∀ opened room,
      RDTReceiver.receiveFile opened room s.receiver =
        some (opened, if opened then some (data.take room) else none)
  /-- Where nothing is lost, both report success in the end. -/
  ends : max 1 (data.length ⌈/⌉ client.mss) + max 1 client.maxWin.toNat < 2 ^ 32 →
    ∀ s, (client.transfer server socket data).start = some s →
      (client.transfer server socket data).machine.Inevitable Unfailing (fun _ _ => True)
        (fun s => FileClient.exitCode (some data) s.sender.point = some 0 ∧ ∀ room,
          RDTReceiver.receiveFile true room s.receiver = some (true, some (data.take room))) s

/-- Segments that the receiver has room for are all it takes: the windows and the numbers
    of rounds may be anything. -/
theorem file_copied (server : FileServer) (socket : BoundEndpoint) (hmss : 0 < client.mss)
    (hfit : client.mss ≤ 1564) (hsize : data.length ≤ client.mss * (2 ^ 32 - 1)) :
    client.Truthful server socket data := by
  obtain ⟨segs, hsegs, hcount⟩ := exists_segments_of_le hmss hsize
  have hpayload : ∀ seg ∈ segs, seg.length ≤ MAX_PAYLOAD := fun seg hseg =>
    (length_of_mem_segments hsegs hseg).trans hfit
  refine ⟨fun s hs opened room hexit => ?_, fun s hs hexit opened room => ?_, fun hwin s hs => ?_⟩
  · obtain ⟨rfl, hreturned⟩ := FileServer.returned_of_exitCode hexit
    obtain ⟨p, hp⟩ := exists_refines hpayload hsegs hs
    have hdata : s.receiver.outData = data :=
      (hp.outData_eq (t := client.transfer server socket data) hsegs hcount).2.2 hreturned
    exact ⟨RDTReceiver.receiveFile_of_returned hreturned hdata true room, congrArg simpleSum hdata⟩
  · obtain ⟨p, hp, hfinished⟩ := exists_refines_of_intact hsegs hs
    have hreturned := hp.receiver.finished.1
      (hfinished (FileClient.exitCode_eq_zero_iff.1 hexit))
    exact RDTReceiver.receiveFile_of_returned hreturned
      ((hp.outData_eq (t := client.transfer server socket data) hsegs hcount).2.2 hreturned) _ _
  · rw [← length_segments hsegs] at hwin
    refine ((Joint.lossless_start hsegs hs).inevitable ⟨s, hs, .refl⟩ hfit hsegs hwin
      (by decide : (0 : Int) < 20)).mono fun s' h => ⟨?_, fun room => ?_⟩
    · exact FileClient.exitCode_eq_zero_iff.2 h.1.sender
    · exact RDTReceiver.receiveFile_of_returned h.1.receiver h.2 true room

/-- Segments of 1400 bytes, and the smallest windows there are. -/
theorem file_copied_small :
    (FileClient.ofArgs (fun _ => (0 : ℚ)) ["10.0.0.1", "9001", "a.bin", "1400", "0", "0", "0"]).Truthful
      (FileServer.ofArgs ["9001", "b.bin", "0"]) greeting.socket [104, 105] :=
  file_copied _ _ (by decide +kernel) (by decide +kernel) (by decide +kernel)

end

end HybridFtp
