import HybridFtp.Rdt.Safety
import HybridFtp.Rdt.Segmentation

/-!
# Reliable transfers

`RDTSender` and `RDTReceiver`, with the parameters that the FTP programs leave as they
are: a buffer that is sent and received as a whole.

* `RDTSender.windowSender`, `bufferTransfer`: `sendBuffer` against `receiveBuffer`, on
  fresh sockets;
* `Conveys`: how the two calls end, in some run;
* `Conveys.eq`: what is received is what is sent.
-/

namespace HybridFtp

/-- The default of `mss_`. -/
def RDT_CHUNK_SIZE : Nat := 1024

section

variable (α : Type) [Double α]

/-- The parameters of `RDTSender`. -/
structure RDTSender where
  dest : Endpoint
  mss : Nat := RDT_CHUNK_SIZE
  maxRetries : Int := 16
  initCwnd : α := Double.one
  initSsthresh : α := Double.ofUInt32 8
  maxWinSegs : UInt32 := 32

/-- The parameter of `RDTReceiver`. -/
structure RDTReceiver where
  advWindow : UInt16 := 8

end

variable {α : Type} [Double α]

/-- The window sender that `runWindowSender` passes the parameters on to. -/
def RDTSender.windowSender (sender : RDTSender α) : RDTWindowSender α where
  dest := sender.dest
  mss := sender.mss
  initialCwnd := sender.initCwnd
  initialSsthresh := sender.initSsthresh
  maxWindowSegments := sender.maxWinSegs
  maxRetransmitRounds := sender.maxRetries

/-- `sendBuffer` against `receiveBuffer`. -/
def RDTSender.transfer (sender : RDTSender α) (socket : BoundEndpoint) (receiver : RDTReceiver)
    (data : Bytes) : Transfer α where
  sender := sender.windowSender
  socket := socket
  advertisedWindow := receiver.advWindow
  data := data

/-- `sendBuffer` against `receiveBuffer`, with the defaults on both sides. -/
def bufferTransfer (dest : Endpoint) (socket : BoundEndpoint) (data : Bytes) : Transfer α :=
  RDTSender.transfer { dest } socket {} data

/-- `sendData` has ended so. -/
def SenderPoint.Returns : SenderPoint → TransferResult Unit → Prop
  | point, .completed () => point = .returned true
  | point, .failed | point, .aborted => point = .returned false

/-- `receiveData` has ended so. -/
def ReceiverState.Returns (r : ReceiverState) : TransferResult Bytes → Prop
  | .completed buffer => r.point = .returned true ∧ r.outData = buffer
  | .failed | .aborted => r.point = .returned false

variable (α) in
/-- In some run of the two calls, over sockets that are made for them and a network that
    loses, duplicates, holds back, reorders and damages datagrams, they end so. -/
def Conveys (data : Bytes) (sent : TransferResult Unit) (received : TransferResult Bytes) : Prop :=
  ∃ (dest : Endpoint) (socket : BoundEndpoint) (s : Joint α),
    (bufferTransfer dest socket data : Transfer α).machine.Reachable s ∧
      s.sender.point.Returns sent ∧ s.receiver.Returns received

/-- The bytes that as many segments have room for as can be counted. -/
def BUFFER_CAPACITY : Nat := RDT_CHUNK_SIZE * (2 ^ 32 - 1)

theorem exists_segments_of_le {mss : Nat} (hmss : 0 < mss) {data : Bytes}
    (h : data.length ≤ mss * (2 ^ 32 - 1)) :
    ∃ segs, segments mss data = some segs ∧ segs.length < 2 ^ 32 := by
  obtain ⟨segs, hsegs⟩ := Option.isSome_iff_exists.1 (segments_isSome hmss data)
  refine ⟨segs, hsegs, ?_⟩
  have hceil : data.length ⌈/⌉ mss ≤ 2 ^ 32 - 1 := (ceilDiv_le_iff_le_mul hmss).2 h
  have hlength := length_segments hsegs
  omega

/-- Whatever the network does, a buffer that is received is the one that is sent. -/
theorem Conveys.eq {data buffer : Bytes} {sent : TransferResult Unit}
    (h : Conveys α data sent (.completed buffer)) (hlength : data.length ≤ BUFFER_CAPACITY) :
    buffer = data := by
  obtain ⟨dest, socket, s, hs, _, hreturned, rfl⟩ := h
  obtain ⟨segs, hsegs, hcount⟩ := exists_segments_of_le (by decide) hlength
  have hfit : ∀ seg ∈ segs, seg.length ≤ MAX_PAYLOAD := fun seg hseg =>
    (length_of_mem_segments hsegs hseg).trans (by decide)
  obtain ⟨p, hp⟩ := exists_refines hfit hsegs hs
  have hdata := Joint.Refines.outData_eq (t := bufferTransfer dest socket data) hsegs hcount hp
  exact hdata.2.2 hreturned

/-- A short buffer, from one socket of the host to another. -/
def greetingTransfer (data : Bytes) : Transfer ℚ :=
  bufferTransfer greeting.sender.dest greeting.socket data

/-- A DATA segment, its ACK, the FIN and the FINACK convey it. -/
theorem conveys_of_run {data : Bytes}
    (h : ((greetingTransfer data).start.bind ((greetingTransfer data).machine.run
      (fun _ _ => True) (greetingData ++ greetingFin ++ [.senderReceives false]))).any (fun s =>
        s.sender.point = .returned true ∧ s.receiver.point = .returned true ∧
          s.receiver.outData = data) = true) :
    Conveys ℚ data (.completed ()) (.completed data) := by
  obtain ⟨s, hs, hP⟩ := (greetingTransfer data).machine.exists_reachableBy_of_run (fun _ _ => True)
    (fun _ => id) _ _ h
  obtain ⟨hsender, hreceiver⟩ := of_decide_eq_true hP
  exact ⟨_, _, s, hs, hsender, hreceiver⟩

end HybridFtp
