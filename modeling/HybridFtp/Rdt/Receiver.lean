import HybridFtp.Rdt.Sender

/-!
# The window receiver

`RDTWindowReceiver::receiveData`: it appends the DATA segments that arrive in
order, answers every datagram it can read by a cumulative ACK, and returns at the
first FIN. A run is a sequence of moves between the points where it looks at the
outside world: `advance` up to the next `recvFrom`, and `receive` for what the
code does with its outcome. Both give the datagrams sent, with their destination.
-/

namespace HybridFtp

/-- The points of `receiveData` between two moves. -/
inductive ReceiverPoint
  /-- At the head of the loop. -/
  | loopHead
  /-- In `recvFrom`. -/
  | awaitDatagram
  | returned (ok : Bool)
  deriving DecidableEq, Repr

/-- The state of a call of `receiveData`, on a `RDTWindowReceiver`. -/
structure ReceiverState where
  advertisedWindow : UInt16
  expectedSeq : UInt32 := 0
  outData : Bytes := []
  sender : Endpoint := {}
  point : ReceiverPoint := .loopHead
  deriving DecidableEq, Repr

/-- The segments that the buffer is made for. -/
def MAX_SEG : Nat := 1500

/-- The size of the buffer the receiver receives into. -/
def DATA_BUFFER_SIZE : Nat := CUSTOM_UDP_HEADER_SIZE + MAX_SEG + 64

/-- The header of a cumulative ACK. -/
def ackHeader (ackNum : UInt32) (advertisedWindow : UInt16) : CustomUDPHeader :=
  setFlag { ackNum, windowSize := advertisedWindow } FLAG_ACK

/-- The header of the answer to a FIN. -/
def finAckHeader (ackNum : UInt32) (advertisedWindow : UInt16) : CustomUDPHeader :=
  setFlag (setFlag { ackNum, windowSize := advertisedWindow } FLAG_FIN) FLAG_ACK

namespace ReceiverState

/-- The number a cumulative ACK carries: the last segment accepted, or
    `UINT32_MAX` if none was. -/
def cumulativeAck (r : ReceiverState) : UInt32 :=
  if r.expectedSeq = 0 then UINT32_MAX else r.expectedSeq - 1

/-- The datagram of the cumulative ACK. -/
def ackDatagram (r : ReceiverState) : Bytes :=
  packet (ackHeader r.cumulativeAck r.advertisedWindow) []

/-- Nothing is sent to an endpoint that is not known. -/
def sendCumulativeAck (r : ReceiverState) : List (Endpoint × Bytes) :=
  if r.sender.isKnown then [(r.sender, r.ackDatagram)] else []

/-- The code up to the next `recvFrom`: it reads the cancellation callback. -/
def advance (cancelled : Bool) (r : ReceiverState) : ReceiverState :=
  match r.point with
  | .loopHead => { r with point := if cancelled then .returned false else .awaitDatagram }
  | .awaitDatagram | .returned _ => r

/-- A datagram with a header and a payload. -/
def onDatagram (recvBuf : Bytes) (r : ReceiverState) : ReceiverState × List (Endpoint × Bytes) :=
  let hdr := deserializeHeader recvBuf
  let payload := recvBuf.drop CUSTOM_UDP_HEADER_SIZE
  let r := { r with point := .loopHead }
  if ¬verifyChecksum hdr payload then (r, r.sendCumulativeAck)
  -- The number of the FIN is not compared with the one expected.
  else if hasFlag hdr FLAG_FIN then
    ({ r with point := .returned true },
      [(r.sender, packet (finAckHeader hdr.seqNum r.advertisedWindow) [])])
  else if ¬hasFlag hdr FLAG_DATA then (r, [])
  else if hdr.seqNum = r.expectedSeq then
    let r := { r with outData := r.outData ++ payload, expectedSeq := r.expectedSeq + 1 }
    (r, r.sendCumulativeAck)
  else (r, r.sendCumulativeAck)

/-- What the code does with the outcome of `recvFrom`: it notes the endpoint, then
    reads the cancellation callback. -/
def receive (cancelled : Bool) (arrival : Received) (r : ReceiverState) :
    ReceiverState × List (Endpoint × Bytes) :=
  match r.point with
  | .awaitDatagram =>
    match recvFrom DATA_BUFFER_SIZE arrival with
    | none =>
      if cancelled then ({ r with point := .returned false }, [])
      else ({ r with point := .loopHead }, r.sendCumulativeAck)
    | some (sender, recvBuf) =>
      -- Whoever it comes from.
      let r := { r with sender }
      if cancelled then ({ r with point := .returned false }, [])
      else if recvBuf.length < CUSTOM_UDP_HEADER_SIZE then
        ({ r with point := .loopHead }, r.sendCumulativeAck)
      else onDatagram recvBuf r
  | .loopHead | .returned _ => (r, [])

/-! ## What a move can do -/

/-- A move that accepts nothing: it sends at most the cumulative ACK. -/
structure Keeps (r r' : ReceiverState) (sent : List (Endpoint × Bytes)) : Prop where
  expectedSeq : r'.expectedSeq = r.expectedSeq
  outData : r'.outData = r.outData
  advertisedWindow : r'.advertisedWindow = r.advertisedWindow
  returned : r'.point = .returned true ↔ r.point = .returned true
  sent : sent = [] ∨ sent = r'.sendCumulativeAck

theorem keeps_advance (cancelled : Bool) (r : ReceiverState) : r.Keeps (r.advance cancelled) [] := by
  rw [advance]
  split
  · rename_i hp
    cases cancelled <;> exact ⟨rfl, rfl, rfl, by simp [hp], .inl rfl⟩
  · exact ⟨rfl, rfl, rfl, Iff.rfl, .inl rfl⟩
  · exact ⟨rfl, rfl, rfl, Iff.rfl, .inl rfl⟩

/-- What the outcome of `recvFrom` can do to the state: nothing that matters;
    append the payload of the segment expected next; or end `receiveData`, on a
    FIN. The last two only on a datagram that verifies. -/
theorem receive_cases {cancelled : Bool} {arrival : Received} {r r' : ReceiverState}
    {sent : List (Endpoint × Bytes)} (h : r.receive cancelled arrival = (r', sent)) :
    r.Keeps r' sent ∨
    (∃ sender recvBuf, r.point = .awaitDatagram ∧
      recvFrom DATA_BUFFER_SIZE arrival = some (sender, recvBuf) ∧
      Verifies recvBuf ∧ hasFlag (deserializeHeader recvBuf) FLAG_FIN = false ∧
      hasFlag (deserializeHeader recvBuf) FLAG_DATA = true ∧
      (deserializeHeader recvBuf).seqNum = r.expectedSeq ∧
      r' = { r with
        sender
        point := .loopHead
        outData := r.outData ++ recvBuf.drop CUSTOM_UDP_HEADER_SIZE
        expectedSeq := r.expectedSeq + 1 } ∧
      sent = r'.sendCumulativeAck) ∨
    (∃ sender recvBuf, r.point = .awaitDatagram ∧
      recvFrom DATA_BUFFER_SIZE arrival = some (sender, recvBuf) ∧
      Verifies recvBuf ∧ hasFlag (deserializeHeader recvBuf) FLAG_FIN = true ∧
      r' = { r with sender, point := .returned true } ∧
      sent = [(sender, packet (finAckHeader (deserializeHeader recvBuf).seqNum
        r.advertisedWindow) [])]) := by
  rw [receive] at h
  split at h
  · rename_i hp
    split at h
    · split_ifs at h <;> cases h
      · exact .inl ⟨rfl, rfl, rfl, by simp [hp], .inl rfl⟩
      · exact .inl ⟨rfl, rfl, rfl, by simp [hp], .inr rfl⟩
    · rename_i sender recvBuf hr
      dsimp only at h
      split_ifs at h with hc hlen
      · cases h
        exact .inl ⟨rfl, rfl, rfl, by simp [hp], .inl rfl⟩
      · cases h
        exact .inl ⟨rfl, rfl, rfl, by simp [hp], .inr rfl⟩
      · rw [onDatagram] at h
        dsimp only at h
        split_ifs at h with hsum hfin hdata hseq <;> cases h
        · exact .inr (.inr ⟨sender, recvBuf, hp, hr, ⟨not_lt.1 hlen, hsum⟩, hfin, rfl, rfl⟩)
        · exact .inr (.inl ⟨sender, recvBuf, hp, hr, ⟨not_lt.1 hlen, hsum⟩, by simpa using hfin,
            hdata, hseq, rfl, rfl⟩)
        · exact .inl ⟨rfl, rfl, rfl, by simp [hp], .inr rfl⟩
        · exact .inl ⟨rfl, rfl, rfl, by simp [hp], .inl rfl⟩
        · exact .inl ⟨rfl, rfl, rfl, by simp [hp], .inr rfl⟩
  · cases h
    exact .inl ⟨rfl, rfl, rfl, Iff.rfl, .inl rfl⟩
  · cases h
    exact .inl ⟨rfl, rfl, rfl, Iff.rfl, .inl rfl⟩

end ReceiverState

/-! ## Reading the datagrams of the sender -/

@[simp] theorem hasFlag_dataHeader_data (n : UInt32) (seg : Bytes) (w : UInt16) :
    hasFlag (dataHeader n seg w) FLAG_DATA = true := by
  simp only [hasFlag, dataHeader, setFlag, FLAG_DATA]
  decide

@[simp] theorem hasFlag_dataHeader_fin (n : UInt32) (seg : Bytes) (w : UInt16) :
    hasFlag (dataHeader n seg w) FLAG_FIN = false := by
  simp only [hasFlag, dataHeader, setFlag, FLAG_DATA, FLAG_FIN]
  decide

@[simp] theorem hasFlag_finHeader_fin (n : UInt32) (w : UInt16) :
    hasFlag (finHeader n w) FLAG_FIN = true := by
  simp only [hasFlag, finHeader, setFlag, FLAG_FIN]
  decide

@[simp] theorem hasFlag_ackHeader_ack (n : UInt32) (w : UInt16) :
    hasFlag (ackHeader n w) FLAG_ACK = true := by
  simp only [hasFlag, ackHeader, setFlag, FLAG_ACK]
  decide

@[simp] theorem hasFlag_ackHeader_fin (n : UInt32) (w : UInt16) :
    hasFlag (ackHeader n w) FLAG_FIN = false := by
  simp only [hasFlag, ackHeader, setFlag, FLAG_ACK, FLAG_FIN]
  decide

@[simp] theorem hasFlag_finAckHeader_ack (n : UInt32) (w : UInt16) :
    hasFlag (finAckHeader n w) FLAG_ACK = true := by
  simp only [hasFlag, finAckHeader, setFlag, FLAG_FIN, FLAG_ACK]
  decide

@[simp] theorem hasFlag_finAckHeader_fin (n : UInt32) (w : UInt16) :
    hasFlag (finAckHeader n w) FLAG_FIN = true := by
  simp only [hasFlag, finAckHeader, setFlag, FLAG_FIN, FLAG_ACK]
  decide

/-- The checksum field does not matter to the flags. -/
@[simp] theorem hasFlag_stamp (hdr : CustomUDPHeader) (c : UInt16) (flag : UInt8) :
    hasFlag { hdr with checksum := c } flag = hasFlag hdr flag := rfl

/-- The largest payload the buffer of the receiver has room for. -/
def MAX_PAYLOAD : Nat := DATA_BUFFER_SIZE - CUSTOM_UDP_HEADER_SIZE

/-- A segment that fits is read whole. -/
theorem readInto_sendSegment {n : UInt32} {seg : Bytes} {w : UInt16}
    (hseg : seg.length ≤ MAX_PAYLOAD) :
    readInto DATA_BUFFER_SIZE (sendSegment n seg w) = sendSegment n seg w :=
  readInto_packet (by simp only [MAX_PAYLOAD, DATA_BUFFER_SIZE] at *; omega)

/-- The header is read whole, whatever the buffer cuts off. -/
theorem readInto_sendSegment_eq (n : UInt32) (seg : Bytes) (w : UInt16) :
    readInto DATA_BUFFER_SIZE (sendSegment n seg w) =
      serializeHeader { dataHeader n seg w with
        checksum := calculateChecksum (dataHeader n seg w) seg } ++ seg.take MAX_PAYLOAD :=
  readInto_packet_eq (by decide) (dataHeader n seg w) seg

theorem readInto_sendFIN (n : UInt32) (w : UInt16) :
    readInto DATA_BUFFER_SIZE (sendFIN n w) = sendFIN n w :=
  readInto_packet (by simp [DATA_BUFFER_SIZE, CUSTOM_UDP_HEADER_SIZE])

theorem readInto_ack (n : UInt32) (w : UInt16) :
    readInto ACK_BUFFER_SIZE (packet (ackHeader n w) []) = packet (ackHeader n w) [] :=
  readInto_packet (by simp [ACK_BUFFER_SIZE])

theorem readInto_finAck (n : UInt32) (w : UInt16) :
    readInto ACK_BUFFER_SIZE (packet (finAckHeader n w) []) = packet (finAckHeader n w) [] :=
  readInto_packet (by simp [ACK_BUFFER_SIZE])

/-- A DATA segment that reaches the receiver passes its checksum test: it does if
    it fits the buffer. -/
def Readable (n : UInt32) (seg : Bytes) (w : UInt16) : Prop :=
  Verifies (readInto DATA_BUFFER_SIZE (sendSegment n seg w))

instance (n : UInt32) (seg : Bytes) (w : UInt16) : Decidable (Readable n seg w) :=
  inferInstanceAs (Decidable (Verifies _))

theorem readable_of_length_le {n : UInt32} {seg : Bytes} {w : UInt16}
    (hseg : seg.length ≤ MAX_PAYLOAD) : Readable n seg w := by
  rw [Readable, readInto_sendSegment hseg]
  exact verifies_packet _ _

namespace ReceiverState

/-- The state after noting the sender of a datagram. -/
def heard (r : ReceiverState) (sender : Endpoint) : ReceiverState :=
  { r with sender, point := .loopHead }

/-- The state after accepting a payload. -/
def accept (r : ReceiverState) (sender : Endpoint) (payload : Bytes) : ReceiverState :=
  { r.heard sender with
    outData := r.outData ++ payload
    expectedSeq := r.expectedSeq + 1 }

theorem sendCumulativeAck_heard {sender : Endpoint} (hsender : sender.isKnown = true)
    (r : ReceiverState) :
    (r.heard sender).sendCumulativeAck = [(sender, r.ackDatagram)] := if_pos hsender

theorem sendCumulativeAck_accept {sender : Endpoint} (hsender : sender.isKnown = true)
    (r : ReceiverState) (payload : Bytes) :
    (r.accept sender payload).sendCumulativeAck =
      [(sender, (r.accept sender payload).ackDatagram)] := if_pos hsender

/-- The state after reading a DATA segment: it is accepted if it is the one
    expected next. -/
def afterSegment (r : ReceiverState) (sender : Endpoint) (n : UInt32) (seg : Bytes) (w : UInt16) :
    ReceiverState :=
  if Readable n seg w ∧ n = r.expectedSeq then r.accept sender (seg.take MAX_PAYLOAD)
  else r.heard sender

@[simp] theorem afterSegment_point (r : ReceiverState) (sender : Endpoint) (n : UInt32) (seg : Bytes)
    (w : UInt16) : (r.afterSegment sender n seg w).point = .loopHead := by
  rw [afterSegment]
  split_ifs <;> rfl

/-- In any case a cumulative ACK goes back for a DATA segment. -/
theorem receive_sendSegment {r : ReceiverState} (hp : r.point = .awaitDatagram)
    {sender : Endpoint} (hsender : sender.isKnown = true) (n : UInt32) (seg : Bytes) (w : UInt16) :
    r.receive false (some (sender, sendSegment n seg w)) =
      (r.afterSegment sender n seg w, [(sender, (r.afterSegment sender n seg w).ackDatagram)]) := by
  have hread := readInto_sendSegment_eq n seg w
  have hhdr : deserializeHeader (readInto DATA_BUFFER_SIZE (sendSegment n seg w)) =
      { dataHeader n seg w with checksum := calculateChecksum (dataHeader n seg w) seg } := by
    rw [hread, deserializeHeader_serializeHeader]
  have hlen : ¬(readInto DATA_BUFFER_SIZE (sendSegment n seg w)).length < CUSTOM_UDP_HEADER_SIZE := by
    rw [hread, List.length_append, length_serializeHeader]
    omega
  have hdrop : (readInto DATA_BUFFER_SIZE (sendSegment n seg w)).drop CUSTOM_UDP_HEADER_SIZE =
      seg.take MAX_PAYLOAD := by
    rw [hread, ← length_serializeHeader, List.drop_left]
  have hverify : verifyChecksum (deserializeHeader (readInto DATA_BUFFER_SIZE (sendSegment n seg w)))
      ((readInto DATA_BUFFER_SIZE (sendSegment n seg w)).drop CUSTOM_UDP_HEADER_SIZE) = true ↔
        Readable n seg w := ⟨fun h => ⟨not_lt.1 hlen, h⟩, And.right⟩
  simp only [receive, hp, recvFrom, Option.map_some, hlen, if_false, Bool.false_eq_true]
  rw [onDatagram, afterSegment]
  by_cases hr : Readable n seg w
  · rw [if_neg (not_not.2 (hverify.2 hr)), hdrop, hhdr]
    simp only [hasFlag_stamp, hasFlag_dataHeader_fin, hasFlag_dataHeader_data, not_true_eq_false,
      if_false, Bool.false_eq_true, hr, true_and]
    rw [show ({ dataHeader n seg w with
      checksum := calculateChecksum (dataHeader n seg w) seg } : CustomUDPHeader).seqNum = n from rfl]
    split_ifs
    · exact Prod.ext rfl (sendCumulativeAck_accept hsender r _)
    · exact Prod.ext rfl (sendCumulativeAck_heard hsender r)
  · rw [if_pos (mt hverify.1 hr), if_neg (fun h => hr h.1)]
    exact Prod.ext rfl (sendCumulativeAck_heard hsender r)

/-- The FIN ends `receiveData`, and is answered by a FINACK. -/
theorem receive_sendFIN {r : ReceiverState} (hp : r.point = .awaitDatagram) (sender : Endpoint)
    (n : UInt32) (w : UInt16) :
    r.receive false (some (sender, sendFIN n w)) = ({ r with sender, point := .returned true },
      [(sender, packet (finAckHeader n r.advertisedWindow) [])]) := by
  have hread := readInto_sendFIN n w
  have hhdr := deserializeHeader_packet (finHeader n w) []
  obtain ⟨hlen, hsum⟩ := verifies_packet (finHeader n w) []
  rw [← sendFIN] at hhdr hlen hsum
  have hfin : hasFlag (deserializeHeader (sendFIN n w)) FLAG_FIN = true := by
    rw [hhdr, hasFlag_stamp, hasFlag_finHeader_fin]
  simp only [receive, hp, recvFrom, Option.map_some, hread, Bool.false_eq_true, if_false]
  rw [if_neg (not_lt.2 hlen), onDatagram]
  simp only [hsum, hfin, not_true_eq_false, if_false, if_true]
  rw [hhdr]
  rfl

end ReceiverState

/-! ## Reading the datagrams of the receiver -/

/-- The main loop takes an ACK from the destination as one. -/
theorem SenderState.receive_ack {α : Type} [Double α] {s : SenderState α} (hp : s.point = .awaitAck)
    (cfg : RDTWindowSender α) (k : UInt32) (w : UInt16) :
    s.receive cfg false (some (cfg.dest, packet (ackHeader k w) [])) = s.onAck cfg k w := by
  have hread := readInto_ack k w
  have hhdr := deserializeHeader_packet (ackHeader k w) []
  obtain ⟨hlen, hsum⟩ := verifies_packet (ackHeader k w) []
  simp only [receive, hp, recvFrom, Option.map_some, hread, Bool.false_eq_true, if_false]
  rw [if_neg (not_lt.2 hlen), onDatagram_of_ack cfg hsum ?_ rfl, hhdr]
  · rfl
  · rw [hhdr, hasFlag_stamp, hasFlag_ackHeader_ack]

end HybridFtp
