import HybridFtp.Rdt.GoBackN

/-!
# Stop-and-wait

Successive calls of `RDTSender::sendPacket` to one `RDTReceiver` on which
`receivePacket` is called repeatedly, over an unreliable network.

* `PacketLink.machine`: the calls on both sides, and the datagrams between them;
* `PacketExchange.Sound`: the receiver accepts one packet and no more, since all packets carry
  the number 0 and it goes on to expect the number 1; afterwards it acknowledges all;
* `PacketExchange.InStep`: the receiver has accepted nothing, or the packet of the call;
* `delivered_once`: a call that returns true has delivered its payload if and only if it
  is the first one, and the packet accepted was its own.
-/

namespace HybridFtp

/-! ## `sendPacket` -/

/-- The points of `sendPacket` between two moves; `idle` before the first call. -/
inductive PacketPoint
  | idle
  /-- At the head of the loop. -/
  | attempting (attempt : Int)
  /-- In `recvFrom`. -/
  | awaitAck (attempt : Int)
  | returned (ok : Bool)
  deriving DecidableEq, Repr

/-- The state of a `RDTSender`, in a call of `sendPacket`. -/
structure PacketSender where
  payload : Bytes := []
  retryCount : Int := 0
  lastSegsSent : UInt32 := 0
  point : PacketPoint := .idle
  deriving DecidableEq, Repr

namespace PacketSender

/-- The start of a call. -/
def sendPacket (payload : Bytes) (s : PacketSender) : PacketSender :=
  { s with payload, retryCount := 0, point := .attempting 0 }

/-- The code up to the next `recvFrom`, or the next attempt. The packet has the number 0. -/
def advance (maxRetries : Int) (sendOk : Bool) (s : PacketSender) : PacketSender × List Bytes :=
  match s.point with
  | .attempting attempt =>
    if attempt ≤ maxRetries then
      if sendOk then ({ s with point := .awaitAck attempt }, [sendSegment 0 s.payload 1])
      else ({ s with retryCount := attempt, point := .attempting (attempt + 1) }, [])
    else ({ s with lastSegsSent := 1, point := .returned false }, [])
  | .idle | .awaitAck _ | .returned _ => (s, [])

/-- What the code does with the outcome of `recvFrom`: only an ACK of the number 0
    counts, from any endpoint. -/
def receive (arrival : Received) (s : PacketSender) : PacketSender :=
  match s.point with
  | .awaitAck attempt =>
    let retry := { s with retryCount := attempt + 1, point := .attempting (attempt + 1) }
    match recvFrom ACK_BUFFER_SIZE arrival with
    | none => retry
    | some (_, ackBuf) =>
      if ackBuf.length < CUSTOM_UDP_HEADER_SIZE then retry
      else
        let ackHdr := deserializeHeader ackBuf
        if ¬hasFlag ackHdr FLAG_ACK then retry
        -- Every packet has the number 0.
        else if ackHdr.ackNum ≠ 0 then retry
        else if ¬verifyChecksum ackHdr (ackBuf.drop CUSTOM_UDP_HEADER_SIZE) then retry
        else { s with lastSegsSent := 1, point := .returned true }
  | .idle | .attempting _ | .returned _ => s

/-- The code up to the next `recvFrom` sends the packet, at most, and does not succeed. -/
theorem advance_sound (s : PacketSender) (maxRetries : Int) (sendOk : Bool) :
    (s.advance maxRetries sendOk).1.payload = s.payload ∧
      ((s.advance maxRetries sendOk).1.point = .returned true ↔ s.point = .returned true) ∧
      ∀ d ∈ (s.advance maxRetries sendOk).2, d = sendSegment 0 s.payload 1 := by
  cases hp : s.point with
  | attempting attempt =>
    simp only [advance, hp]
    split_ifs
    · exact ⟨rfl, by simp, fun d hd => List.mem_singleton.1 hd⟩
    · exact ⟨rfl, by simp, fun d hd => absurd hd List.not_mem_nil⟩
    · exact ⟨rfl, by simp, fun d hd => absurd hd List.not_mem_nil⟩
  | idle | awaitAck _ | returned _ =>
    simp only [advance, hp]
    exact ⟨trivial, trivial, fun d hd => absurd hd List.not_mem_nil⟩

/-- A call only returns true on a datagram that passes the checksum test. -/
theorem receive_cases {s : PacketSender} {attempt : Int} (hp : s.point = .awaitAck attempt)
    (arrival : Received) :
    (s.receive arrival).payload = s.payload ∧
      ((s.receive arrival).point = .attempting (attempt + 1) ∨
        (s.receive arrival).point = .returned true ∧ ∃ sender datagram,
          arrival = some (sender, datagram) ∧ Verifies (readInto ACK_BUFFER_SIZE datagram)) := by
  simp only [receive, hp]
  cases arrival with
  | none => exact ⟨rfl, .inl rfl⟩
  | some arrival =>
    obtain ⟨sender, datagram⟩ := arrival
    simp only [recvFrom, Option.map_some]
    split_ifs with hlen hack hnum hverify
    · exact ⟨rfl, .inl rfl⟩
    · exact ⟨rfl, .inl rfl⟩
    · exact ⟨rfl, .inr ⟨rfl, sender, datagram, rfl, not_lt.1 hlen, hverify⟩⟩
    · exact ⟨rfl, .inl rfl⟩
    · exact ⟨rfl, .inl rfl⟩

end PacketSender

/-! ## `receivePacket` -/

/-- What a `RDTReceiver` keeps between the calls of `receivePacket`. -/
structure PacketReceiver where
  advWindow : UInt16
  expectedSeq : UInt32 := 0
  lastAckSent : UInt32 := UINT32_MAX
  deriving DecidableEq, Repr

/-- The size of the buffer packets are received into. -/
def PACKET_BUFFER_SIZE : Nat := CUSTOM_UDP_HEADER_SIZE + 4096

/-- The datagram `sendRawAck` sends. -/
def sendRawAck (ackNum : UInt32) (windowSize : UInt16) (dest : Endpoint) : Endpoint × Bytes :=
  (dest, packet (ackHeader ackNum windowSize) [])

namespace PacketReceiver

/-- A call of `receivePacket`: the data, if it returns true, and what it sends. -/
def receivePacket (arrival : Received) (r : PacketReceiver) :
    PacketReceiver × Option Bytes × List (Endpoint × Bytes) :=
  match recvFrom PACKET_BUFFER_SIZE arrival with
  | none => (r, none, [])
  | some (sender, recvBuf) =>
    if recvBuf.length < CUSTOM_UDP_HEADER_SIZE then (r, none, [])
    else
      let hdr := deserializeHeader recvBuf
      let payload := recvBuf.drop CUSTOM_UDP_HEADER_SIZE
      if ¬verifyChecksum hdr payload then (r, none, [])
      else if hdr.seqNum = r.expectedSeq then
        ({ r with lastAckSent := hdr.seqNum, expectedSeq := r.expectedSeq + 1 }, some payload,
          [sendRawAck hdr.seqNum r.advWindow sender])
      else
        (r, none, if r.lastAckSent ≠ UINT32_MAX then [sendRawAck r.lastAckSent r.advWindow sender]
          else [])

/-- A call accepts a packet of the number expected, or sends at most the last ACK again. -/
theorem receivePacket_cases (arrival : Received) (r : PacketReceiver) :
    (∃ sent, r.receivePacket arrival = (r, none, sent) ∧
      ∀ d ∈ sent, r.lastAckSent ≠ UINT32_MAX) ∨
    (∃ sender datagram, arrival = some (sender, datagram) ∧
      Verifies (readInto PACKET_BUFFER_SIZE datagram) ∧
      (deserializeHeader (readInto PACKET_BUFFER_SIZE datagram)).seqNum = r.expectedSeq ∧
      r.receivePacket arrival =
        ({ r with lastAckSent := r.expectedSeq, expectedSeq := r.expectedSeq + 1 },
          some ((readInto PACKET_BUFFER_SIZE datagram).drop CUSTOM_UDP_HEADER_SIZE),
          [sendRawAck r.expectedSeq r.advWindow sender])) := by
  cases arrival with
  | none => exact .inl ⟨[], rfl, fun d hd => absurd hd List.not_mem_nil⟩
  | some arrival =>
    obtain ⟨sender, datagram⟩ := arrival
    simp only [receivePacket, recvFrom, Option.map_some]
    split_ifs with hlen hverify hseq hack
    · exact .inl ⟨[], rfl, fun d hd => absurd hd List.not_mem_nil⟩
    · exact .inr ⟨sender, datagram, rfl, ⟨not_lt.1 hlen, hverify⟩, hseq, by rw [hseq]⟩
    · exact .inl ⟨_, rfl, fun _ _ => hack⟩
    · exact .inl ⟨[], rfl, fun d hd => absurd hd List.not_mem_nil⟩
    · exact .inl ⟨[], rfl, fun d hd => absurd hd List.not_mem_nil⟩

end PacketReceiver

/-! ## Both sides -/

/-- The configurations of both sides. -/
structure PacketLink where
  maxRetries : Int
  /-- The endpoint of the receiver. -/
  dest : Endpoint
  /-- The endpoint of the socket of the sender. -/
  socket : Endpoint
  advWindow : UInt16

/-- The states of both sides and the datagrams on their way to each, what the calls of
    `receivePacket` that returned true have delivered, and the payloads of the calls of
    `sendPacket` that returned true. -/
structure PacketExchange where
  sender : PacketSender := {}
  receiver : PacketReceiver
  toReceiver : List Bytes := []
  toSender : List Bytes := []
  delivered : List Bytes := []
  acknowledged : List Bytes := []
  deriving DecidableEq

/-- A move of one of the two sides, or a fault of the network. -/
inductive PacketEvent
  /-- The next call of `sendPacket`. -/
  | sends (payload : Bytes)
  | senderAdvances (sendOk : Bool)
  | senderTimesOut
  | senderReceives
  | receiverTimesOut
  | receiverReceives
  | faultToReceiver (f : Fault Bytes)
  | faultToSender (f : Fault Bytes)
  deriving DecidableEq

/-- No call of `sendPacket` is in progress. -/
def PacketPoint.isOver : PacketPoint → Bool
  | .idle | .returned _ => true
  | .attempting _ | .awaitAck _ => false

/-- `sendPacket` is in `recvFrom`. -/
def PacketPoint.waits : PacketPoint → Bool
  | .awaitAck _ => true
  | .idle | .attempting _ | .returned _ => false

theorem PacketPoint.exists_of_waits {point : PacketPoint} (h : point.waits = true) :
    ∃ attempt, point = .awaitAck attempt := by
  cases point with
  | awaitAck attempt => exact ⟨attempt, rfl⟩
  | idle | attempting _ | returned _ => cases h

namespace PacketExchange

/-- The sender reads the outcome of `recvFrom`. -/
def senderReads (arrival : Received) (s : PacketExchange) : PacketExchange :=
  let sender := s.sender.receive arrival
  { s with
    sender
    acknowledged :=
      if sender.point = .returned true then s.acknowledged ++ [sender.payload] else s.acknowledged }

/-- A call of `receivePacket`. -/
def receiverReads (l : PacketLink) (arrival : Received) (s : PacketExchange) : PacketExchange :=
  let out := s.receiver.receivePacket arrival
  { s with
    receiver := out.1
    delivered := s.delivered ++ out.2.1.toList
    toSender := s.toSender ++ (out.2.2.filter fun p => p.1 = l.socket).map Prod.snd }

/-- The step an event takes. -/
def step (l : PacketLink) : PacketEvent → PacketExchange → Option PacketExchange
  | .sends payload, s =>
    if s.sender.point.isOver then some { s with sender := s.sender.sendPacket payload } else none
  | .senderAdvances sendOk, s =>
    some { s with
      sender := (s.sender.advance l.maxRetries sendOk).1
      toReceiver := s.toReceiver ++ (s.sender.advance l.maxRetries sendOk).2 }
  | .senderTimesOut, s => if s.sender.point.waits then some (s.senderReads none) else none
  | .senderReceives, s =>
    match s.toSender with
    | [] => none
    | d :: rest =>
      if s.sender.point.waits then
        some ({ s with toSender := rest }.senderReads (some (l.dest, d)))
      else none
  | .receiverTimesOut, s => some (s.receiverReads l none)
  | .receiverReceives, s =>
    match s.toReceiver with
    | [] => none
    | d :: rest => some ({ s with toReceiver := rest }.receiverReads l (some (l.socket, d)))
  | .faultToReceiver f, s =>
    (f.apply (Damaged PACKET_BUFFER_SIZE) s.toReceiver).map fun l => { s with toReceiver := l }
  | .faultToSender f, s =>
    (f.apply (Damaged ACK_BUFFER_SIZE) s.toSender).map fun l => { s with toSender := l }

end PacketExchange

/-- The machine of an exchange of packets. -/
def PacketLink.machine (l : PacketLink) : Machine PacketExchange PacketEvent where
  init := {{ receiver := { advWindow := l.advWindow } }}
  step := PacketExchange.step l

/-! ## One packet -/

namespace PacketExchange

variable {l : PacketLink} {s s' : PacketExchange}

theorem step_senderReceives (h : s.step l .senderReceives = some s') :
    ∃ d rest, s.toSender = d :: rest ∧ s.sender.point.waits = true ∧
      s' = { s with toSender := rest }.senderReads (some (l.dest, d)) := by
  rw [step] at h
  cases hqueue : s.toSender with
  | nil => simp [hqueue] at h
  | cons d rest =>
    simp only [hqueue, Option.ite_none_right_eq_some, Option.some.injEq] at h
    exact ⟨d, rest, rfl, h.1, h.2.symm⟩

theorem step_receiverReceives (h : s.step l .receiverReceives = some s') :
    ∃ d rest, s.toReceiver = d :: rest ∧
      s' = { s with toReceiver := rest }.receiverReads l (some (l.socket, d)) := by
  rw [step] at h
  cases hqueue : s.toReceiver with
  | nil => simp [hqueue] at h
  | cons d rest =>
    simp only [hqueue, Option.some.injEq] at h
    exact ⟨d, rest, rfl, h.symm⟩

/-- The receiver accepts one packet and no more, of all that carry the number 0, and
    acknowledges any other from then on. -/
structure Sound (s : PacketExchange) : Prop where
  receiver : s.delivered = [] ∧ s.receiver.expectedSeq = 0 ∧ s.receiver.lastAckSent = UINT32_MAX ∨
    ∃ payload, s.delivered = [payload] ∧ s.receiver.expectedSeq = 1
  toReceiver : ∀ d ∈ s.toReceiver,
    Damaged PACKET_BUFFER_SIZE d ∨ ∃ payload, d = sendSegment 0 payload 1
  toSender : ∀ d ∈ s.toSender, Damaged ACK_BUFFER_SIZE d ∨ s.delivered ≠ []
  returned : s.sender.point = .returned true → s.delivered ≠ []

/-- All packets carry the number 0, also where the buffer cuts them. -/
theorem seqNum_sendSegment (payload : Bytes) :
    (deserializeHeader (readInto PACKET_BUFFER_SIZE (sendSegment 0 payload 1))).seqNum = 0 := by
  rw [sendSegment, readInto_packet_eq (by decide), deserializeHeader_serializeHeader]
  rfl

namespace Sound

/-- The network only leaves what was on its way, or damages it. -/
theorem of_queues (h : Sound s) {toReceiver toSender : List Bytes}
    (hreceiver : ∀ d ∈ toReceiver, d ∈ s.toReceiver ∨ Damaged PACKET_BUFFER_SIZE d)
    (hsender : ∀ d ∈ toSender, d ∈ s.toSender ∨ Damaged ACK_BUFFER_SIZE d) :
    Sound { s with toReceiver, toSender } :=
  ⟨h.receiver, fun d hd => (hreceiver d hd).elim (h.toReceiver d) .inl,
    fun d hd => (hsender d hd).elim (h.toSender d) .inl, h.returned⟩

theorem of_rest (h : Sound s) {d : Bytes} {rest : List Bytes} (hqueue : s.toReceiver = d :: rest) :
    Sound { s with toReceiver := rest } :=
  h.of_queues (fun _ hd' => .inl (hqueue ▸ List.mem_cons_of_mem _ hd')) fun _ hd' => .inl hd'

theorem sends (h : Sound s) (payload : Bytes) :
    Sound { s with sender := s.sender.sendPacket payload } :=
  ⟨h.receiver, h.toReceiver, h.toSender, PacketPoint.noConfusion⟩

theorem senderAdvances (h : Sound s) (sendOk : Bool)
    (hs : s.step l (.senderAdvances sendOk) = some s') : Sound s' := by
  obtain rfl := Option.some.inj hs
  obtain ⟨_, hpoint, hsent⟩ := s.sender.advance_sound l.maxRetries sendOk
  refine ⟨h.receiver, fun d hd => ?_, h.toSender, fun hp => h.returned (hpoint.1 hp)⟩
  rcases List.mem_append.1 hd with hd | hd
  · exact h.toReceiver d hd
  · exact .inr ⟨_, hsent d hd⟩

/-- An undamaged ACK comes from a receiver that has accepted a packet. -/
theorem senderReads (h : Sound s) {arrival : Received} (hwaits : s.sender.point.waits = true)
    (hsound : ∀ sender d, arrival = some (sender, d) → Damaged ACK_BUFFER_SIZE d ∨ s.delivered ≠ []) :
    Sound (s.senderReads arrival) := by
  refine ⟨h.receiver, h.toReceiver, h.toSender, fun hp => ?_⟩
  obtain ⟨attempt, hwait⟩ := PacketPoint.exists_of_waits hwaits
  obtain ⟨_, hretry | ⟨_, sender, d, harrival, hverifies⟩⟩ :=
    PacketSender.receive_cases hwait arrival
  · exact absurd (hretry.symm.trans hp) PacketPoint.noConfusion
  · exact (hsound sender d harrival).resolve_left (not_not.2 hverifies)

/-- A packet is accepted only once, as a packet of the number 1 is never sent. -/
theorem accepts (h : Sound s) {arrival : Received} {sender : Endpoint} {d : Bytes}
    (hpackets : ∀ sender d, arrival = some (sender, d) →
      Damaged PACKET_BUFFER_SIZE d ∨ ∃ payload, d = sendSegment 0 payload 1)
    (harrival : arrival = some (sender, d)) (hverifies : Verifies (readInto PACKET_BUFFER_SIZE d))
    (hseq : (deserializeHeader (readInto PACKET_BUFFER_SIZE d)).seqNum = s.receiver.expectedSeq) :
    s.delivered = [] ∧ s.receiver.expectedSeq = 0 ∧ s.receiver.lastAckSent = UINT32_MAX := by
  refine h.receiver.resolve_right ?_
  rintro ⟨_, _, hexpected⟩
  obtain ⟨payload, rfl⟩ := (hpackets sender d harrival).resolve_left (not_not.2 hverifies)
  rw [seqNum_sendSegment, hexpected] at hseq
  exact absurd hseq (by decide)

/-- What a call of `receivePacket` delivers, if anything, is the first to be delivered. -/
theorem delivered_receiverReads (h : Sound s) {arrival : Received}
    (hpackets : ∀ sender d, arrival = some (sender, d) →
      Damaged PACKET_BUFFER_SIZE d ∨ ∃ payload, d = sendSegment 0 payload 1) :
    (s.receiverReads l arrival).delivered = s.delivered ∨
      s.delivered = [] ∧ ∃ sender d, arrival = some (sender, d) ∧
        Verifies (readInto PACKET_BUFFER_SIZE d) ∧ (s.receiverReads l arrival).delivered =
          [(readInto PACKET_BUFFER_SIZE d).drop CUSTOM_UDP_HEADER_SIZE] := by
  rcases s.receiver.receivePacket_cases arrival with
    ⟨sent, hreceive, _⟩ | ⟨sender, d, harrival, hverifies, hseq, hreceive⟩
  · left
    simp only [PacketExchange.receiverReads, hreceive, Option.toList_none, List.append_nil]
  · obtain ⟨hnone, _⟩ := h.accepts hpackets harrival hverifies hseq
    refine .inr ⟨hnone, sender, d, harrival, hverifies, ?_⟩
    simp only [PacketExchange.receiverReads, hreceive, hnone, Option.toList_some, List.nil_append]

theorem receiverReads (h : Sound s) {arrival : Received}
    (hpackets : ∀ sender d, arrival = some (sender, d) →
      Damaged PACKET_BUFFER_SIZE d ∨ ∃ payload, d = sendSegment 0 payload 1) :
    Sound (s.receiverReads l arrival) := by
  rcases s.receiver.receivePacket_cases arrival with
    ⟨sent, hreceive, hack⟩ | ⟨sender, d, harrival, hverifies, hseq, hreceive⟩
  · simp only [PacketExchange.receiverReads, hreceive, Option.toList_none, List.append_nil]
    refine ⟨h.receiver, h.toReceiver, fun d hd => ?_, h.returned⟩
    rcases List.mem_append.1 hd with hd | hd
    · exact h.toSender d hd
    · -- Nothing is acknowledged before a packet has been accepted.
      obtain ⟨p, hp, _⟩ := List.mem_map.1 hd
      have hlast := hack p (List.mem_of_mem_filter hp)
      rcases h.receiver with ⟨_, _, hnone⟩ | ⟨payload, hdelivered, _⟩
      · exact absurd hnone hlast
      · rw [hdelivered]
        exact .inr (List.cons_ne_nil _ _)
  · -- From now on the number 1 is expected.
    obtain ⟨hnone, hexpected, _⟩ := h.accepts hpackets harrival hverifies hseq
    simp only [PacketExchange.receiverReads, hreceive, hnone, Option.toList_some, List.nil_append]
    refine ⟨.inr ⟨_, rfl, by rw [hexpected]; rfl⟩, h.toReceiver, fun d hd => ?_, fun _ => ?_⟩
    · exact .inr (List.cons_ne_nil _ _)
    · exact List.cons_ne_nil _ _

theorem step (h : Sound s) {e : PacketEvent} (hs : s.step l e = some s') : Sound s' := by
  have hall : ∀ {q : List Bytes} {P : Bytes → Prop}, ∀ d ∈ q, d ∈ q ∨ P d := fun d hd => .inl hd
  cases e with
  | sends payload =>
    obtain ⟨_, hs⟩ := Option.ite_none_right_eq_some.1 hs
    obtain rfl := Option.some.inj hs
    exact h.sends payload
  | senderAdvances sendOk => exact h.senderAdvances sendOk hs
  | senderTimesOut =>
    obtain ⟨hwaits, hs⟩ := Option.ite_none_right_eq_some.1 hs
    obtain rfl := Option.some.inj hs
    exact h.senderReads hwaits fun _ _ harrival => by cases harrival
  | senderReceives =>
    obtain ⟨d, rest, hqueue, hwaits, rfl⟩ := step_senderReceives hs
    have hrest : Sound { s with toSender := rest } :=
      h.of_queues hall fun d' hd' => .inl (hqueue ▸ List.mem_cons_of_mem _ hd')
    refine hrest.senderReads hwaits fun sender d' harrival => ?_
    cases harrival
    exact h.toSender d (hqueue ▸ List.mem_cons_self)
  | receiverTimesOut =>
    obtain rfl := Option.some.inj hs
    exact h.receiverReads fun _ _ harrival => by cases harrival
  | receiverReceives =>
    obtain ⟨d, rest, hqueue, rfl⟩ := step_receiverReceives hs
    refine (h.of_rest hqueue).receiverReads fun sender d' harrival => ?_
    cases harrival
    exact h.toReceiver d (hqueue ▸ List.mem_cons_self)
  | faultToReceiver f =>
    obtain ⟨queue, hqueue, rfl⟩ := Option.map_eq_some_iff.1 hs
    exact h.of_queues (fun d hd => Fault.mem_of_apply hqueue hd) hall
  | faultToSender f =>
    obtain ⟨queue, hqueue, rfl⟩ := Option.map_eq_some_iff.1 hs
    exact h.of_queues hall fun d hd => Fault.mem_of_apply hqueue hd

end Sound

theorem sound (h : l.machine.Reachable s) : Sound s := by
  refine h.invariant ?_ fun s e s' hsound hs => hsound.step hs
  rintro s rfl
  exact ⟨.inl ⟨rfl, rfl, rfl⟩, fun d hd => absurd hd List.not_mem_nil,
    fun d hd => absurd hd List.not_mem_nil, PacketPoint.noConfusion⟩

/-! ## In step -/

/-- The receiver has accepted nothing, or the packet of the call; and nothing has been
    acknowledged before the call. -/
structure InStep (s : PacketExchange) : Prop where
  delivered : s.delivered = [] ∨ s.delivered = [s.sender.payload]
  acknowledged : s.acknowledged = if s.sender.point = .returned true then [s.sender.payload] else []

/-- A call begins when nothing has been accepted, unless it is this payload, without an
    acknowledgement; and the packet that is accepted is that of the call, read whole. -/
def InTurn (s : PacketExchange) : PacketEvent → Prop
  | .sends payload => s.delivered = [] ∨ s.delivered = [payload] ∧ s.acknowledged = []
  | .receiverReceives => s.delivered = [] → ∀ d ∈ s.toReceiver.head?,
      Verifies (readInto PACKET_BUFFER_SIZE d) →
        readInto PACKET_BUFFER_SIZE d = sendSegment 0 s.sender.payload 1
  | .senderAdvances _ | .senderTimesOut | .senderReceives | .receiverTimesOut
  | .faultToReceiver _ | .faultToSender _ => True

instance (s : PacketExchange) : DecidablePred (InTurn s)
  | .sends _ => inferInstanceAs (Decidable (_ ∨ _))
  | .receiverReceives => inferInstanceAs (Decidable (_ → _))
  | .senderAdvances _ | .senderTimesOut | .senderReceives | .receiverTimesOut
  | .faultToReceiver _ | .faultToSender _ => inferInstanceAs (Decidable True)

/-- What the sender reads ends the call with success, or leaves what has been
    acknowledged alone. -/
theorem senderReads_cases (hwaits : s.sender.point.waits = true) (arrival : Received) :
    ((s.senderReads arrival).sender.point ≠ .returned true ∧
      (s.senderReads arrival).acknowledged = s.acknowledged ∨
    (s.senderReads arrival).sender.point = .returned true ∧
      (s.senderReads arrival).acknowledged = s.acknowledged ++ [s.sender.payload]) ∧
    (s.senderReads arrival).sender.payload = s.sender.payload := by
  obtain ⟨attempt, hwait⟩ := PacketPoint.exists_of_waits hwaits
  obtain ⟨hpayload, hretry | ⟨hreturned, _⟩⟩ := PacketSender.receive_cases hwait arrival
  · refine ⟨.inl ⟨?_, ?_⟩, hpayload⟩
    · rw [senderReads, hretry]
      exact PacketPoint.noConfusion
    · simp only [senderReads, hretry, reduceCtorEq, if_false]
  · refine ⟨.inr ⟨hreturned, ?_⟩, hpayload⟩
    rw [senderReads, ← hpayload]
    exact if_pos hreturned

namespace InStep

theorem acknowledged_of_ne (h : InStep s) (hp : s.sender.point ≠ .returned true) :
    s.acknowledged = [] := by
  rw [h.acknowledged, if_neg hp]

theorem sends (h : InStep s) (hsound : Sound s) {payload : Bytes}
    (hturn : InTurn s (.sends payload)) :
    InStep { s with sender := s.sender.sendPacket payload } := by
  rcases hturn with hnone | ⟨hsame, hack⟩
  · exact ⟨.inl hnone, h.acknowledged_of_ne fun hp => hsound.returned hp hnone⟩
  · exact ⟨.inr hsame, hack⟩

theorem senderReads (h : InStep s) (hwaits : s.sender.point.waits = true) (arrival : Received) :
    InStep (s.senderReads arrival) := by
  obtain ⟨attempt, hwait⟩ := PacketPoint.exists_of_waits hwaits
  have hack := h.acknowledged_of_ne (by rw [hwait]; exact PacketPoint.noConfusion)
  obtain ⟨hcases, hpayload⟩ := senderReads_cases hwaits arrival
  refine ⟨?_, ?_⟩
  · rw [hpayload]
    exact h.delivered
  · rcases hcases with ⟨hpoint, hacknowledged⟩ | ⟨hpoint, hacknowledged⟩
    · rw [hacknowledged, if_neg hpoint, hack]
    · rw [hacknowledged, if_pos hpoint, hack, hpayload, List.nil_append]

/-- The packet that is accepted is that of the call. -/
theorem receiverReads (h : InStep s) (hsound : Sound s) {arrival : Received}
    (hpackets : ∀ sender d, arrival = some (sender, d) →
      Damaged PACKET_BUFFER_SIZE d ∨ ∃ payload, d = sendSegment 0 payload 1)
    (hturn : s.delivered = [] → ∀ sender d, arrival = some (sender, d) →
      Verifies (readInto PACKET_BUFFER_SIZE d) →
        readInto PACKET_BUFFER_SIZE d = sendSegment 0 s.sender.payload 1) :
    InStep (s.receiverReads l arrival) := by
  refine ⟨?_, h.acknowledged⟩
  rcases hsound.delivered_receiverReads (l := l) hpackets with
    hsame | ⟨hnone, sender, d, harrival, hverifies, hdelivered⟩
  · rw [hsame]
    exact h.delivered
  · right
    rw [hdelivered, hturn hnone sender d harrival hverifies, sendSegment, drop_packet]
    rfl

theorem step (h : InStep s) (hsound : Sound s) {e : PacketEvent} (hturn : InTurn s e)
    (hs : s.step l e = some s') : InStep s' := by
  cases e with
  | sends payload =>
    obtain ⟨_, hs⟩ := Option.ite_none_right_eq_some.1 hs
    obtain rfl := Option.some.inj hs
    exact h.sends hsound hturn
  | senderAdvances sendOk =>
    obtain rfl := Option.some.inj hs
    obtain ⟨hpayload, hpoint, _⟩ := s.sender.advance_sound l.maxRetries sendOk
    refine ⟨?_, ?_⟩
    · rw [hpayload]
      exact h.delivered
    · rw [hpayload, h.acknowledged]
      exact if_congr hpoint.symm rfl rfl
  | senderTimesOut =>
    obtain ⟨hwaits, hs⟩ := Option.ite_none_right_eq_some.1 hs
    obtain rfl := Option.some.inj hs
    exact h.senderReads hwaits none
  | senderReceives =>
    obtain ⟨d, rest, _, hwaits, rfl⟩ := step_senderReceives hs
    have hrest : InStep { s with toSender := rest } := ⟨h.delivered, h.acknowledged⟩
    exact hrest.senderReads hwaits _
  | receiverTimesOut =>
    obtain rfl := Option.some.inj hs
    exact h.receiverReads hsound (fun _ _ harrival => by cases harrival)
      fun _ _ _ harrival => by cases harrival
  | receiverReceives =>
    obtain ⟨d, rest, hqueue, rfl⟩ := step_receiverReceives hs
    have hrest : InStep { s with toReceiver := rest } := ⟨h.delivered, h.acknowledged⟩
    refine hrest.receiverReads (hsound.of_rest hqueue) ?_ ?_
    · intro sender d' harrival
      cases harrival
      exact hsound.toReceiver d (hqueue ▸ List.mem_cons_self)
    · intro hnone sender d' harrival hverifies
      cases harrival
      exact hturn hnone d (by rw [hqueue]; rfl) hverifies
  | faultToReceiver f =>
    obtain ⟨queue, _, rfl⟩ := Option.map_eq_some_iff.1 hs
    exact ⟨h.delivered, h.acknowledged⟩
  | faultToSender f =>
    obtain ⟨queue, _, rfl⟩ := Option.map_eq_some_iff.1 hs
    exact ⟨h.delivered, h.acknowledged⟩

end InStep

theorem inStep_of_inTurn (h : l.machine.ReachableBy InTurn s) : InStep s ∧ Sound s := by
  refine h.invariant (I := fun s => InStep s ∧ Sound s) ?_ ?_
  · rintro s rfl
    exact ⟨⟨.inl rfl, rfl⟩, sound ⟨_, rfl, .refl⟩⟩
  · rintro s e s' ⟨hstep, hsound⟩ hturn hs
    exact ⟨hstep.step hsound hturn hs, hsound.step hs⟩

/-- A call returns true on what it reads. -/
theorem exists_senderReads {e : PacketEvent} (hs : s.step l e = some s')
    (hp : s.sender.point ≠ .returned true) (hp' : s'.sender.point = .returned true) :
    s.sender.point.waits = true ∧
      ∃ toSender arrival, s' = { s with toSender }.senderReads arrival := by
  cases e with
  | sends payload =>
    obtain ⟨_, hs⟩ := Option.ite_none_right_eq_some.1 hs
    obtain rfl := Option.some.inj hs
    cases hp'
  | senderAdvances sendOk =>
    obtain rfl := Option.some.inj hs
    exact absurd ((s.sender.advance_sound l.maxRetries sendOk).2.1.1 hp') hp
  | senderTimesOut =>
    obtain ⟨hwaits, hs⟩ := Option.ite_none_right_eq_some.1 hs
    exact ⟨hwaits, s.toSender, none, (Option.some.inj hs).symm⟩
  | senderReceives =>
    obtain ⟨d, rest, _, hwaits, hs⟩ := step_senderReceives hs
    exact ⟨hwaits, rest, _, hs⟩
  | receiverTimesOut =>
    obtain rfl := Option.some.inj hs
    exact absurd hp' hp
  | receiverReceives =>
    obtain ⟨_, _, _, rfl⟩ := step_receiverReceives hs
    exact absurd hp' hp
  | faultToReceiver f | faultToSender f =>
    obtain ⟨_, _, rfl⟩ := Option.map_eq_some_iff.1 hs
    exact absurd hp' hp

/-- When a call returns true, its payload has been delivered if and only if the receiver
    has accepted it, and no call before has returned true. -/
theorem Sound.delivered_eq_iff (h : Sound s) {e : PacketEvent} (hs : s.step l e = some s')
    (hp : s.sender.point ≠ .returned true) (hp' : s'.sender.point = .returned true) :
    s'.delivered = s'.acknowledged ↔
      s.acknowledged = [] ∧ s.delivered = [s.sender.payload] := by
  obtain ⟨hwaits, toSender, arrival, rfl⟩ := exists_senderReads hs hp hp'
  have hack : ({ s with toSender }.senderReads arrival).acknowledged =
      s.acknowledged ++ [s.sender.payload] := by
    rcases (@senderReads_cases { s with toSender } hwaits arrival).1 with ⟨hne, _⟩ | ⟨_, hack⟩
    · exact absurd hp' hne
    · exact hack
  rw [hack]
  show s.delivered = _ ↔ _
  constructor
  · intro heq
    have hlength := congrArg List.length heq
    rw [List.length_append, List.length_singleton] at hlength
    -- One packet has been delivered, so this is the only payload acknowledged.
    have hone : s.delivered.length ≤ 1 := by
      rcases h.receiver with ⟨hdelivered, _⟩ | ⟨_, hdelivered, _⟩
      · simp [hdelivered]
      · simp [hdelivered]
    have hnone := List.eq_nil_of_length_eq_zero (show s.acknowledged.length = 0 by omega)
    exact ⟨hnone, by rw [heq, hnone, List.nil_append]⟩
  · rintro ⟨hnone, hdelivered⟩
    rw [hnone, hdelivered, List.nil_append]

end PacketExchange

/-- In a run in which calls only begin before the receiver has accepted a packet, and the
    packet it accepts is that of the call, a call that returns true has delivered its
    payload. In any run, one that is not the first, or whose packet is not the one that
    was accepted, has not. -/
theorem delivered_once (l : PacketLink) :
    (∀ s, l.machine.ReachableBy PacketExchange.InTurn s → s.sender.point = .returned true →
      s.delivered = s.acknowledged ∧ s.acknowledged = [s.sender.payload]) ∧
    ∀ s e s', l.machine.Reachable s → l.machine.step e s = some s' →
      s.sender.point ≠ .returned true → s'.sender.point = .returned true →
        (s'.delivered = s'.acknowledged ↔
          s.acknowledged = [] ∧ s.delivered = [s.sender.payload]) := by
  refine ⟨fun s h hp => ?_, fun s e s' h hs hp hp' => ?_⟩
  · obtain ⟨hstep, hsound⟩ := PacketExchange.inStep_of_inTurn h
    have hack : s.acknowledged = [s.sender.payload] := by
      rw [hstep.acknowledged, if_pos hp]
    exact ⟨(hstep.delivered.resolve_left (hsound.returned hp)).trans hack.symm, hack⟩
  · exact (PacketExchange.sound h).delivered_eq_iff hs hp hp'

/-- Two packets, sent one after the other. -/
def twoPackets : PacketLink where
  maxRetries := 2
  dest := { ip := "127.0.0.1", port := 5000 }
  socket := { ip := "127.0.0.1", port := 5001 }
  advWindow := 8

theorem twoPackets_init : ∀ s ∈ some ({ receiver := { advWindow := 8 } } : PacketExchange),
    s ∈ twoPackets.machine.init := by
  intro s hs
  cases hs
  rfl

theorem delivered_once_first :
    ∃ s, twoPackets.machine.ReachableBy PacketExchange.InTurn s ∧ s.acknowledged = [[1]] ∧
      s.delivered = s.acknowledged := by
  obtain ⟨s, hs, hP⟩ := twoPackets.machine.exists_reachableBy_of_run PacketExchange.InTurn twoPackets_init
    [.sends [1], .senderAdvances true, .receiverReceives, .senderReceives]
    (fun s => s.sender.point = .returned true ∧ s.acknowledged = [[1]]) (by decide +kernel)
  obtain ⟨hp, hack⟩ := of_decide_eq_true hP
  exact ⟨s, hs, hack, ((delivered_once twoPackets).1 s hs hp).1⟩

/-- The second packet is taken for a duplicate of the first one, and acknowledged. -/
theorem not_delivered_once :
    ¬∀ (l : PacketLink) (s : PacketExchange), l.machine.Reachable s →
      s.sender.point = .returned true → s.delivered = s.acknowledged := by
  intro h
  obtain ⟨s, hs, hP⟩ := twoPackets.machine.exists_reachableBy_of_run (fun _ _ => True)
    twoPackets_init
    [.sends [1], .senderAdvances true, .receiverReceives, .senderReceives,
      .sends [2], .senderAdvances true, .receiverReceives, .senderReceives]
    (fun s => s.sender.point = .returned true ∧ s.delivered = [[1]] ∧
      s.acknowledged = [[1], [2]]) (by decide +kernel)
  obtain ⟨hp, hdelivered, hack⟩ := of_decide_eq_true hP
  have heq := h twoPackets s hs hp
  rw [hdelivered, hack] at heq
  exact absurd heq (by decide)

end HybridFtp
