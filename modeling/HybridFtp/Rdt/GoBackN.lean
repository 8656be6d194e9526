import HybridFtp.Lib.Machine
import HybridFtp.Lib.Network
import HybridFtp.Lib.OrderedStream
import HybridFtp.Rdt.Receiver
import Mathlib.Data.List.GetD

/-!
# Go-Back-N

One `sendData` against one `receiveData`, on fresh sockets, over a network that
may lose, duplicate, hold back, reorder and damage datagrams: a datagram is
damaged if it does not pass the checksum test of the endpoint it goes to.

* `Transfer.machine`: the two calls, the datagrams on their way between them, and
  the events that move them;
* `Joint.Refines`: the joint states that are as far as an ordered stream of the
  segments (`OrderedStream`), and whose datagrams say no more than that;
* `refines_step`: every event keeps up with the stream, so that every reachable
  state does (`exists_refines`);
* `outData_eq_and_base_le`: what it means for the data, the acknowledgements and
  the success of the receiver.
-/

namespace HybridFtp

variable {α : Type} [Double α]

/-- A transfer: the configurations of both sides, and the data. -/
structure Transfer (α : Type) where
  sender : RDTWindowSender α
  /-- The socket of the sender; that of the receiver is at `sender.dest`. -/
  socket : BoundEndpoint
  advertisedWindow : UInt16
  data : Bytes

/-- The states of both calls, and the datagrams on their way to each. -/
structure Joint (α : Type) where
  sender : SenderState α
  receiver : ReceiverState
  toReceiver : List Bytes := []
  toSender : List Bytes := []

/-- A datagram that the checksum test of an endpoint rejects, reading it into a
    buffer of `size` bytes. -/
def Damaged (size : Nat) (datagram : Bytes) : Prop := ¬Verifies (readInto size datagram)

instance (size : Nat) : DecidablePred (Damaged size) := fun _ => inferInstanceAs (Decidable ¬_)

/-- The events of a transfer. A datagram is received in the order in which the
    network has put it. -/
inductive TransferEvent
  | senderAdvances (cancelled sendOk : Bool)
  | senderTimesOut (cancelled : Bool)
  | senderReceives (cancelled : Bool)
  | receiverAdvances (cancelled : Bool)
  | receiverTimesOut (cancelled : Bool)
  | receiverReceives (cancelled : Bool)
  | faultToReceiver (f : Fault Bytes)
  | faultToSender (f : Fault Bytes)
  deriving DecidableEq, Repr

namespace Joint

/-- The sender reads the outcome of `recvFrom`. -/
def senderReads (t : Transfer α) (cancelled : Bool) (arrival : Received) (s : Joint α) : Joint α :=
  { s with sender := s.sender.receive t.sender cancelled arrival }

/-- The receiver reads the outcome of `recvFrom`: what it sends to the socket of
    the sender is on its way there. -/
def receiverReads (t : Transfer α) (cancelled : Bool) (arrival : Received) (s : Joint α) :
    Joint α :=
  let (receiver, sent) := s.receiver.receive cancelled arrival
  { s with
    receiver
    toSender := s.toSender ++
      (sent.filter fun p => p.1 = t.socket.toEndpoint).map Prod.snd }

/-- The step an event takes. -/
def step (t : Transfer α) : TransferEvent → Joint α → Option (Joint α)
  | .senderAdvances cancelled sendOk, s =>
    if s.sender.point.runs then
      let (sender, sent) := s.sender.advance t.sender cancelled sendOk
      some { s with sender, toReceiver := s.toReceiver ++ sent }
    else none
  | .senderTimesOut cancelled, s =>
    if s.sender.point.waits then some (s.senderReads t cancelled none) else none
  | .senderReceives cancelled, s =>
    match s.toSender with
    | [] => none
    | d :: rest =>
      if s.sender.point.waits then
        some ({ s with toSender := rest }.senderReads t cancelled (some (t.sender.dest, d)))
      else none
  | .receiverAdvances cancelled, s =>
    if s.receiver.point = .loopHead then
      some { s with receiver := s.receiver.advance cancelled }
    else none
  | .receiverTimesOut cancelled, s =>
    if s.receiver.point = .awaitDatagram then some (s.receiverReads t cancelled none) else none
  | .receiverReceives cancelled, s =>
    match s.toReceiver with
    | [] => none
    | d :: rest =>
      if s.receiver.point = .awaitDatagram then
        some ({ s with toReceiver := rest }.receiverReads t cancelled
          (some (t.socket.toEndpoint, d)))
      else none
  | .faultToReceiver f, s =>
    (f.apply (Damaged DATA_BUFFER_SIZE) s.toReceiver).map fun l => { s with toReceiver := l }
  | .faultToSender f, s =>
    (f.apply (Damaged ACK_BUFFER_SIZE) s.toSender).map fun l => { s with toSender := l }

/-! ## What the steps do -/

section

variable {t : Transfer α} {s s' : Joint α} {cancelled sendOk : Bool}

theorem step_senderAdvances (h : s.step t (.senderAdvances cancelled sendOk) = some s') :
    ∃ sender sent, s.sender.advance t.sender cancelled sendOk = (sender, sent) ∧
      s.sender.point.runs = true ∧ s' = { s with sender, toReceiver := s.toReceiver ++ sent } := by
  simp only [step, Option.ite_none_right_eq_some, Option.some.injEq] at h
  exact ⟨_, _, rfl, h.1, h.2.symm⟩

theorem step_senderTimesOut (h : s.step t (.senderTimesOut cancelled) = some s') :
    s.sender.point.waits = true ∧ s' = s.senderReads t cancelled none := by
  simp only [step, Option.ite_none_right_eq_some, Option.some.injEq] at h
  exact ⟨h.1, h.2.symm⟩

theorem step_senderReceives (h : s.step t (.senderReceives cancelled) = some s') :
    ∃ d rest, s.toSender = d :: rest ∧ s.sender.point.waits = true ∧
      s' = { s with toSender := rest }.senderReads t cancelled (some (t.sender.dest, d)) := by
  rw [step] at h
  split at h
  · cases h
  · rename_i d rest hd
    simp only [Option.ite_none_right_eq_some, Option.some.injEq] at h
    exact ⟨d, rest, hd, h.1, h.2.symm⟩

theorem step_receiverAdvances (h : s.step t (.receiverAdvances cancelled) = some s') :
    s.receiver.point = .loopHead ∧ s' = { s with receiver := s.receiver.advance cancelled } := by
  simp only [step, Option.ite_none_right_eq_some, Option.some.injEq] at h
  exact ⟨h.1, h.2.symm⟩

theorem step_receiverTimesOut (h : s.step t (.receiverTimesOut cancelled) = some s') :
    s.receiver.point = .awaitDatagram ∧ s' = s.receiverReads t cancelled none := by
  simp only [step, Option.ite_none_right_eq_some, Option.some.injEq] at h
  exact ⟨h.1, h.2.symm⟩

theorem step_receiverReceives (h : s.step t (.receiverReceives cancelled) = some s') :
    ∃ d rest, s.toReceiver = d :: rest ∧ s.receiver.point = .awaitDatagram ∧
      s' = { s with toReceiver := rest }.receiverReads t cancelled
        (some (t.socket.toEndpoint, d)) := by
  rw [step] at h
  split at h
  · cases h
  · rename_i d rest hd
    simp only [Option.ite_none_right_eq_some, Option.some.injEq] at h
    exact ⟨d, rest, hd, h.1, h.2.symm⟩

theorem step_faultToReceiver {f : Fault Bytes} (h : s.step t (.faultToReceiver f) = some s') :
    ∃ l, f.apply (Damaged DATA_BUFFER_SIZE) s.toReceiver = some l ∧
      s' = { s with toReceiver := l } := by
  simp only [step, Option.map_eq_some_iff] at h
  exact h.imp fun _ => .imp_right Eq.symm

theorem step_faultToSender {f : Fault Bytes} (h : s.step t (.faultToSender f) = some s') :
    ∃ l, f.apply (Damaged ACK_BUFFER_SIZE) s.toSender = some l ∧ s' = { s with toSender := l } := by
  simp only [step, Option.map_eq_some_iff] at h
  exact h.imp fun _ => .imp_right Eq.symm

/-- The next datagram for the sender can be read. -/
theorem exists_step_senderReceives {d : Bytes} {rest : List Bytes} (hd : s.toSender = d :: rest)
    (hp : s.sender.point.waits = true) : ∃ s', s.step t (.senderReceives cancelled) = some s' := by
  rw [step, hd]
  exact ⟨_, if_pos hp⟩

/-- The next datagram for the receiver can be read. -/
theorem exists_step_receiverReceives {d : Bytes} {rest : List Bytes}
    (hd : s.toReceiver = d :: rest) (hp : s.receiver.point = .awaitDatagram) :
    ∃ s', s.step t (.receiverReceives cancelled) = some s' := by
  rw [step, hd]
  exact ⟨_, if_pos hp⟩

end

end Joint

namespace Transfer

variable (t : Transfer α)

/-- The state of the receiver at the start. -/
def receiverInit : ReceiverState := { advertisedWindow := t.advertisedWindow }

/-- The joint state at the start, if the segmentation ends. -/
def start : Option (Joint α) :=
  (SenderState.init t.sender t.data).map fun sender => { sender, receiver := t.receiverInit }

theorem start_sender_point {t : Transfer α} {s : Joint α} (hs : t.start = some s) :
    s.sender.point = .loopHead := by
  simp only [start, SenderState.init, Option.map_map, Option.map_eq_some_iff] at hs
  obtain ⟨segs, _, rfl⟩ := hs
  rfl

/-- The machine of a transfer. -/
def machine : Machine (Joint α) TransferEvent where
  init := {s | s ∈ t.start}
  step := Joint.step t

end Transfer

/-! ## Refinement of an ordered stream -/

/-- The number of segments, as it is counted in 32 bits. -/
def numSegments (segs : List Bytes) : UInt32 := UInt32.ofNat segs.length

/-- The datagrams that may be on their way to the receiver. -/
inductive ToReceiver (segs : List Bytes) (p : OrderedStream (numSegments segs).toNat) :
    Bytes → Prop
  | damaged {d : Bytes} : Damaged DATA_BUFFER_SIZE d → ToReceiver segs p d
  | data (n : UInt32) (w : UInt16) : n < numSegments segs →
      ToReceiver segs p (sendSegment n (segs.getD n.toNat []) w)
  | fin (w : UInt16) : p.delivered = (numSegments segs).toNat →
      ToReceiver segs p (sendFIN (numSegments segs) w)

/-- The datagrams that may be on their way to the sender. -/
inductive ToSender {n : Nat} (p : OrderedStream n) : Bytes → Prop
  | damaged {d : Bytes} : Damaged ACK_BUFFER_SIZE d → ToSender p d
  | ack (k : UInt32) (w : UInt16) : k = UINT32_MAX ∨ k.toNat < p.delivered →
      ToSender p (packet (ackHeader k w) [])
  | finAck (k : UInt32) (w : UInt16) : p.finished → ToSender p (packet (finAckHeader k w) [])

/-- The sender has seen the segments acknowledged that the stream has. -/
structure SenderState.Refines (segs : List Bytes) (p : OrderedStream (numSegments segs).toNat)
    (s : SenderState α) : Prop where
  segs_eq : s.segs = segs
  base : s.base.toNat = p.acknowledged
  inFinPhase : s.inFinPhase → p.acknowledged = (numSegments segs).toNat

/-- The receiver has appended the segments the stream has delivered. -/
structure ReceiverState.Refines (segs : List Bytes) (p : OrderedStream (numSegments segs).toNat)
    (r : ReceiverState) : Prop where
  expectedSeq : r.expectedSeq.toNat = p.delivered
  outData : r.outData = (segs.take p.delivered).flatten
  finished : p.finished ↔ r.point = .returned true

/-- A joint state as far as the ordered stream. -/
structure Joint.Refines (segs : List Bytes) (p : OrderedStream (numSegments segs).toNat)
    (s : Joint α) : Prop where
  sender : s.sender.Refines segs p
  receiver : s.receiver.Refines segs p
  toReceiver : ∀ d ∈ s.toReceiver, ToReceiver segs p d
  toSender : ∀ d ∈ s.toSender, ToSender p d

section

variable {segs : List Bytes} {p p' : OrderedStream (numSegments segs).toNat}

theorem ToReceiver.mono (hle : p.delivered ≤ p'.delivered) {d : Bytes}
    (h : ToReceiver segs p d) : ToReceiver segs p' d := by
  cases h with
  | damaged h => exact .damaged h
  | data n w h => exact .data n w h
  | fin w h => exact .fin w (p'.delivered_le.antisymm (h.symm.trans_le hle))

theorem ToSender.mono {n : Nat} {p p' : OrderedStream n} (hle : p.delivered ≤ p'.delivered)
    (hfin : p.finished → p'.finished) {d : Bytes} (h : ToSender p d) : ToSender p' d := by
  cases h with
  | damaged h => exact .damaged h
  | ack k w h => exact .ack k w (h.imp_right fun h => h.trans_le hle)
  | finAck k w h => exact .finAck k w (hfin h)

omit [Double α] in
theorem SenderState.Refines.N_eq {s : SenderState α} (h : s.Refines segs p) :
    s.N = numSegments segs := by
  rw [SenderState.N, h.segs_eq, numSegments]

omit [Double α] in
/-- A sender that keeps what matters is as far as before. -/
theorem SenderState.Refines.of_keeps {s s' : SenderState α} (h : s.Refines segs p)
    (hk : s.Keeps s') : s'.Refines segs p where
  segs_eq := hk.segs.trans h.segs_eq
  base := by rw [hk.base, h.base]
  inFinPhase hf := h.inFinPhase (hk.inFinPhase hf)

/-- Up to the next `recvFrom`, the sender only sends its segments, and a FIN once
    they are all acknowledged. -/
theorem SenderState.Refines.advance {s s' : SenderState α} (h : s.Refines segs p)
    {cfg : RDTWindowSender α} {cancelled sendOk : Bool} {sent : List Bytes}
    (ha : s.advance cfg cancelled sendOk = (s', sent)) :
    s'.Refines segs p ∧ ∀ d ∈ sent, ToReceiver segs p d := by
  rcases SenderState.advance_cases ha with ⟨rfl, hk⟩ | ⟨rfl, hbase, rfl⟩ | ⟨wnd, hp, hn, rfl, rfl⟩ |
    ⟨attempt, wnd, hp, rfl, rfl⟩
  · exact ⟨h.of_keeps hk, by simp⟩
  · -- Entering the FIN phase: `base` has reached the number of segments.
    refine ⟨⟨h.segs_eq, h.base, fun _ => ?_⟩, by simp⟩
    rw [h.N_eq, UInt32.lt_iff_toNat_lt, h.base] at hbase
    have := p.acknowledged_le
    have := p.delivered_le
    omega
  · refine ⟨⟨h.segs_eq, h.base, fun hf => ?_⟩, ?_⟩
    · simp [SenderState.inFinPhase, hp] at hf
    · rw [List.forall_mem_singleton, h.segs_eq]
      exact .data _ _ (h.N_eq ▸ hn)
  · have hfin := h.inFinPhase (by simp [SenderState.inFinPhase, hp])
    refine ⟨⟨h.segs_eq, h.base, fun _ => hfin⟩, ?_⟩
    rw [List.forall_mem_singleton, h.N_eq]
    have := p.acknowledged_le
    have := p.delivered_le
    exact .fin _ (by omega)

/-- An undamaged ACK that the main loop would accept carries the number of a
    segment that has been delivered. -/
theorem ToSender.ackNum_lt {d : Bytes} (h : ToSender p d)
    (hv : Verifies (readInto ACK_BUFFER_SIZE d))
    (hN : (deserializeHeader (readInto ACK_BUFFER_SIZE d)).ackNum < numSegments segs) :
    (deserializeHeader (readInto ACK_BUFFER_SIZE d)).ackNum.toNat < p.delivered := by
  cases h with
  | damaged h => exact absurd hv h
  | ack k w h =>
    rw [readInto_ack, deserializeHeader_packet] at hN ⊢
    refine h.resolve_left fun hk => ?_
    have : k < numSegments segs := hN
    rw [hk, UInt32.lt_iff_toNat_lt] at this
    exact absurd this (not_lt.2 (Nat.le_of_lt_succ (numSegments segs).toNat_lt))
  | finAck k w h =>
    rw [p.delivered_eq h]
    exact UInt32.lt_iff_toNat_lt.1 hN

/-- What the sender makes of the outcome of `recvFrom`: it is as far as the
    stream after acknowledging what the receiver has accepted. If it succeeds, a
    datagram with the flags of a FINACK was there to read. -/
theorem SenderState.Refines.receive {s : SenderState α} (h : s.Refines segs p)
    (cfg : RDTWindowSender α) (cancelled : Bool) {arrival : Received}
    (harr : ∀ e d, arrival = some (e, d) → ToSender p d) :
    ∃ (k : Nat) (hk : k ≤ p.delivered),
      (s.receive cfg cancelled arrival).Refines segs (p.acknowledge k hk) := by
  rcases SenderState.receive_cases cfg cancelled arrival s with hkeeps |
    ⟨recvBuf, ackNum, hp, hr, hv, hack, hnum, hb, hn, hN, hs', hb', hp'⟩ |
    ⟨attempt, sender, ackBuf, hp, hr, hlen, hf, ha, hs'⟩
  · exact ⟨p.acknowledged, p.acknowledged_le, h.of_keeps hkeeps⟩
  · obtain ⟨⟨_, d⟩, rfl, hd⟩ := Option.map_eq_some_iff.1 hr
    cases hd
    rw [h.N_eq] at hN
    have hlt := (harr _ d rfl).ackNum_lt hv (hnum ▸ hN)
    rw [hnum] at hlt
    refine ⟨ackNum.toNat + 1, hlt, hs'.trans h.segs_eq, ?_, fun hf => ?_⟩
    · -- The number is below that of the segments, so that adding `1` does not wrap.
      have := (numSegments segs).toNat_lt
      have := UInt32.lt_iff_toNat_lt.1 hN
      rw [hb', UInt32.toNat_add]
      exact Nat.mod_eq_of_lt (by simp; omega)
    · simp [SenderState.inFinPhase, hp'] at hf
  · refine ⟨p.acknowledged, p.acknowledged_le, ?_⟩
    rw [hs']
    exact ⟨h.segs_eq, h.base, fun _ => h.inFinPhase (by simp [SenderState.inFinPhase, hp])⟩

theorem ReceiverState.Refines.cumulativeAck {r : ReceiverState} (h : r.Refines segs p) :
    r.cumulativeAck = UINT32_MAX ∨ r.cumulativeAck.toNat < p.delivered := by
  rw [ReceiverState.cumulativeAck]
  split_ifs with h0
  · exact .inl rfl
  · right
    have hpos : r.expectedSeq.toNat ≠ 0 := fun he => h0 (UInt32.toNat_inj.1 he)
    rw [← h.expectedSeq, UInt32.toNat_sub_of_le]
    · exact Nat.sub_lt (Nat.pos_of_ne_zero hpos) Nat.one_pos
    · exact UInt32.le_iff_toNat_le.2 (Nat.pos_of_ne_zero hpos)

theorem ReceiverState.Refines.toSender_ack {r : ReceiverState} (h : r.Refines segs p) :
    ∀ q ∈ r.sendCumulativeAck, ToSender p q.2 := by
  intro q hq
  rw [sendCumulativeAck] at hq
  split_ifs at hq with hk
  · rw [List.mem_singleton.1 hq]
    exact .ack _ _ h.cumulativeAck
  · simp at hq

/-- A receiver that accepts nothing is as far as before, and its ACK says so. -/
theorem ReceiverState.Refines.of_keeps {r r' : ReceiverState} {sent : List (Endpoint × Bytes)}
    (h : r.Refines segs p) (hk : r.Keeps r' sent) :
    r'.Refines segs p ∧ ∀ q ∈ sent, ToSender p q.2 := by
  have h' : r'.Refines segs p :=
    ⟨by rw [hk.expectedSeq, h.expectedSeq], by rw [hk.outData, h.outData],
      h.finished.trans hk.returned.symm⟩
  refine ⟨h', ?_⟩
  rcases hk.sent with rfl | rfl
  · simp
  · exact h'.toSender_ack

theorem take_succ_flatten (segs : List Bytes) (k : Nat) :
    (segs.take (k + 1)).flatten = (segs.take k).flatten ++ segs.getD k [] := by
  rw [List.take_add_one, List.flatten_append]
  cases h : segs[k]? <;> simp [List.getD_eq_getElem?_getD, h]

/-- A datagram is read whole, or it does not pass the checksum test cut short. -/
def ReadWhole (d : Bytes) : Prop := d.length ≤ DATA_BUFFER_SIZE ∨ Damaged DATA_BUFFER_SIZE d

instance : DecidablePred ReadWhole := fun _ => inferInstanceAs (Decidable (_ ∨ _))

/-- What the receiver makes of the outcome of `recvFrom`: it is as far as the
    stream after delivering the segment that comes next, or finishing, and
    answers accordingly. -/
theorem ReceiverState.Refines.receive {r r' : ReceiverState} {sent : List (Endpoint × Bytes)}
    (h : r.Refines segs p) {cancelled : Bool} {arrival : Received}
    (harr : ∀ e d, arrival = some (e, d) → ToReceiver segs p d ∧ ReadWhole d)
    (hr : r.receive cancelled arrival = (r', sent)) :
    ∃ p' : OrderedStream (numSegments segs).toNat, p'.acknowledged = p.acknowledged ∧
      p.delivered ≤ p'.delivered ∧ (p.finished → p'.finished) ∧ r'.Refines segs p' ∧
      ∀ q ∈ sent, ToSender p' q.2 := by
  rcases ReceiverState.receive_cases hr with hk |
    ⟨e, recvBuf, hp, hrecv, hv, hfin, _, hseq, rfl, rfl⟩ | ⟨e, recvBuf, hp, hrecv, hv, hfin, rfl, rfl⟩
  · exact ⟨p, rfl, le_rfl, id, h.of_keeps hk⟩
  all_goals
    -- The datagram verifies, so it has been read whole.
    obtain ⟨⟨_, d⟩, rfl, hd⟩ := Option.map_eq_some_iff.1 hrecv
    cases hd
    obtain ⟨hto, hwhole⟩ := harr _ d rfl
    have hread : readInto DATA_BUFFER_SIZE d = d :=
      List.take_of_length_le (hwhole.resolve_right (not_not.2 hv))
    rw [hread] at hv hfin
  · rw [hread] at hseq ⊢
    cases hto with
    | damaged hd => exact absurd (show Verifies (readInto DATA_BUFFER_SIZE d) by rwa [hread]) hd
    | data n w hn =>
      rw [sendSegment, deserializeHeader_packet] at hseq
      have hn' : p.delivered = n.toNat := by rw [← h.expectedSeq, ← hseq]; rfl
      have hlt : p.delivered < (numSegments segs).toNat := hn' ▸ UInt32.lt_iff_toNat_lt.1 hn
      have h' : ReceiverState.Refines segs (p.deliver hlt) { r with
          sender := e
          point := .loopHead
          outData := r.outData ++
            (sendSegment n (segs.getD n.toNat []) w).drop CUSTOM_UDP_HEADER_SIZE
          expectedSeq := r.expectedSeq + 1 } := by
        refine ⟨?_, ?_, ?_⟩
        · have := (numSegments segs).toNat_lt
          show (r.expectedSeq + 1).toNat = p.delivered + 1
          rw [UInt32.toNat_add, h.expectedSeq]
          exact Nat.mod_eq_of_lt (by simp; omega)
        · rw [sendSegment, drop_packet, h.outData]
          show _ = (segs.take (p.delivered + 1)).flatten
          rw [take_succ_flatten, hn']
        · exact ⟨fun hf => by simpa [hp] using h.finished.1 hf, by simp⟩
      exact ⟨p.deliver hlt, rfl, Nat.le_succ _, id, h', h'.toSender_ack⟩
    | fin w hn =>
      rw [sendFIN, deserializeHeader_packet, hasFlag_stamp] at hfin
      simp at hfin
  · rw [hread]
    cases hto with
    | damaged hd => exact absurd (show Verifies (readInto DATA_BUFFER_SIZE d) by rwa [hread]) hd
    | data n w hn =>
      rw [sendSegment, deserializeHeader_packet, hasFlag_stamp] at hfin
      simp at hfin
    | fin w hn =>
      refine ⟨p.finish hn, rfl, le_rfl, fun _ => trivial,
        ⟨h.expectedSeq, h.outData, by simp [OrderedStream.finish]⟩, ?_⟩
      rw [List.forall_mem_singleton]
      exact .finAck _ _ trivial

/-! ## Every reachable joint state is as far as a stream -/

variable {t : Transfer α} {s s' : Joint α}

/-- The sender reads what is on its way to it. -/
theorem Joint.Refines.senderReads (h : s.Refines segs p) (cancelled : Bool) {arrival : Received}
    (harr : ∀ e d, arrival = some (e, d) → ToSender p d) :
    ∃ p', (p.finished → p'.finished) ∧ (s.senderReads t cancelled arrival).Refines segs p' := by
  obtain ⟨k, hk, hs⟩ := h.sender.receive t.sender cancelled harr
  have hle : p.delivered ≤ (p.acknowledge k hk).delivered := le_rfl
  have hfin : p.finished → (p.acknowledge k hk).finished := id
  exact ⟨p.acknowledge k hk, hfin, hs, ⟨h.receiver.expectedSeq, h.receiver.outData,
    h.receiver.finished⟩, fun d hd => (h.toReceiver d hd).mono hle,
    fun d hd => (h.toSender d hd).mono hle hfin⟩

omit [Double α] in
/-- The receiver reads what is on its way to it. -/
theorem Joint.Refines.receiverReads (h : s.Refines segs p) (cancelled : Bool) {arrival : Received}
    (harr : ∀ e d, arrival = some (e, d) → ToReceiver segs p d ∧ ReadWhole d) :
    ∃ p', (p.finished → p'.finished) ∧ (s.receiverReads t cancelled arrival).Refines segs p' := by
  obtain ⟨p', hack, hle, hfin, hr, hsent⟩ := h.receiver.receive harr rfl
  refine ⟨p', hfin, ⟨h.sender.segs_eq, by rw [hack]; exact h.sender.base,
    by rw [hack]; exact h.sender.inFinPhase⟩, hr, fun d hd => (h.toReceiver d hd).mono hle,
    fun d hd => ?_⟩
  rcases List.mem_append.1 hd with hd | hd
  · exact (h.toSender d hd).mono hle hfin
  · obtain ⟨q, hq, rfl⟩ := List.mem_map.1 hd
    exact hsent q (List.mem_filter.1 hq).1

/-- The receiver reads whole what it is about to read. -/
def ReadsWhole (s : Joint α) : TransferEvent → Prop
  | .receiverReceives _ => ∀ d ∈ s.toReceiver.head?, ReadWhole d
  | _ => True

instance (s : Joint α) : DecidablePred (ReadsWhole s)
  | .receiverReceives _ => inferInstanceAs (Decidable (∀ d ∈ s.toReceiver.head?, ReadWhole d))
  | .senderAdvances .. | .senderTimesOut _ | .senderReceives _ | .receiverAdvances _
  | .receiverTimesOut _ | .faultToReceiver _ | .faultToSender _ => isTrue trivial

/-- Every event keeps up with the stream. -/
theorem refines_step (h : s.Refines segs p) {e : TransferEvent} (hwhole : ReadsWhole s e)
    (hs : s.step t e = some s') :
    ∃ p', (p.finished → p'.finished) ∧ s'.Refines segs p' := by
  cases e with
  | senderAdvances cancelled sendOk =>
    obtain ⟨_, _, ha, _, rfl⟩ := Joint.step_senderAdvances hs
    obtain ⟨hsender, hsent⟩ := h.sender.advance ha
    refine ⟨p, id, hsender, h.receiver, fun d hd => ?_, h.toSender⟩
    exact (List.mem_append.1 hd).elim (h.toReceiver d) (hsent d)
  | senderTimesOut cancelled =>
    obtain ⟨_, rfl⟩ := Joint.step_senderTimesOut hs
    exact h.senderReads cancelled (by simp)
  | senderReceives cancelled =>
    obtain ⟨d, rest, hd, _, rfl⟩ := Joint.step_senderReceives hs
    have h' : Joint.Refines segs p { s with toSender := rest } :=
      ⟨h.sender, h.receiver, h.toReceiver, fun d' hd' => h.toSender d' (by simp [hd, hd'])⟩
    refine h'.senderReads cancelled fun _ d' hd' => ?_
    cases hd'
    exact h.toSender d (by simp [hd])
  | receiverAdvances cancelled =>
    obtain ⟨_, rfl⟩ := Joint.step_receiverAdvances hs
    exact ⟨p, id, h.sender, (h.receiver.of_keeps (ReceiverState.keeps_advance cancelled _)).1,
      h.toReceiver, h.toSender⟩
  | receiverTimesOut cancelled =>
    obtain ⟨_, rfl⟩ := Joint.step_receiverTimesOut hs
    exact h.receiverReads cancelled (by simp)
  | receiverReceives cancelled =>
    obtain ⟨d, rest, hd, _, rfl⟩ := Joint.step_receiverReceives hs
    have h' : Joint.Refines segs p { s with toReceiver := rest } :=
      ⟨h.sender, h.receiver, fun d' hd' => h.toReceiver d' (by simp [hd, hd']), h.toSender⟩
    -- The payload that is appended has to be the whole segment.
    refine h'.receiverReads cancelled fun _ d' hd' => ?_
    cases hd'
    exact ⟨h.toReceiver d (by simp [hd]), hwhole d (by simp [hd])⟩
  | faultToReceiver f =>
    obtain ⟨l, hl, rfl⟩ := Joint.step_faultToReceiver hs
    refine ⟨p, id, h.sender, h.receiver, fun d hd => ?_, h.toSender⟩
    exact (Fault.mem_of_apply hl hd).elim (h.toReceiver d) .damaged
  | faultToSender f =>
    obtain ⟨l, hl, rfl⟩ := Joint.step_faultToSender hs
    refine ⟨p, id, h.sender, h.receiver, h.toReceiver, fun d hd => ?_⟩
    exact (Fault.mem_of_apply hl hd).elim (h.toSender d) .damaged

/-- At the start, both sides are at the start of the stream. -/
theorem refines_init (hsegs : segments t.sender.mss t.data = some segs)
    (hs : s ∈ t.machine.init) : s.Refines segs (.start _) := by
  have hs : t.start = some s := hs
  rw [Transfer.start, SenderState.init, hsegs, Option.map_some, Option.map_some,
    Option.some.injEq] at hs
  subst hs
  refine ⟨⟨rfl, rfl, fun hf => ?_⟩, ⟨rfl, rfl, ?_⟩, by simp, by simp⟩
  · simp [SenderState.inFinPhase] at hf
  · simp [OrderedStream.start, Transfer.receiverInit]

/-- If every segment fits the buffer of the receiver, whatever is on its way there
    is read whole, or damaged. -/
theorem ToReceiver.readWhole (hfit : ∀ seg ∈ segs, seg.length ≤ MAX_PAYLOAD) {d : Bytes}
    (h : ToReceiver segs p d) : ReadWhole d := by
  cases h with
  | damaged h => exact .inr h
  | data n w h =>
    left
    rw [sendSegment, length_packet]
    have hseg : (segs.getD n.toNat []).length ≤ MAX_PAYLOAD := by
      rcases lt_or_ge n.toNat segs.length with hn | hn
      · rw [List.getD_eq_getElem _ _ hn]
        exact hfit _ (List.getElem_mem hn)
      · rw [List.getD_eq_default _ _ hn]
        exact Nat.zero_le _
    simp only [MAX_PAYLOAD, DATA_BUFFER_SIZE] at hseg ⊢
    omega
  | fin w h =>
    left
    rw [sendFIN, length_packet]
    simp [DATA_BUFFER_SIZE, CUSTOM_UDP_HEADER_SIZE]

/-- If the segments fit the buffer of the receiver, every reachable joint state is as far as
    an ordered stream. -/
theorem exists_refines (hfit : ∀ seg ∈ segs, seg.length ≤ MAX_PAYLOAD)
    (hsegs : segments t.sender.mss t.data = some segs) (hs : t.machine.Reachable s) :
    ∃ p, s.Refines segs p := by
  refine Machine.Reachable.invariant (I := fun s => ∃ p, s.Refines segs p) hs
    (fun _ h => ⟨_, refines_init hsegs h⟩) ?_
  rintro s e s' ⟨p, h⟩ hstep
  refine (refines_step h ?_ hstep).imp fun _ => And.right
  cases e <;> try trivial
  exact fun d hd => (h.toReceiver d (List.mem_of_mem_head? hd)).readWhole hfit

end

end HybridFtp
