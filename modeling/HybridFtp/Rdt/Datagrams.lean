import HybridFtp.Rdt.Checksum
import HybridFtp.Rdt.Receiver

/-!
# What is read of a datagram

* `ReadsBack`: a datagram is read with the fields and the payload it was built from
  (`datagrams_readBack`); a knock is not taken for anything;
* `Recut`: a datagram whose end was cut off or lengthened on its way. The receiver
  cannot tell if the number of what is missing, or too much, is a multiple of `65535`
  (`Unnoticed`), and otherwise it accepts whole payloads only
  (`accepted_payload_whole`).
-/

namespace HybridFtp

/-! ## Round trips -/

/-- What is read of a datagram in a buffer of `size` bytes: it passes the checksum
    test, with the fields of a header, and a payload. -/
structure ReadsBack (size : Nat) (datagram : Bytes) (hdr : CustomUDPHeader) (payload : Bytes) :
    Prop where
  verifies : Verifies (readInto size datagram)
  seqNum : (deserializeHeader (readInto size datagram)).seqNum = hdr.seqNum
  ackNum : (deserializeHeader (readInto size datagram)).ackNum = hdr.ackNum
  payloadLen : (deserializeHeader (readInto size datagram)).payloadLen = hdr.payloadLen
  windowSize : (deserializeHeader (readInto size datagram)).windowSize = hdr.windowSize
  flags : (deserializeHeader (readInto size datagram)).flags = hdr.flags
  payload : (readInto size datagram).drop CUSTOM_UDP_HEADER_SIZE = payload

theorem readsBack_packet {size : Nat} (hdr : CustomUDPHeader) {payload : Bytes}
    (hsize : CUSTOM_UDP_HEADER_SIZE + payload.length ≤ size) :
    ReadsBack size (packet hdr payload) hdr payload := by
  have hread : readInto size (packet hdr payload) = packet hdr payload := readInto_packet hsize
  refine ⟨?_, ?_, ?_, ?_, ?_, ?_, ?_⟩ <;> rw [hread]
  · exact verifies_packet hdr payload
  all_goals first
    | exact drop_packet hdr payload
    | rw [deserializeHeader_packet]

/-- The datagram the parties of a transfer introduce themselves with. -/
def knock : Bytes := List.replicate CUSTOM_UDP_HEADER_SIZE 0

theorem recvFrom_knock {size : Nat} (h : CUSTOM_UDP_HEADER_SIZE ≤ size) (sender : Endpoint) :
    recvFrom size (some (sender, knock)) = some (sender, knock) :=
  congrArg (fun datagram => some (sender, datagram))
    (List.take_of_length_le (by simpa [knock] using h))

theorem not_verifies_knock : ¬Verifies knock := by decide

theorem ReceiverState.keeps_receive_knock (r : ReceiverState) (cancelled : Bool)
    (sender : Endpoint) :
    r.Keeps (r.receive cancelled (some (sender, knock))).1
      (r.receive cancelled (some (sender, knock))).2 := by
  have hread := recvFrom_knock (by decide : CUSTOM_UDP_HEADER_SIZE ≤ DATA_BUFFER_SIZE) sender
  rcases @ReceiverState.receive_cases cancelled (some (sender, knock)) r _ _ rfl with
    hkeeps | h | h
  · exact hkeeps
  · obtain ⟨_, recvBuf, _, hrecv, hverifies, _⟩ := h
    rw [hread] at hrecv
    cases hrecv
    exact absurd hverifies not_verifies_knock
  · obtain ⟨_, recvBuf, _, hrecv, hverifies, _⟩ := h
    rw [hread] at hrecv
    cases hrecv
    exact absurd hverifies not_verifies_knock

theorem SenderState.keeps_receive_knock {α : Type} [Double α] (cfg : RDTWindowSender α)
    (s : SenderState α) (cancelled : Bool) (sender : Endpoint) :
    s.Keeps (s.receive cfg cancelled (some (sender, knock))) := by
  have hread := recvFrom_knock (by decide : CUSTOM_UDP_HEADER_SIZE ≤ ACK_BUFFER_SIZE) sender
  rcases s.receive_cases cfg cancelled (some (sender, knock)) with hkeeps | h | h
  · exact hkeeps
  · obtain ⟨recvBuf, _, _, hrecv, hverifies, _⟩ := h
    rw [hread] at hrecv
    cases hrecv
    exact absurd hverifies not_verifies_knock
  · -- The FIN phase does not look at the checksum, but the flags are missing.
    obtain ⟨_, _, ackBuf, _, hrecv, _, hfin, _⟩ := h
    rw [hread] at hrecv
    cases hrecv
    exact absurd hfin (by decide)

/-- Headers and their bytes determine each other, and what the parties of a transfer
    send is read as it was meant. -/
theorem datagrams_readBack {α : Type} [Double α] (hdr : CustomUDPHeader) (buffer payload : Bytes)
    (n : UInt32) (w : UInt16) (r : ReceiverState) (s : SenderState α) (cfg : RDTWindowSender α)
    (cancelled : Bool) (sender : Endpoint) (hbuffer : buffer.length = CUSTOM_UDP_HEADER_SIZE)
    (hpayload : payload.length ≤ MAX_PAYLOAD) :
    (deserializeHeader (serializeHeader hdr) = hdr ∧
      serializeHeader (deserializeHeader buffer) = buffer) ∧
    (ReadsBack DATA_BUFFER_SIZE (sendSegment n payload w) (dataHeader n payload w) payload ∧
      ReadsBack DATA_BUFFER_SIZE (sendFIN n w) (finHeader n w) [] ∧
      ReadsBack ACK_BUFFER_SIZE r.ackDatagram (ackHeader r.cumulativeAck r.advertisedWindow) [] ∧
      ReadsBack ACK_BUFFER_SIZE (packet (finAckHeader n r.advertisedWindow) [])
        (finAckHeader n r.advertisedWindow) []) ∧
    ¬Verifies knock ∧
      r.Keeps (r.receive cancelled (some (sender, knock))).1
        (r.receive cancelled (some (sender, knock))).2 ∧
      s.Keeps (s.receive cfg cancelled (some (sender, knock))) := by
  have hheader : CUSTOM_UDP_HEADER_SIZE + ([] : Bytes).length ≤ ACK_BUFFER_SIZE := by decide
  refine ⟨⟨?_, ?_⟩, ⟨?_, ?_, ?_, ?_⟩, not_verifies_knock, r.keeps_receive_knock cancelled sender,
    s.keeps_receive_knock cfg cancelled sender⟩
  · simpa using deserializeHeader_serializeHeader hdr []
  · rw [serializeHeader_deserializeHeader hbuffer.ge, ← hbuffer, List.take_length]
  · refine readsBack_packet _ ?_
    simp only [MAX_PAYLOAD, DATA_BUFFER_SIZE] at hpayload ⊢
    omega
  · exact readsBack_packet _ (by decide)
  · exact readsBack_packet _ hheader
  · exact readsBack_packet _ hheader

theorem datagrams_readBack_hi :
    ReadsBack DATA_BUFFER_SIZE (sendSegment 7 [104, 105] 4) (dataHeader 7 [104, 105] 4)
      [104, 105] :=
  (datagrams_readBack {} knock [104, 105] 7 4 { advertisedWindow := 64 }
    { segs := [], cwnd := (1 : ℚ), ssthresh := 8, recvWindow := 8 }
    { dest := {}, mss := 1000, initialCwnd := 1, initialSsthresh := 8, maxWindowSegments := 64,
      maxRetransmitRounds := 15 } false {} rfl (by decide)).2.1.1

/-! ## Payloads -/

namespace ReceiverState

variable {r : ReceiverState}

/-- What is in the buffer is taken for the segment expected next. -/
def Accepts (r : ReceiverState) (recvBuf : Bytes) : Prop :=
  Verifies recvBuf ∧ hasFlag (deserializeHeader recvBuf) FLAG_FIN = false ∧
    hasFlag (deserializeHeader recvBuf) FLAG_DATA = true ∧
      (deserializeHeader recvBuf).seqNum = r.expectedSeq

instance (r : ReceiverState) (recvBuf : Bytes) : Decidable (r.Accepts recvBuf) :=
  inferInstanceAs (Decidable (_ ∧ _))

theorem receive_of_accepts (hp : r.point = .awaitDatagram) (sender : Endpoint) {datagram : Bytes}
    (h : r.Accepts (readInto DATA_BUFFER_SIZE datagram)) :
    (r.receive false (some (sender, datagram))).1 =
      r.accept sender ((readInto DATA_BUFFER_SIZE datagram).drop CUSTOM_UDP_HEADER_SIZE) := by
  obtain ⟨⟨hlen, hverify⟩, hfin, hdata, hseq⟩ := h
  simp only [receive, hp, recvFrom, Option.map_some, Bool.false_eq_true, if_false]
  rw [if_neg (not_lt.2 hlen), onDatagram]
  simp only [hverify, hfin, hdata, hseq, not_true_eq_false, Bool.false_eq_true, if_false, if_true]
  rfl

/-- The next number is only expected after a segment that is accepted. -/
theorem accepts_of_expectedSeq {cancelled : Bool} {sender : Endpoint} {datagram : Bytes}
    (h : (r.receive cancelled (some (sender, datagram))).1.expectedSeq = r.expectedSeq + 1) :
    cancelled = false ∧ r.point = .awaitDatagram ∧
      r.Accepts (readInto DATA_BUFFER_SIZE datagram) := by
  have hne : r.expectedSeq ≠ r.expectedSeq + 1 := by simp
  have hcancelled : cancelled = false := by
    cases cancelled with
    | false => rfl
    | true =>
      rw [receive] at h
      split at h
      · exact absurd h hne
      · exact absurd h hne
      · exact absurd h hne
  cases hr : r.receive cancelled (some (sender, datagram)) with
  | mk r' sent =>
    rw [hr] at h
    rcases receive_cases hr with
      hkeeps | ⟨_, recvBuf, hp, hrecv, hverifies, hfin, hdata, hseq, _⟩ | ⟨_, _, _, _, _, _, rfl, _⟩
    · exact absurd (hkeeps.expectedSeq.symm.trans h) hne
    · cases hrecv
      exact ⟨hcancelled, hp, hverifies, hfin, hdata, hseq⟩
    · exact absurd h hne

/-- If the receiver accepts what arrived, it appends the payload, as long as the header
    says. -/
def AcceptsWhole (r : ReceiverState) (cancelled : Bool) (sender : Endpoint) (arrived payload : Bytes) :
    Prop :=
  (r.receive cancelled (some (sender, arrived))).1.expectedSeq = r.expectedSeq + 1 →
    (r.receive cancelled (some (sender, arrived))).1.outData = r.outData ++ payload ∧
      payload.length = (deserializeHeader (readInto DATA_BUFFER_SIZE arrived)).payloadLen.toNat

instance (r : ReceiverState) (cancelled : Bool) (sender : Endpoint) (arrived payload : Bytes) :
    Decidable (r.AcceptsWhole cancelled sender arrived payload) :=
  inferInstanceAs (Decidable (_ → _))

end ReceiverState

/-- A datagram whose end was cut off, or that something was appended to. -/
def Recut (sent arrived : Bytes) : Prop := arrived <+: sent ∨ sent <+: arrived

instance (sent arrived : Bytes) : Decidable (Recut sent arrived) :=
  inferInstanceAs (Decidable (_ ∨ _))

/-- The buffer of the receiver may cut off some more. -/
theorem Recut.readInto {sent arrived : Bytes} (h : Recut sent arrived) (size : Nat) :
    Recut sent (readInto size arrived) := by
  rcases h with h | h
  · exact .inl ((List.take_prefix size arrived).trans h)
  · exact List.prefix_or_prefix_of_prefix (List.take_prefix size arrived) h

/-- The header of a datagram is there, and the checksum does not tell what was read
    from what was sent, for the number of what is missing, or too much. -/
def Unnoticed (sent read : Bytes) : Prop :=
  CUSTOM_UDP_HEADER_SIZE ≤ read.length ∧ read ≠ sent ∧
    65535 ∣ number (sent.drop read.length ++ read.drop sent.length)

instance (sent read : Bytes) : Decidable (Unnoticed sent read) :=
  inferInstanceAs (Decidable (_ ∧ _))

/-- A header with its checksum. -/
def stamp (hdr : CustomUDPHeader) (payload : Bytes) : CustomUDPHeader :=
  { hdr with checksum := calculateChecksum hdr payload }

section

variable {n : UInt32} {payload read : Bytes} {w : UInt16}

/-- What is left of a segment, with its header, has a payload that was cut off or
    lengthened. -/
theorem Recut.exists_payload (h : Recut (sendSegment n payload w) read)
    (hlen : CUSTOM_UDP_HEADER_SIZE ≤ read.length) :
    ∃ payload', read = serializeHeader (stamp (dataHeader n payload w) payload) ++ payload' ∧
      Recut payload payload' := by
  have hheader : serializeHeader (stamp (dataHeader n payload w) payload) <+: read := by
    rcases h with h | h
    · exact List.prefix_of_prefix_length_le (List.prefix_append _ payload) h hlen
    · exact (List.prefix_append _ payload).trans h
  obtain ⟨payload', rfl⟩ := hheader
  refine ⟨payload', rfl, h.imp ?_ ?_⟩
  · exact (List.prefix_append_right_inj _).1
  · exact (List.prefix_append_right_inj _).1

/-- The bytes that tell a payload from one that was cut off or lengthened decide
    whether their numbers are congruent. -/
theorem Recut.number_modEq_iff {a b : Bytes} (h : Recut a b) :
    number a ≡ number b [MOD 65535] ↔ 65535 ∣ number (a.drop b.length ++ b.drop a.length) := by
  rcases h with ⟨c, rfl⟩ | ⟨c, rfl⟩
  · rw [Nat.ModEq.comm, number_modEq_append_iff, List.drop_left,
      List.drop_eq_nil_of_le (by simp), List.append_nil]
  · rw [number_modEq_append_iff, List.drop_left, List.drop_eq_nil_of_le (by simp), List.nil_append]

/-- What is left of a segment is accepted in its turn, unless the checksum tells it from
    the segment. -/
theorem Recut.accepts_iff {r : ReceiverState} (h : Recut (sendSegment n payload w) read)
    (hlen : CUSTOM_UDP_HEADER_SIZE ≤ read.length) :
    r.Accepts read ↔ n = r.expectedSeq ∧
      65535 ∣ number ((sendSegment n payload w).drop read.length ++
        read.drop (sendSegment n payload w).length) := by
  obtain ⟨payload', rfl, hpayload⟩ := h.exists_payload hlen
  have hflags : (dataHeader n payload w).flags ≠ 0 := by
    intro hzero
    have hdata := hasFlag_dataHeader_data n payload w
    rw [hasFlag, hzero] at hdata
    exact absurd hdata (by decide)
  -- The header is read as it was sent, so it is for the checksum to decide.
  have hsum := verifyChecksum_stamp_iff hflags payload payload'
  rw [hpayload.number_modEq_iff] at hsum
  have hsend : sendSegment n payload w =
      serializeHeader (stamp (dataHeader n payload w) payload) ++ payload := rfl
  have hseq : (stamp (dataHeader n payload w) payload).seqNum = n := rfl
  rw [hsend, List.length_append, List.length_append, List.drop_length_add_append,
    List.drop_length_add_append, ← hsum, ReceiverState.Accepts, Verifies,
    deserializeHeader_serializeHeader, hseq, ← length_serializeHeader, List.drop_left]
  constructor
  · rintro ⟨⟨_, hverify⟩, _, _, hn⟩
    exact ⟨hn, hverify⟩
  · rintro ⟨hn, hverify⟩
    exact ⟨⟨by simp, hverify⟩, hasFlag_dataHeader_fin n payload w,
      hasFlag_dataHeader_data n payload w, hn⟩

/-- What a receiver accepts of a segment is the whole payload, unless the checksum does
    not tell what arrived from the segment. -/
theorem accepted_payload_whole (r : ReceiverState) (cancelled : Bool) (sender : Endpoint)
    {arrived : Bytes} (h : Recut (sendSegment n payload w) arrived) :
    r.AcceptsWhole cancelled sender arrived payload ↔
      ¬(r.point = .awaitDatagram ∧ cancelled = false ∧ n = r.expectedSeq ∧
        Unnoticed (sendSegment n payload w) (readInto DATA_BUFFER_SIZE arrived)) := by
  have hread := h.readInto DATA_BUFFER_SIZE
  have hlen : (readInto DATA_BUFFER_SIZE arrived).length ≤ DATA_BUFFER_SIZE :=
    List.length_take_le _ _
  generalize hbuf : readInto DATA_BUFFER_SIZE arrived = read at hread hlen
  constructor
  · rintro hwhole ⟨hp, rfl, hn, hheader, hne, hdvd⟩
    -- It is accepted, but what it appends is not the payload.
    have haccepts := (hread.accepts_iff (r := r) hheader).2 ⟨hn, hdvd⟩
    rw [← hbuf] at haccepts
    have hreceive := ReceiverState.receive_of_accepts hp sender haccepts
    rw [ReceiverState.AcceptsWhole, hreceive, hbuf] at hwhole
    have hdata := List.append_cancel_left (hwhole rfl).1
    obtain ⟨payload', rfl, _⟩ := hread.exists_payload hheader
    rw [← length_serializeHeader, List.drop_left] at hdata
    rw [hdata] at hne
    exact hne rfl
  · intro hcond haccepted
    obtain ⟨rfl, hp, haccepts⟩ := ReceiverState.accepts_of_expectedSeq haccepted
    have hreceive := ReceiverState.receive_of_accepts hp sender haccepts
    rw [hbuf] at haccepts hreceive
    have hheader := haccepts.1.1
    obtain ⟨hn, hdvd⟩ := (hread.accepts_iff hheader).1 haccepts
    have heq : read = sendSegment n payload w :=
      not_not.1 fun hne => hcond ⟨hp, rfl, hn, hheader, hne, hdvd⟩
    subst heq
    rw [hreceive, hbuf, sendSegment, drop_packet, deserializeHeader_packet]
    refine ⟨rfl, ?_⟩
    rw [sendSegment, length_packet] at hlen
    show payload.length = (UInt16.ofNat payload.length).toNat
    rw [UInt16.toNat_ofNat', Nat.mod_eq_of_lt]
    simp only [DATA_BUFFER_SIZE, CUSTOM_UDP_HEADER_SIZE, MAX_SEG] at hlen
    omega

end

/-- A segment of 1565 zeros is longer than the buffer by one of them. -/
def zeros : Bytes := List.replicate 1565 0

theorem not_accepted_payload_whole :
    Recut (sendSegment 0 zeros 1) (sendSegment 0 zeros 1) ∧
      ¬ReceiverState.AcceptsWhole { advertisedWindow := 64, point := .awaitDatagram } false
        { ip := "10.0.0.1", port := 5000 } (sendSegment 0 zeros 1) zeros := by
  refine ⟨.inl List.prefix_rfl, fun hwhole => ?_⟩
  have hsent : (sendSegment 0 zeros 1).length = 1580 := by
    rw [sendSegment, length_packet, zeros, List.length_replicate, CUSTOM_UDP_HEADER_SIZE]
  have hread : (readInto DATA_BUFFER_SIZE (sendSegment 0 zeros 1)).length = 1579 := by
    rw [readInto, List.length_take, hsent]
    rfl
  -- A zero is cut off, which the checksum does not see.
  have hcut : (sendSegment 0 zeros 1).drop 1579 = [0] := by
    show List.drop (CUSTOM_UDP_HEADER_SIZE + 1564) _ = _
    rw [← List.drop_drop, sendSegment, drop_packet, zeros, List.drop_replicate]
    rfl
  have haccepts : ReceiverState.Accepts { advertisedWindow := 64, point := .awaitDatagram }
      (readInto DATA_BUFFER_SIZE (sendSegment 0 zeros 1)) := by
    have hrecut : Recut (sendSegment 0 zeros 1) (sendSegment 0 zeros 1) := .inl List.prefix_rfl
    rw [(hrecut.readInto DATA_BUFFER_SIZE).accepts_iff (hread ▸ by decide), hread, hsent, hcut,
      List.drop_of_length_le (by rw [hread]; decide)]
    exact ⟨rfl, by decide⟩
  have hreceive := ReceiverState.receive_of_accepts rfl { ip := "10.0.0.1", port := 5000 } haccepts
  rw [ReceiverState.AcceptsWhole, hreceive] at hwhole
  have hlength := congrArg List.length (List.append_cancel_left (hwhole rfl).1)
  rw [List.length_drop, hread, zeros, List.length_replicate] at hlength
  exact absurd hlength (by decide)

/-- The last byte of a segment is missing. -/
theorem accepted_payload_whole_cut :
    ReceiverState.AcceptsWhole { advertisedWindow := 64, point := .awaitDatagram } false
      { ip := "10.0.0.1", port := 5000 } ((sendSegment 0 [104, 105] 1).take 16) [104, 105] := by
  refine (accepted_payload_whole _ _ _ (.inl (List.take_prefix 16 _))).2 ?_
  decide +kernel

end HybridFtp
