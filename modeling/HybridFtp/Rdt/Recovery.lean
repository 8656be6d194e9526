import HybridFtp.Rdt.Safety

/-!
# Recovery after losses

All datagrams on their way are lost, and the sender times out: it goes back to
`base`, with a window of one segment. From then on the network loses nothing.

* `Prompt`: the steps of such a network, where nobody times out as long as
  anything else can happen;
* `Recovers`: however these steps are ordered, `base` moves on before the sender
  times out again;
* `recovers_iff`: the sender recovers if and only if the receiver is at most one
  segment ahead of `base`. The ACK of a receiver that is further ahead is about a
  segment after `nextSeq`, which the timeout has set back to `base`: the sender
  ignores it (`not_recovers`).
-/

namespace HybridFtp

variable {α : Type} [Double α] {t : Transfer α} {s s' : Joint α}

namespace Joint

/-- Nobody can do anything but time out. -/
def Quiet (s : Joint α) : Prop :=
  s.sender.point.runs = false ∧ s.receiver.point ≠ .loopHead ∧
    (s.sender.point.waits = true → s.toSender = []) ∧
    (s.receiver.point = .awaitDatagram → s.toReceiver = [])

/-- All datagrams on their way are lost. -/
def loseAll (s : Joint α) : Joint α := { s with toReceiver := [], toSender := [] }

end Joint

/-- The steps up to the next timeout of the sender, if the network delivers every
    datagram once and in order, nobody cancels, and sending does not fail. The
    receiver times out only if nothing else can happen. -/
def Prompt (s : Joint α) : TransferEvent → Prop
  | .senderAdvances cancelled sendOk => cancelled = false ∧ sendOk = true
  | .senderReceives cancelled | .receiverAdvances cancelled | .receiverReceives cancelled =>
    cancelled = false
  | .receiverTimesOut cancelled => cancelled = false ∧ s.Quiet
  | .senderTimesOut _ | .faultToReceiver _ | .faultToSender _ => False

/-- After the loss of all datagrams and a timeout, `base` increases before the
    next timeout of the sender. -/
def Recovers (t : Transfer α) (s : Joint α) : Prop :=
  ∀ s', s.loseAll.step t (.senderTimesOut false) = some s' →
    t.machine.Inevitable Prompt (fun _ _ => True) (fun u => s.sender.base < u.sender.base) s'

/-! ## The sender after a rollback -/

namespace SenderState

open Double (one)

/-- The main loop after a rollback to `b`, until it goes on to the next segment. -/
structure Collapsed (segs : List Bytes) (b : UInt32) (s : SenderState α) : Prop where
  segs_eq : s.segs = segs
  base : s.base = b
  lt : b < numSegments segs
  cwnd : s.cwnd = one
  nextSeq : s.nextSeq = b ∨ s.nextSeq = b + 1
  point : s.point = .loopHead ∨ s.point = .sending 1 ∨ s.point = .awaitAck ∧ s.nextSeq = b + 1 ∨
    s.point = .returned false

variable {segs : List Bytes} {b : UInt32} {s s' : SenderState α} {cfg : RDTWindowSender α}

/-- The datagram of the only segment that is sent after a rollback. -/
def resent (segs : List Bytes) (b : UInt32) : Bytes := sendSegment b (segs.getD b.toNat []) 1

omit [Double α] in
theorem lt_add_one {b n : UInt32} (h : b < n) : b < b + 1 := by
  have := n.toNat_lt
  rw [UInt32.lt_iff_toNat_lt] at h ⊢
  rw [UInt32.toNat_add]
  simp
  omega

/-- What the sender does between two `recvFrom`. -/
theorem Collapsed.advance (h : s.Collapsed segs b) (hruns : s.point.runs = true)
    {sent : List Bytes} (ha : s.advance cfg false true = (s', sent)) :
    s'.Collapsed segs b ∧
      (sent = [] ∧ s'.nextSeq = s.nextSeq ∧
        (s.point = .loopHead ∧ s'.point = .sending 1 ∨ s.point = .sending 1 ∧ s'.point = .awaitAck) ∨
      sent = [resent segs b] ∧ s.nextSeq = b ∧ s'.nextSeq = b + 1 ∧
        s.point = .sending 1 ∧ s'.point = .sending 1) := by
  have hN : s.N = numSegments segs := by rw [N, h.segs_eq, numSegments]
  have hb := h.lt
  have hlt := lt_add_one hb
  rcases h.point with hp | hp | ⟨hp, _⟩ | hp
  · rw [advance_loopHead hp (by rwa [h.base, hN]), computeEffectiveWindow_of_cwnd h.cwnd] at ha
    obtain ⟨rfl, rfl⟩ := ha
    exact ⟨⟨h.segs_eq, h.base, hb, h.cwnd, h.nextSeq, .inr (.inl rfl)⟩,
      .inl ⟨rfl, rfl, .inl ⟨hp, rfl⟩⟩⟩
  · -- The window has room for the segment at `base` and for no other.
    rcases h.nextSeq with hn | hn
    · rw [advance_sending hp (by rw [hn, h.base, hN]; exact ⟨hb, hlt⟩), hn, h.segs_eq] at ha
      obtain ⟨rfl, rfl⟩ := ha
      exact ⟨⟨rfl, h.base, hb, h.cwnd, .inr rfl, .inr (.inl hp)⟩, .inr ⟨rfl, hn, rfl, hp, hp⟩⟩
    · rw [advance_sending_done hp (by rw [hn, h.base]; exact fun h => UInt32.lt_irrefl _ h.2)] at ha
      obtain ⟨rfl, rfl⟩ := ha
      exact ⟨⟨h.segs_eq, h.base, hb, h.cwnd, .inr hn, .inr (.inr (.inl ⟨rfl, hn⟩))⟩,
        .inl ⟨rfl, rfl, .inr ⟨hp, rfl⟩⟩⟩
  · simp [hp, SenderPoint.runs] at hruns
  · simp [hp, SenderPoint.runs] at hruns

/-- An ACK of the segment at `b` is news. -/
theorem Collapsed.base_onAck (h : s.Collapsed segs b) (hp : s.point = .awaitAck) (w : UInt16) :
    (s.onAck cfg b w).base = b + 1 := by
  have hN : s.N = numSegments segs := by rw [N, h.segs_eq, numSegments]
  have hn : s.nextSeq = b + 1 := by
    rcases h.point with hp' | hp' | ⟨_, hn⟩ | hp'
    · simp [hp] at hp'
    · simp [hp] at hp'
    · exact hn
    · simp [hp] at hp'
  rw [onAck]
  simp only [noteWindow_base, noteWindow_nextSeq, noteWindow_N, h.base, hn, hN]
  rw [if_pos ⟨UInt32.le_refl b, lt_add_one h.lt, h.lt⟩, onNewAck]

/-- A state back at the head of the main loop that keeps the rest. -/
theorem Collapsed.of_loopHead (h : s.Collapsed segs b) (hsegs : s'.segs = s.segs)
    (hbase : s'.base = s.base) (hcwnd : s'.cwnd = s.cwnd)
    (hnext : s'.nextSeq = s.nextSeq ∨ s'.nextSeq = b)
    (hpoint : s'.point = .loopHead ∨ s'.point = .returned false) : s'.Collapsed segs b where
  segs_eq := hsegs.trans h.segs_eq
  base := hbase.trans h.base
  lt := h.lt
  cwnd := hcwnd.trans h.cwnd
  nextSeq := hnext.elim (fun hn => hn ▸ h.nextSeq) .inl
  point := hpoint.elim .inl fun hp => .inr (.inr (.inr hp))

theorem Collapsed.noteWindow (h : s.Collapsed segs b) (w : UInt16) :
    (s.noteWindow w).Collapsed segs b := by
  rw [SenderState.noteWindow]
  split_ifs
  · exact ⟨h.segs_eq, h.base, h.lt, h.cwnd, h.nextSeq, h.point⟩
  · exact h

theorem Collapsed.onDuplicateAck (h : s.Collapsed segs b) (k : UInt32) :
    (s.onDuplicateAck cfg k).Collapsed segs b := by
  rw [SenderState.onDuplicateAck]
  dsimp only
  split_ifs
  all_goals first
    | exact h.of_loopHead rfl rfl rfl (.inl rfl) (.inr rfl)
    | exact h.of_loopHead rfl rfl rfl (.inl rfl) (.inl rfl)
    | exact h.of_loopHead rfl rfl h.cwnd.symm (.inr h.base) (.inl rfl)

/-- An ACK of any other segment is not. -/
theorem Collapsed.onAck (h : s.Collapsed segs b) {k : UInt32} (hk : k ≠ b) (w : UInt16) :
    (s.onAck cfg k w).Collapsed segs b := by
  have h' := h.noteWindow w
  rw [SenderState.onAck]
  split_ifs with hnew hdup
  · -- It would have to be between `b` and `nextSeq`, which is at most `b + 1`.
    obtain ⟨hle, hlt, _⟩ := hnew
    refine absurd (UInt32.toNat_inj.1 (Nat.le_antisymm ?_ ?_)) hk
    · have := UInt32.lt_iff_toNat_lt.1 (lt_add_one h.lt)
      rw [UInt32.lt_iff_toNat_lt] at hlt
      rcases h'.nextSeq with hn | hn
      · rw [hn] at hlt
        omega
      · rw [hn, UInt32.toNat_add] at hlt
        exact Nat.lt_succ_iff.1 (hlt.trans_le (Nat.mod_le _ _))
    · rwa [h'.base, UInt32.le_iff_toNat_le] at hle
  · exact h'.onDuplicateAck k
  · exact h'.of_loopHead rfl rfl rfl (.inl rfl) (.inl rfl)

end SenderState

/-! ## The receiver during the recovery -/

/-- The receiver has room for the segment at `b`, or already has it and nothing
    after it: in both cases it acknowledges `b` once it is sent again. -/
def ReceiverState.Answers (segs : List Bytes) (b : UInt32) (r : ReceiverState) : Prop :=
  r.expectedSeq = b + 1 ∨ r.expectedSeq = b ∧ Readable b (segs.getD b.toNat []) 1

/-- The states in which the sender goes through its recovery. -/
structure Joint.Recovering (t : Transfer α) (segs : List Bytes) (b : UInt32) (s : Joint α) :
    Prop where
  sender : s.sender.Collapsed segs b
  running : s.sender.point ≠ .returned false
  receiver : ∀ ok, s.receiver.point ≠ .returned ok
  /-- The segment at `b` is about to be sent, or on its way, or its ACK is. -/
  stage :
    s.sender.nextSeq = b ∧ s.toReceiver = [] ∧ s.toSender = [] ∧ s.receiver.Answers segs b ∨
    s.sender.nextSeq = b + 1 ∧ s.toReceiver = [SenderState.resent segs b] ∧ s.toSender = [] ∧
      s.receiver.Answers segs b ∨
    s.sender.nextSeq = b + 1 ∧ s.toReceiver = [] ∧ ∃ w, s.toSender = [packet (ackHeader b w) []]

/-- How many steps the sender takes before it waits, but for sending. -/
def SenderPoint.stepsLeft : SenderPoint → Nat
  | .loopHead => 2
  | .sending _ => 1
  | .awaitAck | .finHead _ | .awaitFinAck _ | .returned _ => 0

/-- How many steps the recovery takes at most. -/
def Joint.recoveryRank (b : UInt32) (s : Joint α) : Nat :=
  (if s.sender.nextSeq = b then 6 else 0) + 4 * s.toReceiver.length + 2 * s.toSender.length +
    s.sender.point.stepsLeft +
    (if s.receiver.point = .loopHead then 1 else 0)

section

variable {segs : List Bytes} {b : UInt32}

omit [Double α] in
theorem ReceiverState.cumulativeAck_succ {r : ReceiverState} {n : UInt32} (hb : b < n)
    (hr : r.expectedSeq = b + 1) : r.cumulativeAck = b := by
  have hlt := UInt32.lt_iff_toNat_lt.1 (SenderState.lt_add_one hb)
  have h0 : r.expectedSeq ≠ 0 := by
    rw [hr, Ne, ← UInt32.toNat_inj]
    exact (Nat.zero_le _).trans_lt hlt |>.ne'
  rw [cumulativeAck, if_neg h0, hr, UInt32.add_sub_cancel]

/-- Once the segment at `b` is sent again, a receiver that answers it acknowledges
    it. -/
theorem ReceiverState.Answers.ackDatagram {r : ReceiverState} (h : r.Answers segs b) {n : UInt32}
    (hb : b < n) (sender : Endpoint) :
    (r.afterSegment sender b (segs.getD b.toNat []) 1).ackDatagram =
      packet (ackHeader b r.advertisedWindow) [] := by
  rw [afterSegment]
  split_ifs with hacc
  · have hack : (r.accept sender ((segs.getD b.toNat []).take MAX_PAYLOAD)).cumulativeAck = b :=
      cumulativeAck_succ hb (by rw [accept, ← hacc.2])
    rw [ReceiverState.ackDatagram, hack]
    rfl
  · rcases h with h | ⟨h, hread⟩
    · have hack : (r.heard sender).cumulativeAck = b := cumulativeAck_succ hb h
      rw [ReceiverState.ackDatagram, hack]
      rfl
    · exact absurd ⟨hread, h.symm⟩ hacc

omit [Double α] in
/-- The receiver reads a DATA segment of the sender. -/
theorem Joint.receiverReads_sendSegment (hp : s.receiver.point = .awaitDatagram) (n : UInt32)
    (seg : Bytes) (w : UInt16) :
    s.receiverReads t false (some (t.socket.toEndpoint, sendSegment n seg w)) =
      { s with
        receiver := s.receiver.afterSegment t.socket.toEndpoint n seg w
        toSender := s.toSender ++
          [(s.receiver.afterSegment t.socket.toEndpoint n seg w).ackDatagram] } := by
  rw [receiverReads, ReceiverState.receive_sendSegment hp t.socket.isKnown]
  simp

theorem Joint.Recovering.waits (h : s.Recovering t segs b) (hruns : s.sender.point.runs = false) :
    s.sender.point = .awaitAck ∧ s.sender.nextSeq = b + 1 := by
  rcases h.sender.point with hp | hp | hp | hp
  · simp [hp, SenderPoint.runs] at hruns
  · simp [hp, SenderPoint.runs] at hruns
  · exact hp
  · exact absurd hp h.running

theorem Joint.Recovering.ne (h : s.Recovering t segs b) : b + 1 ≠ b := by
  intro he
  have hlt := SenderState.lt_add_one h.sender.lt
  rw [he] at hlt
  exact UInt32.lt_irrefl b hlt

theorem Joint.Recovering.receiver_point (h : s.Recovering t segs b)
    (hp : s.receiver.point ≠ .loopHead) : s.receiver.point = .awaitDatagram := by
  cases hr : s.receiver.point with
  | loopHead => exact absurd hr hp
  | awaitDatagram => rfl
  | returned ok => exact absurd hr (h.receiver ok)

/-- The recovery does not get stuck. -/
theorem Joint.Recovering.moves (h : s.Recovering t segs b) :
    ∃ e s', Prompt s e ∧ s.step t e = some s' := by
  by_cases hruns : s.sender.point.runs = true
  · exact ⟨.senderAdvances false true, _, ⟨rfl, rfl⟩, if_pos hruns⟩
  · obtain ⟨hp, hn⟩ := h.waits (Bool.not_eq_true _ ▸ hruns)
    by_cases hr : s.receiver.point = .loopHead
    · exact ⟨.receiverAdvances false, _, rfl, if_pos hr⟩
    · rcases h.stage with ⟨hn', _⟩ | ⟨_, hd, _⟩ | ⟨_, _, w, hd⟩
      · exact absurd (hn.symm.trans hn') h.ne
      · obtain ⟨s', hs⟩ := Joint.exists_step_receiverReceives (t := t) hd
          (h.receiver_point hr)
        exact ⟨.receiverReceives false, s', rfl, hs⟩
      · obtain ⟨s', hs⟩ := Joint.exists_step_senderReceives (t := t) hd
          (by rw [hp]; rfl)
        exact ⟨.senderReceives false, s', rfl, hs⟩

/-- Every step of the recovery gets it further, or to its end. -/
theorem Joint.Recovering.step (h : s.Recovering t segs b) {e : TransferEvent} (he : Prompt s e)
    (hs : s.step t e = some s') :
    b < s'.sender.base ∨ s'.Recovering t segs b ∧ s'.recoveryRank b < s.recoveryRank b := by
  have hne := h.ne
  cases e with
  | senderAdvances cancelled sendOk =>
    obtain ⟨rfl, rfl⟩ := he
    obtain ⟨sender, sent, ha, hruns, rfl⟩ := Joint.step_senderAdvances hs
    obtain ⟨hsender, hmove⟩ := h.sender.advance hruns ha
    right
    rcases hmove with ⟨hsent, hn, hp⟩ | ⟨hsent, hn, hn', hp, hp'⟩
    · -- Nothing is sent: only the point moves.
      refine ⟨⟨hsender, ?_, h.receiver, ?_⟩, ?_⟩
      · show sender.point ≠ _
        rcases hp with ⟨_, hp⟩ | ⟨_, hp⟩ <;> simp [hp]
      · simpa only [hsent, List.append_nil, hn] using h.stage
      · simp only [recoveryRank, hsent, hn, List.append_nil]
        rcases hp with ⟨hp, hp'⟩ | ⟨hp, hp'⟩ <;> simp [hp, hp', SenderPoint.stepsLeft]
    · rcases h.stage with ⟨_, hd, ha, hr⟩ | ⟨hn'', _⟩ | ⟨hn'', _⟩
      · refine ⟨⟨hsender, by simp [hp'], h.receiver, .inr (.inl ⟨hn', ?_, ha, hr⟩)⟩, ?_⟩
        · rw [hsent, hd, List.nil_append]
        · simp [recoveryRank, SenderPoint.stepsLeft, hsent, hn, hn', hd, hp, hp', hne]
      · exact absurd (hn''.symm.trans hn) hne
      · exact absurd (hn''.symm.trans hn) hne
  | senderReceives cancelled =>
    obtain rfl : cancelled = false := he
    obtain ⟨d, rest, hd, hwaits, rfl⟩ := Joint.step_senderReceives hs
    left
    have hp := (h.waits (by cases hp : s.sender.point <;> simp_all [SenderPoint.waits, SenderPoint.runs])).1
    rcases h.stage with ⟨_, _, hd', _⟩ | ⟨_, _, hd', _⟩ | ⟨_, _, w, hd'⟩
    · simp [hd] at hd'
    · simp [hd] at hd'
    · obtain ⟨rfl, rfl⟩ := List.cons_eq_cons.1 (hd.symm.trans hd')
      show b < (s.sender.receive t.sender false _).base
      rw [SenderState.receive_ack hp, h.sender.base_onAck hp]
      exact SenderState.lt_add_one h.sender.lt
  | receiverAdvances cancelled =>
    obtain rfl : cancelled = false := he
    obtain ⟨hp, rfl⟩ := Joint.step_receiverAdvances hs
    right
    rw [ReceiverState.advance]
    simp only [hp, Bool.false_eq_true, if_false]
    refine ⟨⟨h.sender, h.running, by simp, h.stage⟩, ?_⟩
    simp [recoveryRank, hp]
  | receiverReceives cancelled =>
    obtain rfl : cancelled = false := he
    obtain ⟨d, rest, hd, hp, rfl⟩ := Joint.step_receiverReceives hs
    right
    rcases h.stage with ⟨_, hd', _⟩ | ⟨hn, hd', ha, hr⟩ | ⟨_, hd', _⟩
    · simp [hd] at hd'
    · obtain ⟨rfl, rfl⟩ := List.cons_eq_cons.1 (hd.symm.trans hd')
      rw [SenderState.resent, Joint.receiverReads_sendSegment (s := { s with toReceiver := [] }) hp,
        ha, List.nil_append, hr.ackDatagram h.sender.lt]
      refine ⟨⟨h.sender, h.running, by simp, .inr (.inr ⟨hn, rfl, _, rfl⟩)⟩, ?_⟩
      simp only [recoveryRank, hd', hp, ha, ReceiverState.afterSegment_point]
      simp
      omega
    · simp [hd] at hd'
  | receiverTimesOut cancelled =>
    obtain ⟨_, hruns, hr, hsender, hreceiver⟩ := he
    obtain ⟨hp, hn⟩ := h.waits hruns
    have ha := hsender (by rw [hp]; rfl)
    have hd := hreceiver (h.receiver_point hr)
    rcases h.stage with ⟨hn', _⟩ | ⟨_, hd', _⟩ | ⟨_, _, w, ha'⟩
    · exact absurd (hn.symm.trans hn') hne
    · simp [hd] at hd'
    · simp [ha] at ha'
  | senderTimesOut _ | faultToReceiver _ | faultToSender _ => exact he.elim

/-! ## A sender that does not recover -/

/-- The states of a recovery that comes to nothing: every ACK is about a segment
    other than the one at `b`. -/
structure Joint.Ignoring (t : Transfer α) (segs : List Bytes) (b : UInt32) (s : Joint α) : Prop where
  sender : s.sender.Collapsed segs b
  receiver : ¬s.receiver.Answers segs b
  toReceiver : ∀ d ∈ s.toReceiver, d = SenderState.resent segs b
  toSender : ∀ d ∈ s.toSender, ∃ k w, k ≠ b ∧ d = packet (ackHeader k w) []

omit [Double α] in
theorem ReceiverState.cumulativeAck_ne {r : ReceiverState} {n : UInt32} (hb : b < n)
    (h : ¬r.Answers segs b) : r.cumulativeAck ≠ b := by
  rw [cumulativeAck]
  split_ifs with h0
  · rintro rfl
    rw [UInt32.lt_iff_toNat_lt] at hb
    exact absurd hb (not_lt.2 (Nat.le_of_lt_succ n.toNat_lt))
  · intro he
    exact h (.inl (by rw [← he, UInt32.sub_add_cancel]))

omit [Double α] in
/-- A receiver that does not answer the segment does not accept it. -/
theorem ReceiverState.afterSegment_of_not_answers {r : ReceiverState} (h : ¬r.Answers segs b)
    (sender : Endpoint) :
    r.afterSegment sender b (segs.getD b.toNat []) 1 = r.heard sender :=
  if_neg fun hacc => h (.inr ⟨hacc.2.symm, hacc.1⟩)

theorem Joint.Ignoring.step (h : s.Ignoring t segs b) {e : TransferEvent} (he : Prompt s e)
    (hs : s.step t e = some s') : s'.Ignoring t segs b := by
  have hack := ReceiverState.cumulativeAck_ne h.sender.lt h.receiver
  cases e with
  | senderAdvances cancelled sendOk =>
    obtain ⟨rfl, rfl⟩ := he
    obtain ⟨sender, sent, ha, hruns, rfl⟩ := Joint.step_senderAdvances hs
    obtain ⟨hsender, hmove⟩ := h.sender.advance hruns ha
    refine ⟨hsender, h.receiver, fun d hd => ?_, h.toSender⟩
    rcases List.mem_append.1 hd with hd | hd
    · exact h.toReceiver d hd
    · rcases hmove with ⟨hsent, _⟩ | ⟨hsent, _⟩
      · simp [hsent] at hd
      · rwa [hsent, List.mem_singleton] at hd
  | senderReceives cancelled =>
    obtain rfl : cancelled = false := he
    obtain ⟨d, rest, hd, hwaits, rfl⟩ := Joint.step_senderReceives hs
    have hp : s.sender.point = .awaitAck := by
      rcases h.sender.point with hp | hp | ⟨hp, _⟩ | hp
      · simp [hp, SenderPoint.waits] at hwaits
      · simp [hp, SenderPoint.waits] at hwaits
      · exact hp
      · simp [hp, SenderPoint.waits] at hwaits
    obtain ⟨k, w, hk, rfl⟩ := h.toSender d (by simp [hd])
    refine ⟨?_, h.receiver, h.toReceiver, fun d' hd' => h.toSender d' (by rw [hd]; exact .tail _ hd')⟩
    show (s.sender.receive t.sender false _).Collapsed segs b
    rw [SenderState.receive_ack hp]
    exact h.sender.onAck hk w
  | receiverAdvances cancelled =>
    obtain rfl : cancelled = false := he
    obtain ⟨hp, rfl⟩ := Joint.step_receiverAdvances hs
    rw [ReceiverState.advance]
    simp only [hp, Bool.false_eq_true, if_false]
    exact ⟨h.sender, h.receiver, h.toReceiver, h.toSender⟩
  | receiverReceives cancelled =>
    obtain rfl : cancelled = false := he
    obtain ⟨d, rest, hd, hp, rfl⟩ := Joint.step_receiverReceives hs
    -- The segment that is sent again is not accepted, and its answer is another duplicate.
    obtain rfl := h.toReceiver d (by simp [hd])
    rw [SenderState.resent, Joint.receiverReads_sendSegment (s := { s with toReceiver := rest }) hp,
      ReceiverState.afterSegment_of_not_answers h.receiver]
    refine ⟨h.sender, h.receiver, fun d' hd' => h.toReceiver d' (by rw [hd]; exact .tail _ hd'),
      fun d' hd' => ?_⟩
    rcases List.mem_append.1 hd' with hd' | hd'
    · exact h.toSender d' hd'
    · exact ⟨_, _, hack, List.mem_singleton.1 hd'⟩
  | receiverTimesOut cancelled =>
    obtain ⟨rfl, _⟩ := he
    obtain ⟨hp, rfl⟩ := Joint.step_receiverTimesOut hs
    rw [Joint.receiverReads, ReceiverState.receive]
    simp only [hp, recvFrom, Option.map_none, Bool.false_eq_true, if_false]
    refine ⟨h.sender, h.receiver, h.toReceiver, fun d hd => ?_⟩
    rcases List.mem_append.1 hd with hd | hd
    · exact h.toSender d hd
    · obtain ⟨q, hq, rfl⟩ := List.mem_map.1 hd
      have hq := (List.mem_filter.1 hq).1
      rw [ReceiverState.sendCumulativeAck] at hq
      split_ifs at hq with hknown
      · exact ⟨_, _, hack, by rw [List.mem_singleton.1 hq]; rfl⟩
      · simp at hq
  | senderTimesOut _ | faultToReceiver _ | faultToSender _ => exact he.elim

/-! ## When the sender recovers -/

/-- The sender goes back to `base` on a timeout. -/
theorem SenderState.collapsed_onTimeout {s : SenderState α} {cfg : RDTWindowSender α}
    (hb : s.base < s.N) (hr : s.retryRnd < cfg.maxRetransmitRounds) :
    (s.onTimeout cfg).Collapsed s.segs s.base ∧ (s.onTimeout cfg).point = .loopHead ∧
      (s.onTimeout cfg).nextSeq = s.base := by
  rw [onTimeout]
  dsimp only
  rw [if_neg (by omega)]
  exact ⟨⟨rfl, rfl, hb, rfl, .inl rfl, .inl rfl⟩, rfl, rfl⟩

end

/-- The state after the loss of everything on its way and a timeout. -/
theorem Joint.senderReads_loseAll (hp : s.sender.point = .awaitAck) :
    s.loseAll.senderReads t false none =
      { s.loseAll with sender := s.sender.onTimeout t.sender } := by
  rw [senderReads, loseAll, SenderState.receive]
  simp [hp, recvFrom]

/-- A sender that recovers has a receiver that answers. -/
theorem Recovers.answers (h : Recovers t s) (hp : s.sender.point = .awaitAck)
    (hb : s.sender.base < s.sender.N) (hr : s.sender.retryRnd < t.sender.maxRetransmitRounds) :
    s.receiver.Answers s.sender.segs s.sender.base := by
  by_contra hans
  refine Machine.not_inevitable (J := fun u => u.Ignoring t s.sender.segs s.sender.base)
    (fun u hu => ?_) (fun u e u' hu he hs => ⟨hu.step he hs, trivial⟩) ?_
    (h _ (if_pos (by rw [Joint.loseAll, hp]; rfl)))
  · rw [hu.sender.base]
    exact UInt32.lt_irrefl _
  · rw [Joint.senderReads_loseAll hp]
    exact ⟨(SenderState.collapsed_onTimeout hb hr).1, hans, by simp [Joint.loseAll],
      by simp [Joint.loseAll]⟩

/-- After the loss of everything on its way and a timeout, the sender recovers if
    and only if the receiver is right at `base`, and can read the segment there, or
    is one segment ahead of it. -/
theorem recovers_iff (hp : s.sender.point = .awaitAck) (hb : s.sender.base < s.sender.N)
    (hr : s.sender.retryRnd < t.sender.maxRetransmitRounds)
    (hreceiver : ∀ ok, s.receiver.point ≠ .returned ok) :
    Recovers t s ↔ s.receiver.Answers s.sender.segs s.sender.base := by
  refine ⟨fun h => h.answers hp hb hr, fun hans s' hs' => ?_⟩
  obtain ⟨hsender, hpoint, hnext⟩ := SenderState.collapsed_onTimeout hb hr
  obtain ⟨_, rfl⟩ := Joint.step_senderTimesOut hs'
  refine Machine.Inevitable.of_rank wellFounded_lt (Joint.recoveryRank s.sender.base)
    (I := fun u => u.Recovering t s.sender.segs s.sender.base)
    (fun u hu _ => hu.moves) (fun u e u' hu he _ hs => hu.step he hs) ?_
  rw [Joint.senderReads_loseAll hp]
  exact ⟨hsender, by simp [hpoint], hreceiver, .inl ⟨hnext, rfl, rfl, hans⟩⟩

/-- The first datagram of a transfer is lost: the sender recovers. -/
theorem recovers_greeting :
    ∃ s, greeting.machine.Reachable s ∧ s.sender.point = .awaitAck ∧ Recovers greeting s := by
  obtain ⟨s, hs, hP⟩ := greeting.machine.exists_reachableBy_of_run (fun _ _ => True) (fun _ => id)
    (greetingData.take 3)
    (fun s => s.sender.point = .awaitAck ∧ s.sender.base < s.sender.N ∧
      s.sender.retryRnd < greeting.sender.maxRetransmitRounds ∧
      s.receiver.point = .loopHead ∧ s.receiver.expectedSeq = s.sender.base ∧
      Readable s.sender.base (s.sender.segs.getD s.sender.base.toNat []) 1) (by decide +kernel)
  obtain ⟨hp, hb, hr, hreceiver, hseq, hread⟩ := of_decide_eq_true hP
  exact ⟨s, hs, hp, (recovers_iff hp hb hr (by simp [hreceiver])).2 (.inr ⟨hseq, hread⟩)⟩

/-- A transfer of three segments. -/
def three : Transfer ℚ where
  sender := { greeting.sender with mss := 1 }
  socket := greeting.socket
  advertisedWindow := 64
  data := [1, 2, 3]

/-- The first segment is acknowledged; the next two are received, but their ACKs
    are still on their way. -/
def threeReceived : List TransferEvent :=
  [.senderAdvances false true, .senderAdvances false true, .senderAdvances false true,
    .receiverAdvances false, .receiverReceives false, .senderReceives false,
    .senderAdvances false true, .senderAdvances false true, .senderAdvances false true,
    .senderAdvances false true, .receiverAdvances false, .receiverReceives false,
    .receiverAdvances false, .receiverReceives false]

/-- If the ACKs of the last two segments are lost, the sender does not recover. -/
theorem not_recovers :
    ¬∀ (t : Transfer ℚ) (s : Joint ℚ), t.machine.Reachable s → s.sender.point = .awaitAck →
      s.sender.base < s.sender.N → s.sender.retryRnd < t.sender.maxRetransmitRounds →
        (∀ ok, s.receiver.point ≠ .returned ok) → Recovers t s := by
  intro h
  obtain ⟨s, hs, hP⟩ := three.machine.exists_reachableBy_of_run (fun _ _ => True) (fun _ => id)
    threeReceived
    (fun s => s.sender.point = .awaitAck ∧ s.sender.base < s.sender.N ∧
      s.sender.retryRnd < three.sender.maxRetransmitRounds ∧ s.receiver.point = .loopHead ∧
      s.receiver.expectedSeq ≠ s.sender.base + 1 ∧ s.receiver.expectedSeq ≠ s.sender.base)
    (by decide +kernel)
  obtain ⟨hp, hb, hr, hreceiver, hseq, hseq'⟩ := of_decide_eq_true hP
  rcases (h three s hs hp hb hr (by simp [hreceiver])).answers hp hb hr with he | ⟨he, _⟩
  · exact hseq he
  · exact hseq' he

end HybridFtp
