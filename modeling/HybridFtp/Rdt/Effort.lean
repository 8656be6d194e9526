import HybridFtp.Rdt.FlowControl

/-!
# The effort of a transfer

How much a call of `sendData` sends, whatever datagrams it receives.

* `sending`: the machine of the sender, and `effort`, what its moves cost or gain;
* `SenderState.AckOutcome`: what the main loop does with the outcome of `recvFrom`: it
  goes back, gives up, ignores it, or slides the window;
* `SenderState.Within`: the window, along runs;
* `Spent`: the segments sent are paid for by the window, the rounds of going back, and
  the segments acknowledged (`effort_bounded`).
-/

namespace HybridFtp

/-- What a move of the sender costs, or gains. -/
inductive Effort
  /-- A DATA segment is sent. -/
  | transmits
  /-- The sender goes back to `base`. -/
  | goesBack
  /-- `base` is increased. -/
  | slides
  deriving DecidableEq, Repr

/-- The rounds of going back since `base` was last increased. -/
def roundsSince (history : List Effort) : Nat :=
  (history.takeWhile (· ≠ .slides)).count .goesBack

@[simp] theorem roundsSince_transmits (history : List Effort) :
    roundsSince (.transmits :: history) = roundsSince history := rfl

@[simp] theorem roundsSince_goesBack (history : List Effort) :
    roundsSince (.goesBack :: history) = roundsSince history + 1 := List.count_cons_self

@[simp] theorem roundsSince_slides (history : List Effort) :
    roundsSince (.slides :: history) = 0 := rfl

/-- The main loop takes this for a timeout. -/
def timesOut (arrival : Received) : Bool :=
  match recvFrom ACK_BUFFER_SIZE arrival with
  | none => true
  | some (_, recvBuf) => recvBuf.length < CUSTOM_UDP_HEADER_SIZE

section

variable {α : Type} [Double α]

/-- The number of a datagram, if it is a valid ACK from the destination. -/
def ackNum? (cfg : RDTWindowSender α) (arrival : Received) : Option UInt32 :=
  match recvFrom ACK_BUFFER_SIZE arrival with
  | none => none
  | some (sender, recvBuf) =>
    let ackHdr := deserializeHeader recvBuf
    if CUSTOM_UDP_HEADER_SIZE ≤ recvBuf.length ∧
        verifyChecksum ackHdr (recvBuf.drop CUSTOM_UDP_HEADER_SIZE) = true ∧
        hasFlag ackHdr FLAG_ACK = true ∧ sender = cfg.dest then some ackHdr.ackNum
    else none

namespace SenderState

variable {cfg : RDTWindowSender α} {s s' : SenderState α}

/-- The ACK is the third duplicate. -/
def thirdDuplicate (s : SenderState α) (ackNum : UInt32) : Bool :=
  ¬(s.base ≤ ackNum ∧ ackNum < s.nextSeq ∧ ackNum < s.N) ∧
    (ackNum < s.base ∨ ackNum = UINT32_MAX) ∧
    (if ackNum = s.lastDuplicateAck then s.duplicateAckCount + 1 else 1) ≥ 3

/-- What makes the main loop go back, or give up. -/
def missing (cfg : RDTWindowSender α) (s : SenderState α) (arrival : Received) : Bool :=
  timesOut arrival || (ackNum? cfg arrival).any s.thirdDuplicate

/-- What the main loop does with the outcome of `recvFrom`. -/
inductive AckOutcome (cfg : RDTWindowSender α) (s : SenderState α) (missing : Bool)
    (s' : SenderState α) : Prop
  | goesBack (hmissing : missing = true) (hretry : s.retryRnd < cfg.maxRetransmitRounds)
      (hback : Rollback s s')
  | givesUp (hmissing : missing = true) (hretry : ¬s.retryRnd < cfg.maxRetransmitRounds)
      (hsegs : s'.segs = s.segs) (hbase : s'.base = s.base) (hnext : s'.nextSeq = s.nextSeq)
      (hpoint : s'.point = .returned false)
  | ignores (hmissing : missing = false) (hsegs : s'.segs = s.segs) (hbase : s'.base = s.base)
      (hnext : s'.nextSeq = s.nextSeq) (hretry : s'.retryRnd = s.retryRnd)
      (hpoint : s'.point = .loopHead)
  | slides (hmissing : missing = false) (hsegs : s'.segs = s.segs)
      (hlt : s.base.toNat < s'.base.toNat) (hle : s'.base.toNat ≤ s.nextSeq.toNat)
      (hnext : s'.nextSeq = s.nextSeq) (hretry : s'.retryRnd = 0) (hpoint : s'.point = .loopHead)

theorem onTimeout_outcome (cfg : RDTWindowSender α) (s : SenderState α) :
    AckOutcome cfg s true (s.onTimeout cfg) := by
  by_cases hr : s.retryRnd < cfg.maxRetransmitRounds
  · exact .goesBack rfl hr (onTimeout_rollback hr).1
  · rw [onTimeout]
    dsimp only
    rw [if_pos (by omega)]
    exact .givesUp rfl hr rfl rfl rfl rfl

omit [Double α] in
@[simp] theorem noteWindow_retryRnd (rxWindow : UInt16) (s : SenderState α) :
    (s.noteWindow rxWindow).retryRnd = s.retryRnd := by
  rw [noteWindow]; split_ifs <;> rfl

omit [Double α] in
@[simp] theorem noteWindow_lastDuplicateAck (rxWindow : UInt16) (s : SenderState α) :
    (s.noteWindow rxWindow).lastDuplicateAck = s.lastDuplicateAck := by
  rw [noteWindow]; split_ifs <;> rfl

omit [Double α] in
@[simp] theorem noteWindow_duplicateAckCount (rxWindow : UInt16) (s : SenderState α) :
    (s.noteWindow rxWindow).duplicateAckCount = s.duplicateAckCount := by
  rw [noteWindow]; split_ifs <;> rfl

omit [Double α] in
theorem AckOutcome.of_noteWindow {rxWindow : UInt16} {missing : Bool}
    (h : AckOutcome cfg (s.noteWindow rxWindow) missing s') : AckOutcome cfg s missing s' := by
  cases h with
  | goesBack hmissing hretry hback =>
    rw [noteWindow_retryRnd] at hretry
    exact .goesBack hmissing hretry hback.of_noteWindow
  | givesUp hmissing hretry hsegs hbase hnext hpoint =>
    simp only [noteWindow_retryRnd, noteWindow_segs, noteWindow_base, noteWindow_nextSeq] at *
    exact .givesUp hmissing hretry hsegs hbase hnext hpoint
  | ignores hmissing hsegs hbase hnext hretry hpoint =>
    simp only [noteWindow_retryRnd, noteWindow_segs, noteWindow_base, noteWindow_nextSeq] at *
    exact .ignores hmissing hsegs hbase hnext hretry hpoint
  | slides hmissing hsegs hlt hle hnext hretry hpoint =>
    simp only [noteWindow_segs, noteWindow_base, noteWindow_nextSeq] at *
    exact .slides hmissing hsegs hlt hle hnext hretry hpoint

theorem onDuplicateAck_outcome (cfg : RDTWindowSender α) (s : SenderState α) (ackNum : UInt32)
    {third : Bool} (hthird : third = true ↔
      (if ackNum = s.lastDuplicateAck then s.duplicateAckCount + 1 else 1) ≥ 3) :
    AckOutcome cfg s third (s.onDuplicateAck cfg ackNum) := by
  rw [onDuplicateAck]
  by_cases hlast : ackNum = s.lastDuplicateAck
  · simp only [hlast, if_true] at hthird ⊢
    by_cases hcount : s.duplicateAckCount + 1 ≥ 3
    · rw [if_pos hcount]
      split_ifs with hretry
      · exact .givesUp (hthird.2 hcount) (by omega) rfl rfl rfl rfl
      · exact .goesBack (hthird.2 hcount) (by omega) ⟨rfl, rfl, rfl, rfl, rfl⟩
    · rw [if_neg hcount]
      exact .ignores (by simpa using mt hthird.1 hcount) rfl rfl rfl rfl rfl
  · simp only [hlast, if_false, show ¬(1 : Int) ≥ 3 by decide, iff_false] at hthird ⊢
    exact .ignores (by simpa using hthird) rfl rfl rfl rfl rfl

omit [Double α] in
theorem thirdDuplicate_noteWindow (s : SenderState α) (rxWindow : UInt16) (ackNum : UInt32) :
    (s.noteWindow rxWindow).thirdDuplicate ackNum = s.thirdDuplicate ackNum := by
  simp only [thirdDuplicate, noteWindow_base, noteWindow_nextSeq, noteWindow_N,
    noteWindow_lastDuplicateAck, noteWindow_duplicateAckCount]

theorem onAck_outcome (cfg : RDTWindowSender α) (s : SenderState α) (ackNum : UInt32)
    (rxWindow : UInt16) :
    AckOutcome cfg s (s.thirdDuplicate ackNum) (s.onAck cfg ackNum rxWindow) := by
  refine @AckOutcome.of_noteWindow _ _ _ _ rxWindow _ ?_
  rw [← s.thirdDuplicate_noteWindow rxWindow, onAck]
  generalize s.noteWindow rxWindow = s
  by_cases hnew : s.base ≤ ackNum ∧ ackNum < s.nextSeq ∧ ackNum < s.N
  · -- A segment that was sent, and not acknowledged before.
    rw [if_pos hnew]
    have hle := UInt32.le_iff_toNat_le.1 hnew.1
    have hlt := UInt32.lt_iff_toNat_lt.1 hnew.2.1
    have hsucc := toNat_succ hnew.2.1
    refine .slides (by simp [thirdDuplicate, hnew]) rfl ?_ ?_ rfl rfl rfl
    · show s.base.toNat < (ackNum + 1).toNat
      omega
    · show (ackNum + 1).toNat ≤ s.nextSeq.toNat
      omega
  · rw [if_neg hnew]
    by_cases hdup : ackNum < s.base ∨ ackNum = UINT32_MAX
    · rw [if_pos hdup]
      refine onDuplicateAck_outcome cfg s ackNum ?_
      rw [thirdDuplicate, decide_eq_true_iff]
      exact ⟨fun h => h.2.2, fun h => ⟨hnew, hdup, h⟩⟩
    · rw [if_neg hdup]
      exact .ignores (by simp [thirdDuplicate, hdup]) rfl rfl rfl rfl rfl

/-- What the main loop does with the outcome of `recvFrom`, short of a cancellation. -/
theorem receive_outcome (cfg : RDTWindowSender α) (hp : s.point = .awaitAck) (arrival : Received) :
    AckOutcome cfg s (s.missing cfg arrival) (s.receive cfg false arrival) := by
  simp only [receive, hp, missing, timesOut, ackNum?, Bool.false_eq_true, if_false]
  cases recvFrom ACK_BUFFER_SIZE arrival with
  | none => exact onTimeout_outcome cfg s
  | some arrival =>
    obtain ⟨sender, recvBuf⟩ := arrival
    dsimp only
    -- What has no room for a header counts as a timeout.
    by_cases hlen : recvBuf.length < CUSTOM_UDP_HEADER_SIZE
    · rw [if_pos hlen, decide_eq_true hlen, Bool.true_or]
      exact onTimeout_outcome cfg s
    · rw [if_neg hlen, decide_eq_false hlen, Bool.false_or]
      by_cases h : verifyChecksum (deserializeHeader recvBuf)
          (recvBuf.drop CUSTOM_UDP_HEADER_SIZE) = true ∧
          hasFlag (deserializeHeader recvBuf) FLAG_ACK = true ∧ sender = cfg.dest
      · rw [if_pos ⟨not_lt.1 hlen, h⟩, onDatagram_of_ack cfg h.1 h.2.1 h.2.2]
        exact onAck_outcome cfg s _ _
      · rw [if_neg fun h' => h h'.2, onDatagram_ignored cfg h]
        exact .ignores rfl rfl rfl rfl rfl rfl

end SenderState

/-- The machine of a call of `sendData`, which waits for nothing but datagrams. -/
def sending (cfg : RDTWindowSender α) (data : Bytes) : Machine (SenderState α) SenderEvent where
  init := {s | SenderState.init cfg data = some s}
  step
    | .advance cancelled sendOk, s =>
      if s.point.runs then some (s.advance cfg cancelled sendOk).1 else none
    | .receive cancelled arrival, s =>
      if s.point.waits then some (s.receive cfg cancelled arrival) else none

theorem sending_step {cfg : RDTWindowSender α} {data : Bytes} {s s' : SenderState α}
    {e : SenderEvent} (h : (sending cfg data).step e s = some s') :
    (∃ cancelled sendOk, e = .advance cancelled sendOk ∧ s.point.runs = true ∧
      s' = (s.advance cfg cancelled sendOk).1) ∨
    (∃ cancelled arrival, e = .receive cancelled arrival ∧ s.point.waits = true ∧
      s' = s.receive cfg cancelled arrival) := by
  cases e with
  | advance cancelled sendOk =>
    obtain ⟨hruns, hs⟩ := Option.ite_none_right_eq_some.1 h
    exact .inl ⟨cancelled, sendOk, rfl, hruns, (Option.some.inj hs).symm⟩
  | receive cancelled arrival =>
    obtain ⟨hwaits, hs⟩ := Option.ite_none_right_eq_some.1 h
    exact .inr ⟨cancelled, arrival, rfl, hwaits, (Option.some.inj hs).symm⟩

/-- A datagram is a segment. -/
def isData (datagram : Bytes) : Bool := hasFlag (deserializeHeader datagram) FLAG_DATA

/-- What is observed of a move. -/
def effort (cfg : RDTWindowSender α) (s : SenderState α) : SenderEvent → Option Effort
  | .advance cancelled sendOk =>
    if (s.advance cfg cancelled sendOk).2.any isData then some .transmits else none
  | .receive cancelled arrival =>
    let s' := s.receive cfg cancelled arrival
    if s.base < s'.base then some .slides
    else if s.point = .awaitAck ∧ cancelled = false ∧ s.missing cfg arrival ∧
        s'.point = .loopHead then some .goesBack
    else none

theorem isData_sendSegment (n : UInt32) (payload : Bytes) (w : UInt16) :
    isData (sendSegment n payload w) = true := by
  rw [isData, sendSegment, deserializeHeader_packet, hasFlag_stamp, hasFlag_dataHeader_data]

theorem isData_sendFIN (n : UInt32) (w : UInt16) : isData (sendFIN n w) = false := by
  rw [isData, sendFIN, deserializeHeader_packet, hasFlag_stamp]
  simp only [finHeader, hasFlag, setFlag, FLAG_FIN, FLAG_DATA]
  decide

/-- A round of the FIN phase sends a FIN, at most. -/
theorem SenderState.advance_finHead_cases {s : SenderState α} {attempt : Int}
    (hp : s.point = .finHead attempt) (cfg : RDTWindowSender α) (cancelled sendOk : Bool) :
    ∃ point sent, s.advance cfg cancelled sendOk = ({ s with point }, sent) ∧
      sent.any isData = false ∧ (point = .awaitFinAck attempt ∨ point = .returned false) := by
  simp only [advance, hp]
  split_ifs
  · exact ⟨_, _, rfl, rfl, .inr rfl⟩
  · exact ⟨_, _, rfl, by simp [isData_sendFIN], .inl rfl⟩
  · exact ⟨_, _, rfl, rfl, .inr rfl⟩

/-- The widest window. -/
def RDTWindowSender.widest (cfg : RDTWindowSender α) : Nat := max 1 cfg.maxWindowSegments.toNat

/-! ## The account -/

/-- The sender stays within the window, and what it has sent is paid for: by the segments
    acknowledged, the rounds of going back, and what is on its way. -/
structure Spent (cfg : RDTWindowSender α) (segs : List Bytes) (R : Nat) (s : SenderState α)
    (history : List Effort) : Prop where
  segs_eq : s.segs = segs
  base_le : s.base.toNat ≤ s.nextSeq.toNat
  nextSeq_le : s.nextSeq.toNat ≤ segs.length
  window : s.nextSeq.toNat ≤ s.base.toNat + cfg.widest
  sending_le : ∀ wnd, s.point = .sending wnd → wnd.toNat ≤ cfg.widest
  sending_lt : ∀ wnd, s.point = .sending wnd → s.base.toNat < segs.length
  awaitAck_lt : s.point = .awaitAck → s.base.toNat < segs.length
  rounds_le : roundsSince history ≤ R
  rounds_eq : s.point ≠ .returned false → (roundsSince history : Int) = s.retryRnd
  done : s.base.toNat = segs.length → roundsSince history = 0
  spent : history.count .transmits ≤ s.base.toNat * ((R + 1) * cfg.widest) +
    roundsSince history * cfg.widest + (s.nextSeq.toNat - s.base.toNat)

namespace Spent

variable {cfg : RDTWindowSender α} {segs : List Bytes} {R : Nat} {s s' : SenderState α}
  {history : List Effort}

omit [Double α] in
/-- A move to a point outside of the window's loop that costs nothing. -/
theorem of_point (h : Spent cfg segs R s history) {point : SenderPoint}
    (hsending : ∀ wnd, point ≠ .sending wnd) (hwait : point ≠ .awaitAck)
    (hreturned : s.point = .returned false → point = .returned false) :
    Spent cfg segs R { s with point } history where
  segs_eq := h.segs_eq
  base_le := h.base_le
  nextSeq_le := h.nextSeq_le
  window := h.window
  sending_le wnd hwnd := absurd hwnd (hsending wnd)
  sending_lt wnd hwnd := absurd hwnd (hsending wnd)
  awaitAck_lt hp := absurd hp hwait
  rounds_le := h.rounds_le
  rounds_eq hp := h.rounds_eq (mt hreturned hp)
  done := h.done
  spent := h.spent

omit [Double α] in
theorem N_toNat (h : Spent cfg segs R s history) (hfits : SenderState.Fits cfg segs) :
    s.N.toNat = segs.length := by
  rw [SenderState.N, h.segs_eq]
  exact UInt32.toNat_ofNat_of_lt' hfits.length_lt

omit [Double α] in
/-- Sending a segment widens what is on its way. -/
theorem transmit (h : Spent cfg segs R s history) (hfits : SenderState.Fits cfg segs)
    {wnd : UInt32} (hp : s.point = .sending wnd)
    (hnext : s.nextSeq < s.N ∧ s.nextSeq < s.base + wnd) :
    Spent cfg segs R
      { s with totalPacketsSent := s.totalPacketsSent + 1, nextSeq := s.nextSeq + 1 }
      (.transmits :: history) := by
  have hwnd := h.sending_le wnd hp
  have hlt := UInt32.lt_iff_toNat_lt.1 hnext.1
  have hopen := UInt32.lt_iff_toNat_lt.1 hnext.2
  have hsucc := SenderState.toNat_succ hnext.1
  have hbase := h.base_le
  have hspent := h.spent
  have hroom : segs.length + cfg.widest < 2 ^ 32 := hfits
  rw [h.N_toNat hfits] at hlt
  -- There is room for the window in 32 bits.
  rw [UInt32.toNat_add, Nat.mod_eq_of_lt (by omega)] at hopen
  refine ⟨h.segs_eq, ?_, ?_, ?_, h.sending_le, h.sending_lt, h.awaitAck_lt, h.rounds_le,
    h.rounds_eq, h.done, ?_⟩
  · show s.base.toNat ≤ (s.nextSeq + 1).toNat
    omega
  · show (s.nextSeq + 1).toNat ≤ segs.length
    omega
  · show (s.nextSeq + 1).toNat ≤ s.base.toNat + cfg.widest
    omega
  · show (Effort.transmits :: history).count .transmits ≤
      s.base.toNat * ((R + 1) * cfg.widest) + roundsSince history * cfg.widest +
        ((s.nextSeq + 1).toNat - s.base.toNat)
    rw [List.count_cons_self]
    omega

theorem advance (h : Spent cfg segs R s history) (hfits : SenderState.Fits cfg segs)
    {cancelled sendOk : Bool} (hruns : s.point.runs = true) :
    Spent cfg segs R (s.advance cfg cancelled sendOk).1
      ((effort cfg s (.advance cancelled sendOk)).toList ++ history) := by
  have hN := h.N_toNat hfits
  cases hp : s.point with
  | loopHead =>
    have hne : s.point ≠ .returned false := by simp [hp]
    by_cases hb : s.base < s.N
    · cases cancelled with
      | true =>
        simp only [effort, SenderState.advance, hp, hb, if_true]
        exact h.of_point (fun _ => SenderPoint.noConfusion) SenderPoint.noConfusion fun _ => rfl
      | false =>
        -- The window is computed, and nothing sent yet.
        rw [effort, SenderState.advance_loopHead hp hb]
        have hlt := UInt32.lt_iff_toNat_lt.1 hb
        rw [hN] at hlt
        obtain ⟨_, hle⟩ := SenderState.computeEffectiveWindow_bounds cfg s
        refine ⟨h.segs_eq, h.base_le, h.nextSeq_le, h.window, fun wnd hwnd => ?_, fun _ _ => hlt,
          fun _ => hlt, h.rounds_le, fun _ => h.rounds_eq hne, h.done, h.spent⟩
        cases hwnd
        exact hle
    · rw [effort, SenderState.advance_loopHead_done hp hb]
      refine h.of_point (fun _ => SenderPoint.noConfusion) SenderPoint.noConfusion fun hr => ?_
      exact absurd hr hne
  | sending wnd =>
    by_cases hnext : s.nextSeq < s.N ∧ s.nextSeq < s.base + wnd
    · cases sendOk with
      | true =>
        -- A segment goes out, and is counted.
        rw [effort, SenderState.advance_sending hp hnext]
        simp only [List.any_cons, isData_sendSegment, Bool.true_or, if_true]
        exact h.transmit hfits hp hnext
      | false =>
        simp only [effort, SenderState.advance, hp, hnext]
        exact h.of_point (fun _ => SenderPoint.noConfusion) SenderPoint.noConfusion fun _ => rfl
    · rw [effort, SenderState.advance_sending_done hp hnext]
      exact ⟨h.segs_eq, h.base_le, h.nextSeq_le, h.window, fun _ => SenderPoint.noConfusion,
        fun _ => SenderPoint.noConfusion, fun _ => h.sending_lt wnd hp, h.rounds_le,
        fun _ => h.rounds_eq (by simp [hp]), h.done, h.spent⟩
  | finHead attempt =>
    -- A FIN is no segment.
    obtain ⟨point, sent, heq, hsent, hpoint⟩ := SenderState.advance_finHead_cases hp cfg cancelled sendOk
    simp only [effort, heq, hsent, Bool.false_eq_true, if_false]
    refine h.of_point (fun wnd => ?_) ?_ fun hr => ?_
    · rcases hpoint with rfl | rfl <;> exact SenderPoint.noConfusion
    · rcases hpoint with rfl | rfl <;> exact SenderPoint.noConfusion
    · rw [hp] at hr
      cases hr
  | awaitAck | awaitFinAck _ | returned _ => simp [hp, SenderPoint.runs] at hruns

omit [Double α] in
/-- A move out of the window's loop that leaves the numbers alone costs nothing. -/
theorem stays (h : Spent cfg segs R s history) (hsegs : s'.segs = s.segs) (hbase : s'.base = s.base)
    (hnext : s'.nextSeq = s.nextSeq) (hpoint : s'.point = .loopHead ∨ s'.point = .returned false)
    (hretry : s'.point ≠ .returned false → (roundsSince history : Int) = s'.retryRnd) :
    Spent cfg segs R s' history := by
  refine ⟨hsegs.trans h.segs_eq, ?_, ?_, ?_, ?_, ?_, ?_, h.rounds_le, hretry, ?_, ?_⟩
  · rw [hbase, hnext]
    exact h.base_le
  · rw [hnext]
    exact h.nextSeq_le
  · rw [hbase, hnext]
    exact h.window
  · rcases hpoint with hp | hp <;> simp [hp]
  · rcases hpoint with hp | hp <;> simp [hp]
  · rcases hpoint with hp | hp <;> simp [hp]
  · rw [hbase]
    exact h.done
  · rw [hbase, hnext]
    exact h.spent

/-- Going back costs a round, and sliding the window pays for all of them. -/
theorem receive_awaitAck (h : Spent cfg segs R s history) (hR : cfg.maxRetransmitRounds = R)
    (hp : s.point = .awaitAck) (arrival : Received) :
    Spent cfg segs R (s.receive cfg false arrival)
      ((effort cfg s (.receive false arrival)).toList ++ history) := by
  have hlt := h.awaitAck_lt hp
  have hrounds := h.rounds_eq (by simp [hp])
  have hbase := h.base_le
  have hwindow := h.window
  have hspent := h.spent
  have houtcome := SenderState.receive_outcome cfg hp arrival
  rw [effort]
  generalize s.receive cfg false arrival = s' at houtcome
  cases houtcome with
  | goesBack hmissing hretry hback =>
    rw [hback.base, if_neg (UInt32.lt_irrefl _), if_pos ⟨hp, rfl, hmissing, hback.point⟩]
    have hround : roundsSince ((some Effort.goesBack).toList ++ history) =
        roundsSince history + 1 := roundsSince_goesBack history
    refine ⟨hback.segs.trans h.segs_eq, ?_, ?_, ?_, ?_, ?_, ?_, by omega, fun _ => ?_, ?_, ?_⟩
    · rw [hback.base, hback.nextSeq]
    · rw [hback.nextSeq]
      exact hlt.le
    · rw [hback.base, hback.nextSeq]
      exact Nat.le_add_right _ _
    · simp [hback.point]
    · simp [hback.point]
    · simp [hback.point]
    · rw [hback.retryRnd, ← hrounds, hround]
      rfl
    · rw [hback.base]
      exact fun h => absurd h hlt.ne
    · -- What was on its way is at most a window, which the round pays for.
      have hpaid : (roundsSince history + 1) * cfg.widest =
          roundsSince history * cfg.widest + cfg.widest := Nat.succ_mul _ _
      rw [hback.base, hback.nextSeq, hround, Option.toList_some, List.singleton_append,
        List.count_cons_of_ne (by decide)]
      omega
  | givesUp hmissing hretry hsegs hbase' hnext hpoint =>
    rw [hbase', if_neg (UInt32.lt_irrefl _), if_neg (by simp [hpoint])]
    exact h.stays hsegs hbase' hnext (.inr hpoint) fun hne => absurd hpoint hne
  | ignores hmissing hsegs hbase' hnext hretry hpoint =>
    rw [hbase', if_neg (UInt32.lt_irrefl _), if_neg (by simp [hmissing])]
    refine h.stays hsegs hbase' hnext (.inl hpoint) fun _ => ?_
    rwa [hretry]
  | slides hmissing hsegs hlt' hle hnext hretry hpoint =>
    rw [if_pos (UInt32.lt_iff_toNat_lt.2 hlt')]
    refine ⟨hsegs.trans h.segs_eq, ?_, ?_, ?_, ?_, ?_, ?_, Nat.zero_le _, fun _ => ?_,
      fun _ => rfl, ?_⟩
    · rwa [hnext]
    · rw [hnext]
      exact h.nextSeq_le
    · rw [hnext]
      omega
    · simp [hpoint]
    · simp [hpoint]
    · simp [hpoint]
    · rw [hretry]
      rfl
    · -- The segment at the old `base` pays for all rounds, and for the window.
      have hround : roundsSince history * cfg.widest ≤ R * cfg.widest :=
        Nat.mul_le_mul_right _ h.rounds_le
      have hpaid : (s.base.toNat + 1) * ((R + 1) * cfg.widest) ≤
          s'.base.toNat * ((R + 1) * cfg.widest) := Nat.mul_le_mul_right _ hlt'
      have hsplit : (s.base.toNat + 1) * ((R + 1) * cfg.widest) =
          s.base.toNat * ((R + 1) * cfg.widest) + R * cfg.widest + cfg.widest := by ring
      rw [hnext, Option.toList_some, List.singleton_append, List.count_cons_of_ne (by decide),
        roundsSince_slides]
      omega

theorem receive (h : Spent cfg segs R s history) (hR : cfg.maxRetransmitRounds = R)
    {cancelled : Bool} {arrival : Received} (hwaits : s.point.waits = true) :
    Spent cfg segs R (s.receive cfg cancelled arrival)
      ((effort cfg s (.receive cancelled arrival)).toList ++ history) := by
  cases hp : s.point with
  | awaitAck =>
    cases cancelled with
    | false => exact h.receive_awaitAck hR hp arrival
    | true =>
      rw [effort, SenderState.receive_cancelled hp]
      simp only [UInt32.lt_irrefl, if_false, Bool.true_eq_false, false_and, and_false]
      exact h.of_point (fun _ => SenderPoint.noConfusion) SenderPoint.noConfusion fun _ => rfl
  | awaitFinAck attempt =>
    have hreturned : ∀ point : SenderPoint, s.point = .returned false → point = .returned false := by
      simp [hp]
    rcases SenderState.receive_awaitFinAck_cases hp cfg cancelled arrival with heq | heq
    all_goals
      rw [effort, heq]
      simp only [UInt32.lt_irrefl, if_false, hp]
      exact h.of_point (fun _ => SenderPoint.noConfusion) SenderPoint.noConfusion (hreturned _)
  | loopHead | sending _ | finHead _ | returned _ => simp [hp, SenderPoint.waits] at hwaits

omit [Double α] in
/-- The segments sent are at most a window for each segment and each round. -/
theorem count_le (h : Spent cfg segs R s history) :
    history.count .transmits ≤ segs.length * (R + 1) * cfg.widest := by
  have hspent := h.spent
  have hbase := h.base_le
  have hnext := h.nextSeq_le
  have hwindow := h.window
  rw [Nat.mul_assoc]
  rcases (hbase.trans hnext).eq_or_lt with hdone | hlt
  · -- With everything acknowledged, nothing is on its way.
    rw [h.done hdone, hdone] at hspent
    omega
  · -- The segment at `base` pays for the rounds, and for what is on its way.
    have hround : roundsSince history * cfg.widest ≤ R * cfg.widest :=
      Nat.mul_le_mul_right _ h.rounds_le
    have hpaid : (s.base.toNat + 1) * ((R + 1) * cfg.widest) ≤
        segs.length * ((R + 1) * cfg.widest) := Nat.mul_le_mul_right _ hlt
    have hsplit : (s.base.toNat + 1) * ((R + 1) * cfg.widest) =
        s.base.toNat * ((R + 1) * cfg.widest) + R * cfg.widest + cfg.widest := by ring
    omega

end Spent

/-- The account is kept from the start of the call on. -/
theorem spent {cfg : RDTWindowSender α} {data : Bytes} {segs : List Bytes} {R : Nat}
    (hsegs : segments cfg.mss data = some segs) (hR : cfg.maxRetransmitRounds = R)
    (hfits : SenderState.Fits cfg segs) {s : SenderState α} {history : List Effort}
    (h : ((sending cfg data).recording (effort cfg)).Reachable (s, history)) :
    Spent cfg segs R s history := by
  refine Machine.recording_invariant h ?_ ?_
  · intro s hs
    have hinit : SenderState.init cfg data = some s := hs
    rw [SenderState.init, hsegs] at hinit
    cases hinit
    -- Nothing has been sent yet, and there is a segment to send.
    have hne := List.length_pos_of_ne_nil (segments_ne_nil hsegs)
    refine ⟨rfl, le_rfl, Nat.zero_le _, Nat.zero_le _, ?_, ?_, ?_, Nat.zero_le _, fun _ => rfl,
      fun _ => rfl, Nat.zero_le _⟩
    · exact fun _ => SenderPoint.noConfusion
    · exact fun _ => SenderPoint.noConfusion
    · exact SenderPoint.noConfusion
  · intro s history e s' hI hs
    rcases sending_step hs with ⟨_, _, rfl, hruns, rfl⟩ | ⟨_, _, rfl, hwaits, rfl⟩
    · exact hI.advance hfits hruns
    · exact hI.receive hR hwaits

/-- Whatever datagrams arrive, the sender stays within the widest window, goes back at
    most `R` times before `base` is increased, and sends at most `R + 1` windows for
    each segment. -/
theorem effort_bounded {cfg : RDTWindowSender α} {data : Bytes} {segs : List Bytes} {R : Nat}
    (hsegs : segments cfg.mss data = some segs) (hR : cfg.maxRetransmitRounds = R)
    (hfits : segs.length + cfg.widest < 2 ^ 32) {s : SenderState α} {history : List Effort}
    (h : ((sending cfg data).recording (effort cfg)).Reachable (s, history)) :
    s.base.toNat ≤ s.nextSeq.toNat ∧ s.nextSeq.toNat ≤ s.base.toNat + cfg.widest ∧
      roundsSince history ≤ R ∧
      history.count .transmits ≤ segs.length * (R + 1) * cfg.widest := by
  have hspent := spent hsegs hR hfits h
  exact ⟨hspent.base_le, hspent.window, hspent.rounds_le, hspent.count_le⟩

end

/-- The first of three segments is sent again after a timeout. -/
theorem effort_bounded_timeout : ∃ s : SenderState ℚ,
    ((sending closing [1, 2, 3]).recording (effort closing)).Reachable
        (s, [.transmits, .goesBack, .transmits]) ∧
      s.base.toNat ≤ s.nextSeq.toNat ∧ s.nextSeq.toNat ≤ s.base.toNat + closing.widest ∧
      roundsSince [.transmits, .goesBack, .transmits] ≤ 10 ∧
      List.count Effort.transmits [.transmits, .goesBack, .transmits] ≤
        3 * (10 + 1) * closing.widest := by
  have hstart : ∀ s ∈ (SenderState.init closing [1, 2, 3]).map (·, []),
      s ∈ ((sending closing [1, 2, 3]).recording (effort closing)).init := by
    intro s hs
    obtain ⟨sender, hsender, rfl⟩ := Option.map_eq_some_iff.1 hs
    exact ⟨hsender, rfl⟩
  obtain ⟨⟨s, history⟩, hreach, hP⟩ :=
    ((sending closing [1, 2, 3]).recording (effort closing)).exists_reachableBy_of_run
      (fun _ _ => True) hstart
      [.advance false true, .advance false true, .advance false true, .receive false none,
        .advance false true, .advance false true]
      (fun s => s.2 = [.transmits, .goesBack, .transmits]) (by decide +kernel)
  obtain rfl : history = [.transmits, .goesBack, .transmits] := of_decide_eq_true hP
  have hsegs : segments closing.mss [1, 2, 3] = some [[1], [2], [3]] := by decide +kernel
  exact ⟨s, hreach, effort_bounded hsegs (by decide +kernel) (by decide +kernel) hreach⟩

end HybridFtp
