import HybridFtp.Rdt.Silence

/-!
# Cancellation

What the two sides of a transfer do once they are told to stop: each time that the
callback is read from then on, it says so. Whatever arrives meanwhile, each side waits
for one datagram at most.

* `Ahead`: the window of the sender, at its points;
* `cancelledLeft`: the moves the sender has left, at most the rest of its window;
* `sentAlong`: what is sent along a run, which `Remainder` describes;
* `stops_when_cancelled`: both sides return, after no more than that.
-/

namespace HybridFtp

/-- The callback says that the transfer is cancelled. -/
def SenderEvent.Cancels : SenderEvent → Prop
  | .advance cancelled _ => cancelled = true
  | .receive cancelled _ => cancelled = true

instance : DecidablePred SenderEvent.Cancels
  | .advance cancelled _ => inferInstanceAs (Decidable (cancelled = true))
  | .receive cancelled _ => inferInstanceAs (Decidable (cancelled = true))

/-- The callback says that the transfer is cancelled. -/
def ReceiverEvent.Cancels : ReceiverEvent → Prop
  | .advance cancelled => cancelled = true
  | .receive cancelled _ => cancelled = true

instance : DecidablePred ReceiverEvent.Cancels
  | .advance cancelled => inferInstanceAs (Decidable (cancelled = true))
  | .receive cancelled _ => inferInstanceAs (Decidable (cancelled = true))

/-! ## The sender -/

section

variable {α : Type} [Double α] {cfg : RDTWindowSender α} {data : Bytes} {s s' : SenderState α}
  {es : List SenderEvent}

/-- The sender is not behind what is acknowledged, and sends no more than the widest
    window. -/
structure Ahead (cfg : RDTWindowSender α) (s : SenderState α) : Prop where
  base_le : s.base.toNat ≤ s.nextSeq.toNat
  sending_le : ∀ wnd, s.point = .sending wnd → wnd.toNat ≤ cfg.widest

omit [Double α] in
theorem Ahead.of_point (h : Ahead cfg s) {point : SenderPoint} (hp : ∀ wnd, point ≠ .sending wnd) :
    Ahead cfg { s with point } :=
  ⟨h.base_le, fun wnd hwnd => absurd hwnd (hp wnd)⟩

theorem Ahead.advance (h : Ahead cfg s) (cancelled sendOk : Bool) :
    Ahead cfg (s.advance cfg cancelled sendOk).1 := by
  cases hp : s.point with
  | loopHead =>
    simp only [SenderState.advance, hp]
    split_ifs
    · exact h.of_point fun _ => SenderPoint.noConfusion
    · refine ⟨h.base_le, fun wnd hwnd => ?_⟩
      cases hwnd
      exact (SenderState.computeEffectiveWindow_bounds cfg s).2
    · exact h.of_point fun _ => SenderPoint.noConfusion
  | sending wnd =>
    simp only [SenderState.advance, hp]
    split_ifs with hnext
    · refine ⟨?_, fun wnd' hwnd' => h.sending_le wnd' (hp.trans hwnd')⟩
      rw [SenderState.toNat_succ hnext.1]
      exact Nat.le_succ_of_le h.base_le
    · exact h.of_point fun _ => SenderPoint.noConfusion
    · exact h.of_point fun _ => SenderPoint.noConfusion
  | finHead attempt =>
    simp only [SenderState.advance, hp]
    split_ifs
    all_goals exact h.of_point fun _ => SenderPoint.noConfusion
  | awaitAck | awaitFinAck _ | returned _ => simpa only [SenderState.advance, hp] using h

theorem Ahead.receive (h : Ahead cfg s) {cancelled : Bool} {arrival : Received}
    (hwaits : s.point.waits = true) : Ahead cfg (s.receive cfg cancelled arrival) := by
  cases hp : s.point with
  | awaitAck =>
    cases cancelled with
    | true =>
      rw [SenderState.receive_cancelled hp]
      exact h.of_point fun _ => SenderPoint.noConfusion
    | false =>
      cases SenderState.receive_outcome cfg hp arrival with
      | goesBack _ _ hback =>
        exact ⟨by rw [hback.base, hback.nextSeq], by simp [hback.point]⟩
      | givesUp _ _ _ hbase hnext hpoint =>
        exact ⟨by rw [hbase, hnext]; exact h.base_le, by simp [hpoint]⟩
      | ignores _ _ hbase hnext _ hpoint =>
        exact ⟨by rw [hbase, hnext]; exact h.base_le, by simp [hpoint]⟩
      | slides _ _ _ hle hnext _ hpoint => exact ⟨by rwa [hnext], by simp [hpoint]⟩
  | awaitFinAck attempt =>
    rcases SenderState.receive_awaitFinAck_cases hp cfg cancelled arrival with heq | heq
    · rw [heq]
      exact h.of_point fun _ => SenderPoint.noConfusion
    · rw [heq]
      exact h.of_point fun _ => SenderPoint.noConfusion
  | loopHead | sending _ | finHead _ | returned _ => simp [hp, SenderPoint.waits] at hwaits

theorem ahead (h : (sending cfg data).Reachable s) : Ahead cfg s := by
  refine h.invariant ?_ ?_
  · rintro s hs
    obtain ⟨segs, _, rfl⟩ := Option.map_eq_some_iff.1 hs
    exact ⟨le_rfl, fun _ => SenderPoint.noConfusion⟩
  · intro s e s' hahead hs
    rcases sending_step hs with ⟨cancelled, sendOk, rfl, _, rfl⟩ | ⟨_, _, rfl, hwaits, rfl⟩
    · exact hahead.advance cancelled sendOk
    · exact hahead.receive hwaits

/-- How many segments of its window the sender has not sent yet. -/
def windowLeft (s : SenderState α) : Nat :=
  match s.point with
  | .sending wnd => s.base.toNat + wnd.toNat - s.nextSeq.toNat
  | .loopHead | .awaitAck | .finHead _ | .awaitFinAck _ | .returned _ => 0

/-- The moves the sender has left, once it is cancelled. The loop that sends the window does
    not read the callback. -/
def cancelledLeft (s : SenderState α) : Nat :=
  match s.point with
  | .loopHead => 2
  | .sending _ => windowLeft s + 2
  | .awaitAck => 1
  | .finHead _ => 1
  -- The FIN phase reads the callback before it sends the next FIN.
  | .awaitFinAck _ => 2
  | .returned _ => 0

/-- The datagrams the sender waits for, once it is cancelled. -/
def cancelledWaits (s : SenderState α) : Nat :=
  match s.point with
  | .sending _ | .awaitAck | .awaitFinAck _ => 1
  | .loopHead | .finHead _ | .returned _ => 0

/-- What is sent along a run. -/
def sentAlong (cfg : RDTWindowSender α) : List SenderEvent → SenderState α → List Bytes
  | [], _ => []
  | .advance cancelled sendOk :: es, s =>
    (s.advance cfg cancelled sendOk).2 ++ sentAlong cfg es (s.advance cfg cancelled sendOk).1
  | .receive cancelled arrival :: es, s => sentAlong cfg es (s.receive cfg cancelled arrival)

/-- The next segments of the window that is being sent, `count` of them. -/
def nextSegments (s : SenderState α) (count : Nat) : List Bytes :=
  match s.point with
  | .sending wnd => (List.range count).map fun i =>
    let n := s.nextSeq + UInt32.ofNat i
    sendSegment n (s.segs.getD n.toNat []) wnd.toUInt16
  | .loopHead | .awaitAck | .finHead _ | .awaitFinAck _ | .returned _ => []

/-- What a sender that is cancelled does in one move: it returns, it goes on to where it
    will, or it sends a segment of its window. -/
inductive CancelledMove (s s' : SenderState α) (sent : List Bytes) (waited : Bool) : Prop
  | returns (ok : Bool) (hlive : ∀ ok, s.point ≠ .returned ok)
      (hwaits : waited = true → s.point.waits = true)
      (hok : ok = true → ∃ attempt, s.point = .awaitFinAck attempt)
      (hs' : s' = { s with point := .returned ok }) (hsent : sent = [])
  | finishes (hp : s.point = .loopHead) (hwaited : waited = false)
      (hs' : s' = { s with point := .finHead 0 }) (hsent : sent = [])
  | givesUp (attempt : Int) (hp : s.point = .awaitFinAck attempt)
      (hs' : s' = { s with point := .finHead (attempt + 1) }) (hsent : sent = [])
  | sends (wnd : UInt32) (hp : s.point = .sending wnd) (hwaited : waited = false)
      (hnext : s.nextSeq < s.N ∧ s.nextSeq < s.base + wnd)
      (hs' : s' =
        { s with totalPacketsSent := s.totalPacketsSent + 1, nextSeq := s.nextSeq + 1 })
      (hsent : sent = [sendSegment s.nextSeq (s.segs.getD s.nextSeq.toNat []) wnd.toUInt16])
  | drained (wnd : UInt32) (hp : s.point = .sending wnd) (hwaited : waited = false)
      (hs' : s' = { s with point := .awaitAck }) (hsent : sent = [])

theorem cancelledMove_advance (hruns : s.point.runs = true) (cfg : RDTWindowSender α)
    (sendOk : Bool) : CancelledMove s (s.advance cfg true sendOk).1 (s.advance cfg true sendOk).2
      false := by
  cases hp : s.point with
  | loopHead =>
    simp only [SenderState.advance, hp]
    split_ifs
    · exact .returns false (by simp [hp]) (by simp) (by simp) rfl rfl
    · exact .finishes hp rfl rfl rfl
  | sending wnd =>
    by_cases hnext : s.nextSeq < s.N ∧ s.nextSeq < s.base + wnd
    · cases sendOk with
      | true =>
        rw [SenderState.advance_sending hp hnext]
        exact .sends wnd hp rfl hnext rfl rfl
      | false =>
        simp only [SenderState.advance, hp, hnext]
        exact .returns false (by simp [hp]) (by simp) (by simp) rfl rfl
    · rw [SenderState.advance_sending_done hp hnext]
      exact .drained wnd hp rfl rfl rfl
  | finHead attempt =>
    simp only [SenderState.advance, hp]
    split_ifs
    · exact .returns false (by simp [hp]) (by simp) (by simp) rfl rfl
    · exact .returns false (by simp [hp]) (by simp) (by simp) rfl rfl
  | awaitAck | awaitFinAck _ | returned _ => simp [hp, SenderPoint.runs] at hruns

theorem cancelledMove_receive (hwaits : s.point.waits = true) (cfg : RDTWindowSender α)
    (arrival : Received) : CancelledMove s (s.receive cfg true arrival) [] true := by
  cases hp : s.point with
  | awaitAck =>
    rw [SenderState.receive_cancelled hp]
    exact .returns false (by simp [hp]) (fun _ => hwaits) (by simp) rfl rfl
  | awaitFinAck attempt =>
    rcases SenderState.receive_awaitFinAck_cases hp cfg true arrival with heq | heq
    · rw [heq]
      exact .givesUp attempt hp rfl rfl
    · rw [heq]
      exact .returns true (by simp [hp]) (fun _ => hwaits) (fun _ => ⟨attempt, hp⟩) rfl rfl
  | loopHead | sending _ | finHead _ | returned _ => simp [hp, SenderPoint.waits] at hwaits

omit [Double α] in
/-- A segment that is sent is one of the window. -/
theorem windowLeft_sends {wnd : UInt32} (hp : s.point = .sending wnd)
    (hnext : s.nextSeq < s.N ∧ s.nextSeq < s.base + wnd) :
    windowLeft { s with totalPacketsSent := s.totalPacketsSent + 1, nextSeq := s.nextSeq + 1 } + 1 =
      windowLeft s := by
  have hsucc := SenderState.toNat_succ hnext.1
  have hlt := UInt32.lt_iff_toNat_lt.1 hnext.2
  -- Where the sum wraps around, the window only gets smaller.
  have hmod := Nat.mod_le (s.base.toNat + wnd.toNat) (2 ^ 32)
  rw [UInt32.toNat_add] at hlt
  rw [windowLeft, windowLeft, hp]
  dsimp only
  rw [hsucc]
  omega

omit [Double α] in
/-- Each move is one less to come, and so is each datagram that is waited for. -/
theorem CancelledMove.left {sent : List Bytes} {waited : Bool}
    (h : CancelledMove s s' sent waited) : cancelledLeft s' + 1 ≤ cancelledLeft s ∧
      cancelledWaits s' + (if waited then 1 else 0) ≤ cancelledWaits s := by
  cases h with
  | returns ok hlive hwaits _ hs' _ =>
    subst hs'
    constructor
    · show 0 + 1 ≤ cancelledLeft s
      rw [cancelledLeft]
      split
      · omega
      · omega
      · omega
      · omega
      · omega
      · exact absurd ‹_› (hlive _)
    · show 0 + _ ≤ cancelledWaits s
      split
      · have hp := hwaits ‹_›
        rw [SenderPoint.waits.eq_def] at hp
        rw [cancelledWaits]
        split at hp
        all_goals simp_all
      · exact Nat.zero_le _
  | finishes hp hwaited hs' _ =>
    subst hs' hwaited
    simp [cancelledLeft, cancelledWaits, hp]
  | givesUp attempt hp hs' _ =>
    subst hs'
    simp only [cancelledLeft, cancelledWaits, hp]
    exact ⟨le_rfl, by split <;> decide⟩
  | sends wnd hp hwaited hnext hs' _ =>
    have hleft := windowLeft_sends hp hnext
    subst hs' hwaited
    simp only [cancelledLeft, cancelledWaits, hp]
    simp only [hp] at hleft
    exact ⟨by omega, le_rfl⟩
  | drained wnd hp hwaited hs' _ =>
    subst hs' hwaited
    simp [cancelledLeft, cancelledWaits, hp]

omit [Double α] in
theorem nextSegments_zero (s : SenderState α) : nextSegments s 0 = [] := by
  rw [nextSegments.eq_def]
  split <;> rfl

omit [Double α] in
theorem nextSegments_succ {wnd : UInt32} (hp : s.point = .sending wnd) (count : Nat) :
    nextSegments s (count + 1) =
      sendSegment s.nextSeq (s.segs.getD s.nextSeq.toNat []) wnd.toUInt16 ::
        nextSegments { s with
          totalPacketsSent := s.totalPacketsSent + 1
          nextSeq := s.nextSeq + 1 } count := by
  have hshift : ∀ i : Nat, s.nextSeq + UInt32.ofNat (i + 1) = s.nextSeq + 1 + UInt32.ofNat i := by
    intro i
    rw [UInt32.ofNat_add, UInt32.add_comm (UInt32.ofNat i), ← UInt32.add_assoc]
    rfl
  have hzero : s.nextSeq + UInt32.ofNat 0 = s.nextSeq := UInt32.add_zero _
  simp only [nextSegments, hp, List.range_succ_eq_map, List.map_cons, List.map_map, hzero,
    Function.comp_def, hshift]

omit [Double α] in
/-- A move sends the next segment of the window, or no more of them are sent. -/
theorem CancelledMove.sent {sent more : List Bytes} {waited : Bool} {count : Nat}
    (h : CancelledMove s s' sent waited) (hcount : count ≤ windowLeft s')
    (hmore : more = nextSegments s' count) :
    ∃ count ≤ windowLeft s, sent ++ more = nextSegments s count := by
  have hnone : sent ++ more = [] → ∃ count ≤ windowLeft s, sent ++ more = nextSegments s count :=
    fun hnil => ⟨0, Nat.zero_le _, hnil.trans (nextSegments_zero s).symm⟩
  cases h with
  | returns _ _ _ _ hs' hsent =>
    subst hs' hsent hmore
    exact hnone rfl
  | finishes hp _ hs' hsent =>
    subst hs' hsent hmore
    exact hnone rfl
  | givesUp attempt hp hs' hsent =>
    subst hs' hsent hmore
    exact hnone rfl
  | sends wnd hp _ hnext hs' hsent =>
    have hleft := windowLeft_sends hp hnext
    subst hs' hsent hmore
    exact ⟨count + 1, by omega, (nextSegments_succ hp count).symm⟩
  | drained wnd hp _ hs' hsent =>
    subst hs' hsent hmore
    exact hnone rfl

/-- A step of a sender that is cancelled. -/
theorem cancelledMove_of_step {e : SenderEvent} (he : e.Cancels)
    (hstep : (sending cfg data).step e s = some s') :
    CancelledMove s s' (sentAlong cfg [e] s) e.isReceive := by
  rcases sending_step hstep with
    ⟨cancelled, sendOk, rfl, hruns, rfl⟩ | ⟨cancelled, arrival, rfl, hwaits, rfl⟩
  · obtain rfl : cancelled = true := he
    rw [sentAlong, sentAlong, List.append_nil]
    exact cancelledMove_advance hruns cfg sendOk
  · obtain rfl : cancelled = true := he
    exact cancelledMove_receive hwaits cfg arrival

omit [Double α] in
/-- Only a sender that waits for the answer to its FIN may still succeed. -/
theorem CancelledMove.returned {sent : List Bytes} {waited : Bool}
    (h : CancelledMove s s' sent waited) (hs : ∀ attempt, s.point ≠ .awaitFinAck attempt) :
    s'.point ≠ .returned true ∧ ∀ attempt, s'.point ≠ .awaitFinAck attempt := by
  cases h with
  | returns ok _ _ hok hs' _ =>
    subst hs'
    cases ok with
    | true => exact absurd (hok rfl) fun ⟨attempt, hp⟩ => hs attempt hp
    | false => simp
  | finishes _ _ hs' _ =>
    subst hs'
    simp
  | givesUp attempt hp _ _ => exact absurd hp (hs attempt)
  | sends wnd hp _ _ hs' _ =>
    subst hs'
    simp [hp]
  | drained _ _ _ hs' _ =>
    subst hs'
    simp

theorem sentAlong_cons (cfg : RDTWindowSender α) (e : SenderEvent) (es : List SenderEvent)
    (hstep : (sending cfg data).step e s = some s') :
    sentAlong cfg (e :: es) s = sentAlong cfg [e] s ++ sentAlong cfg es s' := by
  rcases sending_step hstep with ⟨_, _, rfl, _, rfl⟩ | ⟨_, _, rfl, _, rfl⟩
  · rw [sentAlong, sentAlong, sentAlong, List.append_nil]
  · rfl

/-- What is sent are the next segments of the window. -/
theorem exists_sentAlong_eq (hrun : (sending cfg data).run (fun _ e => e.Cancels) es s = some s') :
    ∃ count ≤ windowLeft s, sentAlong cfg es s = nextSegments s count := by
  induction es generalizing s with
  | nil => exact ⟨0, Nat.zero_le _, (nextSegments_zero s).symm⟩
  | cons e es ih =>
    rw [Machine.run, Option.ite_none_right_eq_some, Option.bind_eq_some_iff] at hrun
    obtain ⟨he, u, hstep, hrun⟩ := hrun
    obtain ⟨count, hcount, heq⟩ := ih hrun
    rw [sentAlong_cons cfg e es hstep]
    exact (cancelledMove_of_step he hstep).sent hcount heq

omit [Double α] in
theorem windowLeft_le (h : Ahead cfg s) : windowLeft s ≤ cfg.widest := by
  rw [windowLeft]
  split
  · rename_i wnd hp
    have hbase := h.base_le
    have hwnd := h.sending_le wnd hp
    omega
  all_goals exact Nat.zero_le _

omit [Double α] in
theorem cancelledLeft_le (h : Ahead cfg s) : cancelledLeft s ≤ cfg.widest + 2 := by
  have hwindow := windowLeft_le h
  rw [cancelledLeft]
  split <;> omega

omit [Double α] in
theorem cancelledWaits_le_one (s : SenderState α) : cancelledWaits s ≤ 1 := by
  rw [cancelledWaits]
  split <;> omega

/-- The sender is never stuck. -/
theorem exists_cancels_step (hp : ¬∃ ok, s.point = .returned ok) :
    ∃ (e : SenderEvent) (s' : SenderState α), e.Cancels ∧ (sending cfg data).step e s = some s' := by
  cases hp' : s.point with
  | loopHead | sending _ | finHead _ =>
    exact ⟨.advance true true, _, rfl, if_pos (by rw [hp', SenderPoint.runs])⟩
  | awaitAck | awaitFinAck _ =>
    exact ⟨.receive true none, _, rfl, if_pos (by rw [hp', SenderPoint.waits])⟩
  | returned ok => exact absurd ⟨ok, hp'⟩ hp

variable (cfg data s) in
/-- The sender returns. -/
theorem inevitable_of_cancels :
    (sending cfg data).Inevitable (fun _ e => e.Cancels) (fun _ _ => True)
      (fun s => ∃ ok, s.point = .returned ok) s := by
  refine .of_rank wellFounded_lt cancelledLeft (I := fun _ => True)
    (fun s _ hp => exists_cancels_step hp) (fun s e s' _ he _ hstep => ?_) trivial
  exact .inr ⟨trivial, (cancelledMove_of_step he hstep).left.1⟩

variable (cfg data s) in
/-- What a sender that is cancelled does: it sends at most what is left of its window, waits
    for one datagram at most, and fails unless it waits for the answer to its FIN. -/
def SenderStops : Prop :=
  (sending cfg data).Inevitable (fun _ e => e.Cancels) (fun _ _ => True)
      (fun s => ∃ ok, s.point = .returned ok) s ∧
    ∀ es s', (sending cfg data).run (fun _ e => e.Cancels) es s = some s' →
      es.length ≤ cfg.widest + 2 ∧ es.countP SenderEvent.isReceive ≤ 1 ∧
      (∃ count ≤ cfg.widest, sentAlong cfg es s = nextSegments s count) ∧
      (s'.point = .returned true →
        s.point = .returned true ∨ ∃ attempt, s.point = .awaitFinAck attempt)

theorem senderStops (hs : (sending cfg data).Reachable s) : SenderStops cfg data s := by
  have hahead := ahead hs
  refine ⟨inevitable_of_cancels cfg data s, fun es s' hrun => ⟨?_, ?_, ?_, fun hp => ?_⟩⟩
  · have hstep : ∀ (s : SenderState α) e s', True → e.Cancels → (sending cfg data).step e s = some s' →
        True ∧ cancelledLeft s' + (if true then 1 else 0) ≤ cancelledLeft s :=
      fun s e s' _ he hstep => ⟨trivial, (cancelledMove_of_step he hstep).left.1⟩
    have hmoves := Machine.countP_add_le_of_run (p := fun _ => true) hstep trivial hrun
    have hle := cancelledLeft_le hahead
    rw [List.countP_true] at hmoves
    omega
  · have hstep : ∀ (s : SenderState α) e s', True → e.Cancels → (sending cfg data).step e s = some s' →
        True ∧ cancelledWaits s' + (if e.isReceive then 1 else 0) ≤ cancelledWaits s :=
      fun s e s' _ he hstep => ⟨trivial, (cancelledMove_of_step he hstep).left.2⟩
    have hwaits := Machine.countP_add_le_of_run (p := SenderEvent.isReceive) hstep trivial hrun
    have hle := cancelledWaits_le_one s
    omega
  · obtain ⟨count, hcount, heq⟩ := exists_sentAlong_eq hrun
    exact ⟨count, hcount.trans (windowLeft_le hahead), heq⟩
  · by_contra hother
    rw [not_or, not_exists] at hother
    have hkept := (Machine.reaches_of_run hrun).invariant
      (I := fun s : SenderState α => s.point ≠ .returned true ∧ ∀ attempt, s.point ≠ .awaitFinAck attempt)
      (fun s e s' hI he hstep => (cancelledMove_of_step he hstep).returned hI.2) hother
    exact hkept.1 hp

end

/-! ## The receiver -/

/-- What is sent along a run. -/
def answersAlong : List ReceiverEvent → ReceiverState → List (Endpoint × Bytes)
  | [], _ => []
  | .advance cancelled :: es, r => answersAlong es (r.advance cancelled)
  | .receive cancelled arrival :: es, r =>
    (r.receive cancelled arrival).2 ++ answersAlong es (r.receive cancelled arrival).1

section

variable {r r' : ReceiverState}

/-- A receiver that is cancelled returns at once, whatever has arrived, and answers
    nothing. -/
theorem receiver_cancels_step {e : ReceiverEvent} (he : e.Cancels)
    (hstep : receiving.step e r = some r') :
    r'.point = .returned false ∧ r'.outData = r.outData ∧ answersAlong [e] r = [] ∧
      ∀ ok, r.point ≠ .returned ok := by
  rcases receiving_step hstep with ⟨cancelled, rfl, hp, rfl⟩ | ⟨cancelled, arrival, rfl, hp, rfl⟩
  · obtain rfl : cancelled = true := he
    rw [ReceiverState.advance, hp]
    exact ⟨rfl, rfl, rfl, fun _ => ReceiverPoint.noConfusion⟩
  · obtain rfl : cancelled = true := he
    rw [answersAlong, ReceiverState.receive, hp]
    cases recvFrom DATA_BUFFER_SIZE arrival with
    | none => exact ⟨rfl, rfl, rfl, fun _ => ReceiverPoint.noConfusion⟩
    | some arrival => exact ⟨rfl, rfl, rfl, fun _ => ReceiverPoint.noConfusion⟩

variable (r) in
/-- What a receiver that is cancelled does: it returns in one move, and sends nothing. -/
def ReceiverStops : Prop :=
  receiving.Inevitable (fun _ e => e.Cancels) (fun _ _ => True)
      (fun r => ∃ ok, r.point = .returned ok) r ∧
    ∀ es r', receiving.run (fun _ e => e.Cancels) es r = some r' →
      es.length ≤ 1 ∧ answersAlong es r = [] ∧ r'.outData = r.outData ∧
      (r'.point = .returned true → r.point = .returned true)

theorem receiverStops (r : ReceiverState) : ReceiverStops r := by
  constructor
  · by_cases hp : ∃ ok, r.point = .returned ok
    · exact .now hp
    · have hmove : ∃ e r', e.Cancels ∧ receiving.step e r = some r' := by
        cases hp' : r.point with
        | loopHead => exact ⟨.advance true, _, rfl, if_pos hp'⟩
        | awaitDatagram => exact ⟨.receive true none, _, rfl, if_pos hp'⟩
        | returned ok => exact absurd ⟨ok, hp'⟩ hp
      obtain ⟨e, r', he, hstep⟩ := hmove
      exact .later he hstep fun e r' he _ hstep => .now ⟨false, (receiver_cancels_step he hstep).1⟩
  · intro es r' hrun
    cases es with
    | nil =>
      cases hrun
      exact ⟨Nat.zero_le _, rfl, rfl, id⟩
    | cons e es =>
      rw [Machine.run, Option.ite_none_right_eq_some, Option.bind_eq_some_iff] at hrun
      obtain ⟨he, u, hstep, hrun⟩ := hrun
      obtain ⟨hu, hdata, hsent, _⟩ := receiver_cancels_step he hstep
      cases es with
      | nil =>
        cases hrun
        refine ⟨le_rfl, hsent, hdata, fun hp => ?_⟩
        rw [hu] at hp
        cases hp
      | cons e' es =>
        -- It has returned already.
        rw [Machine.run, Option.ite_none_right_eq_some, Option.bind_eq_some_iff] at hrun
        obtain ⟨he', u', hstep', _⟩ := hrun
        exact absurd hu ((receiver_cancels_step he' hstep').2.2.2 false)

end

/-- From any state that a transfer gets to, once it is cancelled, both sides return,
    whatever arrives. The sender sends at most what is left of its window, the receiver
    nothing, and each waits for one datagram at most. -/
theorem stops_when_cancelled {α : Type} [Double α] {cfg : RDTWindowSender α} {data : Bytes}
    {s : SenderState α} (hs : (sending cfg data).Reachable s) (r : ReceiverState) :
    SenderStops cfg data s ∧ ReceiverStops r :=
  ⟨senderStops hs, receiverStops r⟩

/-- A sender that has sent the first segment of its window. -/
theorem stops_when_cancelled_sending : ∃ s : SenderState ℚ, s.point = .sending 1 ∧ s.nextSeq = 1 ∧
    SenderStops closing [1, 2, 3] s ∧ ReceiverStops idleReceiver := by
  have hstart : ∀ s ∈ SenderState.init closing [1, 2, 3], s ∈ (sending closing [1, 2, 3]).init :=
    fun s hs => hs
  obtain ⟨s, hs, hP⟩ := (sending closing [1, 2, 3]).exists_reachableBy_of_run (fun _ _ => True)
    hstart [.advance false true, .advance false true]
    (fun s => s.point = .sending 1 ∧ s.nextSeq = 1) (by decide +kernel)
  obtain ⟨hp, hnext⟩ := of_decide_eq_true hP
  obtain ⟨hsender, hreceiver⟩ := stops_when_cancelled hs idleReceiver
  exact ⟨s, hp, hnext, hsender, hreceiver⟩

end HybridFtp
