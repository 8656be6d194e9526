import HybridFtp.Rdt.Silence

/-!
# Strangers

What datagrams from other endpoints than the destination do to a call of `sendData`.

* `SenderState.react`: what the sender does between two calls of `recvFrom`;
* `twoCalls`: two calls that receive the same, except that datagrams of strangers are
  inserted into what the first one receives;
* `ignores_strangers`: the main loop ignores strangers, as long as their datagrams have
  room for a header. A shorter one counts as a timeout, and the FIN phase does not look
  at the endpoint at all.
-/

namespace HybridFtp

/-- What the sender meets from the outcome of a `recvFrom` to the next: the answers of the
    cancellation callback right after the one and before the other, and the outcomes of
    sending the segments. -/
structure Reception where
  arrival : Received
  cancelled : Bool
  cancelledNext : Bool
  sendOk : UInt32 → Bool

variable {α : Type} [Double α]

namespace SenderState

/-- The code up to the next `recvFrom`, or to the end of the call. -/
def settle (cfg : RDTWindowSender α) (cancelled : Bool) (sendOk : UInt32 → Bool)
    (s : SenderState α) : SenderState α :=
  (fun s => (s.advance cfg cancelled (sendOk s.nextSeq)).1)^[movesLeft s] s

/-- What the sender does with the outcome of a `recvFrom`, up to the next. -/
def react (cfg : RDTWindowSender α) (e : Reception) (s : SenderState α) : SenderState α :=
  if s.point.waits then (s.receive cfg e.cancelled e.arrival).settle cfg e.cancelledNext e.sendOk
  else s

variable {cfg : RDTWindowSender α} {data : Bytes} {s : SenderState α}

theorem advance_of_not_runs (hruns : s.point.runs = false) (cfg : RDTWindowSender α)
    (cancelled sendOk : Bool) : s.advance cfg cancelled sendOk = (s, []) := by
  cases hp : s.point with
  | loopHead | sending _ | finHead _ => simp [hp, SenderPoint.runs] at hruns
  | awaitAck | awaitFinAck _ | returned _ => rw [advance, hp]

/-- The code does get to the next `recvFrom`, or to the end of the call. -/
theorem settle_runs (cfg : RDTWindowSender α) (cancelled : Bool) (sendOk : UInt32 → Bool)
    (s : SenderState α) : (s.settle cfg cancelled sendOk).point.runs = false := by
  -- The moves that are left are enough.
  have henough : ∀ k (s : SenderState α), movesLeft s ≤ k →
      ((fun s => (s.advance cfg cancelled (sendOk s.nextSeq)).1)^[k] s).point.runs = false := by
    intro k
    induction k with
    | zero =>
      intro s hk
      by_contra hruns
      have hlt := movesLeft_advance_lt (Bool.not_eq_false _ ▸ hruns) cfg cancelled true
      rw [Function.iterate_zero_apply] at hlt
      omega
    | succ k ih =>
      intro s hk
      cases hruns : s.point.runs with
      | true =>
        have hlt := movesLeft_advance_lt hruns cfg cancelled (sendOk s.nextSeq)
        rw [Function.iterate_succ_apply]
        exact ih _ (by omega)
      | false =>
        have hfixed : (s.advance cfg cancelled (sendOk s.nextSeq)).1 = s := by
          rw [advance_of_not_runs hruns]
        rw [Function.iterate_fixed hfixed]
        exact hruns
  exact henough _ s le_rfl

/-- Sending does not change the count of rounds. -/
theorem advance_retryRnd (cfg : RDTWindowSender α) (cancelled sendOk : Bool)
    (s : SenderState α) : (s.advance cfg cancelled sendOk).1.retryRnd = s.retryRnd := by
  cases hp : s.point with
  | loopHead | sending _ | finHead _ =>
    simp only [advance, hp]
    split_ifs <;> rfl
  | awaitAck | awaitFinAck _ | returned _ => simp only [advance, hp]

theorem settle_retryRnd (cfg : RDTWindowSender α) (cancelled : Bool) (sendOk : UInt32 → Bool)
    (s : SenderState α) : (s.settle cfg cancelled sendOk).retryRnd = s.retryRnd := by
  rw [settle]
  generalize movesLeft s = k
  induction k generalizing s with
  | zero => rfl
  | succ k ih => rw [Function.iterate_succ_apply, ih, advance_retryRnd]

/-- A round of the FIN phase waits for an answer, or ends the call. -/
theorem settle_finHead {attempt : Int} (hp : s.point = .finHead attempt) (cfg : RDTWindowSender α)
    (cancelled : Bool) (sendOk : UInt32 → Bool) :
    ∃ point, s.settle cfg cancelled sendOk = { s with point } ∧
      (point = .awaitFinAck attempt ∨ point = .returned false) := by
  have hmoves : movesLeft s = 1 := by rw [movesLeft, hp]
  obtain ⟨point, sent, hadvance, _, hpoint⟩ :=
    advance_finHead_cases hp cfg cancelled (sendOk s.nextSeq)
  refine ⟨point, ?_, hpoint⟩
  rw [settle, hmoves, Function.iterate_one, hadvance]

/-- The code takes the moves of a call. -/
theorem reaches_settle (cfg : RDTWindowSender α) (data : Bytes) (cancelled : Bool)
    (sendOk : UInt32 → Bool) (s : SenderState α) :
    (sending cfg data).Reaches (fun _ _ => True) s (s.settle cfg cancelled sendOk) := by
  rw [settle]
  generalize movesLeft s = k
  induction k with
  | zero => exact .refl
  | succ k ih =>
    rw [Function.iterate_succ_apply']
    generalize (fun s => (advance cfg cancelled (sendOk s.nextSeq) s).1)^[k] s = t at ih
    cases hruns : t.point.runs with
    | true => exact ih.tail (e := .advance cancelled (sendOk t.nextSeq)) trivial (if_pos hruns)
    | false =>
      rw [advance_of_not_runs hruns]
      exact ih

theorem reaches_react (cfg : RDTWindowSender α) (data : Bytes) (e : Reception)
    (s : SenderState α) : (sending cfg data).Reaches (fun _ _ => True) s (s.react cfg e) := by
  rw [react]
  split_ifs with hwaits
  · exact (Machine.Reaches.refl.tail (e := .receive e.cancelled e.arrival) trivial
      (if_pos hwaits)).trans (reaches_settle cfg data _ _ _)
  · exact .refl

/-- The sender waits, or the call has returned. -/
theorem react_runs (hruns : s.point.runs = false) (e : Reception) :
    (s.react cfg e).point.runs = false := by
  rw [react]
  split_ifs
  · exact settle_runs cfg _ _ _
  · exact hruns

theorem onTimeout_retryRnd (cfg : RDTWindowSender α) (s : SenderState α) :
    (s.onTimeout cfg).retryRnd = s.retryRnd + 1 := by
  rw [onTimeout]
  dsimp only
  split_ifs <;> rfl

end SenderState

/-! ## Where the sender waits -/

/-- The window that is being sent is that of the state, and it has been sent where the
    sender waits for an ACK. -/
structure Steady (cfg : RDTWindowSender α) (s : SenderState α) : Prop where
  sending : ∀ wnd, s.point = .sending wnd → s.base < s.N ∧ wnd = s.computeEffectiveWindow cfg
  awaitAck : s.point = .awaitAck → s.base < s.N ∧
    ¬(s.nextSeq < s.N ∧ s.nextSeq < s.base + s.computeEffectiveWindow cfg)

namespace Steady

variable {cfg : RDTWindowSender α} {s : SenderState α}

theorem of_point (hsending : ∀ wnd, s.point ≠ .sending wnd) (hwait : s.point ≠ .awaitAck) :
    Steady cfg s :=
  ⟨fun wnd hp => absurd hp (hsending wnd), fun hp => absurd hp hwait⟩

theorem advance (h : Steady cfg s) (cancelled sendOk : Bool) :
    Steady cfg (s.advance cfg cancelled sendOk).1 := by
  cases hp : s.point with
  | loopHead =>
    simp only [SenderState.advance, hp]
    split_ifs with hb
    · exact of_point (fun _ => SenderPoint.noConfusion) SenderPoint.noConfusion
    · refine ⟨fun wnd hwnd => ?_, SenderPoint.noConfusion⟩
      cases hwnd
      exact ⟨hb, rfl⟩
    · exact of_point (fun _ => SenderPoint.noConfusion) SenderPoint.noConfusion
  | sending wnd =>
    obtain ⟨hb, hwnd⟩ := h.sending wnd hp
    simp only [SenderState.advance, hp]
    split_ifs with hnext
    · refine ⟨fun wnd' hwnd' => ?_, SenderPoint.noConfusion⟩
      cases hwnd'
      exact ⟨hb, hwnd⟩
    · exact of_point (fun _ => SenderPoint.noConfusion) SenderPoint.noConfusion
    · exact ⟨fun _ => SenderPoint.noConfusion, fun _ => ⟨hb, hwnd ▸ hnext⟩⟩
  | finHead attempt =>
    simp only [SenderState.advance, hp]
    split_ifs
    all_goals exact of_point (fun _ => SenderPoint.noConfusion) SenderPoint.noConfusion
  | awaitAck | awaitFinAck _ | returned _ => simpa only [SenderState.advance, hp] using h

theorem receive {cancelled : Bool} {arrival : Received} (hwaits : s.point.waits = true) :
    Steady cfg (s.receive cfg cancelled arrival) := by
  cases hp : s.point with
  | awaitAck =>
    have hpoint : (s.receive cfg cancelled arrival).point = .loopHead ∨
        (s.receive cfg cancelled arrival).point = .returned false := by
      cases cancelled with
      | true => exact .inr (by rw [SenderState.receive_cancelled hp])
      | false =>
        cases SenderState.receive_outcome cfg hp arrival with
        | goesBack _ _ hback => exact .inl hback.point
        | givesUp _ _ _ _ _ hpoint => exact .inr hpoint
        | ignores _ _ _ _ _ hpoint => exact .inl hpoint
        | slides _ _ _ _ _ _ hpoint => exact .inl hpoint
    refine of_point (fun wnd => ?_) ?_
    · rcases hpoint with h | h <;> simp [h]
    · rcases hpoint with h | h <;> simp [h]
  | awaitFinAck attempt =>
    rcases SenderState.receive_awaitFinAck_cases hp cfg cancelled arrival with heq | heq
    · rw [heq]
      exact of_point (fun _ => SenderPoint.noConfusion) SenderPoint.noConfusion
    · rw [heq]
      exact of_point (fun _ => SenderPoint.noConfusion) SenderPoint.noConfusion
  | loopHead | sending _ | finHead _ | returned _ => simp [hp, SenderPoint.waits] at hwaits

/-- A round of the main loop that has nothing to send ends where it began. -/
theorem settle_loopHead (h : Steady cfg s) (hp : s.point = .awaitAck) (sendOk : UInt32 → Bool) :
    SenderState.settle cfg false sendOk { s with point := .loopHead } = s := by
  obtain ⟨hb, hdone⟩ := h.awaitAck hp
  have hfixed : (s.advance cfg false (sendOk s.nextSeq)).1 = s := by
    rw [SenderState.advance_of_not_runs (by rw [hp, SenderPoint.runs])]
  have hsent : (SenderState.advance cfg false (sendOk s.nextSeq)
      { s with point := .sending (s.computeEffectiveWindow cfg) }).1 = s := by
    rw [@SenderState.advance_sending_done _ _ cfg _ _
      { s with point := .sending (s.computeEffectiveWindow cfg) } _ rfl hdone]
    cases s
    cases hp
    rfl
  -- Two moves lead back to `recvFrom`, and the others change nothing.
  have hmoves : movesLeft { s with point := .loopHead } = s.N.toNat - s.nextSeq.toNat + 2 := rfl
  rw [SenderState.settle, hmoves, Function.iterate_add_apply, Function.iterate_succ_apply,
    Function.iterate_one, @SenderState.advance_loopHead _ _ cfg _ { s with point := .loopHead } rfl hb]
  exact (congrArg _ hsent).trans (Function.iterate_fixed hfixed _)

end Steady

theorem steady {cfg : RDTWindowSender α} {data : Bytes} {s : SenderState α}
    (h : (sending cfg data).Reachable s) : Steady cfg s := by
  refine h.invariant ?_ ?_
  · rintro s hinit
    obtain ⟨segs, _, rfl⟩ := Option.map_eq_some_iff.1 hinit
    exact .of_point (fun _ => SenderPoint.noConfusion) SenderPoint.noConfusion
  · intro s e s' hsteady hs
    rcases sending_step hs with ⟨cancelled, sendOk, rfl, _, rfl⟩ | ⟨_, _, rfl, hwaits, rfl⟩
    · exact hsteady.advance cancelled sendOk
    · exact .receive hwaits

/-! ## Two calls -/

/-- What the sender meets: what the call is about, or an inserted datagram of a stranger.
    Nobody cancels the call between an inserted datagram and the next `recvFrom`. -/
inductive Incoming (dest : Endpoint)
  | genuine (e : Reception)
  | stranger (sender : { e : Endpoint // e ≠ dest }) (datagram : Bytes) (sendOk : UInt32 → Bool)

/-- What `recvFrom` returns. -/
def Incoming.reception {dest : Endpoint} : Incoming dest → Reception
  | .genuine e => e
  | .stranger sender datagram sendOk =>
    { arrival := some (sender, datagram), cancelled := false, cancelledNext := false, sendOk }

/-- Two calls that receive the same, except for the datagrams of strangers, which only the
    first one receives. -/
def twoCalls (cfg : RDTWindowSender α) (data : Bytes) :
    Machine (SenderState α × SenderState α) (Incoming cfg.dest) where
  init := {c | ∃ s cancelled sendOk, SenderState.init cfg data = some s ∧
    c = (s.settle cfg cancelled sendOk, s.settle cfg cancelled sendOk)}
  step
    | .genuine e, c => some (c.1.react cfg e, c.2.react cfg e)
    | .stranger sender datagram sendOk, c =>
      some (c.1.react cfg (Incoming.stranger sender datagram sendOk).reception, c.2)

/-- What is compared of two calls. The FIN phase counts its attempts. -/
structure Progress (α : Type) where
  base : UInt32
  cwnd : α
  ssthresh : α
  recvWindow : UInt32
  retryRnd : Int
  attempt : Option Int
  returned : Option Bool
  deriving DecidableEq

omit [Double α] in
/-- What a call has got to. -/
def SenderState.progress (s : SenderState α) : Progress α where
  base := s.base
  cwnd := s.cwnd
  ssthresh := s.ssthresh
  recvWindow := s.recvWindow
  retryRnd := s.retryRnd
  attempt := match s.point with
    | .finHead attempt | .awaitFinAck attempt => some attempt
    | .loopHead | .sending _ | .awaitAck | .returned _ => none
  returned := match s.point with
    | .returned ok => some ok
    | .loopHead | .sending _ | .awaitAck | .finHead _ | .awaitFinAck _ => none

/-- A datagram of a stranger has room for a header, and arrives in the main loop. Once
    the call has returned, nothing arrives. -/
def Ignorable (dest : Endpoint) (s : SenderState α) : Incoming dest → Prop
  | .genuine _ => True
  | .stranger _ datagram _ => s.point.waits = true →
      s.point = .awaitAck ∧ CUSTOM_UDP_HEADER_SIZE ≤ datagram.length

section

variable {cfg : RDTWindowSender α} {data : Bytes} {s : SenderState α}

theorem length_readInto_ack (datagram : Bytes) :
    (readInto ACK_BUFFER_SIZE datagram).length < CUSTOM_UDP_HEADER_SIZE ↔
      datagram.length < CUSTOM_UDP_HEADER_SIZE := by
  rw [readInto, List.length_take]
  simp only [ACK_BUFFER_SIZE]
  omega

/-- The main loop ignores a stranger whose datagram has room for a header. -/
theorem react_of_ignorable (h : Steady cfg s) (sender : { e : Endpoint // e ≠ cfg.dest })
    (datagram : Bytes) (sendOk : UInt32 → Bool)
    (hignorable : Ignorable cfg.dest s (.stranger sender datagram sendOk)) :
    s.react cfg (Incoming.stranger sender datagram sendOk).reception = s := by
  rw [SenderState.react]
  split_ifs with hwaits
  · obtain ⟨hp, hlen⟩ := hignorable hwaits
    have hreceive : s.receive cfg false (some (sender.1, datagram)) =
        { s with point := .loopHead } := by
      simp only [SenderState.receive, hp, recvFrom, Option.map_some, Bool.false_eq_true, if_false]
      rw [if_neg (mt (length_readInto_ack datagram).1 (not_lt.2 hlen))]
      exact SenderState.onDatagram_ignored cfg fun h => sender.2 h.2.2
    exact (congrArg _ hreceive).trans (h.settle_loopHead hp sendOk)
  · rfl

/-- A stranger gets at the sender with a datagram that is too short, or in the FIN phase. -/
theorem react_of_not_ignorable (sender : { e : Endpoint // e ≠ cfg.dest }) (datagram : Bytes)
    (sendOk : UInt32 → Bool)
    (hignorable : ¬Ignorable cfg.dest s (.stranger sender datagram sendOk)) :
    (s.react cfg (Incoming.stranger sender datagram sendOk).reception).progress ≠ s.progress := by
  obtain ⟨hwaits, hignorable⟩ := Classical.not_imp.1 hignorable
  intro heq
  rw [SenderState.react, if_pos hwaits] at heq
  cases hp : s.point with
  | awaitAck =>
    -- It is too short, and costs a round like a timeout.
    have hlen : (readInto ACK_BUFFER_SIZE datagram).length < CUSTOM_UDP_HEADER_SIZE :=
      (length_readInto_ack datagram).2 (not_le.1 fun h => hignorable ⟨hp, h⟩)
    have hreceive : s.receive cfg false (some (sender.1, datagram)) = s.onTimeout cfg := by
      simp only [SenderState.receive, hp, recvFrom, Option.map_some, Bool.false_eq_true, if_false]
      rw [if_pos hlen]
    have hretry := congrArg Progress.retryRnd heq
    simp only [Incoming.reception, SenderState.progress, SenderState.settle_retryRnd, hreceive,
      SenderState.onTimeout_retryRnd] at hretry
    omega
  | awaitFinAck attempt =>
    -- It uses up an attempt, or ends the call.
    have hattempt := congrArg Progress.attempt heq
    have hbefore : s.progress.attempt = some attempt := by rw [SenderState.progress, hp]
    rw [hbefore] at hattempt
    rcases SenderState.receive_awaitFinAck_cases hp cfg false (some (sender.1, datagram)) with
      hreceive | hreceive
    · have hnext : ({ s with point := .finHead (attempt + 1) } : SenderState α).point =
          .finHead (attempt + 1) := rfl
      obtain ⟨point, hsettle, hpoint⟩ := SenderState.settle_finHead hnext cfg false sendOk
      simp only [Incoming.reception, hreceive, hsettle] at hattempt
      rcases hpoint with rfl | rfl
      · have hsame : attempt + 1 = attempt := Option.some.inj hattempt
        omega
      · cases hattempt
    · simp only [Incoming.reception, hreceive] at hattempt
      cases hattempt
  | loopHead | sending _ | finHead _ | returned _ => simp [hp, SenderPoint.waits] at hwaits

/-- Both calls are calls of `sendData`, which wait for a datagram or have returned. -/
theorem reachable_twoCalls {c : SenderState α × SenderState α}
    (h : (twoCalls cfg data).Reachable c) :
    ((sending cfg data).Reachable c.1 ∧ c.1.point.runs = false) ∧
      (sending cfg data).Reachable c.2 ∧ c.2.point.runs = false := by
  have hreact : ∀ {s : SenderState α} (e : Reception),
      (sending cfg data).Reachable s ∧ s.point.runs = false →
        (sending cfg data).Reachable (s.react cfg e) ∧ (s.react cfg e).point.runs = false := by
    rintro s e ⟨⟨s₀, h₀, hs⟩, hruns⟩
    exact ⟨⟨s₀, h₀, hs.trans (SenderState.reaches_react cfg data e s)⟩,
      SenderState.react_runs hruns e⟩
  refine h.invariant (I := fun c => ((sending cfg data).Reachable c.1 ∧ c.1.point.runs = false) ∧
    (sending cfg data).Reachable c.2 ∧ c.2.point.runs = false) ?_ ?_
  · rintro c ⟨s, cancelled, sendOk, hinit, rfl⟩
    have hstart : (sending cfg data).Reachable (s.settle cfg cancelled sendOk) :=
      ⟨s, hinit, SenderState.reaches_settle cfg data cancelled sendOk s⟩
    have hruns := SenderState.settle_runs cfg cancelled sendOk s
    exact ⟨⟨hstart, hruns⟩, hstart, hruns⟩
  · rintro c e c' ⟨hfirst, hsecond⟩ hs
    cases e with
    | genuine e =>
      obtain rfl := Option.some.inj hs
      exact ⟨hreact e hfirst, hreact e hsecond⟩
    | stranger sender datagram sendOk =>
      obtain rfl := Option.some.inj hs
      exact ⟨hreact _ hfirst, hsecond⟩

/-- The two calls stay in the same state. -/
theorem eq_of_ignorable {c : SenderState α × SenderState α}
    (h : (twoCalls cfg data).ReachableBy (fun c => Ignorable cfg.dest c.1) c) : c.1 = c.2 := by
  obtain ⟨c₀, h₀, hreaches⟩ := h
  induction hreaches with
  | refl =>
    obtain ⟨s, cancelled, sendOk, _, rfl⟩ := h₀
    rfl
  | @tail c c' e hreaches hignorable hs ih =>
    cases e with
    | genuine e =>
      obtain rfl := Option.some.inj hs
      exact congrArg (SenderState.react cfg e) ih
    | stranger sender datagram sendOk =>
      obtain rfl := Option.some.inj hs
      have hreach : (twoCalls cfg data).ReachableBy (fun c => Ignorable cfg.dest c.1) c :=
        ⟨c₀, h₀, hreaches⟩
      have hsteady := steady (reachable_twoCalls hreach.reachable).1.1
      exact (react_of_ignorable hsteady sender datagram sendOk hignorable).trans ih

end

/-- As long as the datagrams of strangers have room for a header, and arrive in the main
    loop, the call goes as it does without them; a datagram for which this is not so
    makes a difference. -/
theorem ignores_strangers {cfg : RDTWindowSender α} {data : Bytes}
    {c : SenderState α × SenderState α}
    (h : (twoCalls cfg data).ReachableBy (fun c => Ignorable cfg.dest c.1) c) :
    c.1.progress = c.2.progress ∧
      ∀ sender datagram sendOk c',
        (twoCalls cfg data).step (.stranger sender datagram sendOk) c = some c' →
          (c'.1.progress = c'.2.progress ↔
            Ignorable cfg.dest c.1 (.stranger sender datagram sendOk)) := by
  have hsame := eq_of_ignorable h
  have hsteady := steady (reachable_twoCalls h.reachable).1.1
  refine ⟨congrArg _ hsame, fun sender datagram sendOk c' hs => ?_⟩
  obtain rfl := Option.some.inj hs
  rw [← hsame]
  constructor
  · intro heq
    by_contra hignorable
    exact react_of_not_ignorable sender datagram sendOk hignorable heq
  · intro hignorable
    exact congrArg _ (react_of_ignorable hsteady sender datagram sendOk hignorable)

/-- Two calls that wait for the first ACK. -/
def waitingCalls : Option (SenderState ℚ × SenderState ℚ) :=
  (SenderState.init closing [1, 2, 3]).map fun s =>
    (s.settle closing false fun _ => true, s.settle closing false fun _ => true)

theorem waitingCalls_init : ∀ c ∈ waitingCalls, c ∈ (twoCalls closing [1, 2, 3]).init := by
  intro c hc
  obtain ⟨s, hs, rfl⟩ := Option.map_eq_some_iff.1 hc
  exact ⟨s, false, fun _ => true, hs, rfl⟩

/-- An endpoint that is not the destination. -/
def aStranger : { e : Endpoint // e ≠ closing.dest } :=
  ⟨{ ip := "192.168.1.9", port := 53 }, by decide⟩

theorem ignores_strangers_header :
    ∃ c c', (twoCalls closing [1, 2, 3]).step
        (.stranger aStranger (packet (ackHeader 0 1) []) fun _ => true) c = some c' ∧
      c.1.point = .awaitAck ∧ c'.1.progress = c'.2.progress := by
  have hwaiting : waitingCalls.any (fun c => c.1.point = .awaitAck) = true := by decide +kernel
  rw [Option.any_eq_true] at hwaiting
  obtain ⟨c, hc, hp⟩ := hwaiting
  have hreach : (twoCalls closing [1, 2, 3]).ReachableBy (fun c => Ignorable closing.dest c.1) c :=
    ⟨c, waitingCalls_init c hc, .refl⟩
  refine ⟨c, _, rfl, of_decide_eq_true hp, ?_⟩
  refine ((ignores_strangers hreach).2 aStranger _ _ _ rfl).2 fun _ => ⟨of_decide_eq_true hp, ?_⟩
  decide +kernel

/-- An empty datagram of a stranger counts as a timeout, besides the one that follows. -/
theorem not_ignores_strangers :
    ¬∀ (cfg : RDTWindowSender ℚ) (data : Bytes) (c : SenderState ℚ × SenderState ℚ),
      (twoCalls cfg data).Reachable c → c.1.progress = c.2.progress := by
  intro h
  obtain ⟨c, hc, hP⟩ := (twoCalls closing [1, 2, 3]).exists_reachableBy_of_run (fun _ _ => True)
    waitingCalls_init
    [.stranger aStranger [] fun _ => true,
      .genuine { arrival := none, cancelled := false, cancelledNext := false, sendOk := fun _ => true }]
    (fun c => c.1.retryRnd = 2 ∧ c.2.retryRnd = 1) (by decide +kernel)
  obtain ⟨hfirst, hsecond⟩ := of_decide_eq_true hP
  have hretry := congrArg Progress.retryRnd (h closing [1, 2, 3] c hc)
  simp only [SenderState.progress, hfirst, hsecond] at hretry
  exact absurd hretry (by decide)

end HybridFtp
