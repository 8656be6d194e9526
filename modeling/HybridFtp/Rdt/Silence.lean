import HybridFtp.Rdt.Completeness
import HybridFtp.Rdt.Effort

/-!
# Silence

What the two sides of a transfer do when nothing arrives any more, from any state they
can get to.

* `Paced`: the counters of the sender, along runs;
* `timeoutsLeft`: how many timeouts the sender has left, which every timeout decreases;
* `returns_of_silence`: the sender returns within `max R 0 + 1` timeouts. The receiver
  does not: it waits for a FIN as long as it is not cancelled.
-/

namespace HybridFtp

/-- Nothing arrives, and nobody cancels. -/
def SenderEvent.Silent : SenderEvent → Prop
  | .advance cancelled _ => cancelled = false
  | .receive cancelled arrival => cancelled = false ∧ arrival = none

instance : DecidablePred SenderEvent.Silent
  | .advance cancelled _ => inferInstanceAs (Decidable (cancelled = false))
  | .receive cancelled arrival => inferInstanceAs (Decidable (cancelled = false ∧ arrival = none))

/-- A `recvFrom` has returned. -/
def SenderEvent.isReceive : SenderEvent → Bool
  | .advance .. => false
  | .receive .. => true

/-- Nothing arrives, and nobody cancels. -/
def ReceiverEvent.Silent : ReceiverEvent → Prop
  | .advance cancelled => cancelled = false
  | .receive cancelled arrival => cancelled = false ∧ arrival = none

instance : DecidablePred ReceiverEvent.Silent
  | .advance cancelled => inferInstanceAs (Decidable (cancelled = false))
  | .receive cancelled arrival => inferInstanceAs (Decidable (cancelled = false ∧ arrival = none))

/-- A `recvFrom` has returned. -/
def ReceiverEvent.isReceive : ReceiverEvent → Bool
  | .advance _ => false
  | .receive .. => true

/-! ## The sender -/

section

variable {α : Type} [Double α] {cfg : RDTWindowSender α} {data : Bytes} {s s' : SenderState α}

/-- The counters of the sender, at its points. -/
structure Paced (cfg : RDTWindowSender α) (s : SenderState α) : Prop where
  retryRnd : s.point ≠ .returned false → 0 ≤ s.retryRnd
  sending_lt : ∀ wnd, s.point = .sending wnd → s.base < s.N
  awaitAck_lt : s.point = .awaitAck → s.base < s.N
  finHead : ∀ attempt, s.point = .finHead attempt → 0 ≤ attempt
  awaitFinAck : ∀ attempt, s.point = .awaitFinAck attempt →
    0 ≤ attempt ∧ attempt < cfg.maxRetransmitRounds

namespace Paced

omit [Double α] in
theorem of_loopHead (hretry : 0 ≤ s.retryRnd) (hp : s.point = .loopHead) : Paced cfg s :=
  ⟨fun _ => hretry, by simp [hp], by simp [hp], by simp [hp], by simp [hp]⟩

omit [Double α] in
theorem of_returned {ok : Bool} (hretry : ok = true → 0 ≤ s.retryRnd)
    (hp : s.point = .returned ok) : Paced cfg s := by
  refine ⟨fun hne => hretry ?_, by simp [hp], by simp [hp], by simp [hp], by simp [hp]⟩
  simpa [hp] using hne

omit [Double α] in
theorem of_finHead {attempt : Int} (hretry : 0 ≤ s.retryRnd) (ha : 0 ≤ attempt)
    (hp : s.point = .finHead attempt) : Paced cfg s := by
  refine ⟨fun _ => hretry, by simp [hp], by simp [hp], fun a ha' => ?_, by simp [hp]⟩
  rw [hp] at ha'
  cases ha'
  exact ha

theorem advance (h : Paced cfg s) (cancelled sendOk : Bool) :
    Paced cfg (s.advance cfg cancelled sendOk).1 := by
  cases hp : s.point with
  | loopHead =>
    have hretry := h.retryRnd (by simp [hp])
    simp only [SenderState.advance, hp]
    split_ifs with hb
    · exact of_returned (fun _ => hretry) rfl
    · exact ⟨fun _ => hretry, fun _ _ => hb, SenderPoint.noConfusion,
        fun _ => SenderPoint.noConfusion, fun _ => SenderPoint.noConfusion⟩
    · exact of_finHead hretry le_rfl rfl
  | sending wnd =>
    have hretry := h.retryRnd (by simp [hp])
    have hlt := h.sending_lt wnd hp
    simp only [SenderState.advance, hp]
    split_ifs
    · exact ⟨fun _ => hretry, fun _ _ => hlt, SenderPoint.noConfusion,
        fun _ => SenderPoint.noConfusion, fun _ => SenderPoint.noConfusion⟩
    · exact of_returned (fun _ => hretry) rfl
    · exact ⟨fun _ => hretry, fun _ => SenderPoint.noConfusion, fun _ => hlt,
        fun _ => SenderPoint.noConfusion, fun _ => SenderPoint.noConfusion⟩
  | finHead attempt =>
    have hretry := h.retryRnd (by simp [hp])
    have ha := h.finHead attempt hp
    simp only [SenderState.advance, hp]
    split_ifs with hlt
    · exact of_returned (fun _ => hretry) rfl
    · refine ⟨fun _ => hretry, fun _ => SenderPoint.noConfusion, SenderPoint.noConfusion,
        fun _ => SenderPoint.noConfusion, fun a ha' => ?_⟩
      cases ha'
      exact ⟨ha, hlt⟩
    · exact of_returned (fun _ => hretry) rfl
  | awaitAck | awaitFinAck _ | returned _ => simpa only [SenderState.advance, hp] using h

theorem receive (h : Paced cfg s) {cancelled : Bool} {arrival : Received}
    (hwaits : s.point.waits = true) : Paced cfg (s.receive cfg cancelled arrival) := by
  cases hp : s.point with
  | awaitAck =>
    have hretry := h.retryRnd (by simp [hp])
    cases cancelled with
    | true =>
      rw [SenderState.receive_cancelled hp]
      exact of_returned (fun _ => hretry) rfl
    | false =>
      have houtcome := SenderState.receive_outcome cfg hp arrival
      cases houtcome with
      | goesBack _ _ hback =>
        refine of_loopHead ?_ hback.point
        rw [hback.retryRnd]
        omega
      | givesUp _ _ _ _ _ hpoint => exact of_returned Bool.noConfusion hpoint
      | ignores _ _ _ _ hretry' hpoint => exact of_loopHead (hretry' ▸ hretry) hpoint
      | slides _ _ _ _ _ hretry' hpoint => exact of_loopHead (hretry' ▸ le_rfl) hpoint
  | awaitFinAck attempt =>
    have hretry := h.retryRnd (by simp [hp])
    obtain ⟨hnonneg, _⟩ := h.awaitFinAck attempt hp
    rcases SenderState.receive_awaitFinAck_cases hp cfg cancelled arrival with heq | heq
    · rw [heq]
      exact of_finHead hretry (by omega) rfl
    · rw [heq]
      exact of_returned (fun _ => hretry) rfl
  | loopHead | sending _ | finHead _ | returned _ => simp [hp, SenderPoint.waits] at hwaits

end Paced

/-- The timeouts the sender has left, if nothing else arrives. -/
def timeoutsLeft (cfg : RDTWindowSender α) (s : SenderState α) : Nat :=
  match s.point with
  | .loopHead =>
    if s.base < s.N then (cfg.maxRetransmitRounds - s.retryRnd).toNat + 1
    -- With everything acknowledged, the attempts of the FIN phase are left.
    else cfg.maxRetransmitRounds.toNat
  -- Without an ACK, the FIN phase does not come.
  | .sending _ | .awaitAck => (cfg.maxRetransmitRounds - s.retryRnd).toNat + 1
  | .finHead attempt | .awaitFinAck attempt => (cfg.maxRetransmitRounds - attempt).toNat
  | .returned _ => 0

/-- The moves the sender has left before it waits, or returns. -/
def movesLeft (s : SenderState α) : Nat :=
  match s.point with
  -- One move takes the window, and one finds nothing more to send.
  | .loopHead => s.N.toNat - s.nextSeq.toNat + 2
  | .sending _ => s.N.toNat - s.nextSeq.toNat + 1
  | .finHead _ => 1
  | .awaitAck | .awaitFinAck _ | .returned _ => 0

omit [Double α] in
theorem Paced.timeoutsLeft_le (h : Paced cfg s) :
    timeoutsLeft cfg s ≤ cfg.maxRetransmitRounds.toNat + 1 := by
  rw [timeoutsLeft]
  cases hp : s.point with
  | loopHead =>
    have hretry := h.retryRnd (by simp [hp])
    dsimp only
    split_ifs <;> omega
  | sending _ | awaitAck =>
    have hretry := h.retryRnd (by simp [hp])
    dsimp only
    omega
  | finHead attempt =>
    have ha := h.finHead attempt hp
    dsimp only
    omega
  | awaitFinAck attempt =>
    obtain ⟨ha, _⟩ := h.awaitFinAck attempt hp
    dsimp only
    omega
  | returned _ => exact Nat.zero_le _

/-- The code gets to the next `recvFrom`, or to the end of the call. -/
theorem movesLeft_advance_lt (hruns : s.point.runs = true) (cfg : RDTWindowSender α)
    (cancelled sendOk : Bool) : movesLeft (s.advance cfg cancelled sendOk).1 < movesLeft s := by
  cases hp : s.point with
  | loopHead =>
    simp only [SenderState.advance, movesLeft, hp]
    split_ifs
    · exact Nat.succ_pos _
    · exact Nat.lt_succ_self _
    · exact Nat.succ_lt_succ (Nat.succ_pos _)
  | sending wnd =>
    simp only [SenderState.advance, movesLeft, hp]
    split_ifs with hnext
    · -- The next segment is one of those left.
      have hlt := UInt32.lt_iff_toNat_lt.1 hnext.1
      have hsucc := SenderState.toNat_succ hnext.1
      show s.N.toNat - (s.nextSeq + 1).toNat + 1 < s.N.toNat - s.nextSeq.toNat + 1
      omega
    · exact Nat.succ_pos _
    · exact Nat.succ_pos _
  | finHead attempt =>
    simp only [SenderState.advance, movesLeft, hp]
    split_ifs <;> exact Nat.one_pos
  | awaitAck | awaitFinAck _ | returned _ => simp [hp, SenderPoint.runs] at hruns

/-- Up to the next `recvFrom`, nothing times out. -/
theorem timeoutsLeft_advance_le (cfg : RDTWindowSender α) (s : SenderState α)
    (cancelled sendOk : Bool) :
    timeoutsLeft cfg (s.advance cfg cancelled sendOk).1 ≤ timeoutsLeft cfg s := by
  cases hp : s.point with
  | loopHead =>
    simp only [SenderState.advance, hp]
    split_ifs with hb
    · exact Nat.zero_le _
    · rw [timeoutsLeft, timeoutsLeft, hp]
      exact (if_pos hb).ge
    · rw [timeoutsLeft, timeoutsLeft, hp]
      dsimp only
      rw [if_neg hb, Int.sub_zero]
  | sending wnd =>
    simp only [SenderState.advance, hp]
    split_ifs
    · rw [timeoutsLeft, timeoutsLeft, hp]
    · exact Nat.zero_le _
    · rw [timeoutsLeft, timeoutsLeft, hp]
  | finHead attempt =>
    simp only [SenderState.advance, hp]
    split_ifs
    · exact Nat.zero_le _
    · rw [timeoutsLeft, timeoutsLeft, hp]
    · exact Nat.zero_le _
  | awaitAck | awaitFinAck _ | returned _ => simp only [SenderState.advance, hp, le_refl]

/-- A timeout is one less to come. -/
theorem Paced.receive_left (h : Paced cfg s) (hwaits : s.point.waits = true) :
    timeoutsLeft cfg (s.receive cfg false none) < timeoutsLeft cfg s := by
  cases hp : s.point with
  | awaitAck =>
    have hlt := h.awaitAck_lt hp
    have hretry := h.retryRnd (by simp [hp])
    have houtcome := SenderState.receive_outcome cfg hp none
    have hmissing : s.missing cfg none = true := rfl
    rw [hmissing] at houtcome
    cases houtcome with
    | goesBack _ hround hback =>
      have hN : (s.receive cfg false none).N = s.N := congrArg (UInt32.ofNat ∘ List.length) hback.segs
      rw [timeoutsLeft, timeoutsLeft, hp, hback.point]
      simp only [hback.base, hN, hlt, if_true, hback.retryRnd]
      omega
    | givesUp _ _ _ _ _ hpoint =>
      rw [timeoutsLeft, timeoutsLeft, hp, hpoint]
      exact Nat.succ_pos _
    -- A timeout is not ignored, and does not slide the window.
    | ignores h => cases h
    | slides h => cases h
  | awaitFinAck attempt =>
    obtain ⟨_, hlt⟩ := h.awaitFinAck attempt hp
    have heq : s.receive cfg false none = { s with point := .finHead (attempt + 1) } := by
      rw [SenderState.receive, hp]
      rfl
    rw [heq, timeoutsLeft, timeoutsLeft, hp]
    dsimp only
    omega
  | loopHead | sending _ | finHead _ | returned _ => simp [hp, SenderPoint.waits] at hwaits

/-- The counters are kept along runs. -/
theorem paced (h : (sending cfg data).Reachable s) : Paced cfg s := by
  refine h.invariant ?_ ?_
  · rintro s hs
    obtain ⟨segs, _, rfl⟩ := Option.map_eq_some_iff.1 hs
    exact .of_loopHead le_rfl rfl
  · intro s e s' hpaced hs
    rcases sending_step hs with ⟨cancelled, sendOk, rfl, _, rfl⟩ | ⟨_, _, rfl, hwaits, rfl⟩
    · exact hpaced.advance cancelled sendOk
    · exact hpaced.receive hwaits

/-- A silent move is a timeout less to come, or a move less before the next. -/
theorem Paced.silent_step (h : Paced cfg s) {e : SenderEvent} (he : e.Silent)
    (hs : (sending cfg data).step e s = some s') :
    Paced cfg s' ∧ timeoutsLeft cfg s' + (if e.isReceive then 1 else 0) ≤ timeoutsLeft cfg s ∧
      Prod.Lex (· < ·) (· < ·) (timeoutsLeft cfg s', movesLeft s')
        (timeoutsLeft cfg s, movesLeft s) := by
  rcases sending_step hs with
    ⟨cancelled, sendOk, rfl, hruns, rfl⟩ | ⟨cancelled, arrival, rfl, hwaits, rfl⟩
  · obtain rfl : cancelled = false := he
    have hle := timeoutsLeft_advance_le cfg s false sendOk
    have hlt := movesLeft_advance_lt hruns cfg false sendOk
    exact ⟨h.advance false sendOk, hle, Prod.lex_iff.2 (hle.lt_or_eq.imp_right fun h => ⟨h, hlt⟩)⟩
  · obtain ⟨rfl, rfl⟩ : cancelled = false ∧ arrival = none := he
    have hlt := h.receive_left hwaits
    exact ⟨h.receive hwaits, hlt, .left _ _ hlt⟩

/-- The sender is never stuck. -/
theorem exists_silent_step (hp : ¬∃ ok, s.point = .returned ok) :
    ∃ (e : SenderEvent) (s' : SenderState α), e.Silent ∧ (sending cfg data).step e s = some s' := by
  cases hp' : s.point with
  | loopHead | sending _ | finHead _ =>
    exact ⟨.advance false true, _, rfl, if_pos (by rw [hp', SenderPoint.runs])⟩
  | awaitAck | awaitFinAck _ =>
    exact ⟨.receive false none, _, ⟨rfl, rfl⟩, if_pos (by rw [hp', SenderPoint.waits])⟩
  | returned ok => exact absurd ⟨ok, hp'⟩ hp

theorem Paced.inevitable (h : Paced cfg s) :
    (sending cfg data).Inevitable (fun _ e => e.Silent) (fun _ _ => True)
      (fun s => ∃ ok, s.point = .returned ok) s := by
  refine .of_rank (WellFounded.prod_lex wellFounded_lt wellFounded_lt)
    (fun s => (timeoutsLeft cfg s, movesLeft s)) (fun s _ hp => exists_silent_step hp) ?_ h
  intro s e s' hpaced he _ hs
  obtain ⟨hpaced', _, hlex⟩ := hpaced.silent_step he hs
  exact .inr ⟨hpaced', hlex⟩

theorem Paced.countP_le (h : Paced cfg s) {es : List SenderEvent}
    (hrun : (sending cfg data).run (fun _ e => e.Silent) es s = some s') :
    es.countP SenderEvent.isReceive ≤ cfg.maxRetransmitRounds.toNat + 1 := by
  have hcount := Machine.countP_add_le_of_run (p := SenderEvent.isReceive)
    (fun s e s' hpaced he hs => ((hpaced : Paced cfg s).silent_step he hs).imp_right And.left) h hrun
  have hle := h.timeoutsLeft_le
  omega

end

/-! ## The receiver -/

section

variable {r r' : ReceiverState}

/-- The receiver does not return while nothing arrives. -/
theorem not_returned_of_silent {e : ReceiverEvent} (he : e.Silent)
    (hs : receiving.step e r = some r') (ok : Bool) : r'.point ≠ .returned ok := by
  rcases receiving_step hs with ⟨cancelled, rfl, hp, rfl⟩ | ⟨cancelled, arrival, rfl, hp, rfl⟩
  · obtain rfl : cancelled = false := he
    rw [ReceiverState.advance, hp]
    exact ReceiverPoint.noConfusion
  · obtain ⟨rfl, rfl⟩ : cancelled = false ∧ arrival = none := he
    rw [ReceiverState.receive, hp]
    exact ReceiverPoint.noConfusion

/-- However many times `recvFrom` times out, the receiver calls it again. -/
theorem exists_silent_run (hp : ∀ ok, r.point ≠ .returned ok) (k : Nat) :
    ∃ es r', receiving.run (fun _ e => e.Silent) es r = some r' ∧
      es.countP ReceiverEvent.isReceive = k := by
  induction k generalizing r with
  | zero => exact ⟨[], r, rfl, rfl⟩
  | succ k ih =>
    -- A round is the timeout, and what leads to the next `recvFrom`.
    have hround : ∀ {r : ReceiverState}, r.point = .awaitDatagram →
        ∃ es r', receiving.run (fun _ e => e.Silent) es r = some r' ∧
          es.countP ReceiverEvent.isReceive = k + 1 := by
      intro r hp
      have he : (ReceiverEvent.receive false none).Silent := ⟨rfl, rfl⟩
      have hs : receiving.step (.receive false none) r = some (r.receive false none).1 := if_pos hp
      obtain ⟨es, r', hrun, hk⟩ := ih (not_returned_of_silent he hs)
      refine ⟨.receive false none :: es, r', ?_, ?_⟩
      · rw [Machine.run, if_pos he, hs]
        exact hrun
      · rw [List.countP_cons_of_pos rfl, hk]
    cases hp' : r.point with
    | loopHead =>
      have he : (ReceiverEvent.advance false).Silent := rfl
      have hs : receiving.step (.advance false) r = some (r.advance false) := if_pos hp'
      have hwaits : (r.advance false).point = .awaitDatagram := by
        rw [ReceiverState.advance, hp']
        rfl
      obtain ⟨es, r', hrun, hk⟩ := hround hwaits
      refine ⟨.advance false :: es, r', ?_, ?_⟩
      · rw [Machine.run, if_pos he, hs]
        exact hrun
      · rw [List.countP_cons_of_neg Bool.noConfusion, hk]
    | awaitDatagram => exact hround hp'
    | returned ok => exact absurd hp' (hp ok)

end

/-- When nothing arrives any more, the sender returns after at most
    `maxRetransmitRounds + 1` timeouts, and the receiver waits on, timeout after timeout. -/
theorem returns_of_silence {α : Type} [Double α] {cfg : RDTWindowSender α} {data : Bytes}
    {s : SenderState α} (hs : (sending cfg data).Reachable s) {r : ReceiverState}
    (hp : ∀ ok, r.point ≠ .returned ok) :
    ((sending cfg data).Inevitable (fun _ e => e.Silent) (fun _ _ => True)
        (fun s => ∃ ok, s.point = .returned ok) s ∧
      ∀ es s', (sending cfg data).run (fun _ e => e.Silent) es s = some s' →
        es.countP SenderEvent.isReceive ≤ cfg.maxRetransmitRounds.toNat + 1) ∧
    ((∀ r', receiving.Reaches (fun _ e => e.Silent) r r' → ∀ ok, r'.point ≠ .returned ok) ∧
      ∀ k, ∃ es r', receiving.run (fun _ e => e.Silent) es r = some r' ∧
        es.countP ReceiverEvent.isReceive = k) := by
  refine ⟨⟨(paced hs).inevitable, fun es s' hrun => (paced hs).countP_le hrun⟩, ?_,
    exists_silent_run hp⟩
  intro r' hreaches
  exact hreaches.invariant (fun r e r' _ he hs => not_returned_of_silent he hs) hp

theorem returns_of_silence_start :
    ∃ s, SenderState.init closing [1, 2, 3] = some s ∧
      ((sending closing [1, 2, 3]).Inevitable (fun _ e => e.Silent) (fun _ _ => True)
        (fun s => ∃ ok, s.point = .returned ok) s) ∧
      ∀ r', receiving.Reaches (fun _ e => e.Silent) idleReceiver r' →
        ∀ ok, r'.point ≠ .returned ok := by
  have hinit : (SenderState.init closing [1, 2, 3]).isSome = true := by decide +kernel
  obtain ⟨s, hs⟩ := Option.isSome_iff_exists.1 hinit
  have hreach : (sending closing [1, 2, 3]).Reachable s := ⟨s, hs, .refl⟩
  have h := returns_of_silence (r := idleReceiver) hreach fun ok => ReceiverPoint.noConfusion
  exact ⟨s, hs, h.1.1, h.2.1⟩

/-- There is no number of timeouts the receiver returns within. -/
theorem not_returns_of_silence :
    ¬∃ bound : Nat, ∀ r, receiving.Reachable r → ∀ es r',
      receiving.run (fun _ e => e.Silent) es r = some r' →
        es.countP ReceiverEvent.isReceive ≤ bound := by
  rintro ⟨bound, h⟩
  have hidle : receiving.Reachable idleReceiver := ⟨idleReceiver, ⟨8, {}, rfl⟩, .refl⟩
  obtain ⟨es, r', hrun, hcount⟩ := exists_silent_run (r := idleReceiver)
    (fun ok => ReceiverPoint.noConfusion) (bound + 1)
  have hle := h idleReceiver hidle es r' hrun
  omega

end HybridFtp
