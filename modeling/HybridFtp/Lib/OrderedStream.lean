import Mathlib.Order.Nat

/-!
# Ordered streams

What a reliable transfer of `n` pieces is for, whatever protocol carries it: the
pieces are delivered in order, a piece counts as acknowledged only once it has
been delivered, and the stream is finished only once all have been.
-/

namespace HybridFtp

/-- How far the transfer of `n` pieces has got. -/
structure OrderedStream (n : Nat) where
  /-- The number of pieces known, on the sending side, to be delivered. -/
  acknowledged : Nat
  /-- The number of pieces delivered. -/
  delivered : Nat
  /-- The receiving side takes the stream for complete. -/
  finished : Prop
  acknowledged_le : acknowledged ≤ delivered
  delivered_le : delivered ≤ n
  delivered_eq : finished → delivered = n

namespace OrderedStream

variable {n : Nat}

/-- Nothing has been transferred yet. -/
def start (n : Nat) : OrderedStream n where
  acknowledged := 0
  delivered := 0
  finished := False
  acknowledged_le := le_rfl
  delivered_le := Nat.zero_le n
  delivered_eq := False.elim

variable (s : OrderedStream n)

/-- Delivering the next piece. -/
def deliver (h : s.delivered < n) : OrderedStream n where
  acknowledged := s.acknowledged
  delivered := s.delivered + 1
  finished := s.finished
  acknowledged_le := s.acknowledged_le.trans (Nat.le_succ _)
  delivered_le := h
  delivered_eq hf := absurd (s.delivered_eq hf) h.ne

/-- Acknowledging the first `k` pieces. -/
def acknowledge (k : Nat) (h : k ≤ s.delivered) : OrderedStream n where
  acknowledged := k
  delivered := s.delivered
  finished := s.finished
  acknowledged_le := h
  delivered_le := s.delivered_le
  delivered_eq := s.delivered_eq

/-- Finishing the stream. -/
def finish (h : s.delivered = n) : OrderedStream n where
  acknowledged := s.acknowledged
  delivered := s.delivered
  finished := True
  acknowledged_le := s.acknowledged_le
  delivered_le := s.delivered_le
  delivered_eq _ := h

end OrderedStream

end HybridFtp
