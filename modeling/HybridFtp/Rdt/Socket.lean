import HybridFtp.Rdt.Header

/-!
# UDP sockets

What the RDT layer sees of a `UDPSocket`: it sends byte strings to endpoints,
and `recvFrom` either fails (a timeout or an error) or leaves a datagram, cut to
the size of the buffer, and the endpoint it came from.

* `knockSender`: how the parties of a transfer introduce themselves;
* `TransferResult`: how a transfer ends.
-/

namespace HybridFtp

/-- An IP address, in dotted form, and a UDP port. A default-constructed
    `std::string` and port `0` stand for an endpoint not known yet. -/
structure Endpoint where
  ip : String := ""
  port : UInt16 := 0
  deriving DecidableEq, Repr

/-- The endpoint is known: neither part of it is left at its default value. -/
def Endpoint.isKnown (e : Endpoint) : Bool := e.ip != "" && e.port != 0

/-- The endpoint of a bound socket, as the peers of the socket see it. -/
structure BoundEndpoint extends Endpoint where
  isKnown : toEndpoint.isKnown = true

/-- The outcome of `recvFrom`: `none` if it returned `-1`, on a timeout. -/
abbrev Received := Option (Endpoint × Bytes)

/-- `recvFrom` into a buffer of `bufferSize` bytes. -/
def recvFrom (bufferSize : Nat) (arrival : Received) : Received :=
  arrival.map fun (sender, datagram) => (sender, readInto bufferSize datagram)

/-- The sender of a datagram that is long enough for a header, as the parties of a
    transfer introduce themselves. -/
def knockSender (arrival : Received) : Option Endpoint :=
  match recvFrom (CUSTOM_UDP_HEADER_SIZE + 64) arrival with
  | none => none
  | some (sender, datagram) => if datagram.length < CUSTOM_UDP_HEADER_SIZE then none else some sender

/-- How sending or receiving a buffer ends. A callback that aborts it makes it fail. -/
inductive TransferResult (α : Type)
  | completed (a : α)
  | failed
  | aborted
  deriving DecidableEq, Repr

end HybridFtp
