import TieredStore.Endpoint
import TieredStore.Wire.Stream

/-!
# Networks

What sockets need of the machine and of all that lies behind it.  A network is known by what can be
observed of it: the addresses of an endpoint, whether a link to an address comes about, and what
arrives over a link from the moment something is sent until nobody waits any longer.
-/

namespace TieredStore

/-- Where a link can lead to: host and port. -/
abbrev Address := String

/-- A state of everything outside, in which links are known by numbers. -/
class Network (ν : Type) where
  /-- The addresses of an endpoint, or the resolver's reason why there is none. -/
  resolve : ν → Endpoint → Except String (List Address)
  /-- Opens a link: a connection, or a socket for datagrams. -/
  dial : TransportKind → Address → ν → Except IoError Nat × ν
  /-- Sends bytes over a link.  The pieces (or datagrams) are those that arrive while the sender
  waits for an answer; the stop is what ends the waiting. -/
  transfer : Nat → Bytes → ν → Except IoError Wire.Inflow × ν

end TieredStore
