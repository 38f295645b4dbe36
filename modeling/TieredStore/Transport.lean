import TieredStore.Error
import TieredStore.Reply

/-!
# Transports

What a client needs of the network: to know which kinds of endpoint are served, to prepare one when
it is registered, and to carry one request there and one reply back.  A transport makes one attempt
and does not interpret codes.
-/

namespace TieredStore

/-- A state through which requests travel. -/
class Transport (σ : Type) where
  /-- Whether endpoints of a kind are served. -/
  supports : σ → TransportKind → Bool
  /-- Makes ready for an endpoint that is about to be registered.  An endpoint that is only out of
  reach for now is accepted. -/
  prepare : Endpoint → σ → Except Error Unit × σ
  /-- Sends a request and waits for its reply. -/
  roundTrip : Endpoint → Request → σ → Except Error Reply × σ

end TieredStore
