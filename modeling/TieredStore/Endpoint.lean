import TieredStore.Text.Blank

/-!
# Endpoints

An endpoint is one server reached over one kind of transport: by host and port over TCP, UDP or
SCTP, by the instance of its service name over TIPC.  An endpoint can be written down without being
usable; `Endpoint.validate` accepts a TIPC instance, and a host that is not blank with a port that
is not zero.
-/

namespace TieredStore

inductive TransportKind where
  | tcp
  | udp
  | tipc
  | sctp
  deriving DecidableEq, Repr

namespace TransportKind

def name : TransportKind → String
  | .tcp => "tcp"
  | .udp => "udp"
  | .tipc => "tipc"
  | .sctp => "sctp"

/-- Servers are addressed by host and port. -/
def isIp : TransportKind → Bool
  | .tipc => false
  | _ => true

/-- A connection stays open between requests. -/
def isConnectionOriented : TransportKind → Bool
  | .tcp | .sctp => true
  | _ => false

/-- Messages need a length in front to be told apart. -/
def isStream : TransportKind → Bool
  | .tcp => true
  | _ => false

end TransportKind

inductive Endpoint where
  | tcp (host : String) (port : UInt16)
  | udp (host : String) (port : UInt16)
  | sctp (host : String) (port : UInt16)
  /-- The server that published this instance of the service name. -/
  | tipc (inst : UInt32)
  deriving DecidableEq, Repr

namespace Endpoint

/-- The port that servers listen on unless told otherwise. -/
def defaultPort : UInt16 := 26010

/-- The TIPC instance that servers publish unless told otherwise. -/
def defaultInstance : UInt32 := 10

/-- The TIPC service name of which each server publishes an instance. -/
def serviceType : Nat := 26001

def kind : Endpoint → TransportKind
  | .tcp .. => .tcp
  | .udp .. => .udp
  | .sctp .. => .sctp
  | .tipc .. => .tipc

/-- Host name or address; a TIPC endpoint has none. -/
def host : Endpoint → String
  | .tcp host _ | .udp host _ | .sctp host _ => host
  | .tipc _ => ""

/-- Port, or TIPC instance. -/
def port : Endpoint → Nat
  | .tcp _ port | .udp _ port | .sctp _ port => port.toNat
  | .tipc inst => inst.toNat

/-- Host and port as one address.  A host with a colon in it is put in brackets, unless it comes in
brackets already. -/
def socketAddress (endpoint : Endpoint) : String :=
  let host := endpoint.host
  if ':' ∈ host.toList ∧ host.toList.head? ≠ some '[' then
    s!"[{host}]:{endpoint.port}"
  else
    s!"{host}:{endpoint.port}"

/-- The endpoint as a locator. -/
def text (endpoint : Endpoint) : String :=
  match endpoint with
  | .tipc inst => s!"tipc://\x7b{serviceType}, {inst.toNat}\x7d"
  | _ => s!"{endpoint.kind.name}://{endpoint.socketAddress}"

/-! ## Usable endpoints -/

/-- Why an endpoint cannot be used at all. -/
inductive Fault where
  | missingHost (kind : TransportKind)
  | portOutOfRange (kind : TransportKind) (host : String) (port : Nat)
  | unsupported (kind : TransportKind)
  /-- The host has no address, for the reason that the resolver gives. -/
  | unresolvable (endpoint : Endpoint) (reason : String)
  | noAddress (endpoint : Endpoint)
  /-- A transport's own reason. -/
  | note (reason : String)
  deriving DecidableEq, Repr

def Fault.message : Fault → String
  | .missingHost kind => s!"{kind.name} endpoint requires a host"
  | .portOutOfRange kind host port => s!"{kind.name} endpoint {host}: port {port} out of range"
  | .unsupported kind => s!"unsupported transport kind: {kind.name}"
  | .unresolvable endpoint reason => s!"cannot resolve {endpoint.text}: {reason}"
  | .noAddress endpoint => s!"{endpoint.text} resolved to no address"
  | .note reason => reason

/-- Accepts the endpoints that have an address: any TIPC instance, and a host with more than blanks
in it with a port from 1 on. -/
def validate (endpoint : Endpoint) : Except Fault Unit :=
  if !endpoint.kind.isIp then
    .ok ()
  else if (Text.trim endpoint.host.toList).isEmpty then
    .error (.missingHost endpoint.kind)
  else if endpoint.port = 0 then
    .error (.portOutOfRange endpoint.kind endpoint.host endpoint.port)
  else
    .ok ()

end Endpoint

end TieredStore
