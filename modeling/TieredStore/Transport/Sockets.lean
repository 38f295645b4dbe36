import TieredStore.Transport
import TieredStore.Transport.Network
import TieredStore.Wire.Frame

/-!
# Sockets

Round trips over TCP and UDP.  Each endpoint has at most one connection, made when the endpoint is
registered if it can be, else when it is first used.  Over TCP a request and its reply are frames; a
connection on which an exchange failed may hold half a frame and is given up.  Over UDP they are
datagrams; replies with another id are late answers to earlier requests and are passed over.
-/

namespace TieredStore

/-- Bytes that a message may have beyond the keys and values in it. -/
def frameOverhead : Nat := Wire.requestHeaderSize + 16

/-- The largest datagram that is sent or received. -/
def maxDatagram : Nat := 128 * 1024

/-- An open link, and what arrived over it without being read. -/
structure Connection where
  link : Nat
  waiting : List Bytes
  deriving DecidableEq, Repr

/-- The connections of one client over a network. -/
structure Sockets (ν : Type) where
  maxPayload : Nat
  connections : List (Endpoint × Connection)
  network : ν

namespace Sockets

variable {ν : Type} [Network ν]

/-- No connections yet. -/
def start (maxPayload : Nat) (network : ν) : Sockets ν :=
  ⟨maxPayload, [], network⟩

/-- The longest reply that is read from a stream. -/
def maxMessage (sockets : Sockets ν) : Nat :=
  sockets.maxPayload + frameOverhead

def connection? (sockets : Sockets ν) (endpoint : Endpoint) : Option Connection :=
  sockets.connections.lookup endpoint

/-- Gives up the connection to an endpoint. -/
def close (sockets : Sockets ν) (endpoint : Endpoint) : Sockets ν :=
  { sockets with connections := sockets.connections.filter (·.1 ≠ endpoint) }

/-- Keeps a connection to an endpoint in place of an earlier one. -/
def keep (sockets : Sockets ν) (endpoint : Endpoint) (connection : Connection) : Sockets ν :=
  let rest := sockets.close endpoint
  { rest with connections := (endpoint, connection) :: rest.connections }

def supports : TransportKind → Bool
  | .tcp | .udp => true
  | .tipc | .sctp => false

/-! ## Connecting -/

/-- The addresses of an endpoint, of which there is at least one. -/
def resolve (sockets : Sockets ν) (endpoint : Endpoint) : Except Error (List Address) :=
  match Network.resolve sockets.network endpoint with
  | .error reason => .error (.config (.unresolvable endpoint reason))
  | .ok [] => .error (.config (.noAddress endpoint))
  | .ok addresses => .ok addresses

/-- Opens a link to the first address that takes it; the last refusal counts. -/
def dialFirst (kind : TransportKind) (refusal : IoError) :
    List Address → ν → Except IoError Nat × ν
  | [], network => (.error refusal, network)
  | address :: addresses, network =>
    match Network.dial kind address network with
    | (.ok link, network) => (.ok link, network)
    | (.error refusal, network) => dialFirst kind refusal addresses network

/-- Opens a connection to an endpoint: over TCP to any of its addresses, over UDP to the first. -/
def connect (sockets : Sockets ν) (endpoint : Endpoint) : Except Error Connection × Sockets ν :=
  match sockets.resolve endpoint with
  | .error error => (.error error, sockets)
  | .ok addresses =>
    if !supports endpoint.kind then
      (.error (.config (.unsupported endpoint.kind)), sockets)
    else
      let addresses := if endpoint.kind.isStream then addresses else addresses.take 1
      let refusal : IoError := ⟨.addrNotAvailable, "no address to connect to"⟩
      match dialFirst endpoint.kind refusal addresses sockets.network with
      | (.error error, network) => (.error (.io error), { sockets with network })
      | (.ok link, network) => (.ok ⟨link, []⟩, { sockets with network })

/-- Accepts an endpoint of a kind that is served and whose host has an address, and connects to it
if that can be done now. -/
def prepare (endpoint : Endpoint) (sockets : Sockets ν) : Except Error Unit × Sockets ν :=
  if !supports endpoint.kind then
    (.error (.config (.unsupported endpoint.kind)), sockets)
  else
    match sockets.resolve endpoint with
    | .error error => (.error error, sockets)
    | .ok _ =>
      match sockets.connection? endpoint with
      | some _ => (.ok (), sockets)
      | none =>
        match sockets.connect endpoint with
        | (.error _, sockets) => (.ok (), sockets)
        | (.ok connection, sockets) => (.ok (), sockets.keep endpoint connection)

/-! ## Exchanging -/

/-- Exchanges frames.  The connection stays open only after a whole reply. -/
def exchangeFrames (endpoint : Endpoint) (connection : Connection) (request : Request)
    (sockets : Sockets ν) : Except Error Reply × Sockets ν :=
  match Network.transfer connection.link (Wire.frame request.encode) sockets.network with
  | (.error error, network) => (.error (.io error), { sockets.close endpoint with network })
  | (.ok arrival, network) =>
    match Wire.readReply sockets.maxMessage
        ⟨connection.waiting ++ arrival.pieces, arrival.stop⟩ with
    | (.error error, _) => (.error error, { sockets.close endpoint with network })
    | (.ok reply, rest) =>
      (.ok reply, { sockets.keep endpoint ⟨connection.link, rest.pieces⟩ with network })

/-- The first datagram that is a reply with the given id, and those after it.  Replies with other
ids are passed over; a datagram that is no reply is an error. -/
def pickReply (id : UInt32) (stop : IoError) : List Bytes → Except Error Reply × List Bytes
  | [] => (.error (.io stop), [])
  | datagram :: rest =>
    match Reply.decode datagram with
    | .error fault => (.error (.protocol fault), rest)
    | .ok reply => if reply.id = id then (.ok reply, rest) else pickReply id stop rest

/-- Exchanges datagrams. -/
def exchangeDatagrams (endpoint : Endpoint) (connection : Connection) (request : Request)
    (sockets : Sockets ν) : Except Error Reply × Sockets ν :=
  let message := request.encode
  if maxDatagram < message.length then
    (.error (.protocol (.noDatagram message.length)), sockets)
  else
    match Network.transfer connection.link message sockets.network with
    | (.error error, network) => (.error (.io error), { sockets with network })
    | (.ok arrival, network) =>
      let (result, rest) :=
        pickReply request.id arrival.stop (connection.waiting ++ arrival.pieces)
      (result, { sockets.keep endpoint ⟨connection.link, rest⟩ with network })

/-- Exchanges a request for its reply over an open connection. -/
def exchange (endpoint : Endpoint) (connection : Connection) (request : Request)
    (sockets : Sockets ν) : Except Error Reply × Sockets ν :=
  if endpoint.kind.isStream then exchangeFrames endpoint connection request sockets
  else exchangeDatagrams endpoint connection request sockets

/-- Sends a request whose keys and values are not too long, over a new connection if there is
none. -/
def roundTrip (endpoint : Endpoint) (request : Request) (sockets : Sockets ν) :
    Except Error Reply × Sockets ν :=
  let length := request.command.payloadLength
  if sockets.maxPayload < length then
    (.error (.protocol (.payloadTooLarge length sockets.maxPayload)), sockets)
  else
    match sockets.connection? endpoint with
    | some connection => exchange endpoint connection request sockets
    | none =>
      match sockets.connect endpoint with
      | (.error error, sockets) => (.error error, sockets)
      | (.ok connection, sockets) =>
        exchange endpoint connection request (sockets.keep endpoint connection)

instance : Transport (Sockets ν) where
  supports _ kind := supports kind
  prepare := prepare
  roundTrip := roundTrip

/-- The number of endpoints with an open connection. -/
def openConnections (sockets : Sockets ν) : Nat :=
  sockets.connections.length

end Sockets

end TieredStore
