import TieredStore.Client.Answer
import TieredStore.Config
import TieredStore.Transport

/-!
# Clients

A client keeps the endpoints it was given, its settings, the number of its next request, and a value
that stands for what is not there.  In a session it has a transport at hand, which it may share with
others.  Each call makes one attempt at most: it picks one endpoint, sends one request and takes the
reply that carries the request's id.
-/

namespace TieredStore

/-- A value that is given in place of a missing one, in the form of each encoding that has one. -/
structure Default where
  packed : Bytes
  plain : Option Bytes
  deriving DecidableEq, Repr

structure Client where
  config : Config
  registry : Registry
  /-- The id of the next request, of which 28 bits are used. -/
  nextId : UInt32
  default : Option Default
  deriving DecidableEq

namespace Client

def new (config : Config) : Client :=
  ⟨config, .empty, 1, none⟩

/-! ## Settings -/

def setEncoding (client : Client) (encoding : Encoding) : Client :=
  { client with config := { client.config with encoding } }

def setPolicy (client : Client) (policy : Policy) : Client :=
  { client with config := { client.config with policy } }

/-- Takes a value that has a packed form to stand for missing ones. -/
def setDefault (client : Client) (value : Datum) : Except Error Client :=
  match Encoding.packed.encode value with
  | .error error => .error error
  | .ok packed =>
    .ok { client with default := some ⟨packed, (Encoding.plain.encode value).toOption⟩ }

def clearDefault (client : Client) : Client :=
  { client with default := none }

/-- The bytes that stand for a missing value in the encoding in use. -/
def defaultBytes (client : Client) : Option Bytes :=
  client.default.bind fun value =>
    match client.config.encoding with
    | .packed => some value.packed
    | .plain => value.plain

def encode (client : Client) (value : Datum) : Except Error Bytes :=
  client.config.encoding.encode value

def decode (client : Client) (shape : Shape) (bytes : Bytes) : Except Error Datum :=
  client.config.encoding.decode shape bytes

end Client

/-! ## Sessions -/

structure Session (σ : Type) where
  client : Client
  transport : σ

namespace Session

variable {σ : Type} [Transport σ]

/-- Registers an endpoint that is valid, new, of a kind that the transport serves, and prepared by
it.  On an error the client stays as it is. -/
def register (session : Session σ) (endpoint : Endpoint) : Except Error Unit × Session σ :=
  match session.client.registry.register endpoint with
  | .error error => (.error error, session)
  | .ok registry =>
    if !Transport.supports session.transport endpoint.kind then
      (.error (.config (.unsupported endpoint.kind)), session)
    else
      match Transport.prepare endpoint session.transport with
      | (.error error, transport) => (.error error, { session with transport })
      | (.ok (), transport) =>
        (.ok (), { client := { session.client with registry }, transport })

/-! ## Round trips -/

/-- Sends a command to an endpoint under the next id. -/
def send (session : Session σ) (endpoint : Endpoint) (flags : Flags) (command : Command) :
    Answer × Session σ :=
  let request := Request.make session.client.nextId flags command
  let client := { session.client with nextId := session.client.nextId + 1 }
  match Transport.roundTrip endpoint request session.transport with
  | (.error error, transport) => (.error error.toFailure, { client, transport })
  | (.ok reply, transport) =>
    (if reply.id = request.id then .ok reply else .error .malformed, { client, transport })

def sendTo (session : Session σ) (endpoint : Option Endpoint) (flags : Flags)
    (command : Command) : Answer × Session σ :=
  match endpoint with
  | none => (.error .noEndpoint, session)
  | some endpoint => session.send endpoint flags command

def dispatch (session : Session σ) (flags : Flags) (command : Command) : Answer × Session σ :=
  session.sendTo (session.client.registry.select session.client.config.policy command.key) flags
    command

/-! ## Operations on bytes -/

def put (session : Session σ) (flags : Flags) (key value : Bytes) : Status × Session σ :=
  (session.dispatch flags (.set key value)).map Answer.status id

def fetch (session : Session σ) (flags : Flags) (key : Bytes) :
    (Status × Option Bytes) × Session σ :=
  (session.dispatch flags (.get key)).map Answer.value id

def remove (session : Session σ) (flags : Flags) (key : Bytes) : Status × Session σ :=
  (session.dispatch flags (.delete key)).map Answer.status id

/-- Rebinds a key that has an expected value, and tells by a number what became of it. -/
def swap (session : Session σ) (flags : Flags) (key old new : Bytes) : Int × Session σ :=
  (session.dispatch flags (.cas key old new)).map (fun answer => CasOutcome.codeOf answer.status) id

def add (session : Session σ) (flags : Flags) (key : Bytes) (delta : Int64) :
    (Status × Option Int64) × Session σ :=
  (session.dispatch flags (.incr key delta)).map Answer.counter id

/-- The first key in the database of the endpoint that was registered first. -/
def firstKeyBytes (session : Session σ) : (Status × Option Bytes) × Session σ :=
  (session.sendTo session.client.registry.first? .none .firstKey).map Answer.value id

def nextKeyBytes (session : Session σ) (key : Bytes) : (Status × Option Bytes) × Session σ :=
  (session.sendTo session.client.registry.first? .none (.nextKey key)).map Answer.value id

def counters (session : Session σ) (endpoint : Endpoint) :
    (Status × List UInt64) × Session σ :=
  (session.send endpoint .none .stats).map Answer.counters id

end Session

end TieredStore
