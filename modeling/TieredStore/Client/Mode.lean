import TieredStore.Client

/-!
# Modes of access

The operations of a client on application values.  A mode tells which tiers they touch and whether
writes are waited for; it decides nothing but the flags of the one request that an operation sends.
Keys and values are encoded before anything is sent, the reply is interpreted, and what it carries
is decoded; where a read finds nothing, the client's default steps in.
-/

namespace TieredStore

/-- How an operation reaches the tiers. -/
inductive Mode where
  /-- Both tiers, writes without waiting. -/
  | direct
  /-- The cache alone, which may forget. -/
  | cache
  /-- Both tiers, writes acknowledged by the database. -/
  | synchronous
  deriving DecidableEq, Repr

/-- The flags of a command.  Only what changes the database without a condition is waited for. -/
def Mode.flags : Mode → CommandType → Flags
  | .direct, _ => .none
  | .cache, _ => .cacheOnly
  | .synchronous, .set => .sync
  | .synchronous, .delete => .sync
  | .synchronous, _ => .none

namespace Session

variable {σ : Type} [Transport σ]

/-- Sends the command of an operation, once its arguments are encoded, and interprets the answer. -/
def call {α : Type} (session : Session σ) (mode : Mode) (command : Except Error Command)
    (interpret : Answer → Except Error α) : Except Error α × Session σ :=
  match command with
  | .error error => (.error error, session)
  | .ok command => (session.dispatch (mode.flags command.type) command).map interpret id

def set (session : Session σ) (mode : Mode) (key value : Datum) : Except Error Unit × Session σ :=
  session.call mode
    (do return .set (← session.client.encode key) (← session.client.encode value))
    fun answer => answer.status.written

def find (session : Session σ) (mode : Mode) (key : Datum) :
    Except Error (Option Bytes) × Session σ :=
  session.call mode (do return .get (← session.client.encode key))
    fun answer => (Outcome.ofRead answer.value.1 answer.value.2).toResult

/-- The value under a key; the default if there is none. -/
def get (session : Session σ) (mode : Mode) (key : Datum) (shape : Shape) :
    Except Error (Option Datum) × Session σ :=
  (session.find mode key).map (·.bind fun found =>
    match found.or session.client.defaultBytes with
    | none => .ok none
    | some bytes => (session.client.decode shape bytes).map some) id

/-- The value under a key, which has to be there. -/
def getItem (session : Session σ) (mode : Mode) (key : Datum) (shape : Shape) :
    Except Error Datum × Session σ :=
  (session.find mode key).map (·.bind fun found =>
    match found with
    | none => .error .keyNotFound
    | some bytes => session.client.decode shape bytes) id

/-- Whether a key has a value other than the default. -/
def has (session : Session σ) (mode : Mode) (key : Datum) : Except Error Bool × Session σ :=
  (session.find mode key).map (·.map fun found =>
    found.isSome && found != session.client.defaultBytes) id

/-- Removes a key; tells whether it was there. -/
def delete (session : Session σ) (mode : Mode) (key : Datum) : Except Error Bool × Session σ :=
  session.call mode (do return .delete (← session.client.encode key))
    fun answer => answer.status.deleted

/-- Replaces the value under a key if it is the expected one. -/
def cas (session : Session σ) (mode : Mode) (key old new : Datum) :
    Except Error Swap × Session σ :=
  session.call mode
    (do
      let key ← session.client.encode key
      let old ← session.client.encode old
      let new ← session.client.encode new
      return .cas key old new)
    fun answer => (CasOutcome.ofCode (CasOutcome.codeOf answer.status)).toResult

/-- Adds to the counter under a key; gives the new number, or nothing if the key is not there. -/
def incr (session : Session σ) (mode : Mode) (key : Datum) (delta : Int64) :
    Except Error (Option Int64) × Session σ :=
  session.call mode (do return .incr (← session.client.encode key) delta)
    fun answer => answer.counter.1.incremented answer.counter.2

/-! ## Iteration and statistics -/

def decodeKey (session : Session σ) (shape : Shape) (found : Status × Option Bytes) :
    Except Error (Option Datum) :=
  (Outcome.ofRead found.1 found.2).toResult.bind fun key =>
    match key with
    | none => .ok none
    | some bytes => (session.client.decode shape bytes).map some

/-- The first key in the database of the endpoint that was registered first. -/
def firstKey (session : Session σ) (shape : Shape) : Except Error (Option Datum) × Session σ :=
  session.firstKeyBytes.map (session.decodeKey shape) id

def nextKey (session : Session σ) (key : Datum) (shape : Shape) :
    Except Error (Option Datum) × Session σ :=
  match session.client.encode key with
  | .error error => (.error error, session)
  | .ok bytes => (session.nextKeyBytes bytes).map (session.decodeKey shape) id

def statsOf (session : Session σ) :
    List Endpoint → List (Endpoint × Except Error (List UInt64)) × Session σ
  | [] => ([], session)
  | endpoint :: endpoints =>
    let ((status, values), session) := session.counters endpoint
    let (rest, session) := session.statsOf endpoints
    ((endpoint, status.counted values) :: rest, session)

/-- The counters of the servers behind all endpoints, in the order of registration. -/
def stats (session : Session σ) :
    List (Endpoint × Except Error (List UInt64)) × Session σ :=
  session.statsOf session.client.registry.endpoints

end Session

end TieredStore
