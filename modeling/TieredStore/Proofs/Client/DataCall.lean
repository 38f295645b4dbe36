import TieredStore.Client.Mode
import TieredStore.Proofs.Client.Plan

/-!
# Calls on data

What an application can ask of a client, as data.  A call on a key comes to at most one request: the
command that its arguments are encoded as, and what the answer to it means (`ask_eq_call`).  Every
call follows a plan (`perform_eq_run`).
-/

namespace TieredStore

/-- A call on one key, to be made in some mode of access. -/
inductive KeyCall where
  | set (key value : Datum)
  | get (key : Datum) (shape : Shape)
  | getItem (key : Datum) (shape : Shape)
  | has (key : Datum)
  | delete (key : Datum)
  | cas (key old new : Datum)
  | incr (key : Datum) (delta : Int64)

/-- A call of a client whose endpoints and settings stay. -/
inductive ClientCall where
  | onKey (mode : Mode) (call : KeyCall)
  | firstKey (shape : Shape)
  | nextKey (key : Datum) (shape : Shape)
  | stats

/-- What a successful call gives. -/
inductive CallResult where
  | unit
  | found (value : Option Datum)
  | item (value : Datum)
  | truth (b : Bool)
  | swapped (swap : Swap)
  | counter (number : Option Int64)
  | counters (servers : List (Endpoint × Except Error (List UInt64)))

namespace KeyCall

def key : KeyCall → Datum
  | .set key _ | .get key _ | .getItem key _ | .has key | .delete key | .cas key _ _
  | .incr key _ => key

/-- The command of a call, if all its arguments can be encoded. -/
def command (client : Client) : KeyCall → Except Error Command
  | .set key value => do return .set (← client.encode key) (← client.encode value)
  | .get key _ | .getItem key _ | .has key => do return .get (← client.encode key)
  | .delete key => do return .delete (← client.encode key)
  | .cas key old new => do
    let key ← client.encode key
    let old ← client.encode old
    let new ← client.encode new
    return .cas key old new
  | .incr key delta => do return .incr (← client.encode key) delta

/-- The kind of command that a call sends. -/
def type : KeyCall → CommandType
  | .set .. => .set
  | .get .. | .getItem .. | .has _ => .get
  | .delete _ => .delete
  | .cas .. => .cas
  | .incr .. => .incr

end KeyCall

/-- The key whose value a call is about. -/
def ClientCall.key? : ClientCall → Option Datum
  | .onKey _ call => some call.key
  | .firstKey _ | .nextKey .. | .stats => none

namespace Client

/-- What a call gives that finds nothing: the default, if there is one. -/
def missing (client : Client) (shape : Shape) : Except Error (Option Datum) :=
  match client.defaultBytes with
  | none => .ok none
  | some bytes => (client.decode shape bytes).map some

end Client

namespace KeyCall

/-- What a call makes of the answer to its request. -/
def interpret (client : Client) : KeyCall → Answer → Except Error CallResult
  | .set .., answer => answer.status.written.map fun _ => .unit
  | .get _ shape, answer =>
    (Outcome.ofRead answer.value.1 answer.value.2).toResult.bind fun found =>
      match found with
      | none => (client.missing shape).map .found
      | some bytes => (client.decode shape bytes).map (.found ∘ some)
  | .getItem _ shape, answer =>
    (Outcome.ofRead answer.value.1 answer.value.2).toResult.bind fun found =>
      match found with
      | none => .error .keyNotFound
      | some bytes => (client.decode shape bytes).map .item
  | .has _, answer =>
    (Outcome.ofRead answer.value.1 answer.value.2).toResult.map fun found =>
      .truth (found.isSome && found != client.defaultBytes)
  | .delete _, answer => answer.status.deleted.map .truth
  | .cas .., answer =>
    (CasOutcome.ofCode (CasOutcome.codeOf answer.status)).toResult.map .swapped
  | .incr .., answer => (answer.counter.1.incremented answer.counter.2).map .counter

end KeyCall

namespace Session

variable {σ : Type} [Transport σ]

/-- Makes a call on a key. -/
def ask (session : Session σ) (mode : Mode) : KeyCall → Except Error CallResult × Session σ
  | .set key value => (session.set mode key value).map (·.map fun _ => .unit) id
  | .get key shape => (session.get mode key shape).map (·.map .found) id
  | .getItem key shape => (session.getItem mode key shape).map (·.map .item) id
  | .has key => (session.has mode key).map (·.map .truth) id
  | .delete key => (session.delete mode key).map (·.map .truth) id
  | .cas key old new => (session.cas mode key old new).map (·.map .swapped) id
  | .incr key delta => (session.incr mode key delta).map (·.map .counter) id

/-- What is made of the result of a call is made of the answer, unless there is no answer. -/
theorem map_call {α β : Type} (session : Session σ) (mode : Mode)
    (command : Except Error Command) (interpret : Answer → Except Error α)
    {f : Except Error α → Except Error β} (hf : ∀ error, f (.error error) = .error error) :
    (session.call mode command interpret).map f id
      = session.call mode command fun answer => f (interpret answer) := by
  unfold call
  cases command with
  | error error =>
    change (f (.error error), session) = (.error error, session)
    rw [hf]
  | ok command => rfl

theorem map_find {α β : Type} (session : Session σ) (mode : Mode) (key : Datum)
    {f : Except Error (Option Bytes) → Except Error α} {g : Except Error α → Except Error β}
    (hf : ∀ error, f (.error error) = .error error)
    (hg : ∀ error, g (.error error) = .error error) :
    ((session.find mode key).map f id).map g id
      = session.call mode (do return .get (← session.client.encode key)) fun answer =>
        g (f (Outcome.ofRead answer.value.1 answer.value.2).toResult) := by
  unfold find
  rw [map_call session mode _ _ hf, map_call session mode _ _ hg]

theorem ask_eq_call (session : Session σ) (mode : Mode) (call : KeyCall) :
    session.ask mode call
      = session.call mode (call.command session.client) (call.interpret session.client) := by
  cases call with
  | set key value => exact map_call session mode _ _ fun _ => rfl
  | get key shape =>
    simp only [ask, get, KeyCall.command]
    rw [map_find session mode key (fun _ => rfl) fun _ => rfl]
    congr 1
    funext answer
    simp only [KeyCall.interpret]
    cases (Outcome.ofRead answer.value.1 answer.value.2).toResult with
    | error error => rfl
    | ok found =>
      cases found with
      | none =>
        -- nothing is found, so that the default decides
        unfold Client.missing
        cases session.client.defaultBytes with
        | none => rfl
        | some bytes => rfl
      | some bytes =>
        simp only [Except.bind, Option.some_or]
        cases session.client.decode shape bytes with
        | error error => rfl
        | ok value => rfl
  | getItem key shape =>
    simp only [ask, getItem, KeyCall.command]
    rw [map_find session mode key (fun _ => rfl) fun _ => rfl]
    congr 1
    funext answer
    simp only [KeyCall.interpret]
    cases (Outcome.ofRead answer.value.1 answer.value.2).toResult with
    | error error => rfl
    | ok found =>
      cases found with
      | none => rfl
      | some bytes => rfl
  | has key =>
    simp only [ask, has, KeyCall.command]
    rw [map_find session mode key (fun _ => rfl) fun _ => rfl]
    congr 1
    funext answer
    simp only [KeyCall.interpret]
    cases (Outcome.ofRead answer.value.1 answer.value.2).toResult with
    | error error => rfl
    | ok found => rfl
  | delete key => exact map_call session mode _ _ fun _ => rfl
  | cas key old new => exact map_call session mode _ _ fun _ => rfl
  | incr key delta => exact map_call session mode _ _ fun _ => rfl

end Session

/-! ## Plans of calls -/

/-- The endpoint that a command is sent to. -/
def Client.home (client : Client) (command : Command) : Option Endpoint :=
  client.registry.select client.config.policy command.key

def KeyCall.plan (client : Client) (mode : Mode) (call : KeyCall) : Plan (Except Error CallResult) :=
  match call.command client with
  | .error error => .done (.error error)
  | .ok command =>
    .askAt (client.home command) (mode.flags command.type) command fun answer =>
      .done (call.interpret client answer)

namespace ClientCall

/-- What a client makes of the answer to a step of the iteration. -/
def keyFound (client : Client) (shape : Shape) (answer : Answer) : Except Error CallResult :=
  ((Outcome.ofRead answer.value.1 answer.value.2).toResult.bind fun key =>
    match key with
    | none => .ok none
    | some bytes => (client.decode shape bytes).map some).map .found

/-- Asks endpoints for their counters. -/
def countersOf : List Endpoint → Plan (List (Endpoint × Except Error (List UInt64)))
  | [] => .done []
  | endpoint :: endpoints =>
    .ask endpoint .none .stats fun answer =>
      (countersOf endpoints).map ((endpoint, answer.counters.1.counted answer.counters.2) :: ·)

def plan (client : Client) : ClientCall → Plan (Except Error CallResult)
  | .onKey mode call => call.plan client mode
  | .firstKey shape =>
    .askAt client.registry.first? .none .firstKey fun answer => .done (keyFound client shape answer)
  | .nextKey key shape =>
    match client.encode key with
    | .error error => .done (.error error)
    | .ok bytes =>
      .askAt client.registry.first? .none (.nextKey bytes) fun answer =>
        .done (keyFound client shape answer)
  | .stats => (countersOf client.registry.endpoints).map (.ok ∘ .counters)

end ClientCall

namespace Session

variable {σ : Type} [Transport σ]

def perform (session : Session σ) : ClientCall → Except Error CallResult × Session σ
  | .onKey mode call => session.ask mode call
  | .firstKey shape => (session.firstKey shape).map (·.map .found) id
  | .nextKey key shape => (session.nextKey key shape).map (·.map .found) id
  | .stats => session.stats.map (.ok ∘ .counters) id

/-- Makes calls one after another. -/
def performAll (session : Session σ) :
    List ClientCall → List (Except Error CallResult) × Session σ
  | [] => ([], session)
  | call :: calls =>
    let (result, session) := session.perform call
    let (results, session) := session.performAll calls
    (result :: results, session)

theorem ask_eq_run (session : Session σ) (mode : Mode) (call : KeyCall) :
    session.ask mode call = (call.plan session.client mode).run session := by
  rw [ask_eq_call]
  unfold Session.call KeyCall.plan
  cases call.command session.client with
  | error error => rfl
  | ok command =>
    simp only [Plan.run_askAt]
    rfl

/-- A call whose arguments can be encoded sends its command to the command's home. -/
theorem ask_of_command {session : Session σ} {mode : Mode} {call : KeyCall} {command : Command}
    (hcommand : call.command session.client = .ok command) :
    session.ask mode call
      = (session.sendTo (session.client.home command) (mode.flags command.type) command).map
          (call.interpret session.client) id := by
  rw [ask_eq_call]
  unfold Session.call
  rw [hcommand]
  rfl

theorem statsOf_eq_run (session : Session σ) (endpoints : List Endpoint) :
    session.statsOf endpoints = (ClientCall.countersOf endpoints).run session := by
  induction endpoints generalizing session with
  | nil => rfl
  | cons endpoint endpoints ih =>
    simp only [statsOf, ClientCall.countersOf, Plan.run, Plan.run_map, ih]
    rfl

theorem perform_eq_run (session : Session σ) (call : ClientCall) :
    session.perform call = (call.plan session.client).run session := by
  cases call with
  | onKey mode call => exact session.ask_eq_run mode call
  | firstKey shape =>
    simp only [ClientCall.plan, Plan.run_askAt]
    rfl
  | nextKey key shape =>
    simp only [perform, nextKey, ClientCall.plan]
    cases session.client.encode key with
    | error error => rfl
    | ok bytes =>
      simp only [Plan.run_askAt]
      rfl
  | stats =>
    simp only [perform, stats, ClientCall.plan, Plan.run_map, statsOf_eq_run]

end Session

end TieredStore
