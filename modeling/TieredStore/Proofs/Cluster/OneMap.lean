import TieredStore.Proofs.Cluster.Fresh
import TieredStore.Proofs.Cluster.Sending
import TieredStore.Proofs.Server.Follows

/-!
# A cluster is one map

A client calls on the servers of a cluster, while caches lose entries, databases fall behind, and
servers come and go.  Whatever it is shown, one table would show the same, in which a key has one
value wherever it is kept.  All that is to be seen of the servers is that a call fails when the one
that its key belongs to is out of reach, or when it is too large (`run_eq_oneMap`).

A cluster and a table are coupled when the server of each key has the table's value of that key in
both tiers.  Each event keeps them coupled, and each call is answered alike.
-/

namespace TieredStore

/-- What takes place in a cluster between calls. -/
inductive Incident where
  /-- The cache behind an endpoint loses a key. -/
  | evict (endpoint : Endpoint) (key : Bytes)
  /-- The database behind an endpoint applies some of its jobs. -/
  | work (endpoint : Endpoint) (jobs : Nat)
  /-- An endpoint gets out of reach, or within it. -/
  | reach (endpoint : Endpoint) (reachable : Bool)
  deriving DecidableEq, Repr

inductive ClusterEvent where
  | call (call : MapCall)
  | incident (incident : Incident)
  deriving DecidableEq, Repr

/-! ## Clients -/

def Cluster.undergo (cluster : Cluster) : Incident → Cluster
  | .evict endpoint key => cluster.adjust endpoint fun server => (server.evict key).2
  | .work endpoint jobs => cluster.adjust endpoint fun server => server.work jobs
  | .reach endpoint reachable => (cluster.setReachable endpoint reachable).2

namespace Session

/-- All that the calls of a history return, and the session at its end. -/
def run (session : Session Cluster) : List ClusterEvent → List MapAnswer × Session Cluster
  | [] => ([], session)
  | .call call :: events =>
    let (answer, session) := session.issue call
    let (answers, session) := session.run events
    (answer :: answers, session)
  | .incident incident :: events =>
    { session with transport := session.transport.undergo incident }.run events

end Session

/-! ## The map -/

/-- One map, with what is to be known of the servers beside it: to which endpoint each key belongs,
which of them are within reach, and how much a call may carry. -/
structure OneMap where
  map : Table
  home : Bytes → Option Endpoint
  reachable : Endpoint → Bool
  limit : Nat

namespace OneMap

/-- Nothing is bound, and all endpoints are within reach. -/
def start (home : Bytes → Option Endpoint) (limit : Nat) : OneMap :=
  ⟨.empty, home, fun _ => true, limit⟩

def call (one : OneMap) (call : MapCall) : MapAnswer × OneMap :=
  match one.home call.command.key with
  | none => (call.refused .noEndpoint, one)
  | some endpoint =>
    if one.reachable endpoint then
      if one.limit < call.command.payloadLength then
        (call.refused (.server .brokenRequest), one)
      else
        ((one.map.call call).1, { one with map := (one.map.call call).2 })
    else
      (call.refused .transport, one)

/-- Caches and databases are not to be seen. -/
def undergo (one : OneMap) : Incident → OneMap
  | .evict .. | .work .. => one
  | .reach endpoint reachable =>
    { one with
      reachable := fun other => if other = endpoint then reachable else one.reachable other }

def run (one : OneMap) : List ClusterEvent → List MapAnswer × OneMap
  | [] => ([], one)
  | .call call :: events =>
    let (answer, one) := one.call call
    let (answers, one) := one.run events
    (answer :: answers, one)
  | .incident incident :: events => (one.undergo incident).run events

end OneMap

/-! ## One call -/

namespace Session

variable {session : Session Cluster} {endpoint : Endpoint} {server : Server}

theorem issue_of_none {call : MapCall}
    (hhome : session.client.registry.select session.client.config.policy call.command.key = none) :
    session.issue call = (call.refused .noEndpoint, session) := by
  rw [issue_eq, dispatch, hhome, ← call.read_error]
  rfl

theorem issue_of_unreachable {call : MapCall}
    (hhome : session.client.registry.select session.client.config.policy call.command.key
      = some endpoint)
    (hserver : session.transport.server? endpoint = some server)
    (hreachable : server.reachable = false) :
    session.issue call
      = (call.refused .transport, ⟨session.client.advance, session.transport⟩) := by
  rw [issue_eq, dispatch, hhome, sendTo, send_of_unreachable hserver hreachable, ← call.read_error]
  rfl

theorem issue_of_reachable {call : MapCall}
    (hhome : session.client.registry.select session.client.config.policy call.command.key
      = some endpoint)
    (hserver : session.transport.server? endpoint = some server)
    (hreachable : server.reachable = true) :
    ∃ id, session.issue call
      = (call.read (.ok (server.handle ⟨id, call.flags, call.command⟩).1),
        ⟨session.client.advance, session.transport.replace endpoint
          (server.handle ⟨id, call.flags, call.command⟩).2⟩) := by
  refine ⟨session.client.nextId &&& Request.maxId, ?_⟩
  rw [issue_eq, dispatch, hhome, sendTo, send_of_reachable hserver hreachable]
  rfl

end Session

/-! ## Coupling -/

/-- A server of an endpoint has the map's value of a key in both tiers. -/
structure OneMap.Serves (one : OneMap) (endpoint : Endpoint) (key : Bytes)
    (server : PromptServer) : Prop where
  settings : server.settings = (one.limit, one.reachable endpoint)
  holds : server.Holds key (one.map.get? key)

/-- A cluster stands for a map when the server of each key does, with the jobs that wait there. -/
structure Coupled (session : Session Cluster) (one : OneMap) : Prop where
  home : ∀ key, session.client.registry.select session.client.config.policy key = one.home key
  served : ∀ key endpoint, one.home key = some endpoint →
    ∃ server, session.transport.server? endpoint = some server
      ∧ one.Serves endpoint key server.settle
  short : one.map.Short
  limit : one.limit < 0x100000000

namespace Coupled

variable {session : Session Cluster} {one : OneMap}

/-- What happens to one server keeps a cluster coupled if that server does not get worse by it, and
no other is said to be within reach or out of it. -/
theorem adjust (h : Coupled session one) {endpoint : Endpoint} {change : Server → Server}
    (reachable : Endpoint → Bool)
    (hchange : ∀ key server, one.Serves endpoint key server.settle →
      { one with reachable }.Serves endpoint key (change server).settle)
    (hothers : ∀ other, other ≠ endpoint → reachable other = one.reachable other) :
    Coupled { session with transport := session.transport.adjust endpoint change }
      { one with reachable } := by
  refine ⟨h.home, ?_, h.short, h.limit⟩
  intro key other hhome
  obtain ⟨server, hserver, hserves⟩ := h.served key other hhome
  refine ⟨if other = endpoint then change server else server, ?_, ?_⟩
  · rw [Cluster.server?_adjust, hserver, Option.map_some]
  · by_cases heq : other = endpoint
    · subst heq
      rw [if_pos rfl]
      exact hchange key server hserves
    · rw [if_neg heq]
      refine ⟨?_, hserves.holds⟩
      rw [hserves.settings, ← hothers other heq]

theorem undergo (h : Coupled session one) (incident : Incident) :
    Coupled { session with transport := session.transport.undergo incident }
      (one.undergo incident) := by
  cases incident with
  | evict endpoint dropped =>
    refine h.adjust one.reachable ?_ (fun _ _ => rfl)
    intro key server hserves
    rw [Server.settle_evict]
    exact ⟨hserves.settings, hserves.holds.evict dropped⟩
  | work endpoint jobs =>
    refine h.adjust one.reachable ?_ (fun _ _ => rfl)
    intro key server hserves
    rw [Server.settle_work]
    exact hserves
  | reach endpoint reachable =>
    unfold Cluster.undergo OneMap.undergo
    simp only [Cluster.setReachable_snd]
    apply h.adjust
    · intro key server hserves
      refine ⟨?_, hserves.holds.stored, hserves.holds.fresh⟩
      have hlimit : server.maxPayload = one.limit := congrArg Prod.fst hserves.settings
      change (server.maxPayload, reachable) = _
      simp only [hlimit, if_true]
    · intro other hother
      exact if_neg hother

/-- The server of one endpoint has answered a call that changed the map.  That server may have
changed for all its keys; the other servers have not, but neither have their keys. -/
theorem replace (h : Coupled session one) {endpoint : Endpoint} {client : Client}
    {server answered : Server} {map : Table}
    (hregistry : client.registry = session.client.registry)
    (hconfig : client.config = session.client.config)
    (hserver : session.transport.server? endpoint = some server)
    (hanswered : ∀ key, one.Serves endpoint key server.settle →
      { one with map }.Serves endpoint key answered.settle)
    (hothers : ∀ key, one.home key ≠ some endpoint → map.get? key = one.map.get? key)
    (hshort : map.Short) :
    Coupled ⟨client, session.transport.replace endpoint answered⟩ { one with map } := by
  refine ⟨?_, ?_, hshort, h.limit⟩
  · rw [hregistry, hconfig]
    exact h.home
  · intro key other hhome
    obtain ⟨old, hold, hserves⟩ := h.served key other hhome
    refine ⟨if other = endpoint then answered else old, ?_, ?_⟩
    · rw [Cluster.server?_replace, hold, Option.map_some]
    · by_cases heq : other = endpoint
      · subst heq
        rw [if_pos rfl]
        obtain rfl : server = old := Option.some.inj (hserver.symm.trans hold)
        exact hanswered key hserves
      · rw [if_neg heq]
        have hvalue : map.get? key = one.map.get? key := by
          apply hothers key
          intro hsame
          exact heq (Option.some.inj (hhome.symm.trans hsame))
        refine ⟨hserves.settings, ?_⟩
        rw [hvalue]
        exact hserves.holds

section Answered

variable {endpoint : Endpoint} {server : Server} {call : MapCall}

/-- The server refuses a request that is too large, and does no more than count it. -/
theorem refuse (h : Coupled session one)
    (hserver : session.transport.server? endpoint = some server)
    (hlarge : server.settle.maxPayload < call.command.payloadLength) (id : UInt32) :
    call.read (.ok (server.handle ⟨id, call.flags, call.command⟩).1)
        = call.refused (.server .brokenRequest)
      ∧ Coupled ⟨session.client.advance, session.transport.replace endpoint
          (server.handle ⟨id, call.flags, call.command⟩).2⟩ one := by
  have houtcome :=
    PromptServer.handle_of_large server.settle ⟨id, call.flags, call.command⟩ hlarge
  constructor
  · rw [Server.handle_fst, houtcome, call.read_error_reply]
    rfl
  · refine h.replace rfl rfl hserver ?_ (fun _ _ => rfl) h.short
    intro key hserves
    rw [Server.settle_handle_snd, houtcome]
    exact ⟨hserves.settings, hserves.holds.stored, hserves.holds.fresh⟩

/-- The server carries a request out, and may lose other keys from its cache meanwhile. -/
theorem carryOut (h : Coupled session one)
    (hhome : one.home call.command.key = some endpoint)
    (hserver : session.transport.server? endpoint = some server)
    (hserves : one.Serves endpoint call.command.key server.settle)
    (hfits : call.command.payloadLength ≤ one.limit) (id : UInt32) :
    call.read (.ok (server.handle ⟨id, call.flags, call.command⟩).1) = (one.map.call call).1
      ∧ Coupled ⟨session.client.advance, session.transport.replace endpoint
          (server.handle ⟨id, call.flags, call.command⟩).2⟩
        { one with map := (one.map.call call).2 } := by
  have hmax : server.settle.maxPayload = one.limit := congrArg Prod.fst hserves.settings
  have hlimit := h.limit
  have hfollows := PromptServer.follows_handle id call hserves.holds h.short (by omega)
  constructor
  · rw [Server.handle_fst]
    exact hfollows.answer
  · refine h.replace rfl rfl hserver ?_ ?_ (h.short.call (by omega))
    · intro key hkey
      rw [Server.settle_handle_snd]
      refine ⟨?_, hfollows.keeps key hkey.holds⟩
      rw [PromptServer.settings_handle]
      exact hkey.settings
    -- a key that belongs elsewhere is not the key of the call
    · intro key hkey
      apply Table.get?_call_of_ne
      intro heq
      exact hkey (heq ▸ hhome)

end Answered

/-- Each call returns what it returns on the map. -/
theorem issue (h : Coupled session one) (call : MapCall) :
    (session.issue call).1 = (one.call call).1
      ∧ Coupled (session.issue call).2 (one.call call).2 := by
  have hselect := h.home call.command.key
  unfold OneMap.call
  cases hhome : one.home call.command.key with
  -- the key belongs nowhere, and nothing is sent
  | none =>
    rw [Session.issue_of_none (hselect.trans hhome)]
    exact ⟨rfl, h⟩
  | some endpoint =>
    obtain ⟨server, hserver, hserves⟩ := h.served call.command.key endpoint hhome
    have hmax : server.settle.maxPayload = one.limit := congrArg Prod.fst hserves.settings
    have hreach : server.reachable = one.reachable endpoint := congrArg Prod.snd hserves.settings
    simp only
    by_cases hup : one.reachable endpoint = true
    · obtain ⟨id, hissue⟩ :=
        Session.issue_of_reachable (hselect.trans hhome) hserver (hreach.trans hup)
      rw [hissue, if_pos hup]
      by_cases hlarge : one.limit < call.command.payloadLength
      · rw [if_pos hlarge]
        exact h.refuse hserver (hmax ▸ hlarge) id
      · rw [if_neg hlarge]
        exact h.carryOut hhome hserver hserves (Nat.le_of_not_lt hlarge) id
    -- the request is not taken, so no server changes
    · have hdown := hreach.trans (Bool.eq_false_iff.2 hup)
      rw [Session.issue_of_unreachable (hselect.trans hhome) hserver hdown, if_neg hup]
      exact ⟨rfl, h.home, h.served, h.short, h.limit⟩

theorem run (h : Coupled session one) (events : List ClusterEvent) :
    (session.run events).1 = (one.run events).1 := by
  induction events generalizing session one with
  | nil => rfl
  | cons event events ih =>
    cases event with
    | call call =>
      obtain ⟨hanswer, hafter⟩ := h.issue call
      have hrest := ih hafter
      change (session.issue call).1 :: ((session.issue call).2.run events).1
        = (one.call call).1 :: ((one.call call).2.run events).1
      rw [hanswer, hrest]
    | incident incident => exact ih (h.undergo incident)

end Coupled

/-- Fresh servers have nothing, like an empty map. -/
theorem Fresh.coupled {options : ServerOptions} {session : Session Cluster}
    (h : Fresh options session) (hlimit : options.maxPayload < 0x100000000) :
    Coupled session
      (.start (session.client.registry.select session.client.config.policy)
        options.maxPayload) := by
  refine ⟨fun key => rfl, ?_, ?_, hlimit⟩
  · intro key endpoint hhome
    obtain ⟨server, hserver⟩ := h.started endpoint (Policy.mem_of_select hhome)
    refine ⟨server, hserver, ?_⟩
    rw [h.fresh endpoint server hserver]
    exact ⟨rfl, PromptServer.holds_start options key⟩
  · intro key value hvalue
    cases hvalue

namespace Session

/-- What calls return is what they return on one map, whatever becomes of the caches, the databases
and the servers meanwhile. -/
theorem run_eq_oneMap (config : Config) (options : ServerOptions) (endpoints : List Endpoint)
    (events : List ClusterEvent) (hlimit : options.maxPayload < 0x100000000) :
    ((opened config options endpoints).run events).1
      = ((OneMap.start ((opened config options endpoints).client.registry.select config.policy)
          options.maxPayload).run events).1 := by
  have hcoupled := (Fresh.opened config options endpoints).coupled hlimit
  have hconfig : (opened config options endpoints).client.config = config :=
    config_registerAll _ endpoints
  rw [hconfig] at hcoupled
  exact hcoupled.run events

/-- The first two keys share a server, whose cache has room for one of them. -/
theorem run_eq_oneMap_two_servers :
    64 < 0x100000000 ∧
      ((opened { policy := .keyHash } ⟨some 1, 64⟩ [.tipc 1, .tipc 2]).run [
          .call (.set false [1] [5]), .call (.set false [3] [55, 0]),
          .incident (.work (.tipc 1) 1), .call (.get [1]), .call (.incr [3] (-8)),
          .incident (.evict (.tipc 1) [3]), .call (.cas [3] [45, 49, 0] [9]),
          .incident (.reach (.tipc 1) false), .call (.get [3]), .call (.set true [2] [6]),
          .incident (.reach (.tipc 1) true), .call (.delete false [3]), .call (.get [3]),
          .call (.set false [4] (List.replicate 64 0))]).1
        = [.status .done, .status .done, .value .done (some [5]), .counter .done (some (-1)),
          .code 2, .value (.failed .transport) none, .status .done, .status .done,
          .value .absent none, .status (.failed (.server .brokenRequest))] := by
  constructor
  · decide
  · rw [run_eq_oneMap _ _ _ _ (by decide)]
    decide +kernel

end Session

end TieredStore
