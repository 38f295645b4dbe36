import TieredStore.Proofs.Client.Defaults
import TieredStore.Proofs.Client.Registering
import TieredStore.Proofs.Cluster.OneMap

/-!
# Registering with a cluster

A client takes an endpoint or stays as it is, whatever its transport does.  In a cluster the servers
outlast all that any clients do, so that an endpoint has one from the moment that a client takes it;
and a server that is there stays as it is, however often its endpoint is registered
(`Sharing.register_all_or_nothing`).
-/

namespace TieredStore

/-! ## Servers that last -/

namespace Session

variable {session : Session Cluster} {other : Endpoint} {server : Server}

/-- Registering leaves every server as it is. -/
theorem server?_register (h : session.transport.server? other = some server)
    (endpoint : Endpoint) :
    (session.register endpoint).2.transport.server? other = some server := by
  rw [transport_register]
  split
  · show (session.transport.prepare endpoint).server? other = some server
    rw [Cluster.server?_prepare, h, Option.getD_some, ite_self]
  · exact h

/-- An endpoint that is taken has a server. -/
theorem isSome_server?_register {endpoint : Endpoint}
    (h : (session.register endpoint).1 = .ok ()) :
    ((session.register endpoint).2.transport.server? endpoint).isSome = true := by
  have hready : session.Ready endpoint := ((session.register_eq_ok_iff endpoint).1 h).1
  rw [transport_register, if_pos hready]
  show ((session.transport.prepare endpoint).server? endpoint).isSome = true
  rw [Cluster.server?_prepare, if_pos rfl]
  rfl

theorem isSome_server?_send (session : Session Cluster) (endpoint : Endpoint) (flags : Flags)
    (command : Command) (other : Endpoint) :
    ((session.send endpoint flags command).2.transport.server? other).isSome
      = (session.transport.server? other).isSome := by
  rcases session.send_cases endpoint flags command with ⟨server, hserver, hreachable⟩ | hsend
  · rw [send_of_reachable hserver hreachable, Cluster.server?_replace, Option.isSome_map]
  · rw [hsend]

end Session

theorem Cluster.isSome_server?_undergo (cluster : Cluster) (incident : Incident)
    (other : Endpoint) :
    ((cluster.undergo incident).server? other).isSome = (cluster.server? other).isSome := by
  cases incident with
  | evict endpoint key => simp [Cluster.undergo, Cluster.server?_adjust]
  | work endpoint jobs => simp [Cluster.undergo, Cluster.server?_adjust]
  | reach endpoint reachable =>
    simp [Cluster.undergo, Cluster.setReachable_snd, Cluster.server?_adjust]

/-! ## The clients of a cluster -/

/-- What takes place among the clients of a cluster. -/
inductive GroupEvent (ι : Type) where
  | register (who : ι) (endpoint : Endpoint)
  | adjust (who : ι) (setting : Setting)
  | call (who : ι) (call : ClientCall)
  /-- The cluster is prepared for an endpoint by nobody among them. -/
  | prepare (endpoint : Endpoint)
  | incident (incident : Incident)

namespace Sharing

variable {ι : Type}

/-- Every endpoint that some client has registered has a server. -/
def Served (group : Sharing ι Cluster) : Prop :=
  ∀ who, ∀ endpoint ∈ (group.clients who).registry.endpoints,
    (group.transport.server? endpoint).isSome = true

theorem Served.new (configs : ι → Config) (cluster : Cluster) :
    Served ⟨fun who => .new (configs who), cluster⟩ := by
  intro who endpoint hendpoint
  exact absurd hendpoint List.not_mem_nil

variable [DecidableEq ι] {group : Sharing ι Cluster}

def undergo (group : Sharing ι Cluster) : GroupEvent ι → Sharing ι Cluster
  | .register who endpoint => (group.register who endpoint).2
  | .adjust who setting =>
    group.resume who ⟨(group.clients who).adjust setting, group.transport⟩
  | .call who call => (group.perform who call).2
  | .prepare endpoint => { group with transport := group.transport.prepare endpoint }
  | .incident incident => { group with transport := group.transport.undergo incident }

/-- The group after a history. -/
def undergoAll (group : Sharing ι Cluster) (events : List (GroupEvent ι)) : Sharing ι Cluster :=
  events.foldl undergo group

/-- One of the clients comes to a state in which it has registered nothing new, and nothing but the
servers' states is another. -/
theorem Served.resume (h : group.Served) (who : ι) {session : Session Cluster}
    (hservers : ∀ endpoint, (group.transport.server? endpoint).isSome = true →
      (session.transport.server? endpoint).isSome = true)
    (hown : ∀ endpoint ∈ session.client.registry.endpoints,
      endpoint ∈ (group.clients who).registry.endpoints
        ∨ (session.transport.server? endpoint).isSome = true) :
    (group.resume who session).Served := by
  intro other endpoint hendpoint
  show (session.transport.server? endpoint).isSome = true
  rw [clients_resume] at hendpoint
  by_cases hother : other = who
  · rw [if_pos hother] at hendpoint
    rcases hown endpoint hendpoint with hold | hnew
    · exact hservers endpoint (h who endpoint hold)
    · exact hnew
  · rw [if_neg hother] at hendpoint
    exact hservers endpoint (h other endpoint hendpoint)

theorem Served.register (h : group.Served) (who : ι) (endpoint : Endpoint) :
    (group.register who endpoint).2.Served := by
  show (group.resume who ((group.session who).register endpoint).2).Served
  apply h.resume who
  · intro other hother
    obtain ⟨server, hserver⟩ := Option.isSome_iff_exists.1 hother
    have hkept : (group.session who).transport.server? other = some server := hserver
    rw [Session.server?_register hkept endpoint]
    rfl
  · intro other hother
    by_cases hok : ((group.session who).register endpoint).1 = .ok ()
    · rw [Session.endpoints_register_of_ok hok] at hother
      rcases List.mem_append.1 hother with hold | hnew
      · exact .inl hold
      · rw [List.mem_singleton.1 hnew]
        exact .inr (Session.isSome_server?_register hok)
    · rw [Session.client_register_of_ne_ok hok] at hother
      exact .inl hother

/-- Calls send requests, which leave servers behind and registries alone. -/
theorem Served.perform (h : group.Served) (who : ι) (call : ClientCall) :
    (group.perform who call).2.Served := by
  have hkept : ((group.session who).perform call).2.client.registry
        = (group.session who).client.registry
      ∧ ∀ endpoint, (((group.session who).perform call).2.transport.server? endpoint).isSome
        = ((group.session who).transport.server? endpoint).isSome := by
    rw [Session.perform_eq_run]
    refine Plan.run_keeps (Q := fun session => session.client.registry
        = (group.session who).client.registry
      ∧ ∀ endpoint, (session.transport.server? endpoint).isSome
        = ((group.session who).transport.server? endpoint).isSome) ?_ ⟨rfl, fun _ => rfl⟩
    rintro session endpoint flags command ⟨hregistry, hservers⟩
    refine ⟨?_, fun other => (session.isSome_server?_send ..).trans (hservers other)⟩
    rw [Session.send_eq]
    exact hregistry
  obtain ⟨hregistry, hservers⟩ := hkept
  show (group.resume who ((group.session who).perform call).2).Served
  apply h.resume who
  · intro endpoint hendpoint
    exact (hservers endpoint).trans hendpoint
  · intro endpoint hendpoint
    rw [hregistry] at hendpoint
    exact .inl hendpoint

theorem Served.undergo (h : group.Served) (event : GroupEvent ι) :
    (group.undergo event).Served := by
  cases event with
  | register who endpoint => exact h.register who endpoint
  | adjust who setting =>
    refine h.resume who (fun _ hserver => hserver) fun endpoint hendpoint => .inl ?_
    rwa [Client.registry_adjust] at hendpoint
  | call who call => exact h.perform who call
  | prepare other =>
    intro who endpoint hendpoint
    show ((group.transport.prepare other).server? endpoint).isSome = true
    rw [Cluster.server?_prepare]
    split
    · rfl
    · exact h who endpoint hendpoint
  | incident incident =>
    intro who endpoint hendpoint
    have hsame := group.transport.isSome_server?_undergo incident endpoint
    exact hsame.trans (h who endpoint hendpoint)

theorem Served.undergoAll (h : group.Served) (events : List (GroupEvent ι)) :
    (group.undergoAll events).Served := by
  induction events generalizing group with
  | nil => exact h
  | cons event events ih => exact ih (h.undergo event)

/-- However often and by whom endpoints are registered, a server that is there stays as it is. -/
theorem server?_registerAll {endpoint : Endpoint} {server : Server}
    (h : group.transport.server? endpoint = some server) (calls : List (ι × Endpoint)) :
    (group.registerAll calls).2.transport.server? endpoint = some server := by
  have hstep (group : Sharing ι Cluster) (call : ι × Endpoint)
      (hserver : group.transport.server? endpoint = some server) :
      (group.register call.1 call.2).2.transport.server? endpoint = some server := by
    have hsession : (group.session call.1).transport.server? endpoint = some server := hserver
    exact Session.server?_register hsession call.2
  exact stepAll_invariant (P := fun (group : Sharing ι Cluster) =>
    group.transport.server? endpoint = some server) hstep h calls

/-! ## Registering, by any clients -/

/-- A client takes an endpoint just if it is usable, new to this client and of a kind that the
transport serves, and the transport can be prepared for it; the transport is asked for that once the
rest is settled, and no more than once.  A client that is refused stays as it is, as do all others.
In a cluster an endpoint that some client has taken has a server from then on, whatever takes place,
and registering leaves servers that are there as they are. -/
theorem register_all_or_nothing {ι : Type} [DecidableEq ι] :
    (∀ {σ : Type} [Transport σ] (group : Sharing ι σ) (calls : List (ι × Endpoint)),
      (group.noting.registerAll calls).map id forget = group.registerAll calls
      ∧ (group.registerAll calls).1.length = calls.length
      ∧ ∀ earlier who endpoint later, calls = earlier ++ (who, endpoint) :: later →
        let before := (group.registerAll earlier).2
        let after := (group.registerAll (earlier ++ [(who, endpoint)])).2
        let prepared (calls : List (ι × Endpoint)) :=
          (group.noting.registerAll calls).2.transport.prepared
        let ready := endpoint.Usable ∧ endpoint ∉ (before.clients who).registry.endpoints
          ∧ Transport.supports before.transport endpoint.kind = true
        ∃ result, (group.registerAll calls).1[earlier.length]? = some result
          ∧ (result = .ok ()
            ↔ ready ∧ (Transport.prepare endpoint before.transport).1 = .ok ())
          ∧ (ready → prepared (earlier ++ [(who, endpoint)]) = prepared earlier ++ [endpoint]
            ∧ after.transport = (Transport.prepare endpoint before.transport).2)
          ∧ (¬ready → prepared (earlier ++ [(who, endpoint)]) = prepared earlier
            ∧ after.transport = before.transport)
          ∧ (result = .ok () → (after.clients who).registry.endpoints
            = (before.clients who).registry.endpoints ++ [endpoint])
          ∧ (result ≠ .ok () → after.clients who = before.clients who)
          ∧ ∀ other, other ≠ who → after.clients other = before.clients other)
    ∧ (∀ (configs : ι → Config) (cluster : Cluster) (events : List (GroupEvent ι)),
      (undergoAll ⟨fun who => .new (configs who), cluster⟩ events).Served)
    ∧ ∀ (group : Sharing ι Cluster) (calls : List (ι × Endpoint)) endpoint server,
      group.transport.server? endpoint = some server →
      (group.registerAll calls).2.transport.server? endpoint = some server := by
  refine ⟨?_, fun configs cluster events => (Served.new configs cluster).undergoAll events, ?_⟩
  · intro σ _ group calls
    refine ⟨group.noting_registerAll calls, length_stepAll group calls, ?_⟩
    rintro earlier who endpoint later rfl before after prepared ready
    -- the call is made in the state that the earlier ones have led to
    have hafter : after = (before.register who endpoint).2 := stepAll_concat_snd ..
    have htransport : after.transport
        = if ready then (Transport.prepare endpoint before.transport).2 else before.transport := by
      rw [hafter]
      exact (before.session who).transport_register endpoint
    have hprepared : prepared (earlier ++ [(who, endpoint)])
        = prepared earlier ++ if ready then [endpoint] else [] :=
      group.prepared_concat earlier who endpoint
    refine ⟨(before.register who endpoint).1, getElem?_stepAll .., ?_, ?_, ?_, ?_, ?_, ?_⟩
    · exact (before.session who).register_eq_ok_iff endpoint
    · intro hready
      rw [hprepared, htransport, if_pos hready, if_pos hready]
      exact ⟨rfl, rfl⟩
    · intro hready
      rw [hprepared, htransport, if_neg hready, if_neg hready, List.append_nil]
      exact ⟨rfl, rfl⟩
    · intro hok
      rw [hafter]
      show ((before.resume who _).clients who).registry.endpoints = _
      rw [clients_resume, if_pos rfl]
      exact Session.endpoints_register_of_ok hok
    · intro hrefused
      rw [hafter]
      show (before.resume who _).clients who = _
      rw [clients_resume, if_pos rfl]
      exact Session.client_register_of_ne_ok hrefused
    · intro other hother
      rw [hafter]
      exact if_neg hother
  · intro group calls endpoint server hserver
    exact server?_registerAll hserver calls

/-- A transport for one kind of endpoint, and a cluster with a server that is out of reach. -/
theorem register_all_or_nothing_twice :
    let script : Sharing Bool Script := ⟨fun _ => .new {}, ⟨[.tipc], none, [], []⟩⟩
    let calls : List (Bool × Endpoint) :=
      [(true, .tipc 1), (true, .udp "h" 1), (false, .tipc 1), (true, .tipc 1)]
    let after (n : Nat) := (script.registerAll (calls.take n)).2
    let asked (n : Nat) := (script.noting.registerAll (calls.take n)).2.transport.prepared
    let events : List (GroupEvent Bool) := [.register true (.tipc 1),
      .call true (.onKey .direct (.set (.bool true) (.bool false))),
      .incident (.reach (.tipc 1) false)]
    let cluster := undergoAll ⟨fun _ => .new {}, .empty ⟨none, 64⟩⟩ events
    (script.registerAll calls).1[2]? = some (.ok ())
      ∧ asked 3 = asked 2 ++ [.tipc 1] ∧ asked 2 = asked 1
      ∧ ((after 3).clients false).registry.endpoints = [.tipc 1]
      ∧ (after 4).clients true = (after 3).clients true
      ∧ cluster.Served
      ∧ ∃ server, cluster.transport.server? (.tipc 1) = some server
        ∧ server.reachable = false ∧ server.counters.requests = 1
        ∧ (cluster.registerAll [(false, .tipc 1)]).2.transport.server? (.tipc 1) = some server := by
  intro script calls after asked events cluster
  have hevents : ((cluster.transport.server? (.tipc 1)).map fun server =>
      (server.reachable, server.counters.requests)) = some (false, 1) := by decide +kernel
  obtain ⟨server, hserver, hstate⟩ := Option.map_eq_some_iff.1 hevents
  obtain ⟨hcalls, hserved, hkept⟩ := @register_all_or_nothing Bool inferInstance
  obtain ⟨-, -, hsplit⟩ := hcalls script calls
  obtain ⟨-, -, -, -, hunasked, -⟩ := hsplit [(true, .tipc 1)] true (.udp "h" 1) _ rfl
  obtain ⟨third, hthird, hok, hasked, -, htaken, -⟩ :=
    hsplit [(true, .tipc 1), (true, .udp "h" 1)] false (.tipc 1) _ rfl
  obtain ⟨fourth, hfourth, -, -, -, -, hrefused, -⟩ :=
    hsplit [(true, .tipc 1), (true, .udp "h" 1), (false, .tipc 1)] true (.tipc 1) _ rfl
  have hready : Endpoint.Usable (.tipc 1)
      ∧ Endpoint.tipc 1 ∉ ((after 2).clients false).registry.endpoints
      ∧ Transport.supports (after 2).transport (Endpoint.tipc 1).kind = true := by decide +kernel
  obtain rfl : third = .ok () := hok.2 ⟨hready, rfl⟩
  refine ⟨hthird, (hasked hready).1, ?_, htaken rfl, ?_,
    hserved (fun _ => {}) (.empty ⟨none, 64⟩) events, server, hserver,
    congrArg Prod.fst hstate, congrArg Prod.snd hstate,
    hkept cluster [(false, .tipc 1)] (.tipc 1) server hserver⟩
  · exact (hunasked fun hready => absurd hready.2.2 (by decide +kernel)).1
  · apply hrefused
    rintro rfl
    exact absurd hfourth (by decide +kernel)

end Sharing

end TieredStore
