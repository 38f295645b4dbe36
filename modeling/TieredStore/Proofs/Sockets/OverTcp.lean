import TieredStore.Proofs.Cluster.Fresh
import TieredStore.Proofs.Cluster.Sending
import TieredStore.Proofs.Sockets.Connections

/-!
# TCP and no network at all

A client whose sockets lead to peers gets what it would get from the same servers in its own
program, as long as its requests and the replies keep within the limits (`Session.tcp_agrees`).

The two sessions are matched when the client is the same in both, the sockets are quiet, and the
peer of each endpoint stands for the same server as the cluster's.  Registering and sending keep
them matched, and give the same.
-/

namespace TieredStore

namespace Cluster

/-- The server that an endpoint has once it is registered. -/
def serverFor (cluster : Cluster) (endpoint : Endpoint) : Server :=
  (cluster.server? endpoint).getD (.start cluster.options)

theorem serverFor_prepare (cluster : Cluster) (endpoint other : Endpoint) :
    (cluster.prepare endpoint).serverFor other = cluster.serverFor other := by
  have hoptions : (cluster.prepare endpoint).options = cluster.options := by
    unfold prepare
    split
    · rfl
    · rfl
  unfold serverFor
  rw [server?_prepare, hoptions]
  split
  · rfl
  · rfl

theorem serverFor_of_server? {cluster : Cluster} {endpoint : Endpoint} {server : Server}
    (h : cluster.server? endpoint = some server) : cluster.serverFor endpoint = server := by
  unfold serverFor
  rw [h]
  rfl

theorem serverFor_replace {cluster : Cluster} {endpoint : Endpoint} {server : Server}
    (h : cluster.server? endpoint = some server) (later : Server) (other : Endpoint) :
    (cluster.replace endpoint later).serverFor other
      = if other = endpoint then later else cluster.serverFor other := by
  have hoptions : (cluster.replace endpoint later).options = cluster.options := rfl
  unfold serverFor
  rw [server?_replace, hoptions]
  by_cases heq : other = endpoint
  · rw [if_pos heq, heq, h, Option.map_some, if_pos rfl]
    rfl
  · rw [if_neg heq]
    simp only [if_neg heq, Option.map_id']

end Cluster

namespace Session

/-- A request to an endpoint, and the reply that its server would give, keep within the limits. -/
def Suits (peerMax : Nat) (session : Session Cluster) (endpoint : Endpoint) (flags : Flags)
    (command : Command) : Prop :=
  let request := Request.make session.client.nextId flags command
  ∀ server ∈ session.transport.server? endpoint,
    WithinLimits session.client.config.maxPayload peerMax request (server.handle request).1

instance (peerMax : Nat) (session : Session Cluster) (endpoint : Endpoint) (flags : Flags)
    (command : Command) : Decidable (session.Suits peerMax endpoint flags command) :=
  inferInstanceAs (Decidable (∀ server ∈ session.transport.server? endpoint, _))

/-- All exchanges of a history keep within the limits. -/
def Within (peerMax : Nat) : Session Cluster → List ClientEvent → Prop
  | _, [] => True
  | session, .call call :: events =>
    (call.plan session.client).Along (Suits peerMax) session
      ∧ Within peerMax (session.perform call).2 events
  | session, .work endpoint jobs :: events => Within peerMax (session.work endpoint jobs) events

instance decidableWithin (peerMax : Nat) : (session : Session Cluster) →
    (events : List ClientEvent) → Decidable (session.Within peerMax events)
  | _, [] => isTrue trivial
  | session, .call call :: events =>
    have := decidableWithin peerMax (session.perform call).2 events
    inferInstanceAs (Decidable (_ ∧ _))
  | session, .work endpoint jobs :: events =>
    decidableWithin peerMax (session.work endpoint jobs) events

end Session

namespace ClientCall

variable {σ : Type} [Transport σ]

theorem along_countersOf_registered (endpoints : List Endpoint) {session : Session σ}
    (h : ∀ endpoint ∈ endpoints, endpoint ∈ session.client.registry.endpoints) :
    (countersOf endpoints).Along
      (fun session endpoint _ _ => endpoint ∈ session.client.registry.endpoints) session := by
  induction endpoints generalizing session with
  | nil => trivial
  | cons endpoint endpoints ih =>
    simp only [countersOf, Plan.Along, Plan.along_map]
    refine ⟨h endpoint List.mem_cons_self, ih ?_⟩
    intro other hother
    -- sending leaves the registry alone
    rw [Session.send_eq]
    exact h other (List.mem_cons_of_mem _ hother)

theorem along_registered {call : ClientCall} {session : Session σ} :
    (call.plan session.client).Along
      (fun session endpoint _ _ => endpoint ∈ session.client.registry.endpoints) session := by
  have hfirst (endpoint : Endpoint) (h : endpoint ∈ session.client.registry.first?) :
      endpoint ∈ session.client.registry.endpoints := List.mem_of_head? h
  cases call with
  | onKey mode call =>
    simp only [plan, KeyCall.plan]
    cases call.command session.client with
    | error error => trivial
    | ok command => exact Plan.along_askAt fun _ => Policy.mem_of_select
  | firstKey shape => exact Plan.along_askAt hfirst
  | nextKey key shape =>
    simp only [plan]
    cases session.client.encode key with
    | error error => trivial
    | ok bytes => exact Plan.along_askAt hfirst
  | stats =>
    simp only [plan, Plan.along_map]
    exact along_countersOf_registered _ fun _ h => h

end ClientCall

/-- Endpoints that are reached over TCP, each at an address of its own. -/
structure Site.Separates (site : Site) (endpoints : List Endpoint) : Prop where
  tcp : ∀ endpoint ∈ endpoints, endpoint.kind = .tcp
  apart : ∀ a ∈ endpoints, ∀ b ∈ endpoints, site.address a = site.address b → a = b

/-- A session over sockets and one with a cluster, for some endpoints. -/
structure Matched (site : Site) (endpoints : List Endpoint) (tcp : Session (Sockets Peers))
    (inProcess : Session Cluster) : Prop where
  separate : site.Separates endpoints
  client : tcp.client = inProcess.client
  maxPayload : tcp.transport.maxPayload = inProcess.client.config.maxPayload
  network : tcp.transport.network.site = site
  quiet : tcp.transport.Quiet
  started : ∀ endpoint ∈ inProcess.client.registry.endpoints,
    endpoint ∈ endpoints ∧ ∃ server, inProcess.transport.server? endpoint = some server
  behind : ∀ endpoint ∈ endpoints, (inProcess.transport.serverFor endpoint).reachable = true
    ∧ ∃ peer, tcp.transport.network.server? (site.address endpoint) = some peer
      ∧ peer.settle = (inProcess.transport.serverFor endpoint).settle

namespace Matched

variable {site : Site} {endpoints : List Endpoint} {tcp : Session (Sockets Peers)}
  {inProcess : Session Cluster}

theorem exists_peer (h : Matched site endpoints tcp inProcess) {endpoint : Endpoint}
    (hin : endpoint ∈ endpoints) :
    ∃ peer, tcp.transport.network.server? (tcp.transport.network.site.address endpoint) = some peer
      ∧ peer.reachable = true ∧ peer.settle = (inProcess.transport.serverFor endpoint).settle := by
  obtain ⟨hreachable, peer, hpeer, hsettle⟩ := h.behind endpoint hin
  have hlisten : peer.reachable = (inProcess.transport.serverFor endpoint).reachable :=
    congrArg PromptServer.reachable hsettle
  rw [h.network]
  exact ⟨peer, hpeer, hlisten.trans hreachable, hsettle⟩

theorem started_replace (h : Matched site endpoints tcp inProcess) (endpoint : Endpoint)
    (later : Server) {other : Endpoint} (hmem : other ∈ inProcess.client.registry.endpoints) :
    other ∈ endpoints
      ∧ ∃ server, (inProcess.transport.replace endpoint later).server? other = some server := by
  obtain ⟨hin, server, hserver⟩ := h.started other hmem
  rw [Cluster.server?_replace, hserver]
  exact ⟨hin, _, rfl⟩

theorem work (h : Matched site endpoints tcp inProcess) (endpoint : Endpoint) (jobs : Nat) :
    Matched site endpoints tcp (inProcess.work endpoint jobs) := by
  unfold Session.work Cluster.adjust
  cases hserver : inProcess.transport.server? endpoint with
  | none => exact h
  | some server =>
    refine ⟨h.separate, h.client, h.maxPayload, h.network, h.quiet, ?_, ?_⟩
    · intro other hother
      exact h.started_replace endpoint _ hother
    · intro other hother
      have hbehind := h.behind other hother
      simp only
      rw [Cluster.serverFor_replace hserver]
      by_cases heq : other = endpoint
      -- the server has worked, and stands for the same
      · rw [heq, Cluster.serverFor_of_server? hserver, ← server.settle_work jobs] at hbehind
        rw [if_pos heq, heq]
        exact hbehind
      · rw [if_neg heq]
        exact hbehind

theorem send (h : Matched site endpoints tcp inProcess)
    {endpoint : Endpoint} (hmem : endpoint ∈ inProcess.client.registry.endpoints) {flags : Flags}
    {command : Command} (hsuits : inProcess.Suits site.peerMax endpoint flags command) :
    (tcp.send endpoint flags command).1 = (inProcess.send endpoint flags command).1
      ∧ Matched site endpoints (tcp.send endpoint flags command).2
        (inProcess.send endpoint flags command).2 := by
  obtain ⟨hin, server, hserver⟩ := h.started endpoint hmem
  obtain ⟨peer, hpeer, hlisten, hsettle⟩ := h.exists_peer hin
  have hreachable := (h.behind endpoint hin).1
  rw [Cluster.serverFor_of_server? hserver] at hsettle hreachable
  let request := Request.make inProcess.client.nextId flags command
  -- the reply depends on what the server stands for, and so does its next state
  have hanswer : (peer.handle request).1 = (server.handle request).1 := by
    rw [Server.handle_fst, Server.handle_fst, hsettle]
  have hnext : (peer.handle request).2.settle = (server.handle request).2.settle := by
    rw [Server.settle_handle_snd, Server.settle_handle_snd, hsettle]
  have hlimits : WithinLimits tcp.transport.maxPayload tcp.transport.network.site.peerMax request
      (peer.handle request).1 := by
    rw [h.maxPayload, h.network, hanswer]
    exact hsuits server hserver
  have hkind := h.separate.tcp endpoint hin
  obtain ⟨after, htrip, hserved⟩ := h.quiet.roundTrip hkind hpeer hlisten hlimits
  obtain ⟨later, hlater, hservers⟩ := hserved.behind
  rw [h.network] at hservers
  have hsend : tcp.send endpoint flags command
      = (.ok (server.handle request).1, ⟨inProcess.client.advance, after⟩) := by
    rw [← hanswer, ← h.client]
    -- the clients number their requests alike
    apply Session.send_of_reply
    · rw [h.client]
      exact htrip
    · rw [h.client]
      exact Server.id_handle peer request
  rw [hsend, Session.send_of_reachable hserver hreachable]
  refine ⟨rfl, h.separate, rfl, ?_, ?_, hserved.quiet, ?_, ?_⟩
  · exact hserved.maxPayload.trans h.maxPayload
  · exact hserved.site.trans h.network
  · intro other hother
    exact h.started_replace endpoint _ hother
  · intro other hother
    simp only
    rw [Cluster.serverFor_replace hserver, hservers]
    by_cases heq : other = endpoint
    · rw [if_pos heq, heq, Server.reachable_handle]
      exact ⟨hreachable, later, if_pos rfl, hlater.trans hnext⟩
    -- the peers of other endpoints are elsewhere
    · have haddress : site.address other ≠ site.address endpoint := by
        intro hsame
        exact heq (h.separate.apart other hother endpoint hin hsame)
      obtain ⟨hup, there, hthere, hstate⟩ := h.behind other hother
      rw [if_neg heq]
      exact ⟨hup, there, (if_neg haddress).trans hthere, hstate⟩

theorem register (h : Matched site endpoints tcp inProcess) {endpoint : Endpoint}
    (hin : endpoint ∈ endpoints) :
    Matched site endpoints (tcp.register endpoint).2 (inProcess.register endpoint).2 := by
  unfold Session.register
  rw [h.client]
  cases hregister : inProcess.client.registry.register endpoint with
  | error error => exact h
  | ok registry =>
    have hkind := h.separate.tcp endpoint hin
    obtain ⟨peer, hpeer, hlisten, -⟩ := h.exists_peer hin
    obtain ⟨after, hprepare, hquiet, hmax, hsite, hservers⟩ :=
      h.quiet.prepare hkind hpeer hlisten
    have hprepared : Transport.prepare endpoint tcp.transport = (.ok (), after) := hprepare
    have hsupports : Transport.supports tcp.transport endpoint.kind = true := by
      rw [hkind]
      rfl
    have hcluster : Transport.supports inProcess.transport endpoint.kind = true := rfl
    have hstart : Transport.prepare endpoint inProcess.transport
        = (.ok (), inProcess.transport.prepare endpoint) := rfl
    simp only [hsupports, hcluster, hprepared, hstart, Bool.not_true, Bool.false_eq_true, if_false]
    refine ⟨h.separate, rfl, hmax.trans h.maxPayload, hsite.trans h.network, hquiet, ?_, ?_⟩
    · intro other hother
      simp only at hother ⊢
      rw [Registry.endpoints_of_register hregister] at hother
      rw [Cluster.server?_prepare]
      -- the new endpoint has its server from now on, the others have theirs
      rcases List.mem_append.1 hother with hold | hnew
      · obtain ⟨hmem, server, hserver⟩ := h.started other hold
        rw [hserver]
        refine ⟨hmem, server, ?_⟩
        split
        · rfl
        · rfl
      · rw [List.mem_singleton.1 hnew, if_pos rfl]
        exact ⟨hin, _, rfl⟩
    · intro other hother
      simp only
      rw [hservers, Cluster.serverFor_prepare]
      exact h.behind other hother

theorem perform (h : Matched site endpoints tcp inProcess)
    {call : ClientCall}
    (hsuits : (call.plan inProcess.client).Along (Session.Suits site.peerMax) inProcess) :
    (tcp.perform call).1 = (inProcess.perform call).1
      ∧ Matched site endpoints (tcp.perform call).2 (inProcess.perform call).2 := by
  rw [Session.perform_eq_run, Session.perform_eq_run, h.client]
  apply (ClientCall.along_registered.and hsuits).run_eq _ h
  intro tcp inProcess endpoint flags command ⟨hmem, hsuits⟩ h
  exact h.send hmem hsuits

theorem play (h : Matched site endpoints tcp inProcess)
    {events : List ClientEvent} (hwithin : inProcess.Within site.peerMax events) :
    (tcp.performAll (clientCalls events)).1 = (inProcess.play events).1 := by
  induction events generalizing tcp inProcess with
  | nil => rfl
  | cons event events ih =>
    cases event with
    | call call =>
      obtain ⟨hsuits, hrest⟩ := hwithin
      obtain ⟨hresult, hafter⟩ := h.perform hsuits
      have hcalls : clientCalls (.call call :: events) = call :: clientCalls events := rfl
      rw [hcalls, Session.performAll, Session.play]
      simp only
      rw [hresult, ih hafter hrest]
    | work endpoint jobs => exact ih (h.work endpoint jobs) hwithin

theorem registerAll (h : Matched site endpoints tcp inProcess) {others : List Endpoint}
    (hothers : ∀ endpoint ∈ others, endpoint ∈ endpoints) :
    Matched site endpoints (tcp.registerAll others) (inProcess.registerAll others) := by
  induction others generalizing tcp inProcess with
  | nil => exact h
  | cons endpoint others ih =>
    have hin := hothers endpoint List.mem_cons_self
    have hrest : ∀ other ∈ others, other ∈ endpoints :=
      fun other hother => hothers other (List.mem_cons_of_mem _ hother)
    exact ih (h.register hin) hrest

end Matched

namespace Session

/-- What a request comes to over streams is what the server does with it.  So clients that differ
only in how they reach their servers get the same results, over TCP and in their own program. -/
theorem tcp_agrees :
    (∀ (server : Server) (request : Request) (limit peerMax : Nat) (there back : Wire.Cutting),
      WithinLimits limit peerMax request (server.handle request).1 →
      server.exchange there back peerMax (limit + frameOverhead) request
        = (.ok (server.handle request).1, (server.handle request).2))
    ∧ ∀ (config : Config) (default : Option Default) (cluster : Cluster) (peers : Peers)
        (endpoints : List Endpoint) (events : List ClientEvent),
      let client := { Client.new config with default }
      let inProcess := registerAll ⟨client, cluster⟩ endpoints
      let tcp := registerAll ⟨client, Sockets.start config.maxPayload peers⟩ endpoints
      (∀ endpoint ∈ endpoints, endpoint.kind = .tcp
        ∧ (cluster.serverFor endpoint).reachable = true
        ∧ peers.server? (peers.site.address endpoint) = some (cluster.serverFor endpoint)) →
      (∀ a ∈ endpoints, ∀ b ∈ endpoints, peers.site.address a = peers.site.address b → a = b) →
      inProcess.Within peers.site.peerMax events →
      (tcp.performAll (clientCalls events)).1 = (inProcess.play events).1 := by
  constructor
  · intro server request limit peerMax there back h
    exact Server.exchange_eq_handle h there back
  · intro config default cluster peers endpoints events client inProcess tcp hpeers hapart hwithin
    have hseparate : peers.site.Separates endpoints :=
      ⟨fun endpoint hin => (hpeers endpoint hin).1, hapart⟩
    -- nothing is connected and nothing registered
    have hstart : Matched peers.site endpoints ⟨client, Sockets.start config.maxPayload peers⟩
        ⟨client, cluster⟩ := by
      refine ⟨hseparate, rfl, rfl, rfl, ?_, ?_, ?_⟩
      · intro endpoint connection hconnection
        cases hconnection
      · intro endpoint hendpoint
        cases hendpoint
      · intro endpoint hin
        obtain ⟨-, hreachable, hpeer⟩ := hpeers endpoint hin
        exact ⟨hreachable, _, hpeer, rfl⟩
    have hready : Matched peers.site endpoints tcp inProcess :=
      hstart.registerAll fun _ hin => hin
    exact hready.play hwithin

/-- Two peers, reached in pieces of changing length. -/
theorem tcp_agrees_two_peers :
    let options : ServerOptions := ⟨some 1, 64⟩
    let site : Site := ⟨Endpoint.socketAddress, 88, fun n => .every (n + 1), fun _ => .every 5, id⟩
    let peers : Peers := ⟨site, 0, fun _ => some (.start options), []⟩
    let endpoints := [.tcp "a" 1, .tcp "b" 2]
    let client := Client.new { policy := .keyHash, maxPayload := 64 }
    let events : List ClientEvent := [.call (.onKey .direct (.set (.bool true) (.bool false))),
      .work (.tcp "a" 1) 1, .call (.onKey .cache (.get (.bool true) .bool)), .call .stats,
      .call (.firstKey .bool)]
    (Server.start options).exchange (.every 3) (.every 1) 88 88 ⟨5, .none, .get [7]⟩
        = (.ok (.plain 5 .notIn), ((Server.start options).handle ⟨5, .none, .get [7]⟩).2)
      ∧ ((registerAll ⟨client, Sockets.start 64 peers⟩ endpoints).performAll
          (clientCalls events)).1
        = ((registerAll ⟨client, Cluster.empty options⟩ endpoints).play events).1 := by
  intro options site peers endpoints client events
  constructor
  · exact tcp_agrees.1 (.start options) ⟨5, .none, .get [7]⟩ 64 88 (.every 3) (.every 1)
      (by decide +kernel)
  · apply tcp_agrees.2 { policy := .keyHash, maxPayload := 64 } none (.empty options) peers
      endpoints events
    · decide +kernel
    · decide +kernel
    · decide +kernel

end Session

end TieredStore
