import TieredStore.Proofs.Server.Settings
import TieredStore.Proofs.Sockets.Peers

/-!
# Connections to peers

Sockets whose connections lead to the peers of their endpoints, with nothing on its way over any of
them (`Sockets.Quiet`).  A round trip to a peer that is within reach is the server's own answer, and
leaves the sockets quiet, whether there was a connection or not (`Sockets.Quiet.roundTrip`).
-/

namespace TieredStore

open Wire

namespace Peers

/-- A peer that listens is connected to over a link that is idle. -/
theorem dial_of_reachable {peers : Peers} {address : Address} {server : Server}
    (hserver : peers.server? address = some server) (hreachable : server.reachable = true) :
    ∃ after, dial .tcp address peers = (.ok peers.links.length, after)
      ∧ after.site = peers.site ∧ after.server? = peers.server?
      ∧ after.Idle peers.links.length address
      ∧ ∀ other there, peers.Idle other there → after.Idle other there := by
  have hlisten : (peers.server? address).any (·.reachable) = true := by
    rw [hserver]
    exact hreachable
  refine ⟨{ peers with links := peers.links ++ [⟨address, [], false⟩] }, ?_, rfl, rfl, ?_, ?_⟩
  · unfold dial
    rw [if_pos ⟨rfl, hlisten⟩]
  · refine ⟨⟨address, [], false⟩, ?_, rfl, rfl, rfl⟩
    exact List.getElem?_concat_length
  · rintro other there ⟨link, hlink, hidle⟩
    have hbound := (List.getElem?_eq_some_iff.1 hlink).1
    refine ⟨link, ?_, hidle⟩
    exact (List.getElem?_append_left hbound).trans hlink

end Peers

namespace Sockets

section

variable {ν : Type}

theorem connection?_close (sockets : Sockets ν) (endpoint other : Endpoint) :
    (sockets.close endpoint).connection? other
      = if other = endpoint then none else sockets.connection? other :=
  lookup_filter_ne endpoint other sockets.connections

theorem connection?_keep (sockets : Sockets ν) (endpoint other : Endpoint)
    (connection : Connection) :
    (sockets.keep endpoint connection).connection? other
      = if other = endpoint then some connection else sockets.connection? other := by
  have hclose := sockets.connection?_close endpoint other
  unfold connection? at hclose ⊢
  unfold keep
  rw [lookup_cons_eq_ite, hclose]
  split
  · rfl
  · rfl

end

section

variable {ν : Type} [Network ν]

/-- The connection to an endpoint, a new one if there is none. -/
def reach (endpoint : Endpoint) (sockets : Sockets ν) : Except Error Connection × Sockets ν :=
  match sockets.connection? endpoint with
  | some connection => (.ok connection, sockets)
  | none =>
    match sockets.connect endpoint with
    | (.error error, sockets) => (.error error, sockets)
    | (.ok connection, sockets) => (.ok connection, sockets.keep endpoint connection)

theorem roundTrip_of_large {request : Request} {sockets : Sockets ν}
    (h : sockets.maxPayload < request.command.payloadLength) (endpoint : Endpoint) :
    sockets.roundTrip endpoint request
      = (.error (.protocol (.payloadTooLarge request.command.payloadLength sockets.maxPayload)),
        sockets) :=
  if_pos h

/-- A request that is not too long is exchanged over the connection that there is, or over a new
one. -/
theorem roundTrip_eq_exchange {request : Request} {sockets : Sockets ν}
    (h : request.command.payloadLength ≤ sockets.maxPayload) (endpoint : Endpoint) :
    sockets.roundTrip endpoint request
      = match sockets.reach endpoint with
        | (.error error, sockets) => (.error error, sockets)
        | (.ok connection, sockets) => sockets.exchange endpoint connection request := by
  unfold roundTrip reach
  simp only
  rw [if_neg (Nat.not_lt.2 h)]
  cases sockets.connection? endpoint with
  | some connection => rfl
  | none =>
    rcases sockets.connect endpoint with ⟨_ | connection, after⟩
    · rfl
    · rfl

end

/-- Every connection leads to the peer of its endpoint, and nothing is on its way over it. -/
def Quiet (sockets : Sockets Peers) : Prop :=
  ∀ endpoint connection, sockets.connection? endpoint = some connection →
    connection.waiting.flatten = []
      ∧ sockets.network.Idle connection.link (sockets.network.site.address endpoint)

variable {sockets : Sockets Peers} {endpoint : Endpoint} {server : Server}

/-- Connections stay quiet when links stay idle, and one more may be kept. -/
theorem Quiet.keep {after : Peers} {connection : Connection} (h : sockets.Quiet)
    (hsite : after.site = sockets.network.site)
    (hidle : ∀ other there, sockets.network.Idle other there → after.Idle other there)
    (hwaiting : connection.waiting.flatten = [])
    (hlink : after.Idle connection.link (sockets.network.site.address endpoint)) :
    ({ sockets.keep endpoint connection with network := after } : Sockets Peers).Quiet := by
  intro other found hfound
  have hfound : (sockets.keep endpoint connection).connection? other = some found := hfound
  rw [connection?_keep] at hfound
  change found.waiting.flatten = [] ∧ after.Idle found.link (after.site.address other)
  rw [hsite]
  by_cases heq : other = endpoint
  · rw [if_pos heq] at hfound
    rw [← Option.some.inj hfound, heq]
    exact ⟨hwaiting, hlink⟩
  · rw [if_neg heq] at hfound
    obtain ⟨hempty, hother⟩ := h other found hfound
    exact ⟨hempty, hidle _ _ hother⟩

theorem Quiet.connect (h : sockets.Quiet) (hkind : endpoint.kind = .tcp)
    (hserver : sockets.network.server? (sockets.network.site.address endpoint) = some server)
    (hreachable : server.reachable = true) :
    ∃ connection after,
      sockets.connect endpoint = (.ok connection, { sockets with network := after })
      ∧ after.site = sockets.network.site ∧ after.server? = sockets.network.server?
      ∧ ({ sockets.keep endpoint connection with network := after } : Sockets Peers).Quiet := by
  obtain ⟨after, hdial, hsite, hservers, hlink, hidle⟩ :=
    Peers.dial_of_reachable hserver hreachable
  refine ⟨⟨sockets.network.links.length, []⟩, after, ?_, hsite, hservers,
    h.keep hsite hidle rfl hlink⟩
  have hdialed : Network.dial TransportKind.tcp (sockets.network.site.address endpoint)
      sockets.network = (.ok sockets.network.links.length, after) := hdial
  unfold Sockets.connect resolve
  simp only [Network.resolve, hkind, supports, TransportKind.isStream, Bool.not_true,
    Bool.false_eq_true, if_false, if_true, dialFirst, hdialed]

theorem Quiet.prepare (h : sockets.Quiet) (hkind : endpoint.kind = .tcp)
    (hserver : sockets.network.server? (sockets.network.site.address endpoint) = some server)
    (hreachable : server.reachable = true) :
    ∃ after, Sockets.prepare endpoint sockets = (.ok (), after)
      ∧ after.Quiet ∧ after.maxPayload = sockets.maxPayload
      ∧ after.network.site = sockets.network.site
      ∧ after.network.server? = sockets.network.server? := by
  have hresolve : sockets.resolve endpoint = .ok [sockets.network.site.address endpoint] := rfl
  unfold Sockets.prepare
  simp only [hkind, supports, hresolve, Bool.not_true, Bool.false_eq_true, if_false]
  cases sockets.connection? endpoint with
  | some connection => exact ⟨sockets, rfl, h, rfl, rfl, rfl⟩
  | none =>
    obtain ⟨connection, network, hconnect, hsite, hservers, hquiet⟩ :=
      h.connect hkind hserver hreachable
    rw [hconnect]
    exact ⟨_, rfl, hquiet, rfl, hsite, hservers⟩

/-- Sockets after a round trip that left a server in a state which stands for this one. -/
structure Served (before : Sockets Peers) (address : Address) (server : PromptServer)
    (after : Sockets Peers) : Prop where
  quiet : after.Quiet
  maxPayload : after.maxPayload = before.maxPayload
  site : after.network.site = before.network.site
  behind : ∃ later : Server, later.settle = server
    ∧ after.network.server? = (before.network.replace address later).server?

theorem Quiet.exchange {connection : Connection} {request : Request} (h : sockets.Quiet)
    (hkind : endpoint.kind = .tcp) (hconnection : sockets.connection? endpoint = some connection)
    (hserver : sockets.network.server? (sockets.network.site.address endpoint) = some server)
    (hlimits : WithinLimits sockets.maxPayload sockets.network.site.peerMax request
      (server.handle request).1) :
    ∃ after, Sockets.exchange endpoint connection request sockets
        = (.ok (server.handle request).1, after)
      ∧ sockets.Served (sockets.network.site.address endpoint) (server.handle request).2.settle
        after := by
  obtain ⟨hwaiting, hlink⟩ := h endpoint connection hconnection
  obtain ⟨arrival, after, htransfer, hbytes, hsite, hservers, hidle⟩ :=
    Peers.transfer_of_idle hlink hserver hlimits.id hlimits.request_fits
  -- the server answers after some work, which makes no difference to its reply
  let handled := (server.work (sockets.network.site.pace sockets.network.exchanges)).handle request
  have hanswer : handled.1 = (server.handle request).1 := by
    rw [Server.handle_fst, Server.handle_fst, Server.settle_work]
  have hsettle : handled.2.settle = (server.handle request).2.settle := by
    rw [Server.settle_handle_snd, Server.settle_handle_snd, Server.settle_work]
  have harrived : Inflow.bytes ⟨connection.waiting ++ arrival.pieces, arrival.stop⟩
      = frame (server.handle request).1.encode ++ [] := by
    rw [Inflow.bytes, List.flatten_append, hwaiting, List.append_nil, ← hanswer]
    exact hbytes
  obtain ⟨rest, hread, hrest, -⟩ := readReply_whole hlimits.reply_fits harrived
  have hsent : Network.transfer connection.link (frame request.encode) sockets.network
      = (.ok arrival, after) := htransfer
  have hquiet : ({ sockets.keep endpoint ⟨connection.link, rest.pieces⟩ with network := after }
      : Sockets Peers).Quiet := h.keep hsite hidle hrest (hidle _ _ hlink)
  refine ⟨_, ?_, ⟨hquiet, rfl, hsite, handled.2, hsettle, hservers⟩⟩
  unfold Sockets.exchange exchangeFrames maxMessage
  simp only [hkind, TransportKind.isStream, if_true, hsent, hread]

theorem Quiet.roundTrip {request : Request} (h : sockets.Quiet) (hkind : endpoint.kind = .tcp)
    (hserver : sockets.network.server? (sockets.network.site.address endpoint) = some server)
    (hreachable : server.reachable = true)
    (hlimits : WithinLimits sockets.maxPayload sockets.network.site.peerMax request
      (server.handle request).1) :
    ∃ after, Sockets.roundTrip endpoint request sockets = (.ok (server.handle request).1, after)
      ∧ sockets.Served (sockets.network.site.address endpoint) (server.handle request).2.settle
        after := by
  unfold Sockets.roundTrip
  simp only
  rw [if_neg (Nat.not_lt.2 hlimits.payload)]
  cases hconnection : sockets.connection? endpoint with
  | some connection => exact h.exchange hkind hconnection hserver hlimits
  | none =>
    obtain ⟨connection, network, hconnect, hsite, hservers, hquiet⟩ :=
      h.connect hkind hserver hreachable
    rw [hconnect]
    -- the sockets with the new connection are as good as any
    let opened : Sockets Peers := { sockets.keep endpoint connection with network }
    have hopened : opened.connection? endpoint = some connection := by
      have hkeep := sockets.connection?_keep endpoint endpoint connection
      rwa [if_pos rfl] at hkeep
    have haddress : opened.network.site.address endpoint
        = sockets.network.site.address endpoint := by
      change network.site.address endpoint = _
      rw [hsite]
    have hsame : opened.network.server? (opened.network.site.address endpoint) = some server := by
      rw [haddress]
      change network.server? (sockets.network.site.address endpoint) = some server
      rw [hservers]
      exact hserver
    have hlimits' : WithinLimits opened.maxPayload opened.network.site.peerMax request
        (server.handle request).1 := by
      change WithinLimits sockets.maxPayload network.site.peerMax request _
      rw [hsite]
      exact hlimits
    obtain ⟨after, hexchange, hserved⟩ := Quiet.exchange hquiet hkind hopened hsame hlimits'
    obtain ⟨later, hlater, hbehind⟩ := hserved.behind
    refine ⟨after, hexchange, hserved.quiet, hserved.maxPayload, hserved.site.trans hsite, later,
      hlater, ?_⟩
    rw [hbehind, haddress]
    unfold Peers.replace
    simp only [hservers]

end Sockets

end TieredStore
