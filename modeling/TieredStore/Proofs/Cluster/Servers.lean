import TieredStore.Transport.Cluster

/-!
# The servers of a cluster

What is behind an endpoint after each operation on a cluster.  Endpoints do not share servers, so
each operation is about one of them and leaves the others alone.
-/

namespace TieredStore.Cluster

/-- Something happens to the server behind an endpoint, if there is one. -/
def adjust (cluster : Cluster) (endpoint : Endpoint) (change : Server → Server) : Cluster :=
  match cluster.server? endpoint with
  | some server => cluster.replace endpoint (change server)
  | none => cluster

theorem server?_replace (cluster : Cluster) (endpoint other : Endpoint) (server : Server) :
    (cluster.replace endpoint server).server? other
      = (cluster.server? other).map fun old => if other = endpoint then server else old :=
  lookup_replace endpoint other server cluster.servers

theorem server?_adjust (cluster : Cluster) (endpoint other : Endpoint) (change : Server → Server) :
    (cluster.adjust endpoint change).server? other
      = (cluster.server? other).map fun old => if other = endpoint then change old else old := by
  unfold adjust
  cases hserver : cluster.server? endpoint with
  | some server =>
    simp only [server?_replace]
    by_cases hother : other = endpoint
    · simp [hother, hserver]
    · simp [hother]
  | none =>
    by_cases hother : other = endpoint
    · simp [hother, hserver]
    · simp [hother]

theorem server?_prepare (cluster : Cluster) (endpoint other : Endpoint) :
    (cluster.prepare endpoint).server? other
      = if other = endpoint then some ((cluster.server? other).getD (.start cluster.options))
        else cluster.server? other := by
  unfold prepare
  cases hserver : cluster.server? endpoint with
  | some server =>
    by_cases hother : other = endpoint
    · simp [hother, hserver]
    · simp [hother]
  | none =>
    -- the new server comes last, so it is found only where there was none
    have happend : ∀ servers : List (Endpoint × Server),
        (servers ++ [(endpoint, Server.start cluster.options)]).lookup other
          = (servers.lookup other).or
              (if other = endpoint then some (.start cluster.options) else none) := by
      intro servers
      rw [List.lookup_append, lookup_cons_eq_ite]
      rfl
    unfold server? at hserver ⊢
    simp only [happend]
    by_cases hother : other = endpoint
    · simp [hother, hserver]
    · simp [hother]

theorem setReachable_snd (cluster : Cluster) (endpoint : Endpoint) (reachable : Bool) :
    (cluster.setReachable endpoint reachable).2
      = cluster.adjust endpoint fun server => { server with reachable } := by
  unfold setReachable adjust
  cases cluster.server? endpoint with
  | some server => rfl
  | none => rfl

theorem roundTrip_of_reachable {cluster : Cluster} {endpoint : Endpoint} {server : Server}
    (hserver : cluster.server? endpoint = some server) (hreachable : server.reachable = true)
    (request : Request) :
    roundTrip endpoint request cluster
      = (.ok (server.handle request).1, cluster.replace endpoint (server.handle request).2) := by
  unfold roundTrip
  simp only [hserver, hreachable, if_true]

/-- No server is there, or it does not accept connections. -/
theorem roundTrip_of_refused {cluster : Cluster} {endpoint : Endpoint}
    (h : ∀ server, cluster.server? endpoint = some server → server.reachable = false)
    (request : Request) :
    roundTrip endpoint request cluster
      = (.error (.io ⟨.connectionRefused, s!"{endpoint.text} refused the connection"⟩),
          cluster) := by
  unfold roundTrip
  cases hserver : cluster.server? endpoint with
  | none => rfl
  | some server => simp only [h server hserver, Bool.false_eq_true, if_false]

/-- Endpoints do not share servers. -/
theorem server?_roundTrip {cluster : Cluster} {endpoint other : Endpoint}
    (h : other ≠ endpoint) (request : Request) :
    (roundTrip endpoint request cluster).2.server? other = cluster.server? other := by
  unfold roundTrip
  cases cluster.server? endpoint with
  | none => rfl
  | some server =>
    cases hreachable : server.reachable with
    | false => simp [hreachable]
    | true => simp [hreachable, server?_replace, h]

end TieredStore.Cluster
