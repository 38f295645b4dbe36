import TieredStore.Server
import TieredStore.Transport

/-!
# Clusters

Servers in the same program, one for each endpoint that was registered, of any kind.  Requests reach
them directly.  An endpoint keeps its server however often it is registered.
-/

namespace TieredStore

/-- Servers by endpoint, in the order in which they were started. -/
structure Cluster where
  /-- The settings of the servers that are started from now on. -/
  options : ServerOptions
  servers : List (Endpoint × Server)
  deriving DecidableEq

namespace Cluster

def empty (options : ServerOptions) : Cluster :=
  ⟨options, []⟩

def server? (cluster : Cluster) (endpoint : Endpoint) : Option Server :=
  cluster.servers.lookup endpoint

/-- Puts a server in place of the one behind an endpoint. -/
def replace (cluster : Cluster) (endpoint : Endpoint) (server : Server) : Cluster :=
  { cluster with
    servers := cluster.servers.map fun entry =>
      if entry.1 = endpoint then (entry.1, server) else entry }

def prepare (cluster : Cluster) (endpoint : Endpoint) : Cluster :=
  match cluster.server? endpoint with
  | some _ => cluster
  | none =>
    { cluster with servers := cluster.servers ++ [(endpoint, Server.start cluster.options)] }

/-- Makes a server refuse connections, or accept them again; tells whether there is one. -/
def setReachable (cluster : Cluster) (endpoint : Endpoint) (reachable : Bool) : Bool × Cluster :=
  match cluster.server? endpoint with
  | some server => (true, cluster.replace endpoint { server with reachable })
  | none => (false, cluster)

/-- Requests that the server behind an endpoint has answered. -/
def served (cluster : Cluster) (endpoint : Endpoint) : UInt64 :=
  match cluster.server? endpoint with
  | some server => server.counters.requests
  | none => 0

/-- Hands a request to the server behind an endpoint, if one accepts it. -/
def roundTrip (endpoint : Endpoint) (request : Request) (cluster : Cluster) :
    Except Error Reply × Cluster :=
  let refused := Error.io ⟨.connectionRefused, s!"{endpoint.text} refused the connection"⟩
  match cluster.server? endpoint with
  | none => (.error refused, cluster)
  | some server =>
    if server.reachable then
      let (reply, server) := server.handle request
      (.ok reply, cluster.replace endpoint server)
    else
      (.error refused, cluster)

instance : Transport Cluster where
  supports _ _ := true
  prepare endpoint cluster := (.ok (), cluster.prepare endpoint)
  roundTrip := roundTrip

end Cluster

end TieredStore
