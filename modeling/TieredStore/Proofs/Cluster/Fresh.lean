import TieredStore.Client
import TieredStore.Proofs.Cluster.Servers
import TieredStore.Proofs.Routing.Registrations

/-!
# Registered endpoints

Registration starts a server for each endpoint that it accepts, with nothing in it, and leaves the
settings of the client alone.
-/

namespace TieredStore

namespace Session

/-- Registers endpoints, one after another.  Those that are refused are left out. -/
def registerAll {σ : Type} [Transport σ] (session : Session σ) (endpoints : List Endpoint) :
    Session σ :=
  endpoints.foldl (fun session endpoint => (session.register endpoint).2) session

/-- A new client on a new cluster, with some endpoints registered. -/
def opened (config : Config) (options : ServerOptions) (endpoints : List Endpoint) :
    Session Cluster :=
  Session.registerAll ⟨.new config, .empty options⟩ endpoints

theorem config_register (session : Session Cluster) (endpoint : Endpoint) :
    (session.register endpoint).2.client.config = session.client.config := by
  unfold register
  cases session.client.registry.register endpoint with
  | error error => rfl
  | ok registry => rfl

theorem config_registerAll (session : Session Cluster) (endpoints : List Endpoint) :
    (session.registerAll endpoints).client.config = session.client.config := by
  induction endpoints generalizing session with
  | nil => rfl
  | cons endpoint endpoints ih =>
    rw [← config_register session endpoint]
    exact ih (session.register endpoint).2

end Session

/-- Every server has just started, and each registered endpoint has one. -/
structure Fresh (options : ServerOptions) (session : Session Cluster) : Prop where
  options_eq : session.transport.options = options
  fresh : ∀ endpoint server, session.transport.server? endpoint = some server →
    server = .start options
  started : ∀ endpoint ∈ session.client.registry.endpoints,
    ∃ server, session.transport.server? endpoint = some server

namespace Fresh

variable {options : ServerOptions} {session : Session Cluster}

theorem prepare (h : Fresh options session) {endpoint : Endpoint} {registry : Registry}
    (hregister : session.client.registry.register endpoint = .ok registry) :
    Fresh options
      ⟨{ session.client with registry }, session.transport.prepare endpoint⟩ := by
  constructor
  · rw [← h.options_eq]
    unfold Cluster.prepare
    simp only
    split
    · rfl
    · rfl
  · intro other server hserver
    rw [Cluster.server?_prepare, h.options_eq] at hserver
    by_cases heq : other = endpoint
    -- a server that was there already keeps its place, and has not been used either
    · rw [if_pos heq] at hserver
      cases hother : session.transport.server? other with
      | none =>
        rw [hother] at hserver
        exact (Option.some.inj hserver).symm
      | some old =>
        rw [hother] at hserver
        rw [← h.fresh other old hother]
        exact (Option.some.inj hserver).symm
    · rw [if_neg heq] at hserver
      exact h.fresh other server hserver
  · intro other hother
    rw [Registry.endpoints_of_register hregister] at hother
    rw [Cluster.server?_prepare]
    by_cases heq : other = endpoint
    · rw [if_pos heq]
      exact ⟨_, rfl⟩
    · rw [if_neg heq]
      rcases List.mem_append.1 hother with hold | hnew
      · exact h.started other hold
      · exact absurd (List.mem_singleton.1 hnew) heq

theorem register (h : Fresh options session) (endpoint : Endpoint) :
    Fresh options (session.register endpoint).2 := by
  unfold Session.register
  cases hregister : session.client.registry.register endpoint with
  | error error => exact h
  | ok registry => exact h.prepare hregister

theorem registerAll (h : Fresh options session) (endpoints : List Endpoint) :
    Fresh options (session.registerAll endpoints) := by
  induction endpoints generalizing session with
  | nil => exact h
  | cons endpoint endpoints ih => exact ih (h.register endpoint)

theorem opened (config : Config) (options : ServerOptions) (endpoints : List Endpoint) :
    Fresh options (Session.opened config options endpoints) := by
  apply Fresh.registerAll
  constructor
  · rfl
  · intro endpoint server hserver
    cases hserver
  · intro endpoint hendpoint
    cases hendpoint

end Fresh

end TieredStore
