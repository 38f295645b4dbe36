import TieredStore.Proofs.Client.Sharing
import TieredStore.Proofs.Routing.Registrations

/-!
# Registering with a client

A client takes an endpoint that is usable, new to it and of a kind that its transport serves, once
the transport is prepared for it (`Session.register_cases`).  A transport can note what it is
prepared for, and nobody sees a difference (`Sharing.registerAll_forget`).
-/

namespace TieredStore

namespace Session

variable {σ : Type} [Transport σ]

/-- What has to hold before a transport is prepared for an endpoint. -/
def Ready (session : Session σ) (endpoint : Endpoint) : Prop :=
  endpoint.Usable ∧ endpoint ∉ session.client.registry.endpoints
    ∧ Transport.supports session.transport endpoint.kind = true

instance (session : Session σ) (endpoint : Endpoint) : Decidable (session.Ready endpoint) :=
  inferInstanceAs (Decidable (_ ∧ _))

/-- What can come of registering an endpoint.  Nothing changes until the endpoint is ready; then the
transport is prepared, and decides. -/
inductive Registering (session : Session σ) (endpoint : Endpoint) :
    Except Error Unit × Session σ → Prop
  | unusable (fault : Endpoint.Fault) (husable : ¬endpoint.Usable) :
    Registering session endpoint (.error (.config fault), session)
  | known (husable : endpoint.Usable) (hmem : endpoint ∈ session.client.registry.endpoints) :
    Registering session endpoint (.error (.alreadyRegistered endpoint), session)
  | unsupported (husable : endpoint.Usable) (hnew : endpoint ∉ session.client.registry.endpoints)
    (hkind : Transport.supports session.transport endpoint.kind = false) :
    Registering session endpoint (.error (.config (.unsupported endpoint.kind)), session)
  | unprepared (error : Error) (transport : σ) (hready : session.Ready endpoint)
    (hprepare : Transport.prepare endpoint session.transport = (.error error, transport)) :
    Registering session endpoint (.error error, { session with transport })
  | registered (registry : Registry) (transport : σ) (hready : session.Ready endpoint)
    (hprepare : Transport.prepare endpoint session.transport = (.ok (), transport))
    (hafter : registry.endpoints = session.client.registry.endpoints ++ [endpoint]) :
    Registering session endpoint (.ok (), ⟨{ session.client with registry }, transport⟩)

theorem register_cases (session : Session σ) (endpoint : Endpoint) :
    session.Registering endpoint (session.register endpoint) := by
  unfold register
  have hcases := session.client.registry.registering endpoint
  generalize session.client.registry.register endpoint = outcome at hcases
  cases hcases with
  | unusable fault husable => exact .unusable fault husable
  | known husable hmem => exact .known husable hmem
  | appended registry husable hnew hafter =>
    simp only
    cases hkind : Transport.supports session.transport endpoint.kind with
    | false => exact .unsupported husable hnew hkind
    | true =>
      have hready : session.Ready endpoint := ⟨husable, hnew, hkind⟩
      simp only [Bool.not_true, Bool.false_eq_true, if_false]
      rcases hprepare : Transport.prepare endpoint session.transport with ⟨prepared, transport⟩
      cases prepared with
      | error error => exact .unprepared error transport hready hprepare
      | ok => exact .registered registry transport hready hprepare hafter

theorem register_eq_ok_iff (session : Session σ) (endpoint : Endpoint) :
    (session.register endpoint).1 = .ok ()
      ↔ session.Ready endpoint ∧ (Transport.prepare endpoint session.transport).1 = .ok () := by
  have hcases := session.register_cases endpoint
  generalize session.register endpoint = outcome at hcases
  cases hcases with
  | unusable fault husable => simp [Ready, husable]
  | known husable hmem => simp [Ready, hmem]
  | unsupported husable hnew hkind => simp [Ready, hkind]
  | unprepared error transport hready hprepare => simp [hprepare]
  | registered registry transport hready hprepare hafter => simp [hready, hprepare]

/-- The transport is prepared once, or nothing is asked of it. -/
theorem transport_register (session : Session σ) (endpoint : Endpoint) :
    (session.register endpoint).2.transport
      = if session.Ready endpoint then (Transport.prepare endpoint session.transport).2
        else session.transport := by
  have hcases := session.register_cases endpoint
  generalize session.register endpoint = outcome at hcases
  cases hcases with
  | unusable fault husable => exact (if_neg fun h => husable h.1).symm
  | known husable hmem => exact (if_neg fun h => h.2.1 hmem).symm
  | unsupported husable hnew hkind =>
    exact (if_neg fun h => Bool.false_ne_true (hkind.symm.trans h.2.2)).symm
  | unprepared error transport hready hprepare => rw [if_pos hready, hprepare]
  | registered registry transport hready hprepare hafter => rw [if_pos hready, hprepare]

/-- A client that is refused an endpoint stays as it is. -/
theorem client_register_of_ne_ok {session : Session σ} {endpoint : Endpoint}
    (h : (session.register endpoint).1 ≠ .ok ()) :
    (session.register endpoint).2.client = session.client := by
  have hcases := session.register_cases endpoint
  generalize session.register endpoint = outcome at hcases h
  cases hcases with
  | registered registry transport hready hprepare hafter => exact absurd rfl h
  | _ => rfl

theorem endpoints_register_of_ok {session : Session σ} {endpoint : Endpoint}
    (h : (session.register endpoint).1 = .ok ()) :
    (session.register endpoint).2.client.registry.endpoints
      = session.client.registry.endpoints ++ [endpoint] := by
  have hcases := session.register_cases endpoint
  generalize session.register endpoint = outcome at hcases h
  cases hcases with
  | registered registry transport hready hprepare hafter => exact hafter
  | _ => cases h

end Session

/-! ## Clients that share a transport -/

namespace Sharing

variable {ι σ : Type} [DecidableEq ι] [Transport σ]

/-- One of the clients registers an endpoint. -/
def register (group : Sharing ι σ) (who : ι) (endpoint : Endpoint) :
    Except Error Unit × Sharing ι σ :=
  ((group.session who).register endpoint).map id (group.resume who)

/-- The clients register endpoints, one after another. -/
def registerAll (group : Sharing ι σ) (calls : List (ι × Endpoint)) :
    List (Except Error Unit) × Sharing ι σ :=
  stepAll (fun group call => group.register call.1 call.2) group calls

end Sharing

/-! ## What a transport is asked for -/

/-- A transport that notes for which endpoints it is prepared, one after another. -/
structure Noting (σ : Type) where
  transport : σ
  prepared : List Endpoint

instance {σ : Type} [Transport σ] : Transport (Noting σ) where
  supports noting := Transport.supports noting.transport
  prepare endpoint noting :=
    (Transport.prepare endpoint noting.transport).map id
      fun transport => ⟨transport, noting.prepared ++ [endpoint]⟩
  roundTrip endpoint request noting :=
    (Transport.roundTrip endpoint request noting.transport).map id
      fun transport => ⟨transport, noting.prepared⟩

namespace Session

variable {σ : Type} [Transport σ]

def forget (session : Session (Noting σ)) : Session σ :=
  ⟨session.client, session.transport.transport⟩

theorem register_forget (session : Session (Noting σ)) (endpoint : Endpoint) :
    session.forget.register endpoint = (session.register endpoint).map id forget := by
  have hclient : session.forget.client = session.client := rfl
  have hkind : Transport.supports session.transport endpoint.kind
      = Transport.supports session.forget.transport endpoint.kind := rfl
  have hprepare : Transport.prepare endpoint session.transport
      = (Transport.prepare endpoint session.forget.transport).map id
        fun transport => ⟨transport, session.transport.prepared ++ [endpoint]⟩ := rfl
  unfold register
  simp only [hclient, hkind, hprepare]
  cases session.client.registry.register endpoint with
  | error error => rfl
  | ok registry =>
    simp only
    split
    · rfl
    · rcases Transport.prepare endpoint session.forget.transport with ⟨prepared, transport⟩
      cases prepared with
      | error error => rfl
      | ok => rfl

theorem prepared_register (session : Session (Noting σ)) (endpoint : Endpoint) :
    (session.register endpoint).2.transport.prepared
      = session.transport.prepared ++ if session.forget.Ready endpoint then [endpoint] else [] := by
  have hready : session.Ready endpoint ↔ session.forget.Ready endpoint := Iff.rfl
  rw [transport_register]
  by_cases h : session.Ready endpoint
  · rw [if_pos h, if_pos (hready.1 h)]
    rfl
  · rw [if_neg h, if_neg (mt hready.2 h), List.append_nil]

end Session

namespace Sharing

variable {ι σ : Type} [DecidableEq ι] [Transport σ]

/-- The same clients over a transport that has noted nothing yet. -/
def noting (group : Sharing ι σ) : Sharing ι (Noting σ) :=
  ⟨group.clients, ⟨group.transport, []⟩⟩

def forget (group : Sharing ι (Noting σ)) : Sharing ι σ :=
  ⟨group.clients, group.transport.transport⟩

theorem register_forget (group : Sharing ι (Noting σ)) (who : ι) (endpoint : Endpoint) :
    group.forget.register who endpoint = (group.register who endpoint).map id forget := by
  have hsession := (group.session who).register_forget endpoint
  have hforget : group.forget.session who = (group.session who).forget := rfl
  unfold register
  rw [hforget, hsession]
  rfl

theorem registerAll_forget (group : Sharing ι (Noting σ)) (calls : List (ι × Endpoint)) :
    group.forget.registerAll calls = (group.registerAll calls).map id forget :=
  stepAll_view (fun group call => group.register_forget call.1 call.2) group calls

/-- Noting makes no difference. -/
theorem noting_registerAll (group : Sharing ι σ) (calls : List (ι × Endpoint)) :
    (group.noting.registerAll calls).map id forget = group.registerAll calls :=
  (registerAll_forget group.noting calls).symm

/-- A call adds one note, or none. -/
theorem prepared_concat (group : Sharing ι σ) (earlier : List (ι × Endpoint)) (who : ι)
    (endpoint : Endpoint) :
    (group.noting.registerAll (earlier ++ [(who, endpoint)])).2.transport.prepared
      = (group.noting.registerAll earlier).2.transport.prepared
        ++ if ((group.registerAll earlier).2.session who).Ready endpoint then [endpoint]
          else [] := by
  let before := (group.noting.registerAll earlier).2
  -- without its notes the group is the one that notes nothing
  have hforget : before.forget = (group.registerAll earlier).2 :=
    congrArg Prod.snd (group.noting_registerAll earlier)
  have hsession : (before.session who).forget = (group.registerAll earlier).2.session who := by
    rw [← hforget]
    rfl
  rw [← hsession]
  unfold registerAll
  rw [stepAll_concat_snd]
  exact (before.session who).prepared_register endpoint

end Sharing

end TieredStore
