import TieredStore.Error
import TieredStore.Routing.Checksum

/-!
# The registry

The endpoints of one client, valid and without repetition, in the order of their registration, and
the rule by which a request picks one of them.  The order is what clients have to share for a key to
have one home.
-/

namespace TieredStore

inductive Policy where
  /-- The endpoint that was registered first. -/
  | first
  /-- The endpoint that the checksum of the key points at. -/
  | keyHash
  deriving DecidableEq, Repr

def Policy.select (policy : Policy) (endpoints : List Endpoint) (key : Bytes) : Option Endpoint :=
  match policy with
  | .first => endpoints.head?
  | .keyHash => endpoints[(Routing.checksum key).toNat % endpoints.length]?

theorem Policy.mem_of_select {policy : Policy} {endpoints : List Endpoint} {key : Bytes}
    {endpoint : Endpoint} (h : policy.select endpoints key = some endpoint) :
    endpoint ∈ endpoints := by
  cases policy with
  | first => exact List.mem_of_head? h
  | keyHash => exact List.mem_of_getElem? h

/-- Endpoints in the order of their registration. -/
structure Registry where
  endpoints : List Endpoint
  nodup : endpoints.Nodup
  valid : ∀ endpoint ∈ endpoints, endpoint.validate = .ok ()
  deriving DecidableEq

namespace Registry

def empty : Registry :=
  ⟨[], List.nodup_nil, by simp⟩

def contains (registry : Registry) (endpoint : Endpoint) : Bool :=
  endpoint ∈ registry.endpoints

/-- Appends an endpoint that is valid and new. -/
def register (registry : Registry) (endpoint : Endpoint) : Except Error Registry :=
  match hvalid : endpoint.validate with
  | .error fault => .error (.config fault)
  | .ok () =>
    if hmem : endpoint ∈ registry.endpoints then
      .error (.alreadyRegistered endpoint)
    else
      .ok {
        endpoints := registry.endpoints ++ [endpoint]
        nodup := by
          rw [List.nodup_append]
          refine ⟨registry.nodup, by simp, fun other hother same hsame heq => ?_⟩
          rw [List.mem_singleton] at hsame
          exact hmem (hsame ▸ heq ▸ hother)
        valid := by
          intro other hother
          rcases List.mem_append.1 hother with hold | hnew
          · exact registry.valid other hold
          · rw [List.mem_singleton.1 hnew, hvalid] }

def first? (registry : Registry) : Option Endpoint :=
  registry.endpoints.head?

def select (registry : Registry) (policy : Policy) (key : Bytes) : Option Endpoint :=
  policy.select registry.endpoints key

def size (registry : Registry) : Nat :=
  registry.endpoints.length

end Registry

end TieredStore
