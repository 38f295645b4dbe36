import Mathlib.Data.List.Induction
import Mathlib.Data.List.TakeWhile
import TieredStore.Proofs.StepAll
import TieredStore.Routing.Registry

/-!
# Registering endpoints

What a registry holds after any attempts to register endpoints: those that are usable, each where it
came first.  An attempt fails on an endpoint that is not usable or was there before, and then the
registry stays as it is (`Registry.registered_exact`).  The endpoint that a key is routed to depends
on this list alone.
-/

namespace TieredStore

/-! ## Usable endpoints -/

/-- Nothing is left of blank text, and of no other. -/
theorem Text.trim_eq_nil_iff {cs : List Char} : trim cs = [] ↔ ∀ c ∈ cs, isBlank c = true := by
  rw [trim, List.reverse_eq_nil_iff, List.dropWhile_eq_nil_iff]
  constructor
  · intro h c hc
    rw [← List.takeWhile_append_dropWhile (p := isBlank) (l := cs)] at hc
    rcases List.mem_append.1 hc with hfront | hrest
    · exact List.mem_takeWhile_imp hfront
    · exact h c (List.mem_reverse.2 hrest)
  · intro h c hc
    exact h c ((List.dropWhile_sublist isBlank).subset (List.mem_reverse.1 hc))

namespace Endpoint

/-- Over TIPC every endpoint is usable; elsewhere it needs a host with more than blanks in it, and a
port from 1 to `0xFFFF`. -/
def Usable (endpoint : Endpoint) : Prop :=
  endpoint.kind = .tipc
    ∨ (∃ c ∈ endpoint.host.toList, Text.isBlank c = false) ∧ 1 ≤ endpoint.port
      ∧ endpoint.port ≤ 0xFFFF

/-- Where there is a host, the port has 16 bits. -/
theorem port_le {endpoint : Endpoint} (h : endpoint.kind ≠ .tipc) : endpoint.port ≤ 0xFFFF := by
  have hword (port : UInt16) : port.toNat ≤ 0xFFFF := Nat.le_of_lt_succ port.toNat_lt
  cases endpoint with
  | tcp host port | udp host port | sctp host port => exact hword port
  | tipc inst => exact absurd rfl h

theorem isIp_kind_eq_false_iff {endpoint : Endpoint} :
    endpoint.kind.isIp = false ↔ endpoint.kind = .tipc := by
  cases endpoint.kind <;> decide

/-- A host is taken for missing when all of it is blank. -/
theorem trim_isEmpty_eq_false_iff {cs : List Char} :
    (Text.trim cs).isEmpty = false ↔ ∃ c ∈ cs, Text.isBlank c = false := by
  rw [List.isEmpty_eq_false_iff, Ne, Text.trim_eq_nil_iff]
  simp

theorem validate_eq_ok_iff {endpoint : Endpoint} :
    endpoint.validate = .ok () ↔ endpoint.Usable := by
  unfold validate Usable
  by_cases hkind : endpoint.kind = .tipc
  · rw [isIp_kind_eq_false_iff.2 hkind]
    simp [hkind]
  · have hip : endpoint.kind.isIp = true := by
      rw [← Bool.not_eq_false, isIp_kind_eq_false_iff]
      exact hkind
    have hport := port_le hkind
    by_cases hhost : (Text.trim endpoint.host.toList).isEmpty = true
    · have hblank := (not_congr trim_isEmpty_eq_false_iff).1 (Bool.not_eq_false _ ▸ hhost)
      simp [hip, hhost, hkind, hblank]
    · have hsome := trim_isEmpty_eq_false_iff.1 (Bool.not_eq_true _ ▸ hhost)
      simp [hip, hhost, hkind, hsome]
      omega

instance (endpoint : Endpoint) : Decidable endpoint.Usable :=
  decidable_of_iff (endpoint.validate = .ok ()) validate_eq_ok_iff

end Endpoint

namespace Registry

variable {registry : Registry} {endpoint : Endpoint}

/-! ## One attempt -/

/-- What can come of registering an endpoint. -/
inductive Registering (registry : Registry) (endpoint : Endpoint) : Except Error Registry → Prop
  | unusable (fault : Endpoint.Fault) (husable : ¬endpoint.Usable) :
    Registering registry endpoint (.error (.config fault))
  | known (husable : endpoint.Usable) (hmem : endpoint ∈ registry.endpoints) :
    Registering registry endpoint (.error (.alreadyRegistered endpoint))
  | appended (after : Registry) (husable : endpoint.Usable) (hnew : endpoint ∉ registry.endpoints)
    (hafter : after.endpoints = registry.endpoints ++ [endpoint]) :
    Registering registry endpoint (.ok after)

theorem registering (registry : Registry) (endpoint : Endpoint) :
    registry.Registering endpoint (registry.register endpoint) := by
  unfold register
  split
  · next fault hfault =>
    apply Registering.unusable
    intro husable
    rw [Endpoint.validate_eq_ok_iff.2 husable] at hfault
    cases hfault
  · next hvalid =>
    have husable := Endpoint.validate_eq_ok_iff.1 hvalid
    split
    · next hmem => exact .known husable hmem
    · next hnew => exact .appended _ husable hnew rfl

theorem endpoints_of_register {after : Registry} (h : registry.register endpoint = .ok after) :
    after.endpoints = registry.endpoints ++ [endpoint] := by
  have hcases := registry.registering endpoint
  rw [h] at hcases
  cases hcases with
  | appended after husable hnew hafter => exact hafter

/-- Registers an endpoint; a registry that refuses it stays as it is. -/
def attempt (registry : Registry) (endpoint : Endpoint) : Except Error Unit × Registry :=
  match registry.register endpoint with
  | .ok after => (.ok (), after)
  | .error error => (.error error, registry)

/-! ## Any attempts -/

/-- Tries to register endpoints, one after another. -/
def attemptAll (registry : Registry) (calls : List Endpoint) :
    List (Except Error Unit) × Registry :=
  stepAll attempt registry calls

/-- A list with one more item, of which the first occurrences are kept. -/
theorem eraseDups_concat (endpoints : List Endpoint) (endpoint : Endpoint) :
    (endpoints ++ [endpoint]).eraseDups
      = endpoints.eraseDups ++ if endpoint ∈ endpoints then [] else [endpoint] := by
  rw [List.eraseDups_append]
  congr 1
  by_cases hmem : endpoint ∈ endpoints
  · rw [if_pos hmem]
    simp [List.removeAll, hmem]
  · rw [if_neg hmem]
    simp [List.removeAll, hmem, List.eraseDups_cons]

/-- What comes last is kept if it is usable and has not come before. -/
theorem kept_concat (calls : List Endpoint) (endpoint : Endpoint) :
    ((calls ++ [endpoint]).filter (·.Usable)).eraseDups
      = (calls.filter (·.Usable)).eraseDups
        ++ if endpoint.Usable ∧ endpoint ∉ calls then [endpoint] else [] := by
  rw [List.filter_append]
  by_cases husable : endpoint.Usable
  · have hlast : [endpoint].filter (·.Usable) = [endpoint] := List.filter_cons_of_pos (by simpa)
    rw [hlast, eraseDups_concat]
    simp [husable]
  · have hlast : [endpoint].filter (·.Usable) = [] := List.filter_cons_of_neg (by simpa)
    rw [hlast, List.append_nil, if_neg (fun h => husable h.1), List.append_nil]

/-- The endpoints that were usable, each where it came first. -/
theorem endpoints_attemptAll (calls : List Endpoint) :
    (empty.attemptAll calls).2.endpoints = (calls.filter (·.Usable)).eraseDups := by
  induction calls using List.reverseRecOn with
  | nil => rfl
  | append_singleton calls endpoint ih =>
    have hlast : (empty.attemptAll (calls ++ [endpoint])).2
        = ((empty.attemptAll calls).2.attempt endpoint).2 := stepAll_concat_snd ..
    have hmem : endpoint ∈ (empty.attemptAll calls).2.endpoints
        ↔ endpoint ∈ calls ∧ endpoint.Usable := by
      rw [ih, List.mem_eraseDups, List.mem_filter, decide_eq_true_iff]
    rw [hlast, kept_concat, ← ih]
    unfold attempt
    have hcases := (empty.attemptAll calls).2.registering endpoint
    generalize (empty.attemptAll calls).2.register endpoint = outcome at hcases
    cases hcases with
    | unusable fault husable => rw [if_neg (fun h => husable h.1), List.append_nil]
    | known husable hknown => rw [if_neg (fun h => h.2 (hmem.1 hknown).1), List.append_nil]
    | appended after husable hnew hafter =>
      rw [if_pos ⟨husable, fun h => hnew (hmem.2 ⟨h, husable⟩)⟩]
      exact hafter

theorem mem_attemptAll {calls : List Endpoint} {endpoint : Endpoint} :
    endpoint ∈ (empty.attemptAll calls).2.endpoints ↔ endpoint.Usable ∧ endpoint ∈ calls := by
  rw [endpoints_attemptAll, List.mem_eraseDups, List.mem_filter, decide_eq_true_iff, and_comm]

/-! ## Routing -/

theorem select_first (registry : Registry) (key : Bytes) :
    registry.select .first key = registry.endpoints.head? := rfl

/-- The index that a key's checksum gives is one of the list. -/
theorem select_keyHash (h : registry.endpoints ≠ []) (key : Bytes) :
    ∃ hindex : (Routing.checksum key).toNat % registry.size < registry.endpoints.length,
      registry.select .keyHash key
        = some registry.endpoints[(Routing.checksum key).toNat % registry.size] := by
  have hindex : (Routing.checksum key).toNat % registry.size < registry.endpoints.length :=
    Nat.mod_lt _ (List.length_pos_iff.2 h)
  exact ⟨hindex, List.getElem?_eq_getElem hindex⟩

theorem select_eq_none_iff (registry : Registry) (policy : Policy) (key : Bytes) :
    registry.select policy key = none ↔ registry.endpoints = [] := by
  cases policy with
  | first => exact List.head?_eq_none_iff
  | keyHash =>
    constructor
    · intro hnone
      by_cases hempty : registry.endpoints = []
      · exact hempty
      · obtain ⟨_, hsome⟩ := select_keyHash hempty key
        rw [hsome] at hnone
        cases hnone
    · intro hempty
      show registry.endpoints[_]? = none
      rw [hempty]
      rfl

/-- The first endpoint that was usable, whatever came later. -/
theorem head?_attemptAll (calls : List Endpoint) :
    (empty.attemptAll calls).2.endpoints.head? = calls.find? (·.Usable) := by
  have hhead (endpoints : List Endpoint) : endpoints.eraseDups.head? = endpoints.head? := by
    cases endpoints with
    | nil => rfl
    | cons endpoint endpoints =>
      rw [List.eraseDups_cons]
      rfl
  rw [endpoints_attemptAll, hhead, List.head?_filter]

/-- Of any attempts, a registry keeps the usable endpoints, each where it came first.  An attempt
fails on what is not usable or was tried before, and succeeds and changes the registry on all else.
A key is routed to no endpoint if there is none, else to the first that ever was, or to the one at
the index that the key's checksum gives, so that lists that are equal route it alike. -/
theorem registered_exact (calls : List Endpoint) :
    let registry := (empty.attemptAll calls).2
    registry.endpoints = (calls.filter (·.Usable)).eraseDups
      ∧ (empty.attemptAll calls).1.length = calls.length
      ∧ (∀ earlier endpoint later, calls = earlier ++ endpoint :: later →
        let before := (empty.attemptAll earlier).2
        let after := (empty.attemptAll (earlier ++ [endpoint])).2
        ∃ result, (empty.attemptAll calls).1[earlier.length]? = some result
          ∧ ((∃ fault, result = .error (.config fault)) ↔ ¬endpoint.Usable)
          ∧ (result = .error (.alreadyRegistered endpoint) ↔ endpoint.Usable ∧ endpoint ∈ earlier)
          ∧ (result = .ok () ↔ endpoint.Usable ∧ endpoint ∉ earlier)
          ∧ (after ≠ before ↔ result = .ok ()))
      ∧ (∀ policy key, (registry.select policy key = none ↔ registry.endpoints = [])
        ∧ ∀ endpoint, registry.select policy key = some endpoint → endpoint ∈ registry.endpoints)
      ∧ (∀ key, registry.select .first key = calls.find? (·.Usable)
        ∧ ∀ later endpoint, registry.select .first key = some endpoint →
          (empty.attemptAll (calls ++ later)).2.select .first key = some endpoint)
      ∧ (∀ key, registry.endpoints ≠ [] →
        ∃ hindex : (Routing.checksum key).toNat % registry.size < registry.endpoints.length,
          registry.select .keyHash key
            = some registry.endpoints[(Routing.checksum key).toNat % registry.size])
      ∧ ∀ others policy key, (empty.attemptAll others).2.endpoints = registry.endpoints →
        (empty.attemptAll others).2.select policy key = registry.select policy key := by
  intro registry
  refine ⟨endpoints_attemptAll calls, length_stepAll empty calls, ?_, ?_, ?_, ?_, ?_⟩
  · intro earlier endpoint later hcalls before after
    have hafter : after = (before.attempt endpoint).2 := stepAll_concat_snd ..
    have hresult : (empty.attemptAll calls).1[earlier.length]?
        = some (before.attempt endpoint).1 := by
      rw [hcalls]
      exact getElem?_stepAll ..
    have hmem : endpoint ∈ before.endpoints ↔ endpoint.Usable ∧ endpoint ∈ earlier :=
      mem_attemptAll
    refine ⟨_, hresult, ?_⟩
    rw [hafter]
    unfold attempt
    have hcases := before.registering endpoint
    generalize before.register endpoint = outcome at hcases
    cases hcases with
    | unusable fault husable => simp [husable]
    | known husable hknown => simp [hmem.1 hknown]
    | appended after husable hnew hendpoints =>
      have hfirst : endpoint ∉ earlier := fun h => hnew (hmem.2 ⟨husable, h⟩)
      have hchanged : after ≠ before := by
        intro heq
        have hlen := congrArg List.length hendpoints
        rw [heq, List.length_append, List.length_singleton] at hlen
        omega
      simp [husable, hfirst, hchanged]
  · intro policy key
    exact ⟨registry.select_eq_none_iff policy key, fun endpoint => Policy.mem_of_select⟩
  · intro key
    refine ⟨head?_attemptAll calls, ?_⟩
    intro later endpoint hselect
    rw [select_first, head?_attemptAll] at hselect ⊢
    rw [List.find?_append, hselect]
    rfl
  · intro key hsome
    exact select_keyHash hsome key
  · intro others policy key hsame
    unfold select
    rw [hsame]

/-- A host of blanks, a port of zero, and an endpoint that comes twice. -/
theorem registered_exact_twice :
    let calls : List Endpoint := [.tcp " " 1, .tipc 7, .udp "h" 0, .tipc 7, .sctp "h" 5]
    let registry := (empty.attemptAll calls).2
    registry.endpoints = [.tipc 7, .sctp "h" 5]
      ∧ (empty.attemptAll calls).1[3]? = some (.error (.alreadyRegistered (.tipc 7)))
      ∧ (empty.attemptAll (calls ++ [.tipc 1])).2.select .first [] = some (.tipc 7)
      ∧ (empty.attemptAll [.tipc 7, .sctp "h" 5]).2.select .keyHash []
        = registry.select .keyHash []
      ∧ registry.select .keyHash [] = some (.sctp "h" 5) := by
  intro calls registry
  obtain ⟨hlist, -, hcalls, -, hfirst, hhash, hothers⟩ := registered_exact calls
  have hendpoints : registry.endpoints = [.tipc 7, .sctp "h" 5] := hlist.trans (by decide +kernel)
  have hsame : (empty.attemptAll [.tipc 7, .sctp "h" 5]).2.endpoints = registry.endpoints := by
    decide +kernel
  refine ⟨hendpoints, ?_, ?_, hothers _ .keyHash [] hsame, ?_⟩
  · obtain ⟨result, hresult, -, hknown, -⟩ :=
      hcalls [.tcp " " 1, .tipc 7, .udp "h" 0] (.tipc 7) [.sctp "h" 5] rfl
    rw [← hknown.2 (by decide +kernel)]
    exact hresult
  · exact (hfirst []).2 [.tipc 1] (.tipc 7) ((hfirst []).1.trans (by decide +kernel))
  · obtain ⟨hindex, hselect⟩ := hhash [] (by rw [hendpoints]; decide)
    rw [← List.getElem?_eq_getElem hindex] at hselect
    exact hselect.trans (by decide +kernel)

end Registry

end TieredStore
