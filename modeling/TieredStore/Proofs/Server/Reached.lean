import TieredStore.Proofs.Server.Settings
import TieredStore.Proofs.Store.CacheQueue

/-!
# States that a server comes to

Whatever has been asked of a server since its start, it still has its limit, and its cache is what
insertions and removals have made of an empty one (`Server.Reached.exists_cache_run`).
-/

namespace TieredStore

/-- The states of servers that were started with some options and used in any way. -/
inductive Server.Reached (options : ServerOptions) : Server → Prop
  | start : Reached options (start options)
  | call {server : Server} (h : Reached options server) (call : ServerCall) :
    Reached options (server.call call).2
  | work {server : Server} (h : Reached options server) (jobs : Nat) :
    Reached options (server.work jobs)
  | flush {server : Server} (h : Reached options server) : Reached options server.flush
  | setReachable {server : Server} (h : Reached options server) (reachable : Bool) :
    Reached options { server with reachable }

/-- A request makes one step in the cache at most. -/
theorem PromptServer.cache_handle (server : PromptServer) (request : Request) :
    (server.handle request).2.cache = server.cache
      ∨ ∃ step, (server.handle request).2.cache = server.cache.step step := by
  have heffect := server.effect_handle request
  generalize server.handle request = outcome at heffect
  cases heffect with
  | kept reply counters => exact .inl rfl
  | @bound key reply value counters cacheOnly hsubject hcode => exact .inr ⟨.insert key value, rfl⟩
  | @unbound key reply counters hsubject hcode => exact .inr ⟨.erase key, rfl⟩

namespace Server.Reached

variable {options : ServerOptions} {server : Server}

theorem exists_cache_run (h : Reached options server) :
    ∃ steps, server.cache = (Cache.empty options.cacheCapacity).run steps := by
  have hstep {cache : Cache} (step : CacheStep)
      (hcache : ∃ steps, cache = (Cache.empty options.cacheCapacity).run steps) :
      ∃ steps, cache.step step = (Cache.empty options.cacheCapacity).run steps := by
    obtain ⟨steps, rfl⟩ := hcache
    exact ⟨steps ++ [step], (Cache.run_concat ..).symm⟩
  induction h with
  | start => exact ⟨[], rfl⟩
  | @call server _ call ih =>
    cases call with
    | request request =>
      show ∃ steps, (server.handle request).2.settle.cache = _
      rw [settle_handle_snd]
      rcases server.settle.cache_handle request with hkept | ⟨step, hcache⟩
      · rw [hkept]
        exact ih
      · rw [hcache]
        exact hstep step ih
    | evict key => exact hstep (.erase key) ih
  | work _ jobs ih => exact ih
  | flush _ ih => exact ih
  | setReachable _ reachable ih => exact ih

theorem sound (h : Reached options server) : server.cache.Sound := by
  obtain ⟨steps, hcache⟩ := h.exists_cache_run
  rw [hcache]
  exact Cache.sound_run options.cacheCapacity steps

theorem exists_lists (h : Reached options server) : ∃ pairs, server.cache.Lists pairs := by
  obtain ⟨steps, hcache⟩ := h.exists_cache_run
  rw [hcache]
  exact ⟨_, Cache.lists_run options.cacheCapacity steps⟩

theorem maxPayload_eq (h : Reached options server) : server.maxPayload = options.maxPayload := by
  induction h with
  | start => rfl
  | @call server _ call ih =>
    cases call with
    | request request => exact (maxPayload_handle server request).trans ih
    | evict key => exact ih
  | work _ jobs ih => exact ih
  | flush _ ih => exact ih
  | setReachable _ reachable ih => exact ih

theorem run (h : Reached options server) (events : List ServerEvent) :
    Reached options (server.run events).2 := by
  induction events generalizing server with
  | nil => exact h
  | cons event events ih =>
    cases event with
    | call call => exact ih (h.call call)
    | work jobs => exact ih (h.work jobs)

end Server.Reached

end TieredStore
