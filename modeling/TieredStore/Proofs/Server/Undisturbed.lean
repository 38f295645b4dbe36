import TieredStore.Proofs.Server.Effect
import TieredStore.Proofs.Server.Tiers

/-!
# Keys that a request is not about

A request is about the value of one key at most.  It may use the room that another key has in the
cache, and is not to be seen in any other way by whoever asks for that key (`undisturbed_handle`).
-/

namespace TieredStore

/-- A key is as it was before, but that a cache with a limit may have dropped it. -/
structure Undisturbed (key : Bytes) (before after : PromptServer) : Prop where
  stored : after.table.get? key = before.table.get? key
  shown : after.cache.get? key = before.cache.get? key
    ∨ before.cache.capacity ≠ none ∧ after.cache.get? key = none
  capacity : after.cache.capacity = before.cache.capacity

namespace Undisturbed

variable {key : Bytes} {before between after server : PromptServer}

/-- Only the tiers count. -/
theorem of_tiers (hcache : after.cache = before.cache) (htable : after.table = before.table) :
    Undisturbed key before after := by
  refine ⟨?_, .inl ?_, ?_⟩
  · rw [htable]
  · rw [hcache]
  · rw [hcache]

theorem trans (h : Undisturbed key before between) (h' : Undisturbed key between after) :
    Undisturbed key before after := by
  refine ⟨h'.stored.trans h.stored, ?_, h'.capacity.trans h.capacity⟩
  rcases h'.shown with hsame | ⟨hlimit, hgone⟩
  · rw [hsame]
    exact h.shown
  · rw [h.capacity] at hlimit
    exact .inr ⟨hlimit, hgone⟩

theorem bind {bound : Bytes} (h : key ≠ bound) (server : PromptServer) (value : Bytes)
    (cacheOnly : Bool) : Undisturbed key server (server.bind bound value cacheOnly) := by
  refine ⟨?_, ?_, Cache.capacity_insert ..⟩
  · cases cacheOnly with
    | true => rfl
    | false =>
      change (server.table.insert bound value).get? key = _
      rw [Table.get?_insert, if_neg h]
  · have hinsert := server.cache.get?_insert bound value key
    rwa [if_neg h] at hinsert

theorem unbind {gone : Bytes} (h : key ≠ gone) (server : PromptServer) (cacheOnly : Bool) :
    Undisturbed key server (server.unbind gone cacheOnly) := by
  refine ⟨?_, .inl ?_, rfl⟩
  · cases cacheOnly with
    | true => rfl
    | false =>
      change (server.table.erase gone).get? key = _
      rw [Table.get?_erase, if_neg h]
  · change (server.cache.erase gone).get? key = _
    rw [Cache.get?_erase, if_neg h]

theorem holds (h : Undisturbed key before after) {value : Option Bytes}
    (hholds : before.Holds key value) : after.Holds key value := by
  refine ⟨h.stored.trans hholds.stored, ?_⟩
  intro shown hshown
  rcases h.shown with hsame | ⟨-, hgone⟩
  · exact hholds.fresh shown (hsame.symm.trans hshown)
  · rw [hgone] at hshown
    cases hshown

end Undisturbed

namespace PromptServer

theorem undisturbed_handle {key : Bytes} (server : PromptServer) (request : Request)
    (h : request.command.subject? ≠ some key) :
    Undisturbed key server (server.handle request).2 := by
  have hcounted (counters : Counters) : Undisturbed key server { server with counters } :=
    .of_tiers rfl rfl
  have heffect := server.effect_handle request
  generalize server.handle request = outcome at heffect
  cases heffect with
  | kept reply counters => exact hcounted counters
  | bound value counters cacheOnly hsubject hcode =>
    exact (hcounted counters).trans (.bind (Command.ne_of_subject? h hsubject) ..)
  | unbound counters hsubject hcode =>
    exact (hcounted counters).trans (.unbind (Command.ne_of_subject? h hsubject) ..)

end PromptServer

end TieredStore
