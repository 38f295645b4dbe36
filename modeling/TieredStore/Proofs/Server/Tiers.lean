import TieredStore.Proofs.Server.Prompt
import TieredStore.Proofs.Store.CacheView

/-!
# Tiers that agree

The two tiers of a server agree on a key when the cache shows nothing but what the database has.
All that touches both tiers keeps it so, for the key that it is about and for all others, which the
cache may lose in the course of it.
-/

namespace TieredStore

namespace PromptServer

/-- The database has this value for a key, or none, and the cache shows no other. -/
structure Holds (server : PromptServer) (key : Bytes) (value : Option Bytes) : Prop where
  stored : server.table.get? key = value
  fresh : ∀ shown, server.cache.get? key = some shown → value = some shown

variable {server : PromptServer} {key : Bytes} {value : Option Bytes}

theorem holds_start (options : ServerOptions) (key : Bytes) : (start options).Holds key none := by
  refine ⟨rfl, ?_⟩
  intro shown h
  cases h

theorem Holds.tally (h : server.Holds key value) (event : Counters → Counters) :
    (server.tally event).Holds key value :=
  ⟨h.stored, h.fresh⟩

theorem Holds.current_eq (h : server.Holds key value) : server.current key false = value := by
  unfold current
  cases hshown : server.cache.get? key with
  | none => exact h.stored
  | some shown => exact (h.fresh shown hshown).symm

/-- The cache cannot have what the database does not have. -/
theorem Holds.hidden (h : server.Holds key none) : server.cache.get? key = none := by
  cases hshown : server.cache.get? key with
  | none => rfl
  | some shown => cases h.fresh shown hshown

theorem Holds.evict (h : server.Holds key value) (dropped : Bytes) :
    (server.evict dropped).2.Holds key value := by
  refine ⟨h.stored, ?_⟩
  intro shown hshown
  apply h.fresh
  have herase : (server.cache.erase dropped).get? key = some shown := hshown
  rw [Cache.get?_erase] at herase
  by_cases heq : key = dropped
  · rw [if_pos heq] at herase
    cases herase
  · rwa [if_neg heq] at herase

/-- Whatever the tiers had before, they agree on a key that is bound in both. -/
theorem holds_bind (server : PromptServer) (key value : Bytes) :
    (server.bind key value false).Holds key (some value) := by
  constructor
  · change (server.table.insert key value).get? key = some value
    rw [Table.get?_insert, if_pos rfl]
  -- the cache may be too small for the value; what it shows is the value all the same
  · intro shown hshown
    have hinsert := Cache.get?_of_get?_insert hshown
    rwa [if_pos rfl] at hinsert

theorem holds_unbind (server : PromptServer) (key : Bytes) :
    (server.unbind key false).Holds key none := by
  constructor
  · change (server.table.erase key).get? key = none
    rw [Table.get?_erase, if_pos rfl]
  · intro shown hshown
    have herase : (server.cache.erase key).get? key = some shown := hshown
    rw [Cache.get?_erase, if_pos rfl] at herase
    cases herase

theorem Holds.bind (h : server.Holds key value) (bound new : Bytes) :
    (server.bind bound new false).Holds key (if key = bound then some new else value) := by
  by_cases heq : key = bound
  · rw [if_pos heq, heq]
    exact server.holds_bind bound new
  · rw [if_neg heq]
    constructor
    · change (server.table.insert bound new).get? key = value
      rw [Table.get?_insert, if_neg heq]
      exact h.stored
    · intro shown hshown
      have hcache := Cache.get?_of_get?_insert hshown
      rw [if_neg heq] at hcache
      exact h.fresh shown hcache

theorem Holds.unbind (h : server.Holds key value) (gone : Bytes) :
    (server.unbind gone false).Holds key (if key = gone then none else value) := by
  by_cases heq : key = gone
  · rw [if_pos heq, heq]
    exact server.holds_unbind gone
  · rw [if_neg heq]
    constructor
    · change (server.table.erase gone).get? key = value
      rw [Table.get?_erase, if_neg heq]
      exact h.stored
    · intro shown hshown
      have hcache : (server.cache.erase gone).get? key = some shown := hshown
      rw [Cache.get?_erase, if_neg heq] at hcache
      exact h.fresh shown hcache

/-- A read caches what the database has, so it makes no difference to anyone. -/
theorem Holds.get (h : server.Holds key value) (id : UInt32) (read : Bytes) (cacheOnly : Bool) :
    (server.get id read cacheOnly).2.Holds key value := by
  unfold PromptServer.get
  cases server.cache.get? read with
  | some shown => exact ⟨h.stored, h.fresh⟩
  | none =>
    cases cacheOnly with
    | true => exact ⟨h.stored, h.fresh⟩
    | false =>
      simp only [Bool.false_eq_true, if_false]
      cases hread : (server.tally _).table.get? read with
      | none => exact ⟨h.stored, h.fresh⟩
      | some found =>
        -- what is put into the cache was read from the database in this step
        refine ⟨h.stored, ?_⟩
        intro shown hshown
        have hcache := Cache.get?_of_get?_insert hshown
        by_cases heq : key = read
        · rw [if_pos heq] at hcache
          rw [← h.stored, heq]
          exact hread.trans hcache
        · rw [if_neg heq] at hcache
          exact h.fresh shown hcache

end PromptServer

end TieredStore
