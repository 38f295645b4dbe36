import TieredStore.Proofs.Store.CacheView

/-!
# The room in a cache

A cache never holds more than its capacity, because its queue has every key that is bound, so that
there is always one to drop (`Cache.Sound`).  A key that is bound already takes no more room with
another value, and nothing is dropped for it (`Cache.Sound.get?_insert_self`).
-/

namespace TieredStore

/-! ## Sizes of tables -/

theorem length_bindEntry_of_lookup {key value old : Bytes} {entries : List (Bytes × Bytes)}
    (hsorted : entries.Pairwise (·.1 < ·.1)) (h : entries.lookup key = some old) :
    (bindEntry key value entries).length = entries.length := by
  induction entries with
  | nil => cases h
  | cons first rest ih =>
    obtain ⟨hfirst, hrest⟩ := List.pairwise_cons.1 hsorted
    rw [lookup_cons_eq_ite] at h
    rw [bindEntry]
    by_cases heq : key = first.1
    · rw [heq, if_neg (List.lt_irrefl first.1), if_pos rfl]
      rfl
    · rw [if_neg heq] at h
      -- the key is bound further on, so it is above the first
      have hlt : first.1 < key := by
        obtain ⟨before, after, rfl, -⟩ := List.lookup_eq_some_iff.1 h
        exact hfirst (key, old) (by simp)
      rw [if_pos hlt, List.length_cons, ih hrest h, List.length_cons]

namespace Table

theorem size_insert_of_get? {table : Table} {key old : Bytes} (h : table.get? key = some old)
    (value : Bytes) : (table.insert key value).size = table.size :=
  length_bindEntry_of_lookup table.sorted h

theorem size_erase_le (table : Table) (key : Bytes) : (table.erase key).size ≤ table.size :=
  List.length_filter_le ..

/-- Every key that is bound in the table is listed. -/
def KeysIn (table : Table) (keys : List Bytes) : Prop :=
  ∀ key, table.get? key ≠ none → key ∈ keys

theorem KeysIn.size_eq_zero {table : Table} (h : table.KeysIn []) : table.size = 0 := by
  obtain ⟨entries, sorted⟩ := table
  cases entries with
  | nil => rfl
  | cons first rest =>
    have hbound : get? ⟨first :: rest, sorted⟩ first.1 ≠ none := by
      unfold get?
      rw [lookup_cons_eq_ite, if_pos rfl]
      simp
    cases h first.1 hbound

theorem KeysIn.insert {table : Table} {key : Bytes} {keys more : List Bytes} (h : table.KeysIn keys)
    (hmore : keys ⊆ more) (hkey : key ∈ more) (value : Bytes) :
    (table.insert key value).KeysIn more := by
  intro other hbound
  rw [get?_insert] at hbound
  by_cases heq : other = key
  · rw [heq]
    exact hkey
  · rw [if_neg heq] at hbound
    exact hmore (h other hbound)

theorem KeysIn.erase_head {table : Table} {key : Bytes} {keys : List Bytes}
    (h : table.KeysIn (key :: keys)) : (table.erase key).KeysIn keys := by
  intro other hbound
  rw [get?_erase] at hbound
  by_cases heq : other = key
  · rw [if_pos heq] at hbound
    exact absurd rfl hbound
  · rw [if_neg heq] at hbound
    exact (List.mem_cons.1 (h other hbound)).resolve_left heq

end Table

/-! ## Dropping -/

/-- Where nothing has to be dropped, nothing is. -/
theorem dropOldest_of_le {capacity : Nat} {order : List Bytes} {entries : Table}
    (h : entries.size ≤ capacity) : dropOldest capacity order entries = (order, entries) := by
  cases order with
  | nil => rfl
  | cons oldest order => rw [dropOldest, if_pos h]

theorem dropOldest_sound (capacity : Nat) {order : List Bytes} {entries : Table}
    (h : entries.KeysIn order) :
    (dropOldest capacity order entries).2.KeysIn (dropOldest capacity order entries).1
      ∧ (dropOldest capacity order entries).2.size ≤ capacity := by
  induction order generalizing entries with
  | nil => exact ⟨h, by rw [dropOldest, h.size_eq_zero]; exact Nat.zero_le _⟩
  | cons oldest order ih =>
    by_cases hfits : entries.size ≤ capacity
    · rw [dropOldest_of_le hfits]
      exact ⟨h, hfits⟩
    · rw [dropOldest, if_neg hfits]
      exact ih h.erase_head

namespace Cache

/-- A cache in which every bound key waits in the queue, and which is not too full. -/
structure Sound (cache : Cache) : Prop where
  queued : cache.entries.KeysIn cache.order
  fits : ∀ capacity, cache.capacity = some capacity → cache.entries.size ≤ capacity

theorem sound_empty (capacity : Option Nat) : (empty capacity).Sound where
  queued _ h := absurd rfl h
  fits _ _ := Nat.zero_le _

theorem sound_shrink {cache : Cache} (h : cache.entries.KeysIn cache.order) :
    cache.shrink.Sound := by
  obtain ⟨entries, order, capacity⟩ := cache
  cases capacity with
  | none => exact ⟨h, fun _ hcapacity => nomatch hcapacity⟩
  | some capacity =>
    obtain ⟨hqueued, hfits⟩ := dropOldest_sound capacity h
    refine ⟨hqueued, ?_⟩
    rintro _ ⟨⟩
    exact hfits

namespace Sound

variable {cache : Cache}

theorem shrink_eq (h : cache.Sound) : cache.shrink = cache := by
  obtain ⟨entries, order, capacity⟩ := cache
  cases capacity with
  | none => rfl
  | some capacity =>
    unfold shrink
    simp only [dropOldest_of_le (h.fits capacity rfl)]

theorem mem_order (h : cache.Sound) {key shown : Bytes} (hshown : cache.get? key = some shown) :
    key ∈ cache.order :=
  h.queued key (Option.ne_none_iff_exists'.2 ⟨shown, hshown⟩)

theorem insert (h : cache.Sound) (key value : Bytes) : (cache.insert key value).Sound := by
  apply sound_shrink
  cases hshown : cache.get? key with
  | none => exact h.queued.insert (by simp) (by simp) value
  | some shown => exact h.queued.insert (by simp) (by simpa using h.mem_order hshown) value

theorem erase (h : cache.Sound) (key : Bytes) : (cache.erase key).Sound where
  queued other hbound := by
    have hbound : (cache.entries.erase key).get? other ≠ none := hbound
    rw [Table.get?_erase] at hbound
    by_cases heq : other = key
    · rw [if_pos heq] at hbound
      exact absurd rfl hbound
    · rw [if_neg heq] at hbound
      exact List.mem_filter.2 ⟨h.queued other hbound, by simpa using heq⟩
  fits capacity hcapacity :=
    Nat.le_trans (Table.size_erase_le cache.entries key) (h.fits capacity hcapacity)

/-- A new value for a key that is there drives nothing out. -/
theorem insert_of_get? (h : cache.Sound) {key old : Bytes} (hshown : cache.get? key = some old)
    (value : Bytes) :
    cache.insert key value = ⟨cache.entries.insert key value, cache.order, cache.capacity⟩ := by
  have hsound : Sound ⟨cache.entries.insert key value, cache.order, cache.capacity⟩ := by
    refine ⟨h.queued.insert (List.Subset.refl _) (h.mem_order hshown) value, ?_⟩
    intro capacity hcapacity
    change (cache.entries.insert key value).size ≤ capacity
    rw [Table.size_insert_of_get? hshown]
    exact h.fits capacity hcapacity
  unfold Cache.insert
  rw [if_pos (by rw [hshown]; rfl), hsound.shrink_eq]

/-- It stays, however small the cache is. -/
theorem get?_insert_self (h : cache.Sound) {key old : Bytes} (hshown : cache.get? key = some old)
    (value : Bytes) : (cache.insert key value).get? key = some value := by
  rw [h.insert_of_get? hshown]
  change (cache.entries.insert key value).get? key = some value
  rw [Table.get?_insert, if_pos rfl]

end Sound

end Cache

end TieredStore
