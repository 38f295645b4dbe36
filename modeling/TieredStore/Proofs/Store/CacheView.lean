import TieredStore.Store.Cache

/-!
# What a cache shows

A cache may lose entries at any time, but it does not make any up: what it shows of a key was put
there, and no later.
-/

namespace TieredStore

theorem get?_of_get?_dropOldest {capacity : Nat} {order : List Bytes} {entries : Table}
    {key value : Bytes} (h : (dropOldest capacity order entries).2.get? key = some value) :
    entries.get? key = some value := by
  induction order generalizing entries with
  | nil => exact h
  | cons oldest order ih =>
    unfold dropOldest at h
    by_cases hfits : entries.size ≤ capacity
    · rwa [if_pos hfits] at h
    -- the oldest key is gone, so it is not the one that is shown
    · rw [if_neg hfits] at h
      have herased := ih h
      rw [Table.get?_erase] at herased
      by_cases heq : key = oldest
      · rw [if_pos heq] at herased
        cases herased
      · rwa [if_neg heq] at herased

namespace Cache

theorem get?_of_get?_shrink {cache : Cache} {key value : Bytes}
    (h : cache.shrink.get? key = some value) : cache.get? key = some value := by
  obtain ⟨entries, order, capacity⟩ := cache
  cases capacity with
  | none => exact h
  | some capacity => exact get?_of_get?_dropOldest h

/-- A new entry is shown or has been driven out already, and so are the others. -/
theorem get?_of_get?_insert {cache : Cache} {key value other shown : Bytes}
    (h : (cache.insert key value).get? other = some shown) :
    (if other = key then some value else cache.get? other) = some shown := by
  unfold insert at h
  have hentries := get?_of_get?_shrink h
  unfold get? at hentries
  rwa [Table.get?_insert] at hentries

theorem get?_erase (cache : Cache) (key other : Bytes) :
    (cache.erase key).get? other = if other = key then none else cache.get? other :=
  Table.get?_erase cache.entries key other

/-! ## Room -/

theorem capacity_shrink (cache : Cache) : cache.shrink.capacity = cache.capacity := by
  obtain ⟨entries, order, capacity⟩ := cache
  cases capacity with
  | none => rfl
  | some capacity => rfl

theorem capacity_insert (cache : Cache) (key value : Bytes) :
    (cache.insert key value).capacity = cache.capacity :=
  capacity_shrink _

/-- Only a cache with a limit drops entries. -/
theorem get?_shrink (cache : Cache) (key : Bytes) :
    cache.shrink.get? key = cache.get? key
      ∨ cache.capacity ≠ none ∧ cache.shrink.get? key = none := by
  cases hshown : cache.shrink.get? key with
  | some value => exact .inl (get?_of_get?_shrink hshown).symm
  | none =>
    cases hcapacity : cache.capacity with
    | none =>
      have hsame : cache.shrink = cache := by
        unfold shrink
        simp only [hcapacity]
      rw [← hshown, hsame]
      exact .inl rfl
    | some capacity => exact .inr ⟨by simp, rfl⟩

theorem get?_insert (cache : Cache) (key value other : Bytes) :
    (cache.insert key value).get? other = (if other = key then some value else cache.get? other)
      ∨ cache.capacity ≠ none ∧ (cache.insert key value).get? other = none := by
  unfold insert
  rcases get?_shrink _ other with hsame | hgone
  · left
    rw [hsame]
    exact Table.get?_insert cache.entries key value other
  · exact .inr hgone

end Cache

end TieredStore
