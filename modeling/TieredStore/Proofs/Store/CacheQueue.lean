import Mathlib.Data.List.Induction
import Mathlib.Data.List.Nodup
import TieredStore.Proofs.Store.CacheRoom

/-!
# The cache as a queue of pairs

A cache is a table with a queue of keys beside it.  The two are kept in step by all that is done to
it, so that together they are one list of pairs, the oldest first (`Cache.Lists`).  What insertion
and removal do to a cache is what they do to this list (`Cache.first_in_first_out`).
-/

namespace TieredStore

/-! ## Lists of pairs -/

/-- Drops pairs from the front until no more are left than fit. -/
def fitting (capacity : Option Nat) (pairs : List (Bytes × Bytes)) : List (Bytes × Bytes) :=
  match capacity with
  | none => pairs
  | some capacity => pairs.drop (pairs.length - capacity)

/-- Changes the value of a key in its place.  A new key is put at the end, and what does not fit any
more is dropped. -/
def enqueue (capacity : Option Nat) (key value : Bytes) (pairs : List (Bytes × Bytes)) :
    List (Bytes × Bytes) :=
  if (pairs.lookup key).isSome then
    pairs.map fun pair => if pair.1 = key then (pair.1, value) else pair
  else fitting capacity (pairs ++ [(key, value)])

/-- What is done to a cache. -/
inductive CacheStep where
  | insert (key value : Bytes)
  | erase (key : Bytes)
  deriving DecidableEq, Repr

/-- The same, done to a list of pairs. -/
def CacheStep.onPairs (capacity : Option Nat) (pairs : List (Bytes × Bytes)) :
    CacheStep → List (Bytes × Bytes)
  | .insert key value => enqueue capacity key value pairs
  | .erase key => pairs.filter (·.1 ≠ key)

theorem lookup_eq_none_iff_not_mem {pairs : List (Bytes × Bytes)} {key : Bytes} :
    pairs.lookup key = none ↔ key ∉ pairs.map (·.1) := by
  rw [List.lookup_eq_none_iff, List.mem_map]
  constructor
  · rintro h ⟨pair, hpair, rfl⟩
    simpa using h pair hpair
  · intro h pair hpair
    rw [bne_iff_ne]
    exact fun heq => h ⟨pair, hpair, heq.symm⟩

theorem lookup_eq_some_iff_mem {pairs : List (Bytes × Bytes)} (h : (pairs.map (·.1)).Nodup)
    {key value : Bytes} : pairs.lookup key = some value ↔ (key, value) ∈ pairs := by
  induction pairs with
  | nil => simp
  | cons pair rest ih =>
    rw [List.map_cons, List.nodup_cons] at h
    rw [lookup_cons_eq_ite, List.mem_cons]
    by_cases heq : key = pair.1
    · -- no other pair has this key
      have hrest : (key, value) ∉ rest := by
        intro hmem
        exact h.1 (heq ▸ List.mem_map_of_mem hmem)
      simp [heq, Prod.ext_iff, heq ▸ hrest, eq_comm]
    · simp [heq, ih h.2, Prod.ext_iff]

theorem lookup_concat {pairs : List (Bytes × Bytes)} {key : Bytes} (h : pairs.lookup key = none)
    (value other : Bytes) :
    (pairs ++ [(key, value)]).lookup other
      = if other = key then some value else pairs.lookup other := by
  rw [List.lookup_append, lookup_cons_eq_ite]
  by_cases heq : other = key
  · rw [if_pos heq, if_pos heq, heq, h, Option.none_or]
  · rw [if_neg heq, if_neg heq, List.lookup_nil, Option.or_none]

theorem map_fst_replace (pairs : List (Bytes × Bytes)) (key value : Bytes) :
    (pairs.map fun pair => if pair.1 = key then (pair.1, value) else pair).map (·.1)
      = pairs.map (·.1) := by
  rw [List.map_map]
  apply List.map_congr_left
  intro pair _
  show (if pair.1 = key then (pair.1, value) else pair).1 = pair.1
  split
  · rfl
  · rfl

theorem fitting_of_le {capacity : Option Nat} {pairs : List (Bytes × Bytes)}
    (h : ∀ limit, capacity = some limit → pairs.length ≤ limit) :
    fitting capacity pairs = pairs := by
  cases capacity with
  | none => rfl
  | some limit =>
    show pairs.drop (pairs.length - limit) = pairs
    rw [Nat.sub_eq_zero_of_le (h limit rfl), List.drop_zero]

/-- One pair too many. -/
theorem fitting_of_length_eq {limit : Nat} {pairs : List (Bytes × Bytes)}
    (h : pairs.length = limit + 1) : fitting (some limit) pairs = pairs.tail := by
  show pairs.drop (pairs.length - limit) = pairs.tail
  rw [h, Nat.add_sub_cancel_left, List.drop_one]

theorem enqueue_of_new {capacity : Option Nat} {key : Bytes} {pairs : List (Bytes × Bytes)}
    (h : pairs.lookup key = none) (value : Bytes) :
    enqueue capacity key value pairs = fitting capacity (pairs ++ [(key, value)]) := by
  rw [enqueue, h]
  rfl

theorem enqueue_of_some {capacity : Option Nat} {key old : Bytes} {pairs : List (Bytes × Bytes)}
    (h : pairs.lookup key = some old) (value : Bytes) :
    enqueue capacity key value pairs
      = pairs.map fun pair => if pair.1 = key then (pair.1, value) else pair := by
  rw [enqueue, h]
  rfl

/-! ## Caches as lists of pairs -/

/-- Dropping comes to the end of the queue while there are still too many entries. -/
inductive RunsDry (capacity : Nat) : List Bytes → Table → Prop where
  | empty {entries : Table} (h : capacity < entries.size) : RunsDry capacity [] entries
  | drop {oldest : Bytes} {order : List Bytes} {entries : Table} (h : capacity < entries.size)
      (hrest : RunsDry capacity order (entries.erase oldest)) :
    RunsDry capacity (oldest :: order) entries

/-- Dropping ends with too many entries only where the queue has come to its end. -/
theorem runsDry_iff {capacity : Nat} {order : List Bytes} {entries : Table} :
    RunsDry capacity order entries ↔ capacity < (dropOldest capacity order entries).2.size := by
  induction order generalizing entries with
  | nil =>
    constructor
    · intro h
      cases h with
      | empty h => exact h
    · exact .empty
  | cons oldest order ih =>
    rw [dropOldest]
    by_cases hfits : entries.size ≤ capacity
    · rw [if_pos hfits]
      constructor
      · intro h
        cases h with
        | drop h hrest => exact absurd hfits (Nat.not_le.2 h)
      · intro h
        exact absurd hfits (Nat.not_le.2 h)
    · rw [if_neg hfits, ← ih]
      constructor
      · intro h
        cases h with
        | drop h hrest => exact hrest
      · exact .drop (Nat.lt_of_not_le hfits)

namespace Cache

def step (cache : Cache) : CacheStep → Cache
  | .insert key value => cache.insert key value
  | .erase key => cache.erase key

def run (cache : Cache) (steps : List CacheStep) : Cache :=
  steps.foldl step cache

/-- The cache with a new entry, before anything is dropped. -/
def enroll (cache : Cache) (key value : Bytes) : Cache :=
  ⟨cache.entries.insert key value,
    if (cache.get? key).isSome then cache.order else cache.order ++ [key], cache.capacity⟩

theorem insert_eq_shrink (cache : Cache) (key value : Bytes) :
    cache.insert key value = (cache.enroll key value).shrink := rfl

/-- A cache has these entries, the oldest first. -/
structure Lists (cache : Cache) (pairs : List (Bytes × Bytes)) : Prop where
  order_eq : cache.order = pairs.map (·.1)
  nodup : (pairs.map (·.1)).Nodup
  get?_eq : ∀ key, cache.get? key = pairs.lookup key

/-- A new key has come into a full cache in place of the oldest one; no other key is affected. -/
structure Displaced (before after : Cache) (oldest new : Bytes) : Prop where
  absent : before.get? new = none
  full : before.capacity = some before.entries.size
  order : ∃ rest, before.order = oldest :: rest ∧ after.order = rest ++ [new]
  present : after.get? new ≠ none
  others : ∀ key, key ≠ new →
    after.get? key = if key = oldest then none else before.get? key

namespace Lists

variable {cache : Cache} {pairs : List (Bytes × Bytes)}

theorem perm (h : cache.Lists pairs) : cache.entries.entries.Perm pairs := by
  -- the table has its keys in ascending order, so it has none of them twice
  have hkeys : (cache.entries.entries.map (·.1)).Nodup := by
    rw [List.Nodup, List.pairwise_map]
    apply cache.entries.sorted.imp
    intro a b hlt heq
    exact List.lt_irrefl b.1 (heq ▸ hlt)
  rw [List.perm_ext_iff_of_nodup (List.Nodup.of_map _ hkeys) (List.Nodup.of_map _ h.nodup)]
  intro pair
  rw [← lookup_eq_some_iff_mem hkeys, ← lookup_eq_some_iff_mem h.nodup]
  show cache.get? pair.1 = some pair.2 ↔ _
  rw [h.get?_eq]

theorem size_eq (h : cache.Lists pairs) : cache.entries.size = pairs.length :=
  h.perm.length_eq

theorem mem_order_iff (h : cache.Lists pairs) {key : Bytes} :
    key ∈ cache.order ↔ cache.get? key ≠ none := by
  rw [h.order_eq, h.get?_eq, ne_eq, lookup_eq_none_iff_not_mem, Classical.not_not]

theorem order_nodup (h : cache.Lists pairs) : cache.order.Nodup := by
  rw [h.order_eq]
  exact h.nodup

/-- Each round of dropping takes the first pair of the list. -/
theorem dropOldest {order : List Bytes} {entries : Table} {capacity : Option Nat}
    (h : Lists ⟨entries, order, capacity⟩ pairs) (limit : Nat) :
    Lists ⟨(TieredStore.dropOldest limit order entries).2,
      (TieredStore.dropOldest limit order entries).1, capacity⟩ (fitting (some limit) pairs) := by
  -- on the list, since dropping recurses on the queue, which has the keys of the list
  induction pairs generalizing order entries with
  | nil =>
    obtain rfl : order = [] := h.order_eq
    have hnil : fitting (some limit) [] = [] := List.drop_nil
    rw [hnil]
    exact h
  | cons pair rest ih =>
    obtain rfl : order = pair.1 :: rest.map (·.1) := h.order_eq
    have hsize : entries.size = rest.length + 1 := h.size_eq
    rw [TieredStore.dropOldest]
    by_cases hfits : entries.size ≤ limit
    · rw [if_pos hfits, fitting_of_le]
      · exact h
      · rintro _ ⟨⟩
        rw [List.length_cons, ← hsize]
        exact hfits
    · rw [if_neg hfits]
      have hfirst := List.nodup_cons.1 h.nodup
      have hrest : Lists ⟨entries.erase pair.1, rest.map (·.1), capacity⟩ rest := by
        refine ⟨rfl, hfirst.2, ?_⟩
        intro key
        have hshown : entries.get? key = (pair :: rest).lookup key := h.get?_eq key
        show (entries.erase pair.1).get? key = _
        rw [Table.get?_erase, hshown, lookup_cons_eq_ite]
        by_cases heq : key = pair.1
        · rw [if_pos heq, heq]
          exact (lookup_eq_none_iff_not_mem.2 hfirst.1).symm
        · rw [if_neg heq, if_neg heq]
      -- the list is too long by the same number as the table is too large
      have hfitting : fitting (some limit) (pair :: rest) = fitting (some limit) rest := by
        show (pair :: rest).drop (rest.length + 1 - limit) = rest.drop (rest.length - limit)
        rw [Nat.succ_sub (by omega), List.drop_succ_cons]
      rw [hfitting]
      exact ih hrest

theorem shrink (h : cache.Lists pairs) : cache.shrink.Lists (fitting cache.capacity pairs) := by
  obtain ⟨entries, order, capacity⟩ := cache
  cases capacity with
  | none => exact h
  | some limit => exact h.dropOldest limit

theorem enroll (h : cache.Lists pairs) {key : Bytes} (hnew : cache.get? key = none)
    (value : Bytes) : (cache.enroll key value).Lists (pairs ++ [(key, value)]) := by
  have hlookup : pairs.lookup key = none := (h.get?_eq key).symm.trans hnew
  unfold Cache.enroll
  rw [hnew]
  refine ⟨?_, ?_, ?_⟩
  · show cache.order ++ [key] = _
    rw [h.order_eq, List.map_append]
    rfl
  · rw [List.map_append, List.nodup_append]
    have hkey := lookup_eq_none_iff_not_mem.1 hlookup
    refine ⟨h.nodup, List.pairwise_singleton .., ?_⟩
    intro other hother last hlast heq
    rw [List.map_singleton, List.mem_singleton] at hlast
    rw [heq, hlast] at hother
    exact hkey hother
  · intro other
    show (cache.entries.insert key value).get? other = _
    rw [Table.get?_insert, lookup_concat hlookup, ← h.get?_eq]
    rfl

theorem insert (h : cache.Lists pairs) (hsound : cache.Sound) (key value : Bytes) :
    (cache.insert key value).Lists (enqueue cache.capacity key value pairs) := by
  cases hshown : cache.get? key with
  | none =>
    rw [enqueue_of_new ((h.get?_eq key).symm.trans hshown), insert_eq_shrink]
    exact (h.enroll hshown value).shrink
  | some old =>
    -- nothing is dropped, and the queue stays as it is
    rw [enqueue_of_some ((h.get?_eq key).symm.trans hshown), hsound.insert_of_get? hshown]
    refine ⟨?_, ?_, ?_⟩
    · rw [map_fst_replace]
      exact h.order_eq
    · rw [map_fst_replace]
      exact h.nodup
    · intro other
      show (cache.entries.insert key value).get? other = _
      rw [Table.get?_insert, lookup_replace, ← h.get?_eq]
      by_cases heq : other = key
      · simp [heq, hshown]
      · simp [heq, get?]

theorem erase (h : cache.Lists pairs) (key : Bytes) :
    (cache.erase key).Lists (pairs.filter (·.1 ≠ key)) := by
  refine ⟨?_, ?_, ?_⟩
  · show cache.order.filter (· ≠ key) = _
    rw [h.order_eq, List.filter_map]
    rfl
  · exact h.nodup.sublist (List.filter_sublist.map _)
  · intro other
    rw [lookup_filter_ne, Cache.get?_erase, h.get?_eq]

/-- A cache that does not have a key is not changed by its removal. -/
theorem erase_of_get?_eq_none (h : cache.Lists pairs) {key : Bytes}
    (hnone : cache.get? key = none) : cache.erase key = cache := by
  have hkey : key ∉ cache.order := fun hmem => h.mem_order_iff.1 hmem hnone
  have horder : cache.order.filter (· ≠ key) = cache.order := by
    rw [List.filter_eq_self]
    intro other hother
    exact decide_eq_true fun heq => hkey (heq ▸ hother)
  unfold Cache.erase
  rw [horder, Table.erase_of_get?_eq_none hnone]

theorem insert_of_room (h : cache.Lists pairs) (hsound : cache.Sound) {key : Bytes}
    (hnew : cache.get? key = none) (value : Bytes)
    (hroom : ∀ limit, cache.capacity = some limit → pairs.length < limit) :
    (cache.insert key value).Lists (pairs ++ [(key, value)]) := by
  have hinsert := h.insert hsound key value
  rw [enqueue_of_new ((h.get?_eq key).symm.trans hnew), fitting_of_le] at hinsert
  · exact hinsert
  · intro limit hlimit
    rw [List.length_append]
    exact hroom limit hlimit

theorem insert_of_full (h : cache.Lists pairs) (hsound : cache.Sound) {key : Bytes}
    (hnew : cache.get? key = none) (value : Bytes) (hfull : cache.capacity = some pairs.length) :
    (cache.insert key value).Lists (pairs ++ [(key, value)]).tail := by
  have hinsert := h.insert hsound key value
  rw [enqueue_of_new ((h.get?_eq key).symm.trans hnew), hfull, fitting_of_length_eq] at hinsert
  · exact hinsert
  · rw [List.length_append, List.length_singleton]

/-- A new key drives out the oldest one of a full cache, and no other. -/
theorem insert_evicts (h : cache.Lists pairs) (hsound : cache.Sound) {key oldest : Bytes}
    {rest : List Bytes} (hnew : cache.get? key = none) (value : Bytes)
    (horder : cache.order = oldest :: rest) (hfull : cache.capacity = some cache.entries.size) :
    (cache.insert key value).order = rest ++ [key]
      ∧ ∀ other, (cache.insert key value).get? other
        = if other = key then some value else if other = oldest then none else cache.get? other := by
  rw [h.size_eq] at hfull
  have hinsert := h.insert_of_full hsound hnew value hfull
  cases pairs with
  | nil =>
    rw [h.order_eq] at horder
    cases horder
  | cons pair tail =>
    rw [h.order_eq] at horder
    obtain ⟨rfl, rfl⟩ := List.cons.inj horder
    have hgone : tail.lookup pair.1 = none :=
      lookup_eq_none_iff_not_mem.2 (List.nodup_cons.1 h.nodup).1
    -- the new key is not that of the oldest pair either, since the cache does not have it
    have hnone : (pair :: tail).lookup key = none := (h.get?_eq key).symm.trans hnew
    rw [lookup_cons_eq_ite] at hnone
    split at hnone
    · cases hnone
    · rw [List.cons_append, List.tail_cons] at hinsert
      constructor
      · rw [hinsert.order_eq, List.map_append]
        rfl
      · intro other
        rw [hinsert.get?_eq, lookup_concat hnone, h.get?_eq, lookup_cons_eq_ite]
        by_cases heq : other = pair.1
        · rw [if_pos heq, heq, hgone]
        · rw [if_neg heq, if_neg heq]

/-- Only a full cache drops another key for a new one: its oldest, and that alone. -/
theorem displaced (h : cache.Lists pairs) (hsound : cache.Sound) {key dropped : Bytes}
    (value : Bytes) (hne : dropped ≠ key) (hthere : cache.get? dropped ≠ none)
    (hgone : (cache.insert key value).get? dropped = none) :
    cache.Displaced (cache.insert key value) dropped key := by
  cases hshown : cache.get? key with
  | some old =>
    rw [hsound.insert_of_get? hshown] at hgone
    change (cache.entries.insert key value).get? dropped = none at hgone
    rw [Table.get?_insert, if_neg hne] at hgone
    exact absurd hgone hthere
  | none =>
    by_cases hfull : cache.capacity = some cache.entries.size
    · obtain ⟨oldest, rest, horder⟩ := List.exists_cons_of_ne_nil
        (List.ne_nil_of_mem (h.mem_order_iff.2 hthere))
      obtain ⟨hafter, hget⟩ := h.insert_evicts hsound hshown value horder hfull
      -- the oldest key is the only one that goes, so it is this one
      have holdest : dropped = oldest := by
        have hdropped := hget dropped
        rw [hgone, if_neg hne] at hdropped
        split at hdropped
        · assumption
        · exact absurd hdropped.symm hthere
      subst holdest
      refine ⟨hshown, hfull, ⟨rest, horder, hafter⟩, ?_, ?_⟩
      · rw [hget key, if_pos rfl]
        exact Option.some_ne_none value
      · intro other hother
        rw [hget other, if_neg hother]
    · have hroom : ∀ limit, cache.capacity = some limit → pairs.length < limit := by
        intro limit hlimit
        have hfits := hsound.fits limit hlimit
        rw [h.size_eq] at hfits hfull
        apply Nat.lt_of_le_of_ne hfits
        intro heq
        exact hfull (hlimit.trans (congrArg some heq.symm))
      have hinsert := h.insert_of_room hsound hshown value hroom
      rw [hinsert.get?_eq, lookup_concat ((h.get?_eq key).symm.trans hshown), if_neg hne,
        ← h.get?_eq] at hgone
      exact absurd hgone hthere

/-- A key that is removed and inserted again is the newest. -/
theorem order_insert_erase (h : cache.Lists pairs) (hsound : cache.Sound) {key old : Bytes}
    (hshown : cache.get? key = some old) (value : Bytes) :
    ((cache.erase key).insert key value).order = cache.order.filter (· ≠ key) ++ [key] := by
  have hgone : (cache.erase key).get? key = none := by
    rw [Cache.get?_erase, if_pos rfl]
  have hmem : (key, old) ∈ pairs :=
    (lookup_eq_some_iff_mem h.nodup).1 ((h.get?_eq key).symm.trans hshown)
  -- its removal has made room for it
  have hshorter : (pairs.filter (·.1 ≠ key)).length < pairs.length := by
    rw [List.length_filter_lt_length_iff_exists]
    exact ⟨(key, old), hmem, by simp⟩
  have hinsert := (h.erase key).insert_of_room (hsound.erase key) hgone value
  rw [Lists.order_eq (hinsert _), List.map_append, ← (h.erase key).order_eq]
  · rfl
  · intro limit hlimit
    have hfits := hsound.fits limit hlimit
    rw [h.size_eq] at hfits
    omega

end Lists

/-- Insertion always finds a key to drop where one has to go. -/
theorem Sound.not_runsDry {cache : Cache} (h : cache.Sound) {limit : Nat}
    (hlimit : cache.capacity = some limit) (key value : Bytes) :
    ¬RunsDry limit (cache.enroll key value).order (cache.enroll key value).entries := by
  have hfits := (h.insert key value).fits limit ((cache.capacity_insert key value).trans hlimit)
  rw [runsDry_iff, Nat.not_lt]
  rw [insert_eq_shrink] at hfits
  unfold shrink enroll at hfits
  simp only [hlimit] at hfits
  exact hfits

theorem lists_empty (capacity : Option Nat) : (empty capacity).Lists [] :=
  ⟨rfl, List.nodup_nil, fun _ => rfl⟩

/-! ## Runs -/

theorem capacity_step (cache : Cache) (step : CacheStep) :
    (cache.step step).capacity = cache.capacity := by
  cases step with
  | insert key value => exact cache.capacity_insert key value
  | erase key => rfl

theorem Sound.step {cache : Cache} (h : cache.Sound) (step : CacheStep) :
    (cache.step step).Sound := by
  cases step with
  | insert key value => exact h.insert key value
  | erase key => exact h.erase key

theorem Lists.step {cache : Cache} {pairs : List (Bytes × Bytes)} (h : cache.Lists pairs)
    (hsound : cache.Sound) (step : CacheStep) :
    (cache.step step).Lists (step.onPairs cache.capacity pairs) := by
  cases step with
  | insert key value => exact h.insert hsound key value
  | erase key => exact h.erase key

theorem run_concat (cache : Cache) (steps : List CacheStep) (last : CacheStep) :
    cache.run (steps ++ [last]) = (cache.run steps).step last := by
  rw [run, List.foldl_append]
  rfl

variable (capacity : Option Nat) (steps : List CacheStep)

theorem capacity_run : ((empty capacity).run steps).capacity = capacity := by
  induction steps using List.reverseRecOn with
  | nil => rfl
  | append_singleton steps last ih => rw [run_concat, capacity_step, ih]

theorem sound_run : ((empty capacity).run steps).Sound := by
  induction steps using List.reverseRecOn with
  | nil => exact sound_empty capacity
  | append_singleton steps last ih =>
    rw [run_concat]
    exact ih.step last

theorem lists_run :
    ((empty capacity).run steps).Lists (steps.foldl (CacheStep.onPairs capacity) []) := by
  induction steps using List.reverseRecOn with
  | nil => exact lists_empty capacity
  | append_singleton steps last ih =>
    have hstep := ih.step (sound_run capacity steps) last
    rw [capacity_run] at hstep
    rw [run_concat, List.foldl_append]
    exact hstep

/-! ## Times of arrival -/

/-- The step of this number brought the key in: the cache did not have it before, and has had it
ever since. -/
structure ArrivedAt (key : Bytes) (time : Nat) : Prop where
  past : time < steps.length
  absent : ((empty capacity).run (steps.take time)).get? key = none
  since : ∀ later, time < later → later ≤ steps.length →
    ((empty capacity).run (steps.take later)).get? key ≠ none

/-- One key has been in the cache for longer than another. -/
def Older (key other : Bytes) : Prop :=
  ∃ time later, ArrivedAt capacity steps key time ∧ ArrivedAt capacity steps other later
    ∧ time < later

variable {capacity steps} {key other : Bytes} {last : CacheStep}

theorem ArrivedAt.concat {time : Nat} (h : ArrivedAt capacity steps key time)
    (hstays : ((empty capacity).run (steps ++ [last])).get? key ≠ none) :
    ArrivedAt capacity (steps ++ [last]) key time := by
  have hpast := h.past
  refine ⟨?_, ?_, ?_⟩
  · rw [List.length_append]
    omega
  · rw [List.take_append_of_le_length (by omega)]
    exact h.absent
  · intro later hlater hle
    rw [List.length_append, List.length_singleton] at hle
    by_cases hlast : later = steps.length + 1
    · rw [List.take_of_length_le (by simp [hlast])]
      exact hstays
    · rw [List.take_append_of_le_length (by omega)]
      exact h.since later hlater (by omega)

theorem arrivedAt_last (habsent : ((empty capacity).run steps).get? key = none)
    (hstays : ((empty capacity).run (steps ++ [last])).get? key ≠ none) :
    ArrivedAt capacity (steps ++ [last]) key steps.length := by
  refine ⟨by simp, ?_, ?_⟩
  · rw [List.take_left]
    exact habsent
  · intro later hlater hle
    rw [List.take_of_length_le (by simp; omega)]
    exact hstays

/-- Every key that is there has come at some time. -/
theorem exists_arrivedAt (h : ((empty capacity).run steps).get? key ≠ none) :
    ∃ time, ArrivedAt capacity steps key time := by
  -- on the steps, from the last: it has brought the key in, or the key was there before it
  induction steps using List.reverseRecOn with
  | nil => exact absurd rfl h
  | append_singleton steps last ih =>
    by_cases hbefore : ((empty capacity).run steps).get? key = none
    · exact ⟨steps.length, arrivedAt_last hbefore h⟩
    · obtain ⟨time, htime⟩ := ih hbefore
      exact ⟨time, htime.concat h⟩

theorem Older.concat (h : Older capacity steps key other)
    (hkey : ((empty capacity).run (steps ++ [last])).get? key ≠ none)
    (hother : ((empty capacity).run (steps ++ [last])).get? other ≠ none) :
    Older capacity (steps ++ [last]) key other := by
  obtain ⟨time, later, htime, hlater, hlt⟩ := h
  exact ⟨time, later, htime.concat hkey, hlater.concat hother, hlt⟩

theorem older_last (hbefore : ((empty capacity).run steps).get? key ≠ none)
    (hkey : ((empty capacity).run (steps ++ [last])).get? key ≠ none)
    (habsent : ((empty capacity).run steps).get? other = none)
    (hother : ((empty capacity).run (steps ++ [last])).get? other ≠ none) :
    Older capacity (steps ++ [last]) key other := by
  obtain ⟨time, htime⟩ := exists_arrivedAt hbefore
  exact ⟨time, steps.length, htime.concat hkey, arrivedAt_last habsent hother, htime.past⟩

theorem dropOldest_suffix (limit : Nat) (order : List Bytes) (entries : Table) :
    (dropOldest limit order entries).1 <:+ order := by
  induction order generalizing entries with
  | nil => exact List.suffix_refl _
  | cons oldest order ih =>
    rw [dropOldest]
    split
    · exact List.suffix_refl _
    · exact (ih _).trans (List.suffix_cons ..)

theorem order_shrink_suffix (cache : Cache) : cache.shrink.order <:+ cache.order := by
  obtain ⟨entries, order, capacity⟩ := cache
  cases capacity with
  | none => exact List.suffix_refl _
  | some limit => exact dropOldest_suffix limit order entries

/-- A step leaves the queue in its order, and puts no more than one new key at its end. -/
theorem order_step (cache : Cache) (step : CacheStep) :
    (cache.step step).order.Sublist cache.order
      ∨ ∃ key, cache.get? key = none ∧ (cache.step step).order.Sublist (cache.order ++ [key]) := by
  cases step with
  | erase key => exact .inl List.filter_sublist
  | insert key value =>
    have hsublist := (order_shrink_suffix (cache.enroll key value)).sublist
    rw [← insert_eq_shrink] at hsublist
    unfold enroll at hsublist
    cases hshown : cache.get? key with
    | some old =>
      rw [hshown] at hsublist
      exact .inl hsublist
    | none =>
      rw [hshown] at hsublist
      exact .inr ⟨key, hshown, hsublist⟩

theorem pairwise_older (capacity : Option Nat) (steps : List CacheStep) :
    ((empty capacity).run steps).order.Pairwise (Older capacity steps) := by
  induction steps using List.reverseRecOn with
  | nil => exact List.Pairwise.nil
  | append_singleton steps last ih =>
    have hlisted := lists_run capacity steps
    have hlisted' := lists_run capacity (steps ++ [last])
    -- what is still in the queue is still in the cache, and has kept its time of arrival
    have hthere {key : Bytes} (hkey : key ∈ ((empty capacity).run (steps ++ [last])).order) :
        ((empty capacity).run (steps ++ [last])).get? key ≠ none :=
      hlisted'.mem_order_iff.1 hkey
    rcases order_step ((empty capacity).run steps) last with hsublist | ⟨new, habsent, hsublist⟩
    · rw [← run_concat] at hsublist
      apply (ih.sublist hsublist).imp_of_mem
      intro key other hkey hother holder
      exact holder.concat (hthere hkey) (hthere hother)
    · rw [← run_concat] at hsublist
      -- the new key comes behind all others, which were there before
      have hall : (((empty capacity).run steps).order ++ [new]).Pairwise fun key other =>
          Older capacity steps key other
            ∨ ((empty capacity).run steps).get? key ≠ none ∧ other = new := by
        rw [List.pairwise_append]
        refine ⟨ih.imp .inl, List.pairwise_singleton .., ?_⟩
        intro key hkey other hother
        exact .inr ⟨hlisted.mem_order_iff.1 hkey, List.mem_singleton.1 hother⟩
      apply (hall.sublist hsublist).imp_of_mem
      intro key other hkey hother hcases
      rcases hcases with holder | ⟨hbefore, rfl⟩
      · exact holder.concat (hthere hkey) (hthere hother)
      · exact older_last hbefore (hthere hkey) habsent (hthere hother)

/-- After whatever has been inserted and removed, a cache has the entries of a plain list of pairs on
which the same was done, and its queue has their keys in the order of the list, each once, which is
the order in which they arrived.  There are never more than fit.  So a new value for a key drives
nothing out and renews nothing; a new key drives the oldest one out of a full cache, and no other; a
key that was removed and comes again is the newest; and dropping never comes to the end of the
queue. -/
theorem first_in_first_out (capacity : Option Nat) (steps : List CacheStep) :
    let cache := (empty capacity).run steps
    let pairs := steps.foldl (CacheStep.onPairs capacity) []
    cache.entries.entries.Perm pairs ∧ (∀ key, cache.get? key = pairs.lookup key)
      ∧ cache.order = pairs.map (·.1) ∧ cache.order.Nodup
      ∧ cache.order.Pairwise (Older capacity steps)
      ∧ (∀ limit, capacity = some limit → cache.entries.size ≤ limit)
      ∧ (∀ key old value, cache.get? key = some old →
        (cache.insert key value).order = cache.order
          ∧ ∀ other, (cache.insert key value).get? other
            = if other = key then some value else cache.get? other)
      ∧ (∀ key value limit, capacity = some limit → 1 ≤ limit → cache.entries.size = limit →
        cache.get? key = none →
        ∃ oldest rest, cache.order = oldest :: rest ∧ (cache.insert key value).order = rest ++ [key]
          ∧ ∀ other, (cache.insert key value).get? other
            = if other = key then some value else if other = oldest then none else cache.get? other)
      ∧ (∀ key old value, cache.get? key = some old →
        ((cache.erase key).insert key value).order = cache.order.filter (· ≠ key) ++ [key])
      ∧ ∀ key value limit, capacity = some limit →
        ¬RunsDry limit (cache.enroll key value).order (cache.enroll key value).entries := by
  intro cache pairs
  have hlists : cache.Lists pairs := lists_run capacity steps
  have hsound : cache.Sound := sound_run capacity steps
  have hcapacity : cache.capacity = capacity := capacity_run capacity steps
  refine ⟨hlists.perm, hlists.get?_eq, hlists.order_eq, hlists.order_nodup,
    pairwise_older capacity steps, ?_, ?_, ?_, ?_, ?_⟩
  · intro limit hlimit
    exact hsound.fits limit (hcapacity.trans hlimit)
  · intro key old value hshown
    rw [hsound.insert_of_get? hshown]
    exact ⟨rfl, Table.get?_insert cache.entries key value⟩
  · intro key value limit hlimit hpos hfull hnew
    have hlength : cache.order.length = limit := by
      rw [hlists.order_eq, List.length_map, ← hlists.size_eq, hfull]
    -- there is room for one at least, so a full cache has an oldest key
    obtain ⟨oldest, rest, horder⟩ := List.exists_cons_of_length_pos (hlength ▸ hpos)
    refine ⟨oldest, rest, horder, ?_⟩
    apply hlists.insert_evicts hsound hnew value horder
    rw [hcapacity, hlimit, hfull]
  · intro key old value hshown
    exact hlists.order_insert_erase hsound hshown value
  · intro key value limit hlimit
    exact hsound.not_runsDry (hcapacity.trans hlimit) key value

/-- The key 1 has a new value, and is the oldest for all that: a third key drives it out.  Removed and
inserted again, it is the newest. -/
theorem first_in_first_out_overwritten :
    let cache := (empty (some 2)).run [.insert [1] [5], .insert [2] [6], .insert [1] [7]]
    cache.get? [1] = some [7] ∧ cache.order = [[1], [2]]
      ∧ (cache.insert [3] [8]).order = [[2], [3]] ∧ (cache.insert [3] [8]).get? [1] = none
      ∧ ((cache.erase [1]).insert [1] [9]).order = [[2], [1]] := by
  intro cache
  have hshown : cache.get? [1] = some [7] := by decide
  have horder : cache.order = [[1], [2]] := by decide
  obtain ⟨-, -, -, -, -, -, -, hevicts, hrenewed, -⟩ :=
    first_in_first_out (some 2) [.insert [1] [5], .insert [2] [6], .insert [1] [7]]
  obtain ⟨oldest, rest, hcons, hafter, hget⟩ :=
    hevicts [3] [8] 2 rfl (by decide) (by decide) (by decide)
  obtain ⟨rfl, rfl⟩ := List.cons.inj (horder.symm.trans hcons)
  exact ⟨hshown, horder, hafter, hget [1], hrenewed [1] [7] [9] hshown⟩

end Cache

end TieredStore
