import TieredStore.Store.Table

/-!
# The cache tier

A table of limited size.  A key that is new to a full cache drives out the key that has been there
longest; a new value for a key that is there renews nothing.  The order of arrival is a queue beside
the table.
-/

namespace TieredStore

structure Cache where
  entries : Table
  /-- The keys in the order of their arrival. -/
  order : List Bytes
  /-- The number of entries that fit, if there is a limit. -/
  capacity : Option Nat
  deriving DecidableEq

/-- Drops the oldest keys until no more than `capacity` entries are left. -/
def dropOldest (capacity : Nat) : (order : List Bytes) → Table → List Bytes × Table
  | [], entries => ([], entries)
  | oldest :: order, entries =>
    if entries.size ≤ capacity then (oldest :: order, entries)
    else dropOldest capacity order (entries.erase oldest)

namespace Cache

def empty (capacity : Option Nat) : Cache :=
  ⟨.empty, [], capacity⟩

def get? (cache : Cache) (key : Bytes) : Option Bytes :=
  cache.entries.get? key

/-- Drops what does not fit. -/
def shrink (cache : Cache) : Cache :=
  match cache.capacity with
  | none => cache
  | some capacity =>
    let (order, entries) := dropOldest capacity cache.order cache.entries
    ⟨entries, order, some capacity⟩

/-- Binds a key to a value and drops what does not fit any more. -/
def insert (cache : Cache) (key value : Bytes) : Cache :=
  let order := if (cache.get? key).isSome then cache.order else cache.order ++ [key]
  shrink ⟨cache.entries.insert key value, order, cache.capacity⟩

def erase (cache : Cache) (key : Bytes) : Cache :=
  ⟨cache.entries.erase key, cache.order.filter (· ≠ key), cache.capacity⟩

end Cache

end TieredStore
