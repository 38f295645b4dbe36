import TieredStore.Bytes.Word

/-!
# Tables

A finite map from keys to values, as the list of its entries in the order of their keys.  Keys are
compared byte by byte, a beginning before its continuation.

`Table.get?` is how a table is seen: `get?_insert` and `get?_erase` say what the operations do to
it, and tables that it cannot tell apart are equal (`ext_get?`).
-/

namespace TieredStore

/-! ## Ordered entries -/

/-- Puts an entry at its key's place among ordered entries, in place of one with the same key. -/
def bindEntry (key value : Bytes) : List (Bytes × Bytes) → List (Bytes × Bytes)
  | [] => [(key, value)]
  | entry :: rest =>
    if entry.1 < key then entry :: bindEntry key value rest
    else if entry.1 = key then (key, value) :: rest
    else (key, value) :: entry :: rest

theorem mem_bindEntry {key value : Bytes} {entries : List (Bytes × Bytes)} {entry : Bytes × Bytes}
    (h : entry ∈ bindEntry key value entries) : entry = (key, value) ∨ entry ∈ entries := by
  induction entries with
  | nil => simpa [bindEntry] using h
  | cons first rest ih =>
    rw [bindEntry] at h
    split at h
    · rcases List.mem_cons.1 h with rfl | h
      · exact .inr (List.mem_cons_self ..)
      · exact (ih h).imp_right (List.mem_cons_of_mem _)
    · split at h
      · exact (List.mem_cons.1 h).imp_right (List.mem_cons_of_mem _)
      · exact List.mem_cons.1 h

theorem pairwise_bindEntry (key value : Bytes) {entries : List (Bytes × Bytes)}
    (h : entries.Pairwise (·.1 < ·.1)) : (bindEntry key value entries).Pairwise (·.1 < ·.1) := by
  induction entries with
  | nil => simp [bindEntry]
  | cons first rest ih =>
    obtain ⟨hfirst, hrest⟩ := List.pairwise_cons.1 h
    rw [bindEntry]
    split
    · next hlt =>
      refine List.pairwise_cons.2 ⟨fun entry hentry => ?_, ih hrest⟩
      rcases mem_bindEntry hentry with rfl | hold
      · exact hlt
      · exact hfirst entry hold
    · split
      · next heq =>
        exact List.pairwise_cons.2 ⟨fun entry hentry => heq ▸ hfirst entry hentry, hrest⟩
      · next hnlt hne =>
        have hgt : key < first.1 := by
          rcases List.le_iff_lt_or_eq.1 (List.not_lt.1 hnlt) with hlt | heq
          · exact hlt
          · exact absurd heq.symm hne
        refine List.pairwise_cons.2 ⟨fun entry hentry => ?_, h⟩
        rcases List.mem_cons.1 hentry with rfl | hold
        · exact hgt
        · exact List.lt_trans hgt (hfirst entry hold)

theorem lookup_cons_eq_ite {α β : Type} [BEq α] [LawfulBEq α] [DecidableEq α] (first : α × β)
    (rest : List (α × β)) (key : α) :
    (first :: rest).lookup key = if key = first.1 then some first.2 else rest.lookup key := by
  obtain ⟨name, value⟩ := first
  rw [List.lookup_cons]
  by_cases h : key = name
  · rw [if_pos h, beq_iff_eq.2 h]
  · rw [if_neg h, beq_eq_false_iff_ne.2 h]

theorem lookup_filter_ne {α β : Type} [BEq α] [LawfulBEq α] [DecidableEq α] (key other : α)
    (entries : List (α × β)) :
    (entries.filter (·.1 ≠ key)).lookup other
      = if other = key then none else entries.lookup other := by
  induction entries with
  | nil => simp
  | cons first rest ih =>
    rw [List.filter_cons, lookup_cons_eq_ite]
    split
    · rw [lookup_cons_eq_ite, ih]
      grind
    · rw [ih]
      grind

theorem lookup_replace {α β : Type} [BEq α] [LawfulBEq α] [DecidableEq α] (key other : α)
    (value : β) (entries : List (α × β)) :
    (entries.map fun entry => if entry.1 = key then (entry.1, value) else entry).lookup other
      = (entries.lookup other).map fun old => if other = key then value else old := by
  induction entries with
  | nil => rfl
  | cons first rest ih =>
    have hname : (if first.1 = key then (first.1, value) else first).1 = first.1 := by
      split
      · rfl
      · rfl
    rw [List.map_cons, lookup_cons_eq_ite, lookup_cons_eq_ite, ih, hname]
    by_cases hother : other = first.1
    · rw [if_pos hother, if_pos hother, Option.map_some, hother]
      split
      · rfl
      · rfl
    · rw [if_neg hother, if_neg hother]

theorem lookup_bindEntry (key value other : Bytes) (entries : List (Bytes × Bytes)) :
    (bindEntry key value entries).lookup other
      = if other = key then some value else entries.lookup other := by
  induction entries with
  | nil => rw [bindEntry, lookup_cons_eq_ite]
  | cons first rest ih =>
    rw [bindEntry]
    split
    · next hlt =>
      have hne : first.1 ≠ key := fun heq => List.lt_irrefl key (heq ▸ hlt)
      rw [lookup_cons_eq_ite, lookup_cons_eq_ite, ih]
      grind
    · split
      · next heq =>
        rw [lookup_cons_eq_ite, lookup_cons_eq_ite]
        grind
      · rw [lookup_cons_eq_ite]

/-- A key below all keys of a list is not bound in it. -/
theorem lookup_eq_none_of_lt {key : Bytes} {entries : List (Bytes × Bytes)}
    (h : ∀ entry ∈ entries, key < entry.1) : entries.lookup key = none := by
  rw [List.lookup_eq_none_iff]
  intro entry hentry
  have hne : key ≠ entry.1 := fun heq => List.lt_irrefl entry.1 (heq ▸ h entry hentry)
  simpa using hne

/-- The least key of one list is not below that of another in which it is bound. -/
theorem not_lt_of_lookup_eq {a b : Bytes × Bytes} {as bs : List (Bytes × Bytes)}
    (hb : (b :: bs).Pairwise (·.1 < ·.1)) (h : (a :: as).lookup a.1 = (b :: bs).lookup a.1) :
    ¬a.1 < b.1 := by
  intro hlt
  rw [lookup_cons_eq_ite, if_pos rfl, lookup_eq_none_of_lt] at h
  · simp at h
  · intro entry hentry
    rcases List.mem_cons.1 hentry with rfl | hrest
    · exact hlt
    · exact List.lt_trans hlt ((List.pairwise_cons.1 hb).1 entry hrest)

theorem eq_of_lookup_eq {as bs : List (Bytes × Bytes)} (ha : as.Pairwise (·.1 < ·.1))
    (hb : bs.Pairwise (·.1 < ·.1)) (h : ∀ key, as.lookup key = bs.lookup key) : as = bs := by
  induction as generalizing bs with
  | nil =>
    cases bs with
    | nil => rfl
    | cons b bs =>
      have hkey := h b.1
      simp [lookup_cons_eq_ite] at hkey
  | cons a as ih =>
    cases bs with
    | nil =>
      have hkey := h a.1
      simp [lookup_cons_eq_ite] at hkey
    | cons b bs =>
      obtain ⟨halt, has⟩ := List.pairwise_cons.1 ha
      obtain ⟨hblt, hbs⟩ := List.pairwise_cons.1 hb
      have hname : a.1 = b.1 :=
        List.le_antisymm (List.not_lt.1 (not_lt_of_lookup_eq ha (h b.1).symm))
          (List.not_lt.1 (not_lt_of_lookup_eq hb (h a.1)))
      have hvalue : a.2 = b.2 := by
        have hkey := h a.1
        rw [lookup_cons_eq_ite, lookup_cons_eq_ite, if_pos rfl, if_pos hname] at hkey
        exact Option.some.inj hkey
      have hrest : as = bs := by
        refine ih has hbs fun key => ?_
        by_cases hk : key = a.1
        · rw [hk, lookup_eq_none_of_lt halt, lookup_eq_none_of_lt fun e he => hname ▸ hblt e he]
        · have hkey := h key
          rwa [lookup_cons_eq_ite, lookup_cons_eq_ite, if_neg hk, if_neg (hname ▸ hk)] at hkey
      rw [Prod.ext hname hvalue, hrest]

/-! ## Tables -/

structure Table where
  entries : List (Bytes × Bytes)
  sorted : entries.Pairwise (·.1 < ·.1)
  deriving DecidableEq

namespace Table

def empty : Table :=
  ⟨[], List.Pairwise.nil⟩

def get? (table : Table) (key : Bytes) : Option Bytes :=
  table.entries.lookup key

def insert (table : Table) (key value : Bytes) : Table :=
  ⟨bindEntry key value table.entries, pairwise_bindEntry key value table.sorted⟩

def erase (table : Table) (key : Bytes) : Table :=
  ⟨table.entries.filter (·.1 ≠ key), table.sorted.filter _⟩

def size (table : Table) : Nat :=
  table.entries.length

def firstKey? (table : Table) : Option Bytes :=
  table.entries.head?.map (·.1)

/-- The least key above a given one. -/
def nextKey? (table : Table) (key : Bytes) : Option Bytes :=
  (table.entries.find? fun entry => key < entry.1).map (·.1)

@[simp] theorem get?_empty (key : Bytes) : empty.get? key = none := rfl

theorem get?_insert (table : Table) (key value other : Bytes) :
    (table.insert key value).get? other = if other = key then some value else table.get? other :=
  lookup_bindEntry key value other table.entries

theorem get?_erase (table : Table) (key other : Bytes) :
    (table.erase key).get? other = if other = key then none else table.get? other :=
  lookup_filter_ne key other table.entries

/-- Tables that bind the same keys to the same values are equal. -/
theorem ext_get? {a b : Table} (h : ∀ key, a.get? key = b.get? key) : a = b := by
  obtain ⟨as, ha⟩ := a
  obtain ⟨bs, hb⟩ := b
  obtain rfl : as = bs := eq_of_lookup_eq ha hb h
  rfl

/-- There is nothing to unbind. -/
theorem erase_of_get?_eq_none {table : Table} {key : Bytes} (h : table.get? key = none) :
    table.erase key = table := by
  apply ext_get?
  intro other
  rw [get?_erase]
  by_cases heq : other = key
  · rw [if_pos heq, heq, h]
  · rw [if_neg heq]

end Table

end TieredStore
