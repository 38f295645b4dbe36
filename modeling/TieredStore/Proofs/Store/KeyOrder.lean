import TieredStore.Store.Table

/-!
# The keys of a table

The keys that a table binds come in the order of their bytes, each once.  Who starts with the first
key and goes on with the key after each is given all of them (`walk_eq`): what is above one key
begins with the next (`Table.keysAfter_of_eq_cons`), so every step leaves one key less.
-/

namespace TieredStore

/-- The least of some keys that are above a given one, if there is one. -/
def LeastAbove (keys : List Bytes) (key : Bytes) : Option Bytes → Prop
  | some next => next ∈ keys ∧ key < next ∧ ∀ other ∈ keys, key < other → next ≤ other
  | none => ∀ other ∈ keys, ¬key < other

namespace Table

variable (table : Table)

/-- The keys that are bound, the least first. -/
def keys : List Bytes :=
  table.entries.map (·.1)

theorem pairwise_keys : table.keys.Pairwise (· < ·) :=
  List.pairwise_map.2 table.sorted

theorem mem_keys {key : Bytes} : key ∈ table.keys ↔ ∃ value, table.get? key = some value := by
  rw [← Option.isSome_iff_exists, Option.isSome_iff_ne_none]
  unfold keys get?
  rw [ne_eq, List.lookup_eq_none_iff, List.mem_map]
  simp

/-- The keys that are yet to come after one, or all at the beginning. -/
def keysAfter : Option Bytes → List Bytes
  | none => table.keys
  | some key => table.keys.filter (key < ·)

/-- The key that comes after one, or the first. -/
def keyAfter? : Option Bytes → Option Bytes
  | none => table.firstKey?
  | some key => table.nextKey? key

theorem keyAfter?_eq (last : Option Bytes) : table.keyAfter? last = (table.keysAfter last).head? := by
  cases last with
  | none => exact List.head?_map.symm
  | some key =>
    show (table.entries.find? _).map _ = ((table.entries.map _).filter _).head?
    rw [List.head?_filter, List.find?_map]
    rfl

theorem pairwise_keysAfter (last : Option Bytes) : (table.keysAfter last).Pairwise (· < ·) := by
  cases last with
  | none => exact table.pairwise_keys
  | some key => exact table.pairwise_keys.filter _

theorem mem_keys_of_mem_keysAfter {last : Option Bytes} {key : Bytes}
    (h : key ∈ table.keysAfter last) : key ∈ table.keys := by
  cases last with
  | none => exact h
  | some before => exact (List.mem_filter.1 h).1

theorem mem_keys_of_keyAfter? {last : Option Bytes} {key : Bytes}
    (h : table.keyAfter? last = some key) : key ∈ table.keys := by
  rw [keyAfter?_eq] at h
  exact table.mem_keys_of_mem_keysAfter (List.mem_of_head? h)

/-- The keys after the next one are the rest of the keys after this one. -/
theorem keysAfter_of_eq_cons {last : Option Bytes} {key : Bytes} {rest : List Bytes}
    (h : table.keysAfter last = key :: rest) : table.keysAfter (some key) = rest := by
  have habove : table.keysAfter (some key) = (table.keysAfter last).filter (key < ·) := by
    cases last with
    | none => rfl
    | some before =>
      -- what is above the key is above the one before it as well
      have hmem : key ∈ table.keysAfter (some before) := h ▸ List.mem_cons_self ..
      have hbefore : before < key := of_decide_eq_true (List.mem_filter.1 hmem).2
      show table.keys.filter (key < ·) = (table.keys.filter (before < ·)).filter (key < ·)
      rw [List.filter_filter]
      apply List.filter_congr
      intro other _
      by_cases hother : key < other
      · simp [hother, List.lt_trans hbefore hother]
      · simp [hother]
  have hsorted := table.pairwise_keysAfter last
  rw [h, List.pairwise_cons] at hsorted
  rw [habove, h, List.filter_cons_of_neg (by simp), List.filter_eq_self]
  intro other hother
  exact decide_eq_true (hsorted.1 other hother)

/-! ## The next key -/

theorem leastAbove_nextKey? (key : Bytes) :
    LeastAbove table.keys key (table.nextKey? key) := by
  have hnext : table.nextKey? key = (table.keysAfter (some key)).head? :=
    table.keyAfter?_eq (some key)
  have habove : ∀ other, other ∈ table.keysAfter (some key) ↔ other ∈ table.keys ∧ key < other := by
    intro other
    show other ∈ table.keys.filter (key < ·) ↔ _
    rw [List.mem_filter, decide_eq_true_eq]
  have hsorted := table.pairwise_keysAfter (some key)
  rw [hnext]
  cases hkeys : table.keysAfter (some key) with
  | nil =>
    intro other hother hlt
    have hmem := (habove other).2 ⟨hother, hlt⟩
    rw [hkeys] at hmem
    cases hmem
  | cons next rest =>
    rw [hkeys] at hsorted habove
    obtain ⟨hmem, hlt⟩ := (habove next).1 (List.mem_cons_self ..)
    refine ⟨hmem, hlt, ?_⟩
    intro other hother hover
    rcases List.mem_cons.1 ((habove other).2 ⟨hother, hover⟩) with rfl | hlater
    · exact List.le_refl _
    · exact List.le_of_lt ((List.pairwise_cons.1 hsorted).1 other hlater)

end Table

/-! ## Going through the keys -/

/-- The answers to a walk: each question is about the key that came last, until an answer has no
key or as many questions are asked as are allowed. -/
def walk {σ α : Type} (ask : Option Bytes → σ → α × σ) (key? : α → Option Bytes) :
    (requests : Nat) → (last : Option Bytes) → σ → List α
  | 0, _, _ => []
  | requests + 1, last, s =>
    let (answer, s) := ask last s
    match key? answer with
    | some key => answer :: walk ask key? requests (some key) s
    | none => [answer]

/-- Where every question about a key of a table is answered from the table, a walk is through all
keys that are left, and is told at the end that there are no more. -/
theorem walk_after {σ α : Type} {ask : Option Bytes → σ → α × σ} {key? : α → Option Bytes}
    (answer : Option Bytes → α) (hkey : ∀ key, key? (answer key) = key) {table : Table}
    {P : σ → Prop} (hask : ∀ last s, (∀ key ∈ last, key ∈ table.keys) → P s →
      (ask last s).1 = answer (table.keyAfter? last) ∧ P (ask last s).2)
    (requests : Nat) {last : Option Bytes} (hlast : ∀ key ∈ last, key ∈ table.keys)
    {s : σ} (hs : P s) :
    walk ask key? requests last s
      = ((table.keysAfter last).map (answer ∘ some) ++ [answer none]).take requests := by
  induction requests generalizing last s with
  | zero => rfl
  | succ requests ih =>
    obtain ⟨hanswer, hafter⟩ := hask last s hlast hs
    unfold walk
    simp only [hanswer, hkey]
    rw [table.keyAfter?_eq]
    cases hkeys : table.keysAfter last with
    | nil => simp
    | cons key rest =>
      have hmem : key ∈ table.keysAfter last := hkeys ▸ List.mem_cons_self ..
      have hnext : ∀ next ∈ some key, next ∈ table.keys := by
        intro next hnext
        rw [← Option.some.inj hnext]
        exact table.mem_keys_of_mem_keysAfter hmem
      -- what is left for the walk after this key is what was behind it
      have hrest := ih hnext hafter
      rw [table.keysAfter_of_eq_cons hkeys] at hrest
      simp only [List.head?_cons, hrest]
      rfl

theorem walk_eq {σ α : Type} {ask : Option Bytes → σ → α × σ} {key? : α → Option Bytes}
    (answer : Option Bytes → α) (hkey : ∀ key, key? (answer key) = key) {table : Table}
    {P : σ → Prop} (hask : ∀ last s, (∀ key ∈ last, key ∈ table.keys) → P s →
      (ask last s).1 = answer (table.keyAfter? last) ∧ P (ask last s).2)
    (requests : Nat) {s : σ} (hs : P s) :
    walk ask key? requests none s
      = (table.keys.map (answer ∘ some) ++ [answer none]).take requests := by
  have hstart : ∀ key ∈ (none : Option Bytes), key ∈ table.keys := by
    intro key hkey
    cases hkey
  exact walk_after answer hkey hask requests hstart hs

end TieredStore
