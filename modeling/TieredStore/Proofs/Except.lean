import Mathlib.Data.List.Forall2

/-!
# Steps that may fail

A run of two steps gives a result exactly when the first gives one from which the second does.  A
walk over a list gives a result for every item, or ends at the first step that fails.
-/

namespace TieredStore

variable {ε ε' α β γ : Type}

theorem bind_eq_ok_iff {x : Except ε α} {f : α → Except ε β} {b : β} :
    (x >>= f) = .ok b ↔ ∃ a, x = .ok a ∧ f a = .ok b := by
  constructor
  · intro h
    cases x with
    | error e => cases h
    | ok a => exact ⟨a, rfl, h⟩
  · rintro ⟨a, rfl, h⟩
    exact h

theorem bind_eq_error_iff {x : Except ε α} {f : α → Except ε β} {e : ε} :
    (x >>= f) = .error e ↔ x = .error e ∨ ∃ a, x = .ok a ∧ f a = .error e := by
  constructor
  · intro h
    cases x with
    | error other =>
      cases h
      exact .inl rfl
    | ok a => exact .inr ⟨a, rfl, h⟩
  · rintro (rfl | ⟨a, rfl, h⟩)
    · rfl
    · exact h

theorem bind_map_eq_ok_iff {x : Except ε α} {y : Except ε β} {f : α → β → γ} {c : γ} :
    (do let a ← x; let b ← y; return f a b) = .ok c ↔ ∃ a b, x = .ok a ∧ y = .ok b ∧ c = f a b := by
  simp only [bind_eq_ok_iff]
  constructor
  · rintro ⟨a, ha, b, hb, h⟩
    cases h
    exact ⟨a, b, ha, hb, rfl⟩
  · rintro ⟨a, b, ha, hb, rfl⟩
    exact ⟨a, ha, b, hb, rfl⟩

theorem map_eq_ok_iff {x : Except ε α} {f : α → β} {b : β} :
    x.map f = .ok b ↔ ∃ a, x = .ok a ∧ f a = b := by
  constructor
  · intro h
    cases x with
    | error e => cases h
    | ok a => exact ⟨a, rfl, Except.ok.inj h⟩
  · rintro ⟨a, rfl, rfl⟩
    rfl

theorem mapError_eq_ok_iff {x : Except ε α} {f : ε → ε'} {a : α} :
    x.mapError f = .ok a ↔ x = .ok a := by
  cases x with
  | error e => exact ⟨(fun h => nomatch h), (fun h => nomatch h)⟩
  | ok b =>
    constructor
    · intro h
      cases h
      rfl
    · intro h
      cases h
      rfl

theorem mapError_eq_error_iff {x : Except ε α} {f : ε → ε'} {e : ε'} :
    x.mapError f = .error e ↔ ∃ fault, x = .error fault ∧ f fault = e := by
  constructor
  · intro h
    cases x with
    | error fault => exact ⟨fault, rfl, Except.error.inj h⟩
    | ok a => cases h
  · rintro ⟨fault, rfl, rfl⟩
    rfl

theorem exists_error_of_forall_ne_ok {x : Except ε α} (h : ∀ a, x ≠ .ok a) :
    ∃ e, x = .error e := by
  cases x with
  | error e => exact ⟨e, rfl⟩
  | ok a => exact absurd rfl (h a)

/-! ## Walks over a list -/

section Walks

variable {f : α → Except ε β} {items : List α}

theorem mapM_eq_ok_iff {results : List β} :
    items.mapM f = .ok results ↔ List.Forall₂ (fun item b => f item = .ok b) items results := by
  constructor
  · intro h
    induction items generalizing results with
    | nil =>
      cases h
      exact .nil
    | cons item items ih =>
      rw [List.mapM_cons] at h
      obtain ⟨b, hitem, hrest⟩ := bind_eq_ok_iff.1 h
      obtain ⟨rest, hitems, hresults⟩ := bind_eq_ok_iff.1 hrest
      cases hresults
      exact .cons hitem (ih hitems)
  · intro h
    induction h with
    | nil => rfl
    | cons hitem _ ih =>
      rw [List.mapM_cons, hitem, ih]
      rfl

theorem mapM_eq_error_iff {e : ε} :
    items.mapM f = .error e ↔ ∃ earlier item later, items = earlier ++ item :: later
      ∧ (∀ other ∈ earlier, ∃ b, f other = .ok b) ∧ f item = .error e := by
  constructor
  · intro h
    induction items with
    | nil => cases h
    | cons item items ih =>
      rw [List.mapM_cons] at h
      rcases bind_eq_error_iff.1 h with hitem | ⟨b, hitem, hrest⟩
      · exact ⟨[], item, items, rfl, nofun, hitem⟩
      · rcases bind_eq_error_iff.1 hrest with hitems | ⟨rest, -, hdone⟩
        · obtain ⟨earlier, other, later, rfl, hearlier, hother⟩ := ih hitems
          exact ⟨item :: earlier, other, later, rfl,
            List.forall_mem_cons.2 ⟨⟨b, hitem⟩, hearlier⟩, hother⟩
        · cases hdone
  · rintro ⟨earlier, item, later, rfl, hearlier, hitem⟩
    induction earlier with
    | nil =>
      rw [List.nil_append, List.mapM_cons, hitem]
      rfl
    | cons other earlier ih =>
      obtain ⟨⟨b, hother⟩, hothers⟩ := List.forall_mem_cons.1 hearlier
      rw [List.cons_append, List.mapM_cons, hother, ih hothers]
      rfl

theorem exists_error_of_mapM {e : ε} (h : items.mapM f = .error e) :
    ∃ item ∈ items, f item = .error e := by
  obtain ⟨earlier, item, later, rfl, -, hitem⟩ := mapM_eq_error_iff.1 h
  exact ⟨item, List.mem_append_right earlier List.mem_cons_self, hitem⟩

end Walks

end TieredStore
