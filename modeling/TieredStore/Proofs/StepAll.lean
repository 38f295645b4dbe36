/-!
# One step after another

A system takes a step for each item of a list, and gives something each time.  What is given for an
item comes of the state that the items before it have led to.
-/

namespace TieredStore

variable {σ τ α β : Type}

/-- Takes a step for each item. -/
def stepAll (step : σ → α → β × σ) (state : σ) : List α → List β × σ
  | [] => ([], state)
  | item :: items =>
    let (result, state) := step state item
    let (results, state) := stepAll step state items
    (result :: results, state)

variable {step : σ → α → β × σ}

theorem stepAll_append (state : σ) (earlier later : List α) :
    stepAll step state (earlier ++ later)
      = ((stepAll step state earlier).1 ++ (stepAll step (stepAll step state earlier).2 later).1,
        (stepAll step (stepAll step state earlier).2 later).2) := by
  induction earlier generalizing state with
  | nil => rfl
  | cons item earlier ih => simp only [List.cons_append, stepAll, ih]

theorem stepAll_concat_snd (state : σ) (earlier : List α) (item : α) :
    (stepAll step state (earlier ++ [item])).2 = (step (stepAll step state earlier).2 item).2 := by
  rw [stepAll_append]
  rfl

theorem length_stepAll (state : σ) (items : List α) :
    (stepAll step state items).1.length = items.length := by
  induction items generalizing state with
  | nil => rfl
  | cons item items ih => exact congrArg (· + 1) (ih (step state item).2)

/-- What is given for the item that comes after some others. -/
theorem getElem?_stepAll (state : σ) (earlier later : List α) (item : α) :
    (stepAll step state (earlier ++ item :: later)).1[earlier.length]?
      = some (step (stepAll step state earlier).2 item).1 := by
  rw [stepAll_append]
  -- before it there is one result for each of the others
  have hlen : (stepAll step state earlier).1.length ≤ earlier.length :=
    Nat.le_of_eq (length_stepAll state earlier)
  rw [List.getElem?_append_right hlen, length_stepAll, Nat.sub_self]
  rfl

/-- What every step keeps, all of them keep. -/
theorem stepAll_invariant {P : σ → Prop} (hstep : ∀ state item, P state → P (step state item).2)
    {state : σ} (h : P state) (items : List α) : P (stepAll step state items).2 := by
  induction items generalizing state with
  | nil => exact h
  | cons item items ih => exact ih (hstep state item h)

/-- A view of the states that commutes with every step commutes with all of them. -/
theorem stepAll_view {other : τ → α → β × τ} {view : σ → τ}
    (hstep : ∀ state item, other (view state) item = (step state item).map id view) (state : σ)
    (items : List α) :
    stepAll other (view state) items = (stepAll step state items).map id view := by
  induction items generalizing state with
  | nil => rfl
  | cons item items ih =>
    simp only [stepAll, hstep, Prod.map_snd, ih]
    rfl

end TieredStore
