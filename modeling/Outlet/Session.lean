/-!
# Runs of steps

A run makes steps in order, each from the state that the one before it left, and keeps what every
step reports.
-/

namespace Outlet.Session

variable {σ α β : Type}

/-- Makes steps in order: the reports of all of them, and the state after the last. -/
def run (step : σ → α → β × σ) (state : σ) : List α → List β × σ
  | [] => ([], state)
  | first :: rest =>
    let (report, state) := step state first
    let (reports, state) := run step state rest
    (report :: reports, state)

@[simp] theorem run_nil (step : σ → α → β × σ) (state : σ) : run step state [] = ([], state) := rfl

@[simp] theorem run_cons (step : σ → α → β × σ) (state : σ) (first : α) (rest : List α) :
    run step state (first :: rest) =
      ((step state first).1 :: (run step (step state first).2 rest).1,
        (run step (step state first).2 rest).2) := rfl

@[simp] theorem length_run (step : σ → α → β × σ) (state : σ) (steps : List α) :
    (run step state steps).1.length = steps.length := by
  induction steps generalizing state with
  | nil => rfl
  | cons first rest ih => simp [ih]

theorem run_append (step : σ → α → β × σ) (state : σ) (before after : List α) :
    run step state (before ++ after) =
      ((run step state before).1 ++ (run step (run step state before).2 after).1,
        (run step (run step state before).2 after).2) := by
  induction before generalizing state with
  | nil => rfl
  | cons first rest ih => simp [ih]

/-- The report of a step depends on the state that the steps before it leave. -/
theorem run_getElem? (step : σ → α → β × σ) (state : σ) (before : List α) (next : α)
    (after : List α) :
    (run step state (before ++ next :: after)).1[before.length]? =
      some (step (run step state before).2 next).1 := by
  rw [run_append, List.getElem?_append_right (by simp)]
  simp

/-- What every step keeps, a run keeps. -/
theorem run_invariant {step : σ → α → β × σ} {kept : σ → Prop}
    (h : ∀ state next, kept state → kept (step state next).2) {state : σ} (hs : kept state)
    (steps : List α) : kept (run step state steps).2 := by
  induction steps generalizing state with
  | nil => exact hs
  | cons first rest ih => exact ih (h state first hs)

end Outlet.Session
