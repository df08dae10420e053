import Mathlib.Data.List.Forall2
import Outlet.Session

/-!
# Two runs side by side

Two runs whose states are related before every pair of steps, and whose steps keep them so, give
reports that are related one by one. The steps may be the same in both runs, or be related
themselves; a relation between reports may then speak of the steps that they report.
-/

namespace Outlet.Session

open List

variable {σ τ α α' β β' γ : Type}

/-- The same, or related one way or the other. -/
def EitherWay (related : α → α → Prop) (a b : α) : Prop := b = a ∨ related a b ∨ related b a

/-- What the same step shows of its reports in two runs, the runs show of all their reports. -/
theorem run_map_eq {step : σ → α → β × σ} {step' : τ → α → β' × τ} {States : σ → τ → Prop}
    {seen : β → γ} {seen' : β' → γ}
    (hstep : ∀ state state' next, States state state' →
      seen (step state next).1 = seen' (step' state' next).1 ∧
        States (step state next).2 (step' state' next).2)
    {state : σ} {state' : τ} (hs : States state state') (steps : List α) :
    (run step state steps).1.map seen = (run step' state' steps).1.map seen' ∧
      States (run step state steps).2 (run step' state' steps).2 := by
  induction steps generalizing state state' with
  | nil => exact ⟨rfl, hs⟩
  | cons first rest ih =>
    obtain ⟨hreport, hnext⟩ := hstep state state' first hs
    obtain ⟨hreports, hlast⟩ := ih hnext
    refine ⟨?_, hlast⟩
    rw [run_cons, run_cons, map_cons, map_cons, hreport, hreports]

/-- What two related steps report, and what they keep, two runs of related steps report and keep. -/
theorem run_related {step : σ → α → β × σ} {step' : τ → α' → β' × τ} {States : σ → τ → Prop}
    {Steps : α → α' → Prop} {Reports : α × β → α' × β' → Prop}
    (hstep : ∀ state state' next next', States state state' → Steps next next' →
      Reports (next, (step state next).1) (next', (step' state' next').1) ∧
        States (step state next).2 (step' state' next').2)
    {state : σ} {state' : τ} (hs : States state state') {steps : List α} {steps' : List α'}
    (hsteps : Forall₂ Steps steps steps') :
    Forall₂ Reports (steps.zip (run step state steps).1) (steps'.zip (run step' state' steps').1) ∧
      States (run step state steps).2 (run step' state' steps').2 := by
  induction hsteps generalizing state state' with
  | nil => exact ⟨.nil, hs⟩
  | cons hfirst _ ih =>
    obtain ⟨hreport, hnext⟩ := hstep _ _ _ _ hs hfirst
    obtain ⟨hreports, hlast⟩ := ih hnext
    exact ⟨.cons hreport hreports, hlast⟩

/-- Where one step can stand for another, from a state of some sort, any steps of a run can be
replaced: no other step reports anything else, and the run ends in the same state. -/
theorem run_eitherWay (kept : σ → Prop) {step : σ → α → β × σ} {Steps : α → α → Prop}
    {Reports : α × β → α × β → Prop}
    (hk : ∀ state next, kept state → kept (step state next).2)
    (hstep : ∀ state next next', kept state → Steps next next' →
      Reports (next, (step state next).1) (next', (step state next').1) ∧
        (step state next').2 = (step state next).2)
    {state : σ} (hs : kept state) {steps steps' : List α}
    (hsteps : Forall₂ (EitherWay Steps) steps steps') :
    Forall₂ (EitherWay Reports) (steps.zip (run step state steps).1)
        (steps'.zip (run step state steps').1) ∧
      (run step state steps').2 = (run step state steps).2 := by
  let States := fun state state' : σ => state' = state ∧ kept state
  have hrelated : ∀ state state' next next', States state state' → EitherWay Steps next next' →
      EitherWay Reports (next, (step state next).1) (next', (step state' next').1) ∧
        States (step state next).2 (step state' next').2 := by
    rintro state state' next next' ⟨rfl, hs⟩ (rfl | h | h)
    · exact ⟨.inl rfl, rfl, hk _ _ hs⟩
    · obtain ⟨hreport, hnext⟩ := hstep _ _ _ hs h
      exact ⟨.inr (.inl hreport), hnext, hk _ _ hs⟩
    · obtain ⟨hreport, hnext⟩ := hstep _ _ _ hs h
      exact ⟨.inr (.inr hreport), hnext.symm, hk _ _ hs⟩
  obtain ⟨hreports, hlast, -⟩ := run_related hrelated ⟨rfl, hs⟩ hsteps
  exact ⟨hreports, hlast⟩

/-- What every step reports from a state of some sort, a run reports step by step. -/
theorem run_forall₂ (kept : σ → Prop) {step : σ → α → β × σ} {good : α → β → Prop}
    (hstep : ∀ state next, kept state → good next (step state next).1 ∧ kept (step state next).2)
    {state : σ} (hs : kept state) (steps : List α) :
    Forall₂ good steps (run step state steps).1 := by
  induction steps generalizing state with
  | nil => exact .nil
  | cons first rest ih =>
    obtain ⟨hreport, hnext⟩ := hstep state first hs
    exact .cons hreport (ih hnext)

/-- Where no state of some sort makes a difference to what a step reports, none makes one to the
reports of a run. -/
theorem run_eq_map (kept : σ → Prop) {step : σ → α → β × σ} {reported : α → β}
    (hstep : ∀ state next, kept state →
      reported next = (step state next).1 ∧ kept (step state next).2)
    {state : σ} (hs : kept state) (steps : List α) :
    (run step state steps).1 = steps.map reported := by
  have hall := forall₂_map_left_iff.mpr (run_forall₂ kept hstep hs steps)
  rw [forall₂_eq_eq_eq] at hall
  exact hall.symm

end Outlet.Session
