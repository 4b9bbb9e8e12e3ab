/-
  Lib/Runs.lean
  =============
  **Runs of a step function** — a component is a total step function
  `step : σ → α → σ` on its states; everything that is decided outside the
  component (which message arrives, what a service answers, which task runs
  next) is in the action `α`.  A run is a list of actions.

  `run_invariant` carries an invariant over every run.  `run_invariant_of_guarded`
  carries one over the runs whose steps all meet a condition on the state before
  the step and the action (`Guarded`).
-/
import Mathlib.Data.List.Basic

namespace Runs

variable {σ α : Type}

/-- The state after performing `as` from `s`. -/
def run (step : σ → α → σ) (s : σ) (as : List α) : σ := as.foldl step s

@[simp] theorem run_nil (step : σ → α → σ) (s : σ) : run step s [] = s := rfl

@[simp] theorem run_cons (step : σ → α → σ) (s : σ) (a : α) (as : List α) :
    run step s (a :: as) = run step (step s a) as := rfl

theorem run_append (step : σ → α → σ) (s : σ) (as bs : List α) :
    run step s (as ++ bs) = run step (run step s as) bs :=
  List.foldl_append

/-- Every step of the run is taken in a state and with an action that `ok` admits. -/
def Guarded (step : σ → α → σ) (ok : σ → α → Prop) : σ → List α → Prop
  | _, [] => True
  | s, a :: as => ok s a ∧ Guarded step ok (step s a) as

instance Guarded.decidable {step : σ → α → σ} {ok : σ → α → Prop} [∀ s a, Decidable (ok s a)]
    (s : σ) : (as : List α) → Decidable (Guarded step ok s as)
  | [] => inferInstanceAs (Decidable True)
  | a :: as =>
    have : Decidable (Guarded step ok (step s a) as) := Guarded.decidable (step s a) as
    inferInstanceAs (Decidable (ok s a ∧ Guarded step ok (step s a) as))

theorem guarded_append {step : σ → α → σ} {ok : σ → α → Prop} {s : σ} {as bs : List α} :
    Guarded step ok s (as ++ bs) ↔
      Guarded step ok s as ∧ Guarded step ok (run step s as) bs := by
  induction as generalizing s with
  | nil => simp [Guarded]
  | cons a as ih => simp only [List.cons_append, Guarded, run_cons, ih, and_assoc]

/-- A condition on the actions alone can be moved into the guard. -/
theorem Guarded.and_forall {step : σ → α → σ} {ok : σ → α → Prop} {P : α → Prop} {s : σ}
    {as : List α} (hg : Guarded step ok s as) (hP : ∀ a ∈ as, P a) :
    Guarded step (fun s a => P a ∧ ok s a) s as := by
  induction as generalizing s with
  | nil => trivial
  | cons a as ih =>
    refine ⟨⟨hP a List.mem_cons_self, hg.1⟩, ih hg.2 ?_⟩
    intro b hb
    exact hP b (List.mem_cons_of_mem _ hb)

/-- A condition on the actions alone. -/
theorem guarded_of_forall {step : σ → α → σ} {P : α → Prop} {s : σ} {as : List α}
    (hP : ∀ a ∈ as, P a) : Guarded step (fun _ a => P a) s as := by
  induction as generalizing s with
  | nil => trivial
  | cons a as ih =>
    refine ⟨hP a List.mem_cons_self, ih ?_⟩
    intro b hb
    exact hP b (List.mem_cons_of_mem _ hb)

/-- A property kept by every admitted step is kept by every guarded run. -/
theorem run_invariant_of_guarded {step : σ → α → σ} {ok : σ → α → Prop} (Inv : σ → Prop)
    (hstep : ∀ s a, Inv s → ok s a → Inv (step s a)) {s : σ} (hs : Inv s) :
    ∀ as, Guarded step ok s as → Inv (run step s as) := by
  intro as
  induction as generalizing s with
  | nil => intro _; exact hs
  | cons a as ih =>
    intro hg
    exact ih (hstep s a hs hg.1) hg.2

/-- Two conditions that agree where an invariant holds guard the same runs. -/
theorem guarded_congr {step : σ → α → σ} {ok ok' : σ → α → Prop} (Inv : σ → Prop)
    (hiff : ∀ s a, Inv s → (ok s a ↔ ok' s a)) (hstep : ∀ s a, Inv s → ok' s a → Inv (step s a))
    {s : σ} (hs : Inv s) (as : List α) : Guarded step ok s as ↔ Guarded step ok' s as := by
  induction as generalizing s with
  | nil => exact Iff.rfl
  | cons a as ih =>
    constructor
    · rintro ⟨ha, hrest⟩
      have ha' := (hiff s a hs).mp ha
      exact ⟨ha', (ih (hstep s a hs ha')).mp hrest⟩
    · rintro ⟨ha', hrest⟩
      exact ⟨(hiff s a hs).mpr ha', (ih (hstep s a hs ha')).mpr hrest⟩

/-- A property kept by every step is kept by every run. -/
theorem run_invariant {step : σ → α → σ} (Inv : σ → Prop)
    (hstep : ∀ s a, Inv s → Inv (step s a)) {s : σ} (hs : Inv s) (as : List α) :
    Inv (run step s as) := by
  induction as generalizing s with
  | nil => exact hs
  | cons a as ih => exact ih (hstep s a hs)

/-- A quantity that no step decreases is not decreased by a run. -/
theorem run_monotone {step : σ → α → σ} {f : σ → Nat}
    (hstep : ∀ s a, f s ≤ f (step s a)) (s : σ) (as : List α) :
    f s ≤ f (run step s as) := by
  induction as generalizing s with
  | nil => exact Nat.le_refl _
  | cons a as ih => exact Nat.le_trans (hstep s a) (ih (step s a))

end Runs
