/-
  Lib/Fallible.lean
  =================
  **Computations that may fail** — a handler that leaves with an error as soon as a check fails
  is a chain of binds in `Except`.  `Meets P E x` says that a result of `x` satisfies `P` and an
  error of `x` satisfies `E`; there is a rule for each way in which such a chain is put together,
  with the invariant of a loop that stops at the first error in `Meets.foldlM`.

  A handler in `EStateM` keeps what it has changed by the time it fails.  One that only reads
  until all its checks have passed leaves the state alone when it fails (`stateLeft_checked`).
-/
import Mathlib.Data.List.Basic

namespace Fallible

variable {ε α β σ : Type}

/-- Leave with `e` unless the condition holds. -/
def require (c : Bool) (e : ε) : Except ε Unit := if c then .ok () else .error e

/-- The value, or else leave with `e`. -/
def orThrow (o : Option α) (e : ε) : Except ε α :=
  match o with
  | some a => .ok a
  | none => .error e

/-- Results satisfy `P` and errors satisfy `E`. -/
def Meets (P : α → Prop) (E : ε → Prop) : Except ε α → Prop
  | .ok a => P a
  | .error e => E e

namespace Meets

variable {P Q : α → Prop} {E : ε → Prop} {R : β → Prop}

theorem ok {x : Except ε α} (h : Meets P E x) {a : α} (hx : x = .ok a) : P a := by
  rw [hx] at h
  exact h

theorem error {x : Except ε α} (h : Meets P E x) {e : ε} (hx : x = .error e) : E e := by
  rw [hx] at h
  exact h

theorem pure {a : α} (h : P a) : Meets P E (Pure.pure a) := h

theorem throw {e : ε} (h : E e) : Meets P E (throw e : Except ε α) := h

theorem bind {x : Except ε α} {f : α → Except ε β} (hx : Meets P E x)
    (hf : ∀ a, P a → Meets R E (f a)) : Meets R E (x >>= f) := by
  cases x with
  | error e => exact hx
  | ok a => exact hf a hx

/-- A result of which nothing is asked. -/
theorem any {x : Except ε α} : Meets (fun _ => True) (fun _ => True) x := by
  cases x <;> trivial

/-- What is known of a result as such. -/
theorem eq {x : Except ε α} (h : ∀ e, x = .error e → E e) : Meets (fun a => x = .ok a) E x := by
  cases x with
  | error e => exact h e rfl
  | ok a => exact rfl

theorem and {x : Except ε α} (hP : Meets P E x) (hQ : Meets Q E x) :
    Meets (fun a => P a ∧ Q a) E x := by
  cases x with
  | error e => exact hP
  | ok a => exact ⟨hP, hQ⟩

theorem mono {x : Except ε α} (h : Meets P E x) (hPQ : ∀ a, P a → Q a) : Meets Q E x := by
  cases x with
  | error e => exact h
  | ok a => exact hPQ a h

theorem mono_error {F : ε → Prop} {x : Except ε α} (h : Meets P E x) (hEF : ∀ e, E e → F e) :
    Meets P F x := by
  cases x with
  | error e => exact hEF e h
  | ok a => exact h

theorem require {c : Bool} {e : ε} (h : c = false → E e) :
    Meets (fun _ => c = true) E (require c e) := by
  cases c with
  | true => exact rfl
  | false => exact h rfl

theorem orThrow {o : Option α} {e : ε} (h : o = none → E e) :
    Meets (fun a => o = some a) E (orThrow o e) := by
  cases o with
  | some a => exact rfl
  | none => exact h rfl

/-- A loop: `Inv` is kept by every step that succeeds, and errors satisfy `E`. -/
theorem foldlM {f : σ → α → Except ε σ} (Inv : σ → Prop) {l : List α}
    (hstep : ∀ s, Inv s → ∀ a ∈ l, Meets Inv E (f s a)) {s : σ} (hs : Inv s) :
    Meets Inv E (l.foldlM f s) := by
  induction l generalizing s with
  | nil => exact hs
  | cons a l ih =>
    rw [List.foldlM_cons]
    refine (hstep s hs a List.mem_cons_self).bind ?_
    intro s₁ hs₁
    refine ih ?_ hs₁
    intro s hs b hb
    exact hstep s hs b (List.mem_cons_of_mem _ hb)

end Meets

/-! ## Handlers that keep what they have changed -/

/-- A check that reads the state. -/
def reading (f : σ → Except ε α) : EStateM ε σ α := fun s =>
  match f s with
  | .ok a => .ok a s
  | .error e => .error e s

/-- The error, or the new state. -/
def result (x : EStateM ε σ Unit) (s : σ) : Except ε σ :=
  match x s with
  | .ok _ s' => .ok s'
  | .error e _ => .error e

/-- The state that is there afterwards, whether the handler has failed or not. -/
def stateLeft (x : EStateM ε σ Unit) (s : σ) : σ :=
  match x s with
  | .ok _ s' => s'
  | .error _ s' => s'

section

variable {f : σ → Except ε α} {s : σ}

theorem reading_ok {g : α → EStateM ε σ β} {a : α} (hf : f s = .ok a) :
    (reading f >>= g) s = g a s := by
  change EStateM.bind _ _ s = _
  unfold EStateM.bind reading
  rw [hf]

theorem reading_error {g : α → EStateM ε σ β} {e : ε} (hf : f s = .error e) :
    (reading f >>= g) s = .error e s := by
  change EStateM.bind _ _ s = _
  unfold EStateM.bind reading
  rw [hf]

theorem reading_bind (f : σ → Except ε α) (g : α → σ → Except ε β) :
    (reading f >>= fun a => reading (g a)) = reading fun s => f s >>= fun a => g a s := by
  funext s
  cases hf : f s with
  | error e =>
    rw [reading_error hf]
    simp only [reading, hf]
    rfl
  | ok a =>
    rw [reading_ok hf]
    simp only [reading, hf]
    rfl

/-- A loop of checks is a check. -/
theorem foldlM_reading (f : σ → β → α → Except ε β) (l : List α) (b : β) :
    (l.foldlM (fun b a => reading fun s => f s b a) b) = reading fun s => l.foldlM (f s) b := by
  induction l generalizing b with
  | nil => rfl
  | cons a l ih =>
    simp only [List.foldlM_cons]
    rw [← reading_bind]
    exact congrArg _ (funext ih)

/-- Checks that are followed by a change. -/
theorem result_checked (f : σ → Except ε α) (h : α → σ → σ) (s : σ) :
    result (reading f >>= fun a => modify (h a)) s = f s >>= fun a => pure (h a s) := by
  unfold result
  cases hf : f s with
  | error e =>
    rw [reading_error hf]
    rfl
  | ok a =>
    rw [reading_ok hf]
    rfl

/-- As long as it only checks, it changes nothing. -/
theorem stateLeft_checked {h : α → σ → σ} {e : ε}
    (hresult : result (reading f >>= fun a => modify (h a)) s = .error e) :
    stateLeft (reading f >>= fun a => modify (h a)) s = s := by
  rw [result_checked] at hresult
  cases hf : f s with
  | error e' =>
    unfold stateLeft
    rw [reading_error hf]
  | ok a =>
    rw [hf] at hresult
    cases hresult

end

end Fallible
