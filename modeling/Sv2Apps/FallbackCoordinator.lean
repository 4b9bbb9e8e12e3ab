/-
  FallbackCoordinator.lean
  ========================
  **The fallback coordinator** — `stratum-apps/src/fallback_coordinator.rs`: a counter of the
  registered handlers, a token and a `Notify` with room for one permit.

  Each atomic access is a step of its own, of one call of `trigger_fallback_and_wait`, of
  `register`, or of the call of `done` of one of the handlers.  The counter may come back to zero
  several times, and what was notified for one of them may be taken for the last
  (`fallback_waits`).

  A handler that is dropped without `done` panics and is left out; the counter does not wrap.
-/
import Sv2Apps.Lib.Runs
import Mathlib.Data.List.Basic

namespace Sv2Apps

/-- Where a handler is: `done` has not been called, or has been called and is between its steps. -/
inductive HandlerState where
  | active
  /-- `fetch_sub` has returned the previous count. -/
  | subtracted (prev : Nat)
  | notifying
  | finished
deriving DecidableEq

/-- Where the call of `trigger_fallback_and_wait` is. -/
inductive WaiterState where
  | idle
  | triggered
  /-- The count was not zero. -/
  | waiting
  | blocked
  | woken
  | returned
deriving DecidableEq

structure FallbackCoordinator where
  signal : Bool
  pendingTasks : Nat
  permit : Bool
  handlers : List HandlerState
  waiter : WaiterState

namespace FallbackCoordinator

/-- `FallbackCoordinator::new`. -/
def new : FallbackCoordinator := ⟨false, 0, false, [], .idle⟩

inductive Action where
  | register
  /-- Somebody cancels the token. -/
  | cancel
  | subtract (i : Nat)
  | check (i : Nat)
  | notify (i : Nat)
  | trigger
  | load
  | wait
  | wake
deriving DecidableEq

/-- `Notify::notify_one`: a waiter is woken, or one permit is stored. -/
def notifyOne (s : FallbackCoordinator) : FallbackCoordinator :=
  if s.waiter = .blocked then { s with waiter := .woken } else { s with permit := true }

def setHandler (s : FallbackCoordinator) (i : Nat) (h : HandlerState) : FallbackCoordinator :=
  { s with handlers := s.handlers.set i h }

def step (s : FallbackCoordinator) : Action → FallbackCoordinator
  | .register =>
    { s with pendingTasks := s.pendingTasks + 1, handlers := s.handlers ++ [.active] }
  | .cancel => { s with signal := true }
  | .subtract i =>
    match s.handlers[i]? with
    | some .active =>
      { s.setHandler i (.subtracted s.pendingTasks) with pendingTasks := s.pendingTasks - 1 }
    | _ => s
  | .check i =>
    match s.handlers[i]? with
    | some (.subtracted prev) =>
      s.setHandler i (if s.signal ∧ prev = 1 then .notifying else .finished)
    | _ => s
  | .notify i =>
    match s.handlers[i]? with
    | some .notifying => s.notifyOne.setHandler i .finished
    | _ => s
  | .trigger => if s.waiter = .idle then { s with signal := true, waiter := .triggered } else s
  | .load =>
    if s.waiter = .triggered then
      { s with waiter := if s.pendingTasks = 0 then .returned else .waiting }
    else s
  | .wait =>
    if s.waiter = .waiting then
      if s.permit then { s with permit := false, waiter := .returned }
      else { s with waiter := .blocked }
    else s
  | .wake => if s.waiter = .woken then { s with waiter := .returned } else s

/-- The state after a run. -/
def after (as : List Action) : FallbackCoordinator := Runs.run step new as

/-! ## The property -/

/-- If the call returns by this step, no handler has still to call `done`. -/
def ReturnsInTime (s : FallbackCoordinator) (a : Action) : Prop :=
  s.waiter ≠ .returned → (step s a).waiter = .returned → .active ∉ (step s a).handlers

/-- The call is not blocked for ever: there is a permit, or a handler that is not finished. -/
def NeverStranded (s : FallbackCoordinator) : Prop :=
  s.waiter = .blocked → s.permit = true ∨ ∃ h ∈ s.handlers, h ≠ .finished

/-- A wake-up is on its way: stored, delivered, or owed by a handler that found itself the last. -/
def WakeUpDue (s : FallbackCoordinator) : Prop :=
  s.permit = true ∨ s.waiter = .woken ∨ .subtracted 1 ∈ s.handlers ∨ .notifying ∈ s.handlers

instance (s : FallbackCoordinator) : Decidable s.WakeUpDue := inferInstanceAs (Decidable (_ ∨ _))

/-- The condition on a step: nobody registers while a wake-up is on its way. -/
def orderly (s : FallbackCoordinator) : Action → Prop
  | .register => s.waiter ≠ .returned → ¬s.WakeUpDue
  | _ => True

instance (s : FallbackCoordinator) (a : Action) : Decidable (s.orderly a) := by
  cases a <;> unfold orderly <;> infer_instance

/-! ## A handler moves on -/

section Handlers

variable {l : List HandlerState} {i : Nat} {old new x : HandlerState}

theorem count_active_set (new : HandlerState) (hi : l[i]? = some old) :
    (l.set i new).count .active + (if old = .active then 1 else 0) =
      l.count .active + if new = .active then 1 else 0 := by
  obtain ⟨hlt, hget⟩ := List.getElem?_eq_some_iff.mp hi
  have hmem : l[i] ∈ l := List.getElem_mem hlt
  rw [List.count_set hlt, hget]
  by_cases hold : old = .active
  · have hpos : 0 < l.count .active := by
      rw [List.count_pos_iff, ← hold, ← hget]
      exact hmem
    simp [hold]
    omega
  · simp [hold]

theorem mem_set_of_mem_of_ne (hi : l[i]? = some old) (hx : x ∈ l) (hne : x ≠ old) :
    x ∈ l.set i new := by
  obtain ⟨j, hj, rfl⟩ := List.mem_iff_getElem.mp hx
  obtain ⟨hlt, hget⟩ := List.getElem?_eq_some_iff.mp hi
  have hij : i ≠ j := by
    rintro rfl
    exact hne hget
  exact List.mem_iff_getElem.mpr ⟨j, by simpa using hj, by simp [hij]⟩

theorem mem_of_mem_set_of_ne (hx : x ∈ l.set i new) (hne : x ≠ new) : x ∈ l := by
  rcases List.mem_or_eq_of_mem_set hx with h | h
  · exact h
  · exact absurd h hne

theorem new_mem_set (hi : l[i]? = some old) : new ∈ l.set i new := by
  obtain ⟨hlt, -⟩ := List.getElem?_eq_some_iff.mp hi
  exact List.mem_set hlt new

end Handlers

/-! ## Every run -/

/-- The counter counts the active handlers, the token is cancelled once the call has begun, and a
    call that waits can still be reached. -/
structure Counted (s : FallbackCoordinator) : Prop where
  counted : s.pendingTasks = s.handlers.count .active
  signalled : s.waiter ≠ .idle → s.signal = true
  reachable : s.waiter = .waiting ∨ s.waiter = .blocked →
    s.permit = true ∨ 0 < s.pendingTasks ∨ .subtracted 1 ∈ s.handlers ∨ .notifying ∈ s.handlers

variable {s : FallbackCoordinator}

theorem counted_new : Counted new :=
  ⟨rfl, fun h => absurd rfl h, fun h => by rcases h with h | h <;> cases h⟩

theorem Counted.active_pos (h : Counted s) {i : Nat} (hi : s.handlers[i]? = some .active) :
    0 < s.pendingTasks := by
  rw [h.counted, List.count_pos_iff]
  exact List.mem_of_getElem? hi

/-- `fetch_sub`: the handler that finds the count at one owes a wake-up. -/
theorem Counted.subtract (h : Counted s) (i : Nat) : Counted (step s (.subtract i)) := by
  simp only [FallbackCoordinator.step]
  split
  next hi =>
    have hpos := h.active_pos hi
    have hcount := count_active_set (.subtracted s.pendingTasks) hi
    simp only [if_true, reduceCtorEq, if_false] at hcount
    refine ⟨?_, h.signalled, ?_⟩
    · simp only [setHandler]
      rw [h.counted]
      rw [h.counted] at hcount
      omega
    · intro hw
      simp only [setHandler] at hw ⊢
      rcases h.reachable hw with hp | - | hs | hn
      · exact .inl hp
      · by_cases hone : s.pendingTasks = 1
        · refine .inr (.inr (.inl ?_))
          rw [hone]
          exact new_mem_set hi
        · exact .inr (.inl (by omega))
      · exact .inr (.inr (.inl (mem_set_of_mem_of_ne hi hs nofun)))
      · exact .inr (.inr (.inr (mem_set_of_mem_of_ne hi hn nofun)))
  next => exact h

/-- The token has been cancelled by the time that the call waits, so the last handler notifies. -/
theorem Counted.check (h : Counted s) (i : Nat) : Counted (step s (.check i)) := by
  simp only [FallbackCoordinator.step]
  split
  next prev hi =>
    have hcount := count_active_set
      (if s.signal = true ∧ prev = 1 then HandlerState.notifying else .finished) hi
    have hnew : (if s.signal = true ∧ prev = 1 then HandlerState.notifying else .finished) ≠
        .active := by split <;> exact nofun
    simp only [reduceCtorEq, if_false, if_neg hnew, Nat.add_zero] at hcount
    refine ⟨?_, h.signalled, ?_⟩
    · exact h.counted.trans hcount.symm
    · intro hw
      have hsignal : s.signal = true := by
        refine h.signalled ?_
        rcases hw with hw | hw
        · exact fun he => by rw [show s.waiter = .waiting from hw] at he; cases he
        · exact fun he => by rw [show s.waiter = .blocked from hw] at he; cases he
      simp only [setHandler, hsignal, true_and]
      rcases h.reachable hw with hp | hpos | hs | hn
      · exact .inl hp
      · exact .inr (.inl hpos)
      · by_cases hprev : prev = 1
        · rw [if_pos hprev]
          exact .inr (.inr (.inr (new_mem_set hi)))
        · refine .inr (.inr (.inl (mem_set_of_mem_of_ne hi hs ?_)))
          intro heq
          cases heq
          exact hprev rfl
      · exact .inr (.inr (.inr (mem_set_of_mem_of_ne hi hn nofun)))
  next => exact h

theorem Counted.notify (h : Counted s) (i : Nat) : Counted (step s (.notify i)) := by
  simp only [FallbackCoordinator.step]
  split
  next hi =>
    have hcount := count_active_set .finished hi
    simp only [reduceCtorEq, if_false, Nat.add_zero] at hcount
    unfold notifyOne
    split
    next hblocked =>
      refine ⟨h.counted.trans hcount.symm, fun _ => ?_, fun hw => ?_⟩
      · refine h.signalled ?_
        rw [hblocked]
        exact nofun
      · rcases hw with hw | hw <;> cases hw
    · exact ⟨h.counted.trans hcount.symm, h.signalled, fun _ => .inl rfl⟩
  next => exact h

theorem Counted.step (h : Counted s) (a : Action) : Counted (step s a) := by
  cases a with
  | register =>
    refine ⟨?_, h.signalled, fun _ => .inr (.inl (Nat.succ_pos _))⟩
    simp [FallbackCoordinator.step, h.counted]
  | cancel => exact ⟨h.counted, fun _ => rfl, h.reachable⟩
  | subtract i => exact h.subtract i
  | check i => exact h.check i
  | notify i => exact h.notify i
  | trigger =>
    simp only [FallbackCoordinator.step]
    split
    · exact ⟨h.counted, fun _ => rfl, fun hw => by rcases hw with hw | hw <;> cases hw⟩
    · exact h
  | load =>
    simp only [FallbackCoordinator.step]
    split
    next htriggered =>
      have hsignal : s.signal = true := h.signalled (by rw [htriggered]; exact nofun)
      refine ⟨h.counted, fun _ => hsignal, fun hw => ?_⟩
      by_cases hzero : s.pendingTasks = 0
      · rw [if_pos hzero] at hw
        rcases hw with hw | hw <;> cases hw
      · exact .inr (.inl (Nat.pos_of_ne_zero hzero))
    · exact h
  | wait =>
    simp only [FallbackCoordinator.step]
    split
    next hwaiting =>
      have hsignal : s.signal = true := h.signalled (by rw [hwaiting]; exact nofun)
      split
      · exact ⟨h.counted, fun _ => hsignal, fun hw => by rcases hw with hw | hw <;> cases hw⟩
      · exact ⟨h.counted, fun _ => hsignal, fun _ => h.reachable (.inl hwaiting)⟩
    · exact h
  | wake =>
    simp only [FallbackCoordinator.step]
    split
    next hwoken =>
      exact ⟨h.counted, fun _ => h.signalled (by rw [hwoken]; exact nofun),
        fun hw => by rcases hw with hw | hw <;> cases hw⟩
    · exact h

theorem Counted.neverStranded (h : Counted s) : NeverStranded s := by
  intro hblocked
  rcases h.reachable (.inr hblocked) with hp | hpos | hs | hn
  · exact .inl hp
  · rw [h.counted, List.count_pos_iff] at hpos
    exact .inr ⟨_, hpos, nofun⟩
  · exact .inr ⟨_, hs, nofun⟩
  · exact .inr ⟨_, hn, nofun⟩

/-! ## Runs without late registrations -/

/-- A wake-up that is on its way is for a count that is still zero. -/
def Settled (s : FallbackCoordinator) : Prop :=
  s.waiter ≠ .returned → s.WakeUpDue → s.pendingTasks = 0

theorem settled_new : Settled new := by
  rintro - (h | h | h | h) <;> cases h

/-- A handler that moves on and is not the last one brings no wake-up about. -/
theorem Settled.moved (h : Settled s) {i n : Nat} {old new : HandlerState}
    (hi : s.handlers[i]? = some old) (hn : n ≤ s.pendingTasks)
    (hnew : new = .subtracted 1 ∨ new = .notifying →
      n = 0 ∨ old = .subtracted 1 ∨ old = .notifying) :
    Settled { s.setHandler i new with pendingTasks := n } := by
  have hold : old = .subtracted 1 ∨ old = .notifying → s.WakeUpDue := by
    rintro (rfl | rfl)
    · exact .inr (.inr (.inl (List.mem_of_getElem? hi)))
    · exact .inr (.inr (.inr (List.mem_of_getElem? hi)))
  intro hw hdue
  have hzero : s.WakeUpDue → n = 0 := fun hd => by
    have := h hw hd
    omega
  have hcome : new = .subtracted 1 ∨ new = .notifying → n = 0 := by
    intro hcase
    rcases hnew hcase with h0 | hdue
    · exact h0
    · exact hzero (hold hdue)
  rcases hdue with hp | hwoken | hs | hn'
  · exact hzero (.inl hp)
  · exact hzero (.inr (.inl hwoken))
  · by_cases hne : HandlerState.subtracted 1 = new
    · exact hcome (.inl hne.symm)
    · exact hzero (.inr (.inr (.inl (mem_of_mem_set_of_ne hs hne))))
  · by_cases hne : HandlerState.notifying = new
    · exact hcome (.inr hne.symm)
    · exact hzero (.inr (.inr (.inr (mem_of_mem_set_of_ne hn' hne))))

theorem Settled.notifyOne (h : Settled s) (hdue : .notifying ∈ s.handlers) :
    Settled s.notifyOne := by
  have hzero : s.waiter ≠ .returned → s.pendingTasks = 0 := fun hw => h hw (.inr (.inr (.inr hdue)))
  unfold FallbackCoordinator.notifyOne
  split
  next hblocked =>
    intro _ _
    exact hzero (by rw [hblocked]; exact nofun)
  · intro hw _
    exact hzero hw

theorem Settled.step (h : Settled s) (a : Action) (hok : s.orderly a) : Settled (step s a) := by
  cases a with
  | register =>
    intro hw hdue
    refine absurd ?_ (hok hw)
    rcases hdue with hp | hwoken | hs | hn
    · exact .inl hp
    · exact .inr (.inl hwoken)
    · exact .inr (.inr (.inl (by simpa [FallbackCoordinator.step] using hs)))
    · exact .inr (.inr (.inr (by simpa [FallbackCoordinator.step] using hn)))
  | cancel => exact h
  | subtract i =>
    simp only [FallbackCoordinator.step]
    split
    next hi =>
      refine h.moved hi (Nat.sub_le _ _) ?_
      rintro (hnew | hnew)
      · injection hnew with hone
        exact .inl (by omega)
      · cases hnew
    next => exact h
  | check i =>
    simp only [FallbackCoordinator.step]
    split
    next prev hi =>
      refine h.moved hi (Nat.le_refl s.pendingTasks) ?_
      split
      next hlast =>
        intro _
        rw [hlast.2]
        exact .inr (.inl rfl)
      next =>
        rintro (hnew | hnew) <;> cases hnew
    next => exact h
  | notify i =>
    simp only [FallbackCoordinator.step]
    split
    next hi =>
      have hmem : .notifying ∈ s.handlers := List.mem_of_getElem? hi
      have hi' : s.notifyOne.handlers[i]? = some .notifying := by
        unfold FallbackCoordinator.notifyOne
        split <;> exact hi
      have hmoved : Settled (s.notifyOne.setHandler i .finished) :=
        (h.notifyOne hmem).moved hi' (Nat.le_refl _) (by rintro (hnew | hnew) <;> cases hnew)
      exact hmoved
    next => exact h
  | trigger =>
    simp only [FallbackCoordinator.step]
    split
    next hidle =>
      intro _ hdue
      refine h (by rw [hidle]; exact nofun) ?_
      rcases hdue with hp | hwoken | hs | hn
      · exact .inl hp
      · cases hwoken
      · exact .inr (.inr (.inl hs))
      · exact .inr (.inr (.inr hn))
    · exact h
  | load =>
    simp only [FallbackCoordinator.step]
    split
    next htriggered =>
      by_cases hzero : s.pendingTasks = 0
      · intro _ _
        exact hzero
      · rw [if_neg hzero]
        intro _ hdue
        refine h (by rw [htriggered]; exact nofun) ?_
        rcases hdue with hp | hwoken | hs | hn
        · exact .inl hp
        · cases hwoken
        · exact .inr (.inr (.inl hs))
        · exact .inr (.inr (.inr hn))
    · exact h
  | wait =>
    simp only [FallbackCoordinator.step]
    split
    next hwaiting =>
      split
      · intro hw
        exact absurd rfl hw
      · intro _ hdue
        refine h (by rw [hwaiting]; exact nofun) ?_
        rcases hdue with hp | hwoken | hs | hn
        · exact .inl hp
        · cases hwoken
        · exact .inr (.inr (.inl hs))
        · exact .inr (.inr (.inr hn))
    · exact h
  | wake =>
    simp only [FallbackCoordinator.step]
    split
    · intro hw
      exact absurd rfl hw
    · exact h

theorem Counted.none_active (h : Counted s) (hzero : s.pendingTasks = 0) :
    .active ∉ s.handlers := by
  rw [h.counted, List.count_eq_zero] at hzero
  exact hzero

/-- The call returns for a count of zero: one that it has read, or one that it was woken for. -/
theorem returnsInTime (h : Counted s) (hs : Settled s) (a : Action) : ReturnsInTime s a := by
  intro hw hreturned
  have hkept : (step s a).waiter = s.waiter → .active ∉ (step s a).handlers := by
    intro heq
    rw [heq] at hreturned
    exact absurd hreturned hw
  cases a with
  | register => exact hkept rfl
  | cancel => exact hkept rfl
  | subtract i => exact hkept (by simp only [step]; split <;> rfl)
  | check i => exact hkept (by simp only [step]; split <;> rfl)
  | notify i =>
    simp only [step] at hreturned
    split at hreturned
    · unfold notifyOne at hreturned
      split at hreturned
      · cases hreturned
      · exact absurd hreturned hw
    · exact absurd hreturned hw
  | trigger =>
    simp only [step] at hreturned
    split at hreturned
    · cases hreturned
    · exact absurd hreturned hw
  | load =>
    simp only [step] at hreturned ⊢
    split at hreturned
    next htriggered =>
      rw [if_pos htriggered]
      by_cases hzero : s.pendingTasks = 0
      · exact h.none_active hzero
      · rw [if_neg hzero] at hreturned
        cases hreturned
    · exact absurd hreturned hw
  | wait =>
    simp only [step] at hreturned ⊢
    split at hreturned
    next hwaiting =>
      rw [if_pos hwaiting]
      split at hreturned
      next hp =>
        rw [if_pos hp]
        exact h.none_active (hs hw (.inl hp))
      next => cases hreturned
    · exact absurd hreturned hw
  | wake =>
    simp only [step] at hreturned ⊢
    split at hreturned
    next hwoken =>
      rw [if_pos hwoken]
      exact h.none_active (hs hw (.inr (.inl hwoken)))
    · exact absurd hreturned hw

/-- **Fallback waits for everyone**: in no run is the call left blocked with nobody to wake it, and
    in every run in which nobody registers while a wake-up is on its way, no handler has still to
    call `done` when it returns. -/
theorem fallback_waits (as : List Action) :
    NeverStranded (after as) ∧
      (Runs.Guarded step orderly new as →
        ∀ bs a cs, as = bs ++ a :: cs → ReturnsInTime (after bs) a) := by
  have hcounted : ∀ bs, Counted (after bs) := fun bs =>
    Runs.run_invariant Counted (fun _ a hs => hs.step a) counted_new bs
  refine ⟨(hcounted as).neverStranded, ?_⟩
  rintro h bs a cs rfl
  have hsettled : Settled (after bs) :=
    Runs.run_invariant_of_guarded Settled (fun _ a hs hok => hs.step a hok) settled_new bs
      (Runs.guarded_append.mp h).1
  exact returnsInTime (hcounted bs) hsettled a

/-- Two tasks register, the call begins, and the second task is the last to finish. -/
def orderlyRun : List Action :=
  [.register, .register, .subtract 0, .check 0, .trigger, .load, .wait, .subtract 1, .check 1,
    .notify 1, .wake]

theorem fallback_waits_orderly :
    Runs.Guarded step orderly new orderlyRun ∧ (after orderlyRun).waiter = .returned ∧
      NeverStranded (after orderlyRun) ∧
      ∀ bs a cs, orderlyRun = bs ++ a :: cs → ReturnsInTime (after bs) a := by
  have h : Runs.Guarded step orderly new orderlyRun := by decide
  exact ⟨h, by decide, (fallback_waits orderlyRun).1, (fallback_waits orderlyRun).2 h⟩

/-- A task registers, cancels the token and finishes; another one, spawned before, registers only
    now.  The call takes the permit of the first for that of the last. -/
theorem late_registration_missed :
    let bs : List Action :=
      [.register, .cancel, .subtract 0, .check 0, .notify 0, .register, .trigger, .load]
    (after (bs ++ [.wait])).waiter = .returned ∧ .active ∈ (after (bs ++ [.wait])).handlers ∧
      ¬ReturnsInTime (after bs) .wait := by
  have hw : (after [.register, .cancel, .subtract 0, .check 0, .notify 0, .register, .trigger,
      .load]).waiter ≠ .returned := by decide
  refine ⟨by decide, by decide, fun h => ?_⟩
  exact h hw (by decide) (by decide)

end FallbackCoordinator

end Sv2Apps
