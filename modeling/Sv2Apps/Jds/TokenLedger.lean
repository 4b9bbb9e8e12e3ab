/-
  Jds/TokenLedger.lean
  ====================
  **What the job declarator does with tokens, step by step** — an abstract ledger that
  forgets everything but the two token maps, the tokens issued so far, the half-done
  activation and the presentation in progress.  `LedgerStep` lists the moves: entries
  may vanish at any time, a token is allocated, an activation begins and ends, a
  presentation is checked, deactivated and accepted.

  `ledger_step` is the refinement: every step of the system is one of these moves.
  `Recorded` says what every token in use goes back to and holds for ever; `LedgerInv`
  adds that nothing is issued, activated or accepted twice, and is kept by every move as
  long as the 64-bit counter has not wrapped around.
-/
import Sv2Apps.Jds.JobDeclarator

namespace Sv2Apps.Jds

/-- The token side of a system state. -/
structure Ledger where
  tm : TokenManager
  history : List Issue
  activation : Option (Declaration × AllocatedTokenData)
  pool : PoolTask
  accepted : List Presentation

def JdsTask.activation : JdsTask → Option (Declaration × AllocatedTokenData)
  | .activating w data => some (w, data)
  | _ => none

def PoolTask.presentation : PoolTask → Option Presentation
  | .deactivating p => some p
  | .taking p => some p
  | _ => none

def System.ledger (s : System) : Ledger :=
  ⟨s.tokenManager, s.history, s.jds.activation, s.pool, s.accepted⟩

/-- `tm'` has the counter of `tm` and no entry that `tm` does not have. -/
structure Shrinks (tm tm' : TokenManager) : Prop where
  factory : tm'.tokenFactory = tm.tokenFactory
  allocated : ∀ t data, tm'.allocatedTokens.lookup t = some data →
    tm.allocatedTokens.lookup t = some data
  active : ∀ t data, tm'.activeTokens.lookup t = some data →
    tm.activeTokens.lookup t = some data

/-- The moves of the ledger. -/
inductive LedgerStep : Ledger → Ledger → Prop where
  | shrink (l : Ledger) (tm' : TokenManager) (pool' : PoolTask) :
      Shrinks l.tm tm' → (pool' = l.pool ∨ pool'.presentation = none) →
      LedgerStep l { l with tm := tm', pool := pool' }
  | allocate (l : Ledger) (client : DownstreamId) (identity : Identity) (now : Instant) :
      LedgerStep l { l with
        tm := (l.tm.allocate client identity now).2
        history := .allocation (l.tm.allocate client identity now).1 client identity ::
          l.history }
  | activateRemove (l : Ledger) (w : Declaration) (data : AllocatedTokenData)
      (tm' : TokenManager) :
      l.activation = none → l.tm.activateRemove w.token w.client = some (data, tm') →
      LedgerStep l { l with tm := tm', activation := some (w, data) }
  | activateInsert (l : Ledger) (w : Declaration) (data : AllocatedTokenData)
      (now : Instant) :
      l.activation = some (w, data) →
      LedgerStep l { l with
        tm := (l.tm.activateInsert w.token w.client data now).2
        history := .activation (l.tm.activateInsert w.token w.client data now).1 w.token
          w.client data.userIdentity :: l.history
        activation := none }
  | present (l : Ledger) (p : Presentation) :
      l.pool = .idle → l.tm.allocatedFromActive p.activeToken = some p.data →
      p.userIdentity = p.data.userIdentity →
      LedgerStep l { l with pool := .deactivating p }
  | deactivate (l : Ledger) (p : Presentation) :
      l.pool = .deactivating p →
      LedgerStep l { l with tm := l.tm.deactivate p.activeToken, pool := .taking p }
  | accept (l : Ledger) (p : Presentation) :
      l.pool = .taking p →
      LedgerStep l { l with accepted := p :: l.accepted, pool := .idle }

/-! ## The system refines the ledger -/

theorem Shrinks.refl (tm : TokenManager) : Shrinks tm tm :=
  ⟨rfl, fun _ _ h => h, fun _ _ h => h⟩

theorem shrinks_deallocate (tm : TokenManager) (t : JdToken) :
    Shrinks tm (tm.deallocate t) := by
  refine ⟨rfl, ?_, fun _ _ h => h⟩
  intro u data h
  rw [TokenManager.deallocate, KeyMap.lookup_erase_eq] at h
  split at h
  · cases h
  · exact h

theorem shrinks_deactivate (tm : TokenManager) (t : JdToken) :
    Shrinks tm (tm.deactivate t) := by
  refine ⟨rfl, fun _ _ h => h, ?_⟩
  intro u data h
  rw [TokenManager.deactivate, KeyMap.lookup_erase_eq] at h
  split at h
  · cases h
  · exact h

theorem shrinks_retainAllocated (tm : TokenManager) (p : JdToken → AllocatedTokenData → Bool) :
    Shrinks tm { tm with allocatedTokens := KeyMap.retain p tm.allocatedTokens } :=
  ⟨rfl, fun _ _ h => KeyMap.lookup_retain_some h, fun _ _ h => h⟩

theorem shrinks_retainActive (tm : TokenManager) (p : JdToken → ActiveTokenData → Bool) :
    Shrinks tm { tm with activeTokens := KeyMap.retain p tm.activeTokens } :=
  ⟨rfl, fun _ _ h => h, fun _ _ h => KeyMap.lookup_retain_some h⟩

/-- A step that leaves the token side alone. -/
theorem LedgerStep.stutter {l l' : Ledger} (h : l' = l) : LedgerStep l l' := by
  subst h
  exact .shrink l' l'.tm l'.pool (Shrinks.refl _) (.inl rfl)

/-- A step that only drops entries. -/
theorem LedgerStep.of_shrinks {l : Ledger} {tm' : TokenManager} (h : Shrinks l.tm tm') :
    LedgerStep l { l with tm := tm' } :=
  .shrink l tm' l.pool h (.inl rfl)

theorem receive_ledger (env : Env) (s : System) (client : DownstreamId)
    (msg : JobDeclarationMessage) (now : Instant) :
    LedgerStep s.ledger (s.receive env client msg now).ledger := by
  unfold System.receive
  cases hjds : s.jds with
  | idle =>
    cases msg with
    | allocateMiningJobToken m =>
      have h := LedgerStep.allocate s.ledger client m.userIdentifier now
      simpa only [System.ledger, hjds, JdsTask.activation] using h
    | declareMiningJob m =>
      dsimp only
      split
      · exact .stutter rfl
      · exact .stutter (by simp [System.ledger, hjds, JdsTask.activation])
    | provideMissingTransactionsSuccess m =>
      dsimp only
      split
      · exact .stutter rfl
      · exact .stutter (by simp [System.ledger, hjds, JdsTask.activation])
  | _ => exact .stutter rfl

theorem conclude_ledger (s : System) (w : Declaration) (result : DeclareMiningJobResult)
    (now : Instant) (hjds : s.jds.activation = none) :
    LedgerStep s.ledger (s.conclude w result now).ledger := by
  have hdrop : LedgerStep s.ledger
      ⟨s.tokenManager.deallocate w.token, s.history, none, s.pool, s.accepted⟩ := by
    have h : LedgerStep s.ledger { s.ledger with tm := s.tokenManager.deallocate w.token } :=
      .of_shrinks (shrinks_deallocate s.tokenManager w.token)
    simpa only [System.ledger, hjds] using h
  have hkeep : ∀ s' : System, s'.ledger = ⟨s.tokenManager, s.history, none, s.pool, s.accepted⟩ →
      LedgerStep s.ledger s'.ledger := by
    intro s' h
    exact .stutter (by rw [h]; simp only [System.ledger, hjds])
  unfold System.conclude
  cases result with
  | success =>
    dsimp only
    split
    next data tm' hrem =>
      exact .activateRemove s.ledger w data tm' hjds hrem
    next => exact hkeep _ rfl
  | error code => exact hdrop
  | missingTransactions missing =>
    dsimp only
    split
    next => exact hdrop
    next =>
      split
      next => exact hkeep _ rfl
      next => split <;> exact hkeep _ rfl
  | panic => exact hkeep _ rfl

theorem jdsStep_ledger (env : Env) (s : System) (response : Option JdResponse)
    (now : Instant) : LedgerStep s.ledger (s.jdsStep env response now).ledger := by
  unfold System.jdsStep
  cases hjds : s.jds with
  | idle => exact .stutter rfl
  | stopped => exact .stutter rfl
  | answering client a =>
    dsimp only
    split <;> exact .stutter (by simp [System.ledger, System.answer, hjds, JdsTask.activation])
  | checking client dmj =>
    dsimp only
    split
    next => exact .stutter (by
      simp [System.ledger, System.answerError, System.answer, hjds, JdsTask.activation])
    next =>
      split <;> exact .stutter (by
        simp [System.ledger, System.answerError, System.answer, hjds, JdsTask.activation])
  | retrying client msg =>
    dsimp only
    split
    next => exact .stutter (by simp [System.ledger, hjds, JdsTask.activation])
    next =>
      split
      next => exact .stutter (by simp [System.ledger, hjds, JdsTask.activation])
      next => split <;> exact .stutter (by simp [System.ledger, hjds, JdsTask.activation])
  | validating w =>
    dsimp only
    split <;> exact .stutter (by simp [System.ledger, hjds, JdsTask.activation])
  | ensuring w t previous => exact .stutter (by simp [System.ledger, hjds, JdsTask.activation])
  | waiting w t previous => exact .stutter (by simp [System.ledger, hjds, JdsTask.activation])
  | concluding w result =>
    exact conclude_ledger s w result now (by simp [hjds, JdsTask.activation])
  | activating w data =>
    exact .activateInsert s.ledger w data now (by simp [System.ledger, hjds, JdsTask.activation])

theorem present_ledger (s : System) (msg : SetCustomMiningJob) (userIdentity : Identity) :
    LedgerStep s.ledger (s.present msg userIdentity).ledger := by
  unfold System.present
  cases hpool : s.pool with
  | idle =>
    have hrefuse : ∀ r, LedgerStep s.ledger (s.respond msg r).ledger := by
      intro r
      exact .stutter (by simp [System.ledger, System.respond, hpool])
    dsimp only
    split
    next => exact hrefuse _
    next activeToken _ =>
      split
      next => exact hrefuse _
      next data hdata =>
        split
        next => exact hrefuse _
        next hid =>
          exact .present s.ledger ⟨msg, userIdentity, activeToken, data⟩ hpool hdata
            (not_not.mp hid)
  | _ => exact .stutter rfl

theorem poolStep_ledger (env : Env) (s : System) :
    LedgerStep s.ledger (s.poolStep env).ledger := by
  unfold System.poolStep
  cases hpool : s.pool with
  | idle => exact .stutter rfl
  | stopped => exact .stutter rfl
  | deactivating p => exact .deactivate s.ledger p hpool
  | taking p =>
    dsimp only
    split
    next => exact .accept s.ledger p hpool
    next => exact .shrink s.ledger s.tokenManager .idle (Shrinks.refl _) (.inr rfl)
    next => exact .shrink s.ledger s.tokenManager .stopped (Shrinks.refl _) (.inr rfl)

/-- **Every step of the system is a move of the ledger.** -/
theorem ledger_step (env : Env) (s : System) (a : Action) :
    LedgerStep s.ledger (s.step env a).ledger := by
  cases a with
  | connect => exact .stutter rfl
  | receive client msg now => exact receive_ledger env s client msg now
  | jds response now => exact jdsStep_ledger env s response now
  | present msg userIdentity => exact present_ledger s msg userIdentity
  | pool => exact poolStep_ledger env s
  | cleanupClient d => exact .stutter rfl
  | cleanupSender d => exact .stutter rfl
  | cleanupState d => exact .stutter rfl
  | cleanupAllocated d shard => exact .of_shrinks (shrinks_retainAllocated _ _)
  | cleanupActive d shard => exact .of_shrinks (shrinks_retainActive _ _)
  | janitorAllocated shard now => exact .of_shrinks (shrinks_retainAllocated _ _)
  | janitorActive shard now => exact .of_shrinks (shrinks_retainActive _ _)
  | janitorDeclared d now => exact .stutter rfl
  | janitorPending d shard now => exact .stutter rfl

/-! ## What is recorded of every token -/

/-- Every entry, and every token in progress, is one that the history accounts for: an
    allocated entry by its allocation, an active one by its activation and the allocation
    behind it. -/
structure Recorded (l : Ledger) : Prop where
  allocated : ∀ t data, l.tm.allocatedTokens.lookup t = some data →
    Issue.allocation t data.owner data.userIdentity ∈ l.history
  active : ∀ t data, l.tm.activeTokens.lookup t = some data →
    Issue.activation t data.allocatedToken data.owner data.userIdentity ∈ l.history
  activated : ∀ t a d u, Issue.activation t a d u ∈ l.history →
    Issue.allocation a d u ∈ l.history
  activating : ∀ w data, l.activation = some (w, data) →
    Issue.allocation w.token w.client data.userIdentity ∈ l.history
  presenting : ∀ p, l.pool.presentation = some p →
    Issue.activation p.activeToken p.data.allocatedToken p.data.owner p.data.userIdentity
      ∈ l.history ∧ p.userIdentity = p.data.userIdentity
  accepted : ∀ p ∈ l.accepted,
    Issue.activation p.activeToken p.data.allocatedToken p.data.owner p.data.userIdentity
      ∈ l.history ∧ p.userIdentity = p.data.userIdentity

theorem recorded_new : Recorded System.new.ledger := by
  constructor <;>
    simp [System.ledger, System.new, TokenManager.new, JdsTask.activation,
      PoolTask.presentation]

/-- The history may grow and the maps may shrink. -/
theorem Recorded.mono {l l' : Ledger} (h : Recorded l) (hhist : l.history <:+ l'.history)
    (hall : ∀ t data, l'.tm.allocatedTokens.lookup t = some data →
      l.tm.allocatedTokens.lookup t = some data ∨
        Issue.allocation t data.owner data.userIdentity ∈ l'.history)
    (hact : ∀ t data, l'.tm.activeTokens.lookup t = some data →
      l.tm.activeTokens.lookup t = some data ∨
        Issue.activation t data.allocatedToken data.owner data.userIdentity ∈ l'.history)
    (hnew : ∀ t a d u, Issue.activation t a d u ∈ l'.history →
      Issue.activation t a d u ∈ l.history ∨ Issue.allocation a d u ∈ l.history)
    (hing : ∀ w data, l'.activation = some (w, data) → l.activation = some (w, data) ∨
      Issue.allocation w.token w.client data.userIdentity ∈ l.history)
    (hpres : ∀ p, l'.pool.presentation = some p → l.pool.presentation = some p ∨
      Issue.activation p.activeToken p.data.allocatedToken p.data.owner p.data.userIdentity
        ∈ l.history ∧ p.userIdentity = p.data.userIdentity)
    (hacc : ∀ p ∈ l'.accepted, p ∈ l.accepted ∨ l.pool.presentation = some p) :
    Recorded l' := by
  refine ⟨?_, ?_, ?_, ?_, ?_, ?_⟩
  · intro t data ht
    rcases hall t data ht with hold | hmem
    · exact hhist.subset (h.allocated t data hold)
    · exact hmem
  · intro t data ht
    rcases hact t data ht with hold | hmem
    · exact hhist.subset (h.active t data hold)
    · exact hmem
  · intro t a d u hm
    rcases hnew t a d u hm with hold | hmem
    · exact hhist.subset (h.activated t a d u hold)
    · exact hhist.subset hmem
  · intro w data hw
    rcases hing w data hw with hold | hmem
    · exact hhist.subset (h.activating w data hold)
    · exact hhist.subset hmem
  · intro p hp
    rcases hpres p hp with hold | ⟨hmem, hid⟩
    · obtain ⟨hmem, hid⟩ := h.presenting p hold
      exact ⟨hhist.subset hmem, hid⟩
    · exact ⟨hhist.subset hmem, hid⟩
  · intro p hp
    rcases hacc p hp with hold | hpresenting
    · obtain ⟨hmem, hid⟩ := h.accepted p hold
      exact ⟨hhist.subset hmem, hid⟩
    · obtain ⟨hmem, hid⟩ := h.presenting p hpresenting
      exact ⟨hhist.subset hmem, hid⟩

/-- Nothing is ever taken off the record of issued tokens. -/
theorem LedgerStep.history_suffix {l l' : Ledger} (h : LedgerStep l l') :
    l.history <:+ l'.history := by
  cases h with
  | allocate => exact List.suffix_cons _ _
  | activateInsert => exact List.suffix_cons _ _
  | _ => exact List.suffix_rfl

theorem LedgerStep.history_length {l l' : Ledger} (h : LedgerStep l l') :
    l'.history.length ≤ l.history.length + 1 := by
  cases h with
  | allocate => exact Nat.le_refl _
  | activateInsert => exact Nat.le_refl _
  | _ => exact Nat.le_succ _

/-- **Every move keeps the records**, however many tokens have been issued. -/
theorem recorded_step {l l' : Ledger} (hstep : LedgerStep l l') (h : Recorded l) :
    Recorded l' := by
  have hhist := hstep.history_suffix
  cases hstep with
  | shrink tm' pool' hs hpool =>
    refine h.mono hhist (fun t data ht => .inl (hs.allocated t data ht))
      (fun t data ht => .inl (hs.active t data ht)) (fun _ _ _ _ hm => .inl hm)
      (fun _ _ hw => .inl hw) ?_ (fun p hp => .inl hp)
    intro p hp
    rcases hpool with rfl | hidle
    · exact .inl hp
    · rw [hidle] at hp; cases hp
  | allocate client identity now =>
    refine h.mono hhist ?_ (fun t data ht => .inl ht) ?_ (fun _ _ hw => .inl hw)
      (fun p hp => .inl hp) (fun p hp => .inl hp)
    · intro t data ht
      simp only [TokenManager.allocate, KeyMap.lookup_insert_eq] at ht
      split at ht
      next heq =>
        cases ht
        right
        rw [heq]
        exact List.mem_cons_self
      next => exact .inl ht
    · intro t a d u hm
      rcases List.mem_cons.mp hm with heq | hm
      · cases heq
      · exact .inl hm
  | activateRemove w data tm' hidle hrem =>
    obtain ⟨hlook, howner, rfl⟩ := TokenManager.activateRemove_eq_some hrem
    refine h.mono hhist ?_ (fun t d ht => .inl ht) (fun _ _ _ _ hm => .inl hm) ?_
      (fun p hp => .inl hp) (fun p hp => .inl hp)
    · intro t d ht
      exact .inl ((shrinks_deallocate l.tm w.token).allocated t d ht)
    · intro w' data' heq
      cases heq
      right
      rw [← howner]
      exact h.allocated _ _ hlook
  | activateInsert w data now hact =>
    refine h.mono hhist (fun t d ht => .inl ht) ?_ ?_ (fun _ _ hw => by cases hw)
      (fun p hp => .inl hp) (fun p hp => .inl hp)
    · intro t d ht
      simp only [TokenManager.activateInsert, KeyMap.lookup_insert_eq] at ht
      split at ht
      next heq =>
        cases ht
        right
        rw [heq]
        exact List.mem_cons_self
      next => exact .inl ht
    · intro t a d u hm
      rcases List.mem_cons.mp hm with heq | hm
      · cases heq
        exact .inr (h.activating w data hact)
      · exact .inl hm
  | present p hidle hlook hid =>
    refine h.mono hhist (fun t d ht => .inl ht) (fun t d ht => .inl ht)
      (fun _ _ _ _ hm => .inl hm) (fun _ _ hw => .inl hw) ?_ (fun p hp => .inl hp)
    intro q hq
    cases hq
    exact .inr ⟨h.active _ _ hlook, hid⟩
  | deactivate p hpool =>
    refine h.mono hhist (fun t d ht => .inl ht) ?_ (fun _ _ _ _ hm => .inl hm)
      (fun _ _ hw => .inl hw) ?_ (fun p hp => .inl hp)
    · intro t d ht
      exact .inl ((shrinks_deactivate l.tm p.activeToken).active t d ht)
    · intro q hq
      cases hq
      exact .inl (by rw [hpool]; rfl)
  | accept p hpool =>
    refine h.mono hhist (fun t d ht => .inl ht) (fun t d ht => .inl ht)
      (fun _ _ _ _ hm => .inl hm) (fun _ _ hw => .inl hw) (fun q hq => by cases hq) ?_
    intro q hq
    rcases List.mem_cons.mp hq with rfl | hq
    · exact .inr (by rw [hpool]; rfl)
    · exact .inl hq

/-! ## What is unique, until the counter wraps around -/

/-- The tokens of the activations so far. -/
def activatedTokens (history : List Issue) : List JdToken := history.filterMap Issue.activated

structure LedgerInv (l : Ledger) : Prop extends Recorded l where
  factory : l.tm.tokenFactory.toNat = l.history.length
  fresh : ∀ i ∈ l.history, i.token.toNat < l.history.length
  issuedOnce : (l.history.map Issue.token).Nodup
  activatedGone : ∀ a ∈ activatedTokens l.history, l.tm.allocatedTokens.lookup a = none
  activatedOnce : (activatedTokens l.history).Nodup
  activatingGone : ∀ w data, l.activation = some (w, data) →
    l.tm.allocatedTokens.lookup w.token = none ∧ w.token ∉ activatedTokens l.history
  taking : ∀ p, l.pool = .taking p → l.tm.activeTokens.lookup p.activeToken = none
  acceptedGone : ∀ p ∈ l.accepted, l.tm.activeTokens.lookup p.activeToken = none ∧
    ∀ q, l.pool.presentation = some q → q.activeToken ≠ p.activeToken
  acceptedOnce : (l.accepted.map Presentation.activeToken).Nodup

theorem ledgerInv_new : LedgerInv System.new.ledger := by
  refine ⟨recorded_new, ?_, ?_, ?_, ?_, ?_, ?_, ?_, ?_, ?_⟩ <;>
    simp [System.ledger, System.new, TokenManager.new, activatedTokens, JdsTask.activation]

theorem LedgerInv.issue_eq {l : Ledger} (h : LedgerInv l) {i j : Issue} (hi : i ∈ l.history)
    (hj : j ∈ l.history) (ht : i.token = j.token) : i = j :=
  List.inj_on_of_nodup_map h.issuedOnce hi hj ht

/-- The next number of the counter has not been issued. -/
theorem LedgerInv.token_ne_factory {l : Ledger} (h : LedgerInv l) {i : Issue}
    (hi : i ∈ l.history) : i.token ≠ l.tm.tokenFactory := by
  intro heq
  have hlt := h.fresh i hi
  rw [heq, h.factory] at hlt
  exact Nat.lt_irrefl _ hlt

theorem LedgerInv.factory_not_active {l : Ledger} (h : LedgerInv l) :
    l.tm.activeTokens.lookup l.tm.tokenFactory = none := by
  cases hlook : l.tm.activeTokens.lookup l.tm.tokenFactory with
  | none => rfl
  | some data => exact absurd rfl (h.token_ne_factory (h.active _ _ hlook))

theorem LedgerInv.factory_not_allocated {l : Ledger} (h : LedgerInv l) :
    l.tm.allocatedTokens.lookup l.tm.tokenFactory = none := by
  cases hlook : l.tm.allocatedTokens.lookup l.tm.tokenFactory with
  | none => rfl
  | some data => exact absurd rfl (h.token_ne_factory (h.allocated _ _ hlook))

/-- Taking a number moves the counter on, unless it wraps around. -/
theorem LedgerInv.factory_succ {l : Ledger} (h : LedgerInv l)
    (hlt : l.history.length + 1 < 2 ^ 64) :
    (l.tm.tokenFactory + 1).toNat = l.history.length + 1 := by
  rw [UInt64.toNat_add, h.factory]
  exact Nat.mod_eq_of_lt hlt

theorem LedgerInv.fresh_cons {l : Ledger} (h : LedgerInv l) (i : Issue)
    (hi : i.token = l.tm.tokenFactory) :
    (∀ j ∈ i :: l.history, j.token.toNat < l.history.length + 1) ∧
      ((i :: l.history).map Issue.token).Nodup := by
  constructor
  · intro j hj
    rcases List.mem_cons.mp hj with rfl | hj
    · rw [hi, h.factory]
      exact Nat.lt_succ_self _
    · exact Nat.lt_succ_of_lt (h.fresh j hj)
  · rw [List.map_cons, List.nodup_cons]
    refine ⟨?_, h.issuedOnce⟩
    intro hmem
    obtain ⟨j, hj, hjt⟩ := List.mem_map.mp hmem
    exact h.token_ne_factory hj (hjt.trans hi)

/-- An activated token was allocated before, so it is not the next number. -/
theorem LedgerInv.activated_ne_factory {l : Ledger} (h : LedgerInv l) {a : JdToken}
    (ha : a ∈ activatedTokens l.history) : a ≠ l.tm.tokenFactory := by
  obtain ⟨i, hi, hact⟩ := List.mem_filterMap.mp ha
  cases i with
  | allocation => cases hact
  | activation t b d u =>
    cases hact
    exact h.token_ne_factory (h.activated _ _ _ _ hi)

theorem ledgerInv_shrink {l : Ledger} (h : LedgerInv l) {tm' : TokenManager} {pool' : PoolTask}
    (hs : Shrinks l.tm tm') (hpool : pool' = l.pool ∨ pool'.presentation = none) :
    LedgerInv { l with tm := tm', pool := pool' } := by
  have hnoneA : ∀ t, l.tm.allocatedTokens.lookup t = none →
      tm'.allocatedTokens.lookup t = none := by
    intro t ht
    cases hlook : tm'.allocatedTokens.lookup t with
    | none => rfl
    | some data => rw [hs.allocated t data hlook] at ht; cases ht
  have hnone : ∀ t, l.tm.activeTokens.lookup t = none → tm'.activeTokens.lookup t = none := by
    intro t ht
    cases hlook : tm'.activeTokens.lookup t with
    | none => rfl
    | some data => rw [hs.active t data hlook] at ht; cases ht
  have hpres : ∀ p, pool'.presentation = some p → l.pool.presentation = some p := by
    intro p hp
    rcases hpool with rfl | hidle
    · exact hp
    · rw [hidle] at hp; cases hp
  refine
    { recorded_step (.shrink l tm' pool' hs hpool) h.toRecorded with
      factory := by rw [hs.factory]; exact h.factory
      fresh := h.fresh
      issuedOnce := h.issuedOnce
      activatedGone := fun a ha => hnoneA a (h.activatedGone a ha)
      activatedOnce := h.activatedOnce
      activatingGone := fun w data hw => ⟨hnoneA _ (h.activatingGone w data hw).1,
        (h.activatingGone w data hw).2⟩
      taking := ?_
      acceptedGone := ?_
      acceptedOnce := h.acceptedOnce }
  · intro p hp
    rcases hpool with rfl | hidle
    · exact hnone _ (h.taking p hp)
    · rw [show pool' = .taking p from hp] at hidle; cases hidle
  · intro p hp
    obtain ⟨hgone, hother⟩ := h.acceptedGone p hp
    exact ⟨hnone _ hgone, fun q hq => hother q (hpres q hq)⟩

theorem ledgerInv_allocate {l : Ledger} (h : LedgerInv l) (client : DownstreamId)
    (identity : Identity) (now : Instant) (hlt : l.history.length + 1 < 2 ^ 64) :
    LedgerInv { l with
      tm := (l.tm.allocate client identity now).2
      history := .allocation (l.tm.allocate client identity now).1 client identity ::
        l.history } := by
  obtain ⟨hfresh, honce⟩ := h.fresh_cons (.allocation l.tm.tokenFactory client identity) rfl
  -- the entry inserted is under a number that no earlier issue carries
  have hkeep : ∀ t, t ≠ l.tm.tokenFactory →
      (l.tm.allocate client identity now).2.allocatedTokens.lookup t =
        l.tm.allocatedTokens.lookup t := by
    intro t ht
    exact AList.lookup_insert_ne ht
  refine
    { recorded_step (.allocate l client identity now) h.toRecorded with
      factory := h.factory_succ hlt
      fresh := hfresh
      issuedOnce := honce
      activatedGone := ?_
      activatedOnce := h.activatedOnce
      activatingGone := ?_
      taking := h.taking
      acceptedGone := h.acceptedGone
      acceptedOnce := h.acceptedOnce }
  · intro a ha
    exact (hkeep a (h.activated_ne_factory ha)).trans (h.activatedGone a ha)
  · intro w data hw
    obtain ⟨hgone, hone⟩ := h.activatingGone w data hw
    refine ⟨?_, hone⟩
    exact (hkeep w.token (h.token_ne_factory (h.activating w data hw))).trans hgone

theorem ledgerInv_activateRemove {l : Ledger} (h : LedgerInv l) {w : Declaration}
    {data : AllocatedTokenData} {tm' : TokenManager} (hidle : l.activation = none)
    (hrem : l.tm.activateRemove w.token w.client = some (data, tm')) :
    LedgerInv { l with tm := tm', activation := some (w, data) } := by
  have hrec := recorded_step (.activateRemove l w data tm' hidle hrem) h.toRecorded
  obtain ⟨hlook, -, rfl⟩ := TokenManager.activateRemove_eq_some hrem
  have hs : Shrinks l.tm { l.tm with allocatedTokens := l.tm.allocatedTokens.erase w.token } :=
    shrinks_deallocate l.tm w.token
  have hbase := ledgerInv_shrink h hs (.inl rfl)
  refine { hrec, hbase with activatingGone := ?_ }
  intro w' data' heq
  cases heq
  refine ⟨AList.lookup_erase _ _, ?_⟩
  -- an activated token is no longer in the map, and this one was
  intro hmem
  have hgone := h.activatedGone _ hmem
  rw [hlook] at hgone
  cases hgone

theorem ledgerInv_activateInsert {l : Ledger} (h : LedgerInv l) {w : Declaration}
    {data : AllocatedTokenData} (now : Instant) (hact : l.activation = some (w, data))
    (hlt : l.history.length + 1 < 2 ^ 64) :
    LedgerInv { l with
      tm := (l.tm.activateInsert w.token w.client data now).2
      history := .activation (l.tm.activateInsert w.token w.client data now).1 w.token
        w.client data.userIdentity :: l.history
      activation := none } := by
  obtain ⟨hgone, hone⟩ := h.activatingGone w data hact
  obtain ⟨hfresh, honce⟩ := h.fresh_cons
    (.activation l.tm.tokenFactory w.token w.client data.userIdentity) rfl
  have hkeep : ∀ t, t ≠ l.tm.tokenFactory →
      (l.tm.activateInsert w.token w.client data now).2.activeTokens.lookup t =
        l.tm.activeTokens.lookup t := by
    intro t ht
    exact AList.lookup_insert_ne ht
  refine
    { recorded_step (.activateInsert l w data now hact) h.toRecorded with
      factory := h.factory_succ hlt
      fresh := hfresh
      issuedOnce := honce
      activatedGone := ?_
      activatedOnce := List.nodup_cons.mpr ⟨hone, h.activatedOnce⟩
      activatingGone := fun w' d' hw => by cases hw
      taking := ?_
      acceptedGone := ?_
      acceptedOnce := h.acceptedOnce }
  · intro a ha
    rcases List.mem_cons.mp ha with rfl | ha
    · exact hgone
    · exact h.activatedGone a ha
  · intro p hp
    have hpa := (h.presenting p (by rw [show l.pool = .taking p from hp]; rfl)).1
    exact (hkeep _ (h.token_ne_factory hpa)).trans (h.taking p hp)
  · intro p hp
    obtain ⟨hnone, hother⟩ := h.acceptedGone p hp
    exact ⟨(hkeep _ (h.token_ne_factory (h.accepted p hp).1)).trans hnone, hother⟩

theorem ledgerInv_present {l : Ledger} (h : LedgerInv l) {p : Presentation}
    (hidle : l.pool = .idle) (hlook : l.tm.allocatedFromActive p.activeToken = some p.data)
    (hid : p.userIdentity = p.data.userIdentity) :
    LedgerInv { l with pool := .deactivating p } := by
  have hrec := recorded_step (.present l p hidle hlook hid) h.toRecorded
  refine { hrec, h with taking := ?_, acceptedGone := ?_ }
  · intro q hq
    cases hq
  · intro q hq
    obtain ⟨hgone, -⟩ := h.acceptedGone q hq
    refine ⟨hgone, ?_⟩
    intro r hr heq
    cases hr
    rw [TokenManager.allocatedFromActive, heq, hgone] at hlook
    cases hlook

theorem ledgerInv_deactivate {l : Ledger} (h : LedgerInv l) {p : Presentation}
    (hpool : l.pool = .deactivating p) :
    LedgerInv { l with tm := l.tm.deactivate p.activeToken, pool := .taking p } := by
  have hrec := recorded_step (.deactivate l p hpool) h.toRecorded
  have hbase := ledgerInv_shrink h (shrinks_deactivate l.tm p.activeToken) (.inl rfl)
  refine { hrec, hbase with taking := ?_, acceptedGone := ?_ }
  · intro q hq
    cases hq
    exact AList.lookup_erase _ _
  · intro q hq
    obtain ⟨hgone, hother⟩ := hbase.acceptedGone q hq
    refine ⟨hgone, ?_⟩
    intro r hr
    cases hr
    exact hother p (by rw [hpool]; rfl)

theorem ledgerInv_accept {l : Ledger} (h : LedgerInv l) {p : Presentation}
    (hpool : l.pool = .taking p) :
    LedgerInv { l with accepted := p :: l.accepted, pool := .idle } := by
  have hrec := recorded_step (.accept l p hpool) h.toRecorded
  have hpres : l.pool.presentation = some p := by rw [hpool]; rfl
  refine { hrec, h with taking := ?_, acceptedGone := ?_, acceptedOnce := ?_ }
  · intro q hq
    cases hq
  · intro q hq
    rcases List.mem_cons.mp hq with rfl | hq
    · exact ⟨h.taking _ hpool, fun r hr => by cases hr⟩
    · exact ⟨(h.acceptedGone q hq).1, fun r hr => by cases hr⟩
  · refine List.nodup_cons.mpr ⟨?_, h.acceptedOnce⟩
    intro hmem
    obtain ⟨q, hq, heq⟩ := List.mem_map.mp hmem
    exact (h.acceptedGone q hq).2 p hpres heq.symm

/-- **Every move keeps the invariant, until the counter wraps around.** -/
theorem ledgerInv_step {l l' : Ledger} (hstep : LedgerStep l l')
    (hlt : l'.history.length < 2 ^ 64) (h : LedgerInv l) : LedgerInv l' := by
  cases hstep with
  | shrink tm' pool' hs hpool => exact ledgerInv_shrink h hs hpool
  | allocate client identity now => exact ledgerInv_allocate h client identity now hlt
  | activateRemove w data tm' hidle hrem => exact ledgerInv_activateRemove h hidle hrem
  | activateInsert w data now hact => exact ledgerInv_activateInsert h now hact hlt
  | present p hidle hlook hid => exact ledgerInv_present h hidle hlook hid
  | deactivate p hpool => exact ledgerInv_deactivate h hpool
  | accept p hpool => exact ledgerInv_accept h hpool

end Sv2Apps.Jds
