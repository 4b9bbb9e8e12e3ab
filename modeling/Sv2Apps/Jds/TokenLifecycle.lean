/-
  Jds/TokenLifecycle.lean
  =======================
  **The life of a token, over every run of the job declarator.**

  The ledger invariant says which tokens exist and what they are bound to.  This module
  adds the client side: every declaration that the message loop works on, or keeps for
  a retry, names a token that was allocated to the client it belongs to
  (`DeclarationInv`).  With that, a message of one client cannot reach the tokens or the
  declared jobs of another (`jdsStep_untouched`), although `deallocate` and the job maps
  take the token and the request id from the message.

  `token_lifecycle` collects the results.
-/
import Sv2Apps.Jds.TokenLedger

namespace Sv2Apps.Jds

open Bitcoin

/-! ## Declarations in progress -/

def JdsTask.declaration : JdsTask → Option Declaration
  | .validating w => some w
  | .ensuring w _ _ => some w
  | .waiting w _ _ => some w
  | .concluding w _ => some w
  | .activating w _ => some w
  | _ => none

/-- The client whose message the loop is handling. -/
def JdsTask.client : JdsTask → Option DownstreamId
  | .answering c _ => some c
  | .checking c _ => some c
  | .retrying c _ => some c
  | task => task.declaration.map Declaration.client

/-- `token` was allocated to `client`. -/
def AllocatedTo (s : System) (token : JdToken) (client : DownstreamId) : Prop :=
  ∃ identity, Issue.allocation token client identity ∈ s.history

/-- The token of `dmj` parses and was allocated to `client`. -/
def OwnDeclaration (s : System) (dmj : DeclareMiningJob) (client : DownstreamId)
    (token : JdToken) : Prop :=
  parseToken dmj.miningJobToken = some token ∧ AllocatedTo s token client

/-- `dmj` waits for its missing transactions at `client`. -/
def PendingJob (s : System) (client : DownstreamId) (dmj : DeclareMiningJob) : Prop :=
  ∃ ds r at', s.downstreamClients.lookup client = some ds ∧
    ds.pendingDeclareMiningJobs.lookup r = some (at', dmj)

structure DeclarationInv (s : System) : Prop where
  working : ∀ w, s.jds.declaration = some w → OwnDeclaration s w.dmj w.client w.token
  pending : ∀ c dmj, PendingJob s c dmj → ∃ t, OwnDeclaration s dmj c t

theorem declarationInv_new : DeclarationInv System.new := by
  constructor
  · intro w hw
    cases hw
  · rintro c dmj ⟨ds, r, at', hc, -⟩
    cases hc

/-- What a step may add: a declaration of the loop, or a pending job, whose token is the
    client's own. -/
theorem DeclarationInv.next {s s' : System} (h : DeclarationInv s)
    (hhist : s.history <:+ s'.history)
    (hwork : ∀ w, s'.jds.declaration = some w → s.jds.declaration = some w ∨
      OwnDeclaration s w.dmj w.client w.token)
    (hpend : ∀ c dmj, PendingJob s' c dmj → PendingJob s c dmj ∨
      ∃ t, OwnDeclaration s dmj c t) : DeclarationInv s' := by
  have hup : ∀ dmj c t, OwnDeclaration s dmj c t → OwnDeclaration s' dmj c t := by
    rintro dmj c t ⟨hparse, u, hu⟩
    exact ⟨hparse, u, hhist.subset hu⟩
  constructor
  · intro w hw
    rcases hwork w hw with hold | hnew
    · exact hup _ _ _ (h.working w hold)
    · exact hup _ _ _ hnew
  · intro c dmj hp
    rcases hpend c dmj hp with hold | ⟨t, hnew⟩
    · obtain ⟨t, ht⟩ := h.pending c dmj hold
      exact ⟨t, hup _ _ _ ht⟩
    · exact ⟨t, hup _ _ _ hnew⟩

/-- Replacing the pending jobs of one client adds at most the jobs that are new there. -/
theorem pendingJob_insert {s s' : System} {client : DownstreamId} {ds' : Downstream}
    (hcl : s'.downstreamClients = s.downstreamClients.insert client ds') {c : DownstreamId}
    {dmj : DeclareMiningJob} (hp : PendingJob s' c dmj) :
    PendingJob s c dmj ∨ c = client ∧ ∃ r at',
      ds'.pendingDeclareMiningJobs.lookup r = some (at', dmj) := by
  obtain ⟨ds, r, at', hc, hr⟩ := hp
  rw [hcl, KeyMap.lookup_insert_eq] at hc
  split at hc
  next heq =>
    cases hc
    exact .inr ⟨heq, r, at', hr⟩
  next => exact .inl ⟨ds, r, at', hc, hr⟩

theorem receive_declarationInv (env : Env) {s : System} (h : DeclarationInv s)
    (client : DownstreamId) (msg : JobDeclarationMessage) (now : Instant) :
    DeclarationInv (s.receive env client msg now) := by
  have hhist := (receive_ledger env s client msg now).history_suffix
  refine h.next hhist ?_ ?_
  · intro w hw
    unfold System.receive at hw
    cases hjds : s.jds with
    | idle =>
      rw [hjds] at hw
      cases msg with
      | allocateMiningJobToken m => cases hw
      | declareMiningJob m =>
        dsimp only at hw
        split at hw
        · rw [hjds] at hw; cases hw
        · cases hw
      | provideMissingTransactionsSuccess m =>
        dsimp only at hw
        split at hw
        · rw [hjds] at hw; cases hw
        · cases hw
    | _ => simp only [hjds] at hw; exact .inl hw
  · intro c dmj hp
    left
    unfold System.receive at hp
    split at hp
    · split at hp
      · exact hp
      · split at hp <;> exact hp
      · split at hp <;> exact hp
    · exact hp

theorem conclude_declarationInv {s : System} (h : DeclarationInv s) {w : Declaration}
    {result : DeclareMiningJobResult} (hjds : s.jds = .concluding w result) (now : Instant) :
    DeclarationInv (s.conclude w result now) := by
  have hact : s.jds.activation = none := by rw [hjds]; rfl
  have hhist := (conclude_ledger s w result now hact).history_suffix
  have hcur : s.jds.declaration = some w := by rw [hjds]; rfl
  have hown := h.working w hcur
  refine h.next hhist ?_ ?_
  · intro w' hw'
    unfold System.conclude at hw'
    cases result with
    | success =>
      dsimp only at hw'
      split at hw'
      next => cases hw'; exact .inl hcur
      next => cases hw'
    | error code => cases hw'
    | missingTransactions missing =>
      dsimp only at hw'
      split at hw'
      next => cases hw'
      next =>
        split at hw'
        next => cases hw'
        next => split at hw' <;> cases hw'
    | panic => cases hw'
  · intro c dmj hp
    unfold System.conclude at hp
    cases result with
    | success =>
      dsimp only at hp
      left
      split at hp <;> exact hp
    | error code => exact .inl hp
    | missingTransactions missing =>
      dsimp only at hp
      split at hp
      next => exact .inl hp
      next =>
        split at hp
        next => exact .inl hp
        next ds hds =>
          -- the job kept for the retry is the one the loop was working on
          have hins : PendingJob s c dmj ∨ c = w.client ∧ ∃ r at',
              (ds.pendingDeclareMiningJobs.insert w.dmj.requestId (now, w.dmj)).lookup r =
                some (at', dmj) := by
            split at hp <;> exact pendingJob_insert rfl hp
          rcases hins with hold | ⟨rfl, r, at', hr⟩
          · exact .inl hold
          · rw [KeyMap.lookup_insert_eq] at hr
            split at hr
            · cases hr
              exact .inr ⟨w.token, hown⟩
            · exact .inl ⟨ds, r, at', hds, hr⟩
    | panic => exact .inl hp

theorem jdsStep_declarationInv (env : Env) {s : System} (h : DeclarationInv s)
    (hl : Recorded s.ledger) (response : Option JdResponse) (now : Instant) :
    DeclarationInv (s.jdsStep env response now) := by
  have hhist := (jdsStep_ledger env s response now).history_suffix
  unfold System.jdsStep at hhist ⊢
  cases hjds : s.jds with
  | idle => exact h
  | stopped => exact h
  | answering client a =>
    simp only [hjds] at hhist ⊢
    refine h.next hhist ?_ ?_
    · intro w hw
      split at hw <;> cases hw
    · intro c dmj hp
      split at hp <;> exact .inl hp
  | checking client dmj =>
    simp only [hjds] at hhist ⊢
    refine h.next hhist ?_ ?_
    · intro w hw
      split at hw
      next => cases hw
      next token hparse =>
        split at hw
        next hal =>
          cases hw
          obtain ⟨data, hlook, rfl⟩ := TokenManager.isAllocated_iff.mp hal
          exact .inr ⟨hparse, data.userIdentity, hl.allocated _ _ hlook⟩
        next => cases hw
    · intro c dmj' hp
      left
      split at hp
      · exact hp
      · split at hp <;> exact hp
  | retrying client msg =>
    simp only [hjds] at hhist ⊢
    cases hds : s.downstreamClients.lookup client with
    | none =>
      simp only [hds] at hhist ⊢
      exact h.next hhist (fun w hw => by cases hw) (fun c dmj hp => .inl hp)
    | some ds =>
      simp only [hds] at hhist ⊢
      cases hpend : ds.pendingDeclareMiningJobs.lookup msg.requestId with
      | none =>
        simp only [hpend] at hhist ⊢
        exact h.next hhist (fun w hw => by cases hw) (fun c dmj hp => .inl hp)
      | some e =>
        simp only [hpend] at hhist ⊢
        refine h.next hhist ?_ ?_
        · intro w hw
          split at hw
          next => cases hw
          next token hparse =>
            cases hw
            obtain ⟨t, ht⟩ := h.pending client e.2 ⟨ds, msg.requestId, e.1, hds, hpend⟩
            cases ht.1.symm.trans hparse
            exact .inr ht
        · intro c dmj hp
          left
          have hins : PendingJob s c dmj ∨ c = client ∧ ∃ r at',
              (ds.pendingDeclareMiningJobs.erase msg.requestId).lookup r =
                some (at', dmj) := by
            split at hp <;> exact pendingJob_insert rfl hp
          rcases hins with hold | ⟨rfl, r, at', hr⟩
          · exact hold
          · rw [KeyMap.lookup_erase_eq] at hr
            split at hr
            · cases hr
            · exact ⟨ds, r, at', hds, hr⟩
  | validating w =>
    simp only [hjds] at hhist ⊢
    refine h.next hhist ?_ ?_
    · intro w' hw'
      split at hw' <;> cases hw' <;> exact .inl (by rw [hjds]; rfl)
    · intro c dmj hp
      split at hp <;> exact .inl hp
  | ensuring w t previous =>
    simp only [hjds] at hhist ⊢
    refine h.next hhist ?_ (fun c dmj hp => .inl hp)
    intro w' hw'
    cases hw'
    exact .inl (by rw [hjds]; rfl)
  | waiting w t previous =>
    simp only [hjds] at hhist ⊢
    refine h.next hhist ?_ (fun c dmj hp => .inl hp)
    intro w' hw'
    cases hw'
    exact .inl (by rw [hjds]; rfl)
  | concluding w result => exact conclude_declarationInv h hjds now
  | activating w data =>
    simp only [hjds] at hhist ⊢
    exact h.next hhist (fun w' hw' => by cases hw') (fun c dmj hp => .inl hp)

theorem declarationInv_step (env : Env) {s : System} (h : DeclarationInv s)
    (hl : Recorded s.ledger) (a : Action) : DeclarationInv (s.step env a) := by
  have hhist := (ledger_step env s a).history_suffix
  have hsame : ∀ s' : System, s.history <:+ s'.history → s'.jds = s.jds →
      (∀ c dmj, PendingJob s' c dmj → PendingJob s c dmj) → DeclarationInv s' := by
    intro s' hh hj hp
    exact h.next hh (fun w hw => .inl (by rw [← hj]; exact hw)) fun c dmj hc => .inl (hp c dmj hc)
  cases a with
  | connect =>
    refine hsame _ hhist rfl ?_
    intro c dmj hp
    rcases pendingJob_insert rfl hp with hold | ⟨-, r, at', hr⟩
    · exact hold
    · cases hr
  | receive client msg now => exact receive_declarationInv env h client msg now
  | jds response now => exact jdsStep_declarationInv env h hl response now
  | present msg u =>
    obtain ⟨responses, pool, heq⟩ := s.present_frame msg u
    refine hsame _ hhist ?_ ?_
    · rw [System.step, heq]
    · intro c dmj hp
      rw [System.step, heq] at hp
      exact hp
  | pool =>
    obtain ⟨tm, states, responses, accepted, pool, heq⟩ := s.poolStep_frame env
    refine hsame _ hhist ?_ ?_
    · rw [System.step, heq]
    · intro c dmj hp
      rw [System.step, heq] at hp
      exact hp
  | cleanupClient d =>
    refine hsame _ hhist rfl ?_
    rintro c dmj ⟨ds, r, at', hc, hr⟩
    simp only [System.step, KeyMap.lookup_erase_eq] at hc
    split at hc
    · cases hc
    · exact ⟨ds, r, at', hc, hr⟩
  | janitorPending d shard now =>
    refine hsame _ hhist rfl ?_
    rintro c dmj ⟨ds, r, at', hc, hr⟩
    simp only [System.step, KeyMap.lookup_modify] at hc
    split at hc
    next heq =>
      subst heq
      obtain ⟨ds₀, hds₀, rfl⟩ := Option.map_eq_some_iff.mp hc
      exact ⟨ds₀, r, at', hds₀, KeyMap.lookup_retain_some hr⟩
    next => exact ⟨ds, r, at', hc, hr⟩
  | _ => exact hsame _ hhist rfl fun _ _ hp => hp

/-- The records of the ledger and of the declarations, over every run. -/
theorem recorded_after (env : Env) (as : List Action) :
    Recorded (System.after env as).ledger ∧ DeclarationInv (System.after env as) := by
  refine Runs.run_invariant (fun s : System => Recorded s.ledger ∧ DeclarationInv s) ?_
    ⟨recorded_new, declarationInv_new⟩ as
  rintro s a ⟨hr, hd⟩
  exact ⟨recorded_step (ledger_step env s a) hr, declarationInv_step env hd hr a⟩

/-- The invariant of the ledger, over every run that issues fewer than `2 ^ 64` tokens. -/
theorem ledgerInv_after (env : Env) (as : List Action)
    (hlt : (System.after env as).history.length < 2 ^ 64) :
    LedgerInv (System.after env as).ledger := by
  refine Runs.run_invariant
    (fun s : System => s.history.length < 2 ^ 64 → LedgerInv s.ledger)
    ?_ (fun _ => ledgerInv_new) as hlt
  intro s a ih hlt'
  have hstep := ledger_step env s a
  exact ledgerInv_step hstep hlt'
    (ih (Nat.lt_of_le_of_lt hstep.history_suffix.length_le hlt'))

/-! ## One client's messages and another client's tokens and jobs -/

/-- The tokens, declared jobs and pending jobs of `d` are the same in both states. -/
structure Untouched (d : DownstreamId) (s s' : System) : Prop where
  allocated : ∀ t data, data.owner = d →
    (s'.tokenManager.allocatedTokens.lookup t = some data ↔
      s.tokenManager.allocatedTokens.lookup t = some data)
  active : ∀ t data, data.owner = d →
    (s'.tokenManager.activeTokens.lookup t = some data ↔
      s.tokenManager.activeTokens.lookup t = some data)
  declared : s'.downstreamStates.lookup d = s.downstreamStates.lookup d
  pending : s'.downstreamClients.lookup d = s.downstreamClients.lookup d

theorem Untouched.of_eq {d : DownstreamId} {s s' : System}
    (htm : s'.tokenManager = s.tokenManager)
    (hst : s'.downstreamStates.lookup d = s.downstreamStates.lookup d)
    (hcl : s'.downstreamClients.lookup d = s.downstreamClients.lookup d) : Untouched d s s' :=
  ⟨fun _ _ _ => by rw [htm], fun _ _ _ => by rw [htm], hst, hcl⟩

/-- Whose message a step of the loop handles. -/
def System.actor (s : System) : Action → Option DownstreamId
  | .receive client _ _ => some client
  | .jds _ _ => s.jds.client
  | _ => none

theorem receive_untouched (env : Env) {s : System} (hl : LedgerInv s.ledger)
    {client d : DownstreamId} (msg : JobDeclarationMessage) (now : Instant) (hne : d ≠ client) :
    Untouched d s (s.receive env client msg now) := by
  unfold System.receive
  split
  next =>
    split
    next m =>
      refine ⟨?_, fun _ _ _ => Iff.rfl, rfl, rfl⟩
      intro t data howner
      show (s.tokenManager.allocatedTokens.insert _ _).lookup t = some data ↔ _
      rw [KeyMap.lookup_insert_eq]
      split
      next heq =>
        -- the number is new, so no entry of another client is overwritten
        subst heq
        have hfree : s.tokenManager.allocatedTokens.lookup s.tokenManager.tokenFactory = none :=
          hl.factory_not_allocated
        rw [hfree]
        constructor
        · intro h
          cases h
          exact absurd howner.symm hne
        · intro h
          cases h
      next => exact Iff.rfl
    next => split <;> exact .of_eq rfl rfl rfl
    next => split <;> exact .of_eq rfl rfl rfl
  next => exact .of_eq rfl rfl rfl

/-- An entry under a token of `client` is an entry of `client`. -/
theorem owner_of_allocatedTo {s : System} (hl : LedgerInv s.ledger) {t : JdToken}
    {client : DownstreamId} (hal : AllocatedTo s t client) {data : AllocatedTokenData}
    (hlook : s.tokenManager.allocatedTokens.lookup t = some data) : data.owner = client := by
  obtain ⟨u, hu⟩ := hal
  have heq := hl.issue_eq (hl.allocated t data hlook) hu rfl
  cases heq
  rfl

theorem erase_untouched {s : System} (hl : LedgerInv s.ledger) {t : JdToken}
    {client d : DownstreamId} (hal : AllocatedTo s t client) (hne : d ≠ client)
    (u : JdToken) (data : AllocatedTokenData) (howner : data.owner = d) :
    (s.tokenManager.allocatedTokens.erase t).lookup u = some data ↔
      s.tokenManager.allocatedTokens.lookup u = some data := by
  rw [KeyMap.lookup_erase_eq]
  split
  next heq =>
    subst heq
    constructor
    · intro h
      cases h
    · intro h
      have := owner_of_allocatedTo hl hal h
      exact absurd (howner.symm.trans this) hne
  next => exact Iff.rfl

theorem conclude_untouched {s : System} (hl : LedgerInv s.ledger) {w : Declaration}
    (hal : AllocatedTo s w.token w.client) {d : DownstreamId} (hne : d ≠ w.client)
    (result : DeclareMiningJobResult) (now : Instant) :
    Untouched d s (s.conclude w result now) := by
  have herase : ∀ s' : System, s'.tokenManager = s.tokenManager.deallocate w.token →
      s'.downstreamStates = s.downstreamStates → s'.downstreamClients = s.downstreamClients →
      Untouched d s s' := by
    intro s' htm hst hcl
    refine ⟨?_, fun _ _ _ => by rw [htm]; rfl, by rw [hst], by rw [hcl]⟩
    intro t data howner
    rw [htm]
    exact erase_untouched hl hal hne t data howner
  unfold System.conclude
  split
  next =>
    split
    next data tm' hrem =>
      obtain ⟨-, -, rfl⟩ := TokenManager.activateRemove_eq_some hrem
      exact herase _ rfl rfl rfl
    next => exact .of_eq rfl rfl rfl
  next => exact herase _ rfl rfl rfl
  next =>
    split
    next => exact herase _ rfl rfl rfl
    next =>
      split
      next => exact .of_eq rfl rfl rfl
      next =>
        dsimp only
        split <;> exact .of_eq rfl rfl (AList.lookup_insert_ne hne)
  next => exact .of_eq rfl rfl rfl

theorem jdsStep_untouched (env : Env) {s : System} (hl : LedgerInv s.ledger)
    (hd : DeclarationInv s) {client d : DownstreamId} (hactor : s.jds.client = some client)
    (hne : d ≠ client) (response : Option JdResponse) (now : Instant) :
    Untouched d s (s.jdsStep env response now) := by
  unfold System.jdsStep
  cases hjds : s.jds with
  | idle => exact .of_eq rfl rfl rfl
  | stopped => exact .of_eq rfl rfl rfl
  | answering c a =>
    dsimp only
    split <;> exact .of_eq rfl rfl rfl
  | checking c dmj =>
    dsimp only
    split
    · exact .of_eq rfl rfl rfl
    · split <;> exact .of_eq rfl rfl rfl
  | retrying c msg =>
    have hc : c = client := by rw [hjds] at hactor; exact Option.some.inj hactor
    subst hc
    dsimp only
    split
    · exact .of_eq rfl rfl rfl
    · split
      · exact .of_eq rfl rfl rfl
      · split <;> exact .of_eq rfl rfl (AList.lookup_insert_ne hne)
  | validating w =>
    dsimp only
    split <;> exact .of_eq rfl rfl rfl
  | ensuring w t previous =>
    have hc : w.client = client := by rw [hjds] at hactor; exact Option.some.inj hactor
    subst hc
    refine .of_eq rfl ?_ rfl
    show (KeyMap.ensure w.client _ s.downstreamStates).lookup d = _
    rw [KeyMap.lookup_ensure, if_neg hne]
  | waiting w t previous =>
    have hc : w.client = client := by rw [hjds] at hactor; exact Option.some.inj hactor
    subst hc
    exact .of_eq rfl (applyJdResponse_lookup_ne hne) rfl
  | concluding w result =>
    have hc : w.client = client := by rw [hjds] at hactor; exact Option.some.inj hactor
    subst hc
    exact conclude_untouched hl (hd.working w (by rw [hjds]; rfl)).2 hne result now
  | activating w data =>
    have hc : w.client = client := by rw [hjds] at hactor; exact Option.some.inj hactor
    subst hc
    refine ⟨fun _ _ _ => Iff.rfl, ?_, rfl, rfl⟩
    intro t data' howner
    show (s.tokenManager.activeTokens.insert _ _).lookup t = some data' ↔ _
    rw [KeyMap.lookup_insert_eq]
    split
    next heq =>
      subst heq
      have hfree : s.tokenManager.activeTokens.lookup s.tokenManager.tokenFactory = none :=
        hl.factory_not_active
      rw [hfree]
      constructor
      · intro h
        cases h
        exact absurd howner.symm hne
      · intro h
        cases h
    next => exact Iff.rfl

/-! ## What a presentation may change -/

/-- The pool's call changes nothing but the entry of the presented token and, in the state
    of its owner, the job declared with it. -/
structure OnlyPresented (p : Presentation) (s s' : System) : Prop where
  allocated : s'.tokenManager.allocatedTokens = s.tokenManager.allocatedTokens
  active : ∀ t, t ≠ p.activeToken →
    s'.tokenManager.activeTokens.lookup t = s.tokenManager.activeTokens.lookup t
  declaredOther : ∀ d, d ≠ p.data.owner →
    s'.downstreamStates.lookup d = s.downstreamStates.lookup d
  declaredOwner : ∀ st', s'.downstreamStates.lookup p.data.owner = some st' →
    ∃ st, s.downstreamStates.lookup p.data.owner = some st ∧
      (st' = st ∨ st' = (st.takeDeclaredCustomJob p.data.allocatedToken).2)
  pending : s'.downstreamClients = s.downstreamClients

theorem handleSetCustomMiningJob_states (rb : RustBitcoin) (states : DownstreamStates)
    (d : DownstreamId) (msg : SetCustomMiningJob) (t : JdToken) :
    (handleSetCustomMiningJob rb states d msg t).2 =
      match states.lookup d with
      | none => states
      | some st => states.insert d (st.takeDeclaredCustomJob t).2 := by
  unfold handleSetCustomMiningJob
  cases states.lookup d with
  | none => rfl
  | some st =>
    dsimp only
    split <;> rfl

theorem poolStep_onlyPresented (env : Env) (s : System) {p : Presentation}
    (hp : s.pool.presentation = some p) : OnlyPresented p s (s.poolStep env) := by
  unfold System.poolStep
  cases hpool : s.pool with
  | idle => rw [hpool] at hp; cases hp
  | stopped => rw [hpool] at hp; cases hp
  | deactivating q =>
    rw [hpool] at hp
    cases hp
    refine ⟨rfl, ?_, fun _ _ => rfl, fun st hst => ⟨st, hst, .inl rfl⟩, rfl⟩
    intro t ht
    exact AList.lookup_erase_ne ht
  | taking q =>
    rw [hpool] at hp
    cases hp
    have hother : ∀ d, d ≠ p.data.owner → (handleSetCustomMiningJob env.rb s.downstreamStates
        p.data.owner p.msg p.data.allocatedToken).2.lookup d = s.downstreamStates.lookup d :=
      fun d hne => handleSetCustomMiningJob_lookup_ne hne
    have howner : ∀ st', (handleSetCustomMiningJob env.rb s.downstreamStates p.data.owner
          p.msg p.data.allocatedToken).2.lookup p.data.owner = some st' →
        ∃ st, s.downstreamStates.lookup p.data.owner = some st ∧
          (st' = st ∨ st' = (st.takeDeclaredCustomJob p.data.allocatedToken).2) := by
      intro st' h
      rw [handleSetCustomMiningJob_states] at h
      cases hst : s.downstreamStates.lookup p.data.owner with
      | none => simp only [hst] at h; cases h
      | some st =>
        simp only [hst, AList.lookup_insert, Option.some.injEq] at h
        exact ⟨st, rfl, .inr h.symm⟩
    dsimp only
    split <;> exact ⟨rfl, fun _ _ => rfl, hother, howner, rfl⟩

/-! ## The result -/

/-- The presented token is unknown, or bound to another identity. -/
def Refused (s : System) (msg : SetCustomMiningJob) (userIdentity : Identity) : Prop :=
  match parseToken msg.token with
  | none => True
  | some t =>
    match s.tokenManager.activeTokens.lookup t with
    | none => True
    | some data => userIdentity ≠ data.userIdentity

theorem present_of_refused {s : System} {msg : SetCustomMiningJob} {userIdentity : Identity}
    (hidle : s.pool = .idle) (hr : Refused s msg userIdentity) :
    s.present msg userIdentity = s.respond msg (.error .invalidMiningJobToken) := by
  unfold Refused at hr
  unfold System.present
  simp only [hidle]
  cases hparse : parseToken msg.token with
  | none => rfl
  | some t =>
    simp only [hparse] at hr
    simp only [TokenManager.allocatedFromActive]
    cases hlook : s.tokenManager.activeTokens.lookup t with
    | none => rfl
    | some data =>
      simp only [hlook] at hr
      simp only [if_pos hr]

theorem present_maps (s : System) (msg : SetCustomMiningJob) (userIdentity : Identity) :
    (s.present msg userIdentity).tokenManager = s.tokenManager ∧
    (s.present msg userIdentity).downstreamStates = s.downstreamStates ∧
    (s.present msg userIdentity).downstreamClients = s.downstreamClients := by
  obtain ⟨responses, pool, heq⟩ := s.present_frame msg userIdentity
  rw [heq]
  exact ⟨rfl, rfl, rfl⟩

/-- The presentations answered with success, as the pool sees them. -/
def okResponses (s : System) : List SetCustomMiningJob :=
  (s.responses.filter fun r => r.2 = .ok).map Prod.fst

/-- The message loop, the connections and the janitors leave the pool's side alone. -/
theorem jdsStep_poolSide (env : Env) (s : System) (response : Option JdResponse)
    (now : Instant) :
    (s.jdsStep env response now).pool = s.pool ∧
    (s.jdsStep env response now).responses = s.responses ∧
    (s.jdsStep env response now).accepted = s.accepted := by
  unfold System.jdsStep
  cases s.jds with
  | concluding w result =>
    simp only [System.conclude]
    split
    · split <;> exact ⟨rfl, rfl, rfl⟩
    · exact ⟨rfl, rfl, rfl⟩
    · split
      · exact ⟨rfl, rfl, rfl⟩
      · split
        · exact ⟨rfl, rfl, rfl⟩
        · split <;> exact ⟨rfl, rfl, rfl⟩
    · exact ⟨rfl, rfl, rfl⟩
  | answering c a =>
    dsimp only
    split <;> exact ⟨rfl, rfl, rfl⟩
  | checking c dmj =>
    dsimp only
    split
    · exact ⟨rfl, rfl, rfl⟩
    · split <;> exact ⟨rfl, rfl, rfl⟩
  | retrying c msg =>
    dsimp only
    split
    · exact ⟨rfl, rfl, rfl⟩
    · split
      · exact ⟨rfl, rfl, rfl⟩
      · split <;> exact ⟨rfl, rfl, rfl⟩
  | validating w =>
    dsimp only
    split <;> exact ⟨rfl, rfl, rfl⟩
  | _ => exact ⟨rfl, rfl, rfl⟩

theorem step_poolSide (env : Env) (s : System) {a : Action} (hpres : ∀ msg u, a ≠ .present msg u)
    (hpool : a ≠ .pool) :
    (s.step env a).pool = s.pool ∧ (s.step env a).responses = s.responses ∧
    (s.step env a).accepted = s.accepted := by
  cases a with
  | receive client msg now =>
    simp only [System.step, System.receive]
    split
    · split
      · exact ⟨rfl, rfl, rfl⟩
      · split <;> exact ⟨rfl, rfl, rfl⟩
      · split <;> exact ⟨rfl, rfl, rfl⟩
    · exact ⟨rfl, rfl, rfl⟩
  | jds response now => exact jdsStep_poolSide env s response now
  | present msg u => exact absurd rfl (hpres msg u)
  | pool => exact absurd rfl hpool
  | _ => exact ⟨rfl, rfl, rfl⟩

/-- Only a presentation that is recorded as accepted is answered with success. -/
theorem okResponses_step (env : Env) {s : System}
    (h : okResponses s = s.accepted.map Presentation.msg) (a : Action) :
    okResponses (s.step env a) = (s.step env a).accepted.map Presentation.msg := by
  have hsame : ∀ s' : System, s'.responses = s.responses → s'.accepted = s.accepted →
      okResponses s' = s'.accepted.map Presentation.msg := by
    intro s' hr ha
    rw [ha, ← h]
    simp only [okResponses, hr]
  have herror : ∀ (s' : System) msg code, s'.responses = (msg, .error code) :: s.responses →
      s'.accepted = s.accepted → okResponses s' = s'.accepted.map Presentation.msg := by
    intro s' msg code hr ha
    rw [ha, ← h]
    simp [okResponses, hr]
  by_cases hpres : ∃ msg u, a = .present msg u
  · obtain ⟨msg, u, rfl⟩ := hpres
    simp only [System.step, System.present]
    split
    · split
      · exact herror _ msg _ rfl rfl
      · split
        · exact herror _ msg _ rfl rfl
        · split
          · exact herror _ msg _ rfl rfl
          · exact hsame _ rfl rfl
    · exact hsame _ rfl rfl
  · by_cases hpool : a = .pool
    · subst hpool
      simp only [System.step, System.poolStep]
      split
      next => exact hsame _ rfl rfl
      next => exact hsame _ rfl rfl
      next => exact hsame _ rfl rfl
      next p _ =>
        split
        next => simpa [okResponses, System.respond] using h
        next code _ => exact herror _ p.msg code rfl rfl
        next => exact hsame _ rfl rfl
    · obtain ⟨-, hr, ha⟩ := step_poolSide env s (fun msg u heq => hpres ⟨msg, u, heq⟩) hpool
      exact hsame _ hr ha

theorem okResponses_after (env : Env) (as : List Action) :
    okResponses (System.after env as) = (System.after env as).accepted.map Presentation.msg :=
  Runs.run_invariant (fun s : System => okResponses s = s.accepted.map Presentation.msg)
    (fun _ a h => okResponses_step env h a) rfl as

/-- What is promised of a state, and of every step from it. -/
structure Lifecycle (env : Env) (s : System) : Prop where
  /-- No token value is issued twice. -/
  issuedOnce : (s.history.map Issue.token).Nodup
  disjoint : ∀ t, t ∈ s.tokenManager.allocatedTokens → t ∉ s.tokenManager.activeTokens
  /-- An allocated token becomes active at most once. -/
  activatedOnce : (activatedTokens s.history).Nodup
  /-- The declarer of an activated token is the client it was allocated to, and the identity
      is the one of the allocation. -/
  activatedByOwner : ∀ t a d u, Issue.activation t a d u ∈ s.history →
    Issue.allocation a d u ∈ s.history
  /-- A token becomes active only while the loop concludes a declaration of that token by
      that client. -/
  activatedByDeclaration : ∀ act t a d u, Issue.activation t a d u ∈ (s.step env act).history →
    Issue.activation t a d u ∉ s.history →
    ∃ w data, s.jds = .activating w data ∧ w.client = d ∧
      parseToken w.dmj.miningJobToken = some a
  /-- An active entry carries the owner and the identity of the allocation. -/
  activeEntry : ∀ t data, s.tokenManager.activeTokens.lookup t = some data →
    Issue.activation t data.allocatedToken data.owner data.userIdentity ∈ s.history ∧
    Issue.allocation data.allocatedToken data.owner data.userIdentity ∈ s.history
  /-- The calls that returned `Ok`. -/
  okResponses : okResponses s = s.accepted.map Presentation.msg
  /-- `Ok` at most once per allocated token. -/
  acceptedOnce : (s.accepted.map fun p => p.data.allocatedToken).Nodup
  /-- `Ok` only under the identity of the allocation. -/
  acceptedIdentity : ∀ p ∈ s.accepted,
    Issue.allocation p.data.allocatedToken p.data.owner p.userIdentity ∈ s.history
  /-- An unknown token or a wrong identity is refused and changes nothing. -/
  refused : ∀ msg u, s.pool = .idle → Refused s msg u →
    (s.step env (.present msg u)).responses =
      (msg, .error .invalidMiningJobToken) :: s.responses ∧
    (s.step env (.present msg u)).tokenManager = s.tokenManager ∧
    (s.step env (.present msg u)).downstreamStates = s.downstreamStates
  /-- A message of one client leaves the tokens and jobs of the others alone. -/
  untouched : ∀ act client d, s.actor act = some client → d ≠ client →
    Untouched d s (s.step env act)
  /-- Checking a presentation changes no map at all. -/
  checked : ∀ msg u, (s.step env (.present msg u)).tokenManager = s.tokenManager ∧
    (s.step env (.present msg u)).downstreamStates = s.downstreamStates ∧
    (s.step env (.present msg u)).downstreamClients = s.downstreamClients
  /-- A presentation changes nothing but the presented token and the job declared with it. -/
  presented : ∀ p, s.pool.presentation = some p → OnlyPresented p s (s.step env .pool)

/-- One allocated token has one activation. -/
theorem issue_eq_of_activated {hist : List Issue} (hnd : (activatedTokens hist).Nodup)
    {i j : Issue} {a : JdToken} (hi : i ∈ hist) (hj : j ∈ hist) (hia : i.activated = some a)
    (hja : j.activated = some a) : i = j := by
  induction hist with
  | nil => cases hi
  | cons k rest ih =>
    have hrest : (activatedTokens rest).Nodup := by
      unfold activatedTokens at hnd
      rw [List.filterMap_cons] at hnd
      split at hnd
      · exact hnd
      · exact (List.nodup_cons.mp hnd).2
    -- the first entry uses up `a` only if no later one does
    have hout : k.activated = some a → ∀ m ∈ rest, m.activated ≠ some a := by
      intro hk m hm hma
      unfold activatedTokens at hnd
      rw [List.filterMap_cons_some hk] at hnd
      exact (List.nodup_cons.mp hnd).1 (List.mem_filterMap.mpr ⟨m, hm, hma⟩)
    rcases List.mem_cons.mp hi with rfl | hi'
    · rcases List.mem_cons.mp hj with rfl | hj'
      · rfl
      · exact absurd hja (hout hia j hj')
    · rcases List.mem_cons.mp hj with rfl | hj'
      · exact absurd hia (hout hja i hi')
      · exact ih hrest hi' hj'

theorem accepted_allocated_nodup {s : System} (hl : LedgerInv s.ledger) :
    (s.accepted.map fun p => p.data.allocatedToken).Nodup := by
  have hact : (s.accepted.map Presentation.activeToken).Nodup := hl.acceptedOnce
  refine (List.nodup_map_iff_inj_on (List.Nodup.of_map _ hact)).mpr ?_
  intro p hp q hq heq
  have hsame := issue_eq_of_activated hl.activatedOnce (hl.accepted p hp).1
    (hl.accepted q hq).1 rfl (congrArg some heq.symm)
  exact List.inj_on_of_nodup_map hact hp hq (congrArg Issue.token hsame)

/-- A token that becomes active is the one of the declaration being concluded. -/
theorem activated_by_declaration (env : Env) {s : System} (hd : DeclarationInv s) (act : Action)
    {t a : JdToken} {d : DownstreamId} {u : Identity}
    (hnew : Issue.activation t a d u ∈ (s.step env act).history)
    (hold : Issue.activation t a d u ∉ s.history) :
    ∃ w data, s.jds = .activating w data ∧ w.client = d ∧
      parseToken w.dmj.miningJobToken = some a := by
  have hstep := ledger_step env s act
  generalize hl' : (s.step env act).ledger = l' at hstep
  have hmem : Issue.activation t a d u ∈ l'.history := by rw [← hl']; exact hnew
  cases hstep with
  | allocate client identity now =>
    rcases List.mem_cons.mp hmem with heq | h
    · cases heq
    · exact absurd h hold
  | activateInsert w data now hact =>
    rcases List.mem_cons.mp hmem with heq | h
    · cases heq
      have hjds : s.jds = .activating w data := by
        have hact' : s.jds.activation = some (w, data) := hact
        cases hj : s.jds <;> rw [hj] at hact' <;> cases hact'
        rfl
      refine ⟨w, data, hjds, rfl, ?_⟩
      exact (hd.working w (by rw [hjds]; rfl)).1
    · exact absurd h hold
  | shrink | activateRemove | present | deactivate | accept => exact absurd hmem hold

/-- **The life of a token.** In every state that a run of the job declarator reaches, with
    the clients' messages, the node's answers, the pool's presentations, the janitors and
    the disconnects in any order, and with fewer than `2 ^ 64` tokens issued. -/
theorem token_lifecycle (env : Env) (as : List Action)
    (hlt : (System.after env as).history.length < 2 ^ 64) :
    Lifecycle env (System.after env as) := by
  have hl := ledgerInv_after env as hlt
  have hd := (recorded_after env as).2
  generalize hs : System.after env as = s at hl hd
  have hok : okResponses s = s.accepted.map Presentation.msg := by
    rw [← hs]
    exact okResponses_after env as
  refine
    { issuedOnce := hl.issuedOnce
      disjoint := ?_
      activatedOnce := hl.activatedOnce
      activatedByOwner := hl.activated
      activatedByDeclaration := fun act t a d u => activated_by_declaration env hd act
      activeEntry := ?_
      okResponses := hok
      acceptedOnce := accepted_allocated_nodup hl
      acceptedIdentity := ?_
      refused := ?_
      untouched := ?_
      checked := fun msg u => present_maps s msg u
      presented := fun p hp => poolStep_onlyPresented env s hp }
  · intro t hal hact
    obtain ⟨d, hd⟩ := Option.isSome_iff_exists.mp (AList.lookup_isSome.mpr hal)
    obtain ⟨e, he⟩ := Option.isSome_iff_exists.mp (AList.lookup_isSome.mpr hact)
    have heq := hl.issue_eq (hl.allocated t d hd) (hl.active t e he) rfl
    cases heq
  · intro t data h
    have hact := hl.active t data h
    exact ⟨hact, hl.activated _ _ _ _ hact⟩
  · intro p hp
    obtain ⟨hact, hid⟩ := hl.accepted p hp
    rw [hid]
    exact hl.activated _ _ _ _ hact
  · intro msg u hidle hr
    have hstep : s.step env (.present msg u) =
        s.respond msg (.error .invalidMiningJobToken) := present_of_refused hidle hr
    rw [hstep]
    exact ⟨rfl, rfl, rfl⟩
  · intro act client d hactor hne
    cases act with
    | receive c msg now =>
      have hc : c = client := Option.some.inj hactor
      subst hc
      exact receive_untouched env hl msg now hne
    | jds response now => exact jdsStep_untouched env hl hd hactor hne response now
    | _ => cases hactor

def sampleEnv : Env := ⟨referenceBitcoin, [0x51]⟩

/-- A token is allocated, declared, activated and presented. -/
def sampleRun : List Action :=
  [.connect, .receive 0 (.allocateMiningJobToken ⟨"farm_01", 0⟩) 0, .jds none 0,
   .receive 0 (.declareMiningJob sampleDeclaration) 1, .jds none 1, .jds none 1, .jds none 1,
   .jds (some (.success Hash256.allZeros 0x207fffff [])) 2, .jds none 2, .jds none 2,
   .present sampleCustomJob "farm_01", .pool, .pool]

theorem token_lifecycle_sampleRun :
    (System.after sampleEnv sampleRun).history.length = 2 ∧
    (System.after sampleEnv sampleRun).accepted.length = 1 ∧
    Lifecycle sampleEnv (System.after sampleEnv sampleRun) :=
  ⟨by decide +kernel, by decide +kernel,
    token_lifecycle sampleEnv sampleRun (by decide +kernel)⟩

end Sv2Apps.Jds
