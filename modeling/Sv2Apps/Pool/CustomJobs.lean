/-
  Pool/CustomJobs.lean
  ====================
  **Custom jobs in the pool** — `handle_set_custom_mining_job` of the pool's channel
  manager, over the embedded job declarator.

  The pool looks up the identity of the channel, has the job declarator check the token
  and the job, and commits the job to the channel.  Nothing on the way looks at who is
  paid: the outputs of a committed job are those of a coinbase that the owner of the token
  declared and the node approved.  So a job on a channel whose identity gives the pool a
  share pays the pool when all such declarations do (`custom_job_pays_pool`), and need not
  otherwise (`custom_job_pays_miner_only`).
-/
import Sv2Apps.Jds.AcceptedJobs
import Sv2Apps.Payout

namespace Sv2Apps.Pool

open Bitcoin

structure Env where
  jds : Jds.Env
  scriptFromAddress : String → Option Bytes
  /-- The pool runs with an embedded job declarator. -/
  jobDeclarator : Bool

inductive CustomJobAnswer where
  | setCustomMiningJobSuccess (channelId : ChannelId) (requestId : RequestId) (jobId : UInt32)
  | setCustomMiningJobError (channelId : ChannelId) (requestId : RequestId)
      (code : SetCustomMiningJobErrorCode)

/-- Where the channel manager's loop stands with a `SetCustomMiningJob`. -/
inductive CustomJobTask where
  | idle
  | validating (downstreamId : DownstreamId) (msg : SetCustomMiningJob) (identity : Identity)
  | committing (downstreamId : DownstreamId) (msg : SetCustomMiningJob) (identity : Identity)

/-- A job that the pool acknowledged on a channel. -/
structure Commit where
  downstreamId : DownstreamId
  msg : SetCustomMiningJob
  identity : Identity

/-- `downstreams` keeps the identity of every extended channel of every connection. -/
structure CustomJobs where
  jds : Jds.System
  downstreams : KeyMap DownstreamId (KeyMap ChannelId Identity)
  downstreamIdFactory : DownstreamId
  loop : CustomJobTask
  answers : List (DownstreamId × CustomJobAnswer)
  committed : List Commit

namespace CustomJobs

def new : CustomJobs := ⟨Jds.System.new, ∅, 0, .idle, [], []⟩

/-- Opening and closing channels is work of the same loop, so it happens between two custom
    jobs; connections come and go at any time. -/
inductive Action where
  | jds (a : Jds.Action)
  | accept
  | disconnect (d : DownstreamId)
  | openExtended (d : DownstreamId) (channelId : ChannelId) (identity : Identity)
  | closeChannel (d : DownstreamId) (channelId : ChannelId)
  | setCustomMiningJob (d : DownstreamId) (msg : SetCustomMiningJob)
  | validate
  /-- What `on_set_custom_mining_job` returns for the channel. -/
  | commit (jobId : Option UInt32)

def answer (s : CustomJobs) (d : DownstreamId) (a : CustomJobAnswer) : CustomJobs :=
  { s with answers := (d, a) :: s.answers, loop := .idle }

def answerError (s : CustomJobs) (d : DownstreamId) (msg : SetCustomMiningJob)
    (code : SetCustomMiningJobErrorCode) : CustomJobs :=
  s.answer d (.setCustomMiningJobError msg.channelId msg.requestId code)

/-- Up to the call of the job declarator. -/
def handleSetCustomMiningJob (env : Env) (s : CustomJobs) (d : DownstreamId)
    (msg : SetCustomMiningJob) : CustomJobs :=
  match s.loop with
  | .idle =>
    match s.downstreams.lookup d with
    | none => s
    | some channels =>
      if !env.jobDeclarator then s.answerError d msg .jdNotSupported
      else match channels.lookup msg.channelId with
        | none => s.answerError d msg .invalidChannelId
        | some identity =>
          { s with jds := s.jds.present msg identity, loop := .validating d msg identity }
  | _ => s

/-- The call goes on; when it has returned, its response decides. -/
def validate (env : Env) (s : CustomJobs) : CustomJobs :=
  match s.loop with
  | .validating d msg identity =>
    match s.jds.pool with
    | .idle =>
      match s.jds.responses with
      | (_, .error code) :: _ => s.answerError d msg code
      | (_, .ok) :: _ => { s with loop := .committing d msg identity }
      | [] => s
    | _ => { s with jds := s.jds.poolStep env.jds }
  | _ => s

/-- A channel that is gone is an invalid channel, an error of the channel a disconnect. -/
def commit (s : CustomJobs) (jobId : Option UInt32) : CustomJobs :=
  match s.loop with
  | .committing d msg _ =>
    match s.downstreams.lookup d with
    | none => { s with loop := .idle }
    | some channels =>
      match channels.lookup msg.channelId with
      | none => s.answerError d msg .invalidChannelId
      | some identity =>
        match jobId with
        | none => { s with loop := .idle }
        | some jobId =>
          { s with committed := ⟨d, msg, identity⟩ :: s.committed }.answer d
            (.setCustomMiningJobSuccess msg.channelId msg.requestId jobId)
  | _ => s

def step (env : Env) (s : CustomJobs) : Action → CustomJobs
  | .jds (.present _ _) => s
  | .jds .pool => s
  | .jds a => { s with jds := s.jds.step env.jds a }
  | .accept =>
    { s with
      downstreams := s.downstreams.insert s.downstreamIdFactory ∅
      downstreamIdFactory := s.downstreamIdFactory + 1 }
  | .disconnect d => { s with downstreams := s.downstreams.erase d }
  | .openExtended d channelId identity =>
    match s.loop, PayoutMode.ofIdentity env.scriptFromAddress identity with
    | .idle, .ok _ =>
      { s with downstreams :=
          KeyMap.modify d (fun channels => channels.insert channelId identity) s.downstreams }
    | _, _ => s
  | .closeChannel d channelId =>
    match s.loop with
    | .idle =>
      { s with downstreams :=
          KeyMap.modify d (fun channels => channels.erase channelId) s.downstreams }
    | _ => s
  | .setCustomMiningJob d msg => s.handleSetCustomMiningJob env d msg
  | .validate => s.validate env
  | .commit jobId => s.commit jobId

def after (env : Env) (as : List Action) : CustomJobs := Runs.run (step env) new as

end CustomJobs

/-! ## Who is paid -/

section

variable (env : Env)

/-- The identity's payout mode gives the pool a positive share. -/
def poolShare (identity : Identity) : Bool :=
  match PayoutMode.ofIdentity env.scriptFromAddress identity with
  | .ok m => m.paysPool
  | .error _ => false

/-- The script that `AllocateMiningJobTokenSuccess` hands out is among the outputs. -/
def paysPool (outs : List TxOut) : Bool :=
  outs.any fun o => o.scriptPubkey == env.jds.coinbaseRewardScript

/-- The declared coinbase pays the pool. -/
def declaresPool (dmj : DeclareMiningJob) : Bool :=
  match Jds.getCoinbaseTx env.jds.rb dmj with
  | .ok tx => paysPool env tx.output
  | .error _ => false

/-- The outputs in the bytes of a custom job pay the pool if the identity requires it. -/
def PaysShare (identity : Identity) (msg : SetCustomMiningJob) : Prop :=
  poolShare env identity = true →
    ∃ outs, msg.coinbaseTxOutputs = serializeOutputs outs ∧ paysPool env outs = true

/-- The condition on a step: a declaration that the node approves pays the pool if its client
    has a token for an identity that gives the pool a share, and the token counter does not
    wrap around. -/
def DeclarationsPayPool (s : CustomJobs) (a : CustomJobs.Action) : Prop :=
  s.jds.history.length + 1 < 2 ^ 64 ∧
  match a with
  | .jds b => Jds.approvesGood (poolShare env) (declaresPool env) s.jds b = true
  | _ => True

instance (s : CustomJobs) (a : CustomJobs.Action) : Decidable (DeclarationsPayPool env s a) :=
  match a with
  | .jds b => inferInstanceAs (Decidable (_ ∧ Jds.approvesGood _ _ s.jds b = true))
  | .accept | .disconnect _ | .openExtended _ _ _ | .closeChannel _ _ | .setCustomMiningJob _ _
  | .validate | .commit _ => inferInstanceAs (Decidable (_ ∧ True))

/-! ## The declarator under the pool -/

/-- The declarator takes at most one step of its own in a step of the pool. -/
theorem step_jds (s : CustomJobs) (a : CustomJobs.Action) :
    (s.step env a).jds = s.jds ∨ ∃ b, (s.step env a).jds = s.jds.step env.jds b ∧
      (a = .jds b ∨ (∃ msg u, b = .present msg u) ∨ b = .pool) := by
  cases a with
  | jds b =>
    cases b with
    | present msg u => exact .inl rfl
    | pool => exact .inl rfl
    | _ => exact .inr ⟨_, rfl, .inl rfl⟩
  | accept => exact .inl rfl
  | disconnect d => exact .inl rfl
  | openExtended d c u =>
    left
    simp only [CustomJobs.step]
    split <;> rfl
  | closeChannel d c =>
    left
    simp only [CustomJobs.step]
    split <;> rfl
  | setCustomMiningJob d msg =>
    simp only [CustomJobs.step, CustomJobs.handleSetCustomMiningJob]
    split
    · split
      · exact .inl rfl
      · split
        · exact .inl rfl
        · split
          · exact .inl rfl
          next u _ => exact .inr ⟨.present msg u, rfl, .inr (.inl ⟨msg, u, rfl⟩)⟩
    · exact .inl rfl
  | validate =>
    simp only [CustomJobs.step, CustomJobs.validate]
    split
    · split
      · left
        split <;> rfl
      · exact .inr ⟨.pool, rfl, .inr (.inr rfl)⟩
    · exact .inl rfl
  | commit jobId =>
    left
    simp only [CustomJobs.step, CustomJobs.commit]
    split
    · split
      · rfl
      · split
        · rfl
        · split <;> rfl
    · rfl

/-- The invariants of the declarator that the pool relies on. -/
structure DeclaratorInv (j : Jds.System) : Prop where
  ledger : Jds.LedgerInv j.ledger
  declarations : Jds.DeclarationInv j
  declared : Jds.DeclaredInv env.jds (poolShare env) (declaresPool env) j

theorem declaratorInv_step {s : CustomJobs} (h : DeclaratorInv env s.jds) {a : CustomJobs.Action}
    (hok : DeclarationsPayPool env s a) : DeclaratorInv env (s.step env a).jds := by
  rcases step_jds env s a with heq | ⟨b, heq, hb⟩
  · rw [heq]
    exact h
  · have happ : Jds.approvesGood (poolShare env) (declaresPool env) s.jds b = true := by
      rcases hb with rfl | ⟨msg, u, rfl⟩ | rfl
      · exact hok.2
      · rfl
      · rfl
    have hstep := Jds.ledger_step env.jds s.jds b
    have hlt : (s.jds.step env.jds b).history.length < 2 ^ 64 :=
      Nat.lt_of_le_of_lt hstep.history_length hok.1
    rw [heq]
    exact ⟨Jds.ledgerInv_step hstep hlt h.ledger,
      Jds.declarationInv_step env.jds h.declarations h.ledger.toRecorded b,
      Jds.declaredInv_step h.declared h.ledger h.declarations happ⟩

/-- An accepted presentation carries the outputs of a declared coinbase. -/
theorem accepted_paysShare {j : Jds.System} (h : DeclaratorInv env j) {p : Jds.Presentation}
    (hp : p ∈ j.accepted) : PaysShare env p.userIdentity p.msg := by
  intro hshare
  obtain ⟨job, hgood, hcheck⟩ := h.declared.accepted p hp hshare
  obtain ⟨-, -, -, -, tx, txids, htx, hcb, -, -⟩ := Jds.checkSetCustomMiningJob_eq_success hcheck
  obtain ⟨-, -, houts, -⟩ := Jds.checkCoinbase_eq_none hcb
  refine ⟨tx.output, houts.symm, ?_⟩
  simpa [declaresPool, htx] using hgood

/-! ## The loop -/

/-- The channel, as long as it is there, has the identity that was read. -/
def SameIdentity (s : CustomJobs) (d : DownstreamId) (msg : SetCustomMiningJob)
    (identity : Identity) : Prop :=
  ∀ channels u, s.downstreams.lookup d = some channels →
    channels.lookup msg.channelId = some u → u = identity

structure LoopInv (s : CustomJobs) : Prop where
  quiet : (∀ d msg u, s.loop ≠ .validating d msg u) → s.jds.pool.presentation = none
  presenting : ∀ d msg u p, s.loop = .validating d msg u → s.jds.pool.presentation = some p →
    p.msg = msg ∧ p.userIdentity = u
  answered : ∀ d msg u m rest, s.loop = .validating d msg u → s.jds.pool = .idle →
    s.jds.responses = (m, .ok) :: rest → PaysShare env u msg
  committing : ∀ d msg u, s.loop = .committing d msg u → PaysShare env u msg
  identity : ∀ d msg u, s.loop = .validating d msg u ∨ s.loop = .committing d msg u →
    SameIdentity s d msg u
  committed : ∀ c ∈ s.committed, PaysShare env c.identity c.msg

theorem loopInv_new : LoopInv env CustomJobs.new := by
  refine ⟨fun _ => rfl, ?_, ?_, ?_, ?_, ?_⟩
  · intro d msg u p h
    cases h
  · intro d msg u m rest h
    cases h
  · intro d msg u h
    cases h
  · rintro d msg u (h | h) <;> cases h
  · intro c hc
    cases hc

variable {env}

/-- A step that ends the work on a message. -/
theorem LoopInv.toIdle {s s' : CustomJobs} (h : LoopInv env s) (hloop : s'.loop = .idle)
    (hpool : s'.jds.pool.presentation = none)
    (hcom : ∀ c ∈ s'.committed, c ∈ s.committed ∨ PaysShare env c.identity c.msg) :
    LoopInv env s' := by
  refine ⟨fun _ => hpool, ?_, ?_, ?_, ?_, ?_⟩
  · intro d msg u p hl
    rw [hloop] at hl
    cases hl
  · intro d msg u m rest hl
    rw [hloop] at hl
    cases hl
  · intro d msg u hl
    rw [hloop] at hl
    cases hl
  · intro d msg u hl
    rw [hloop] at hl
    rcases hl with hl | hl <;> cases hl
  · intro c hc
    rcases hcom c hc with hold | hnew
    · exact h.committed c hold
    · exact hnew

/-- A step outside the loop: channels may only disappear. -/
theorem LoopInv.frame {s s' : CustomJobs} (h : LoopInv env s) (hloop : s'.loop = s.loop)
    (hcom : s'.committed = s.committed) (hpool : s'.jds.pool = s.jds.pool)
    (hresp : s'.jds.responses = s.jds.responses)
    (hdown : ∀ d channels, s'.downstreams.lookup d = some channels →
      channels = ∅ ∨ s.downstreams.lookup d = some channels) : LoopInv env s' := by
  refine ⟨?_, ?_, ?_, ?_, ?_, ?_⟩
  · rw [hloop, hpool]
    exact h.quiet
  · rw [hloop, hpool]
    exact h.presenting
  · rw [hloop, hpool, hresp]
    exact h.answered
  · rw [hloop]
    exact h.committing
  · intro d msg u hl channels v hd hv
    rw [hloop] at hl
    rcases hdown d channels hd with rfl | hold
    · cases hv
    · exact h.identity d msg u hl channels v hold hv
  · rw [hcom]
    exact h.committed

/-- The declarator takes the message up, or refuses it at once. -/
theorem present_pool {j : Jds.System} (hpool : j.pool.presentation = none)
    (msg : SetCustomMiningJob) (u : Identity) :
    (∀ p, (j.present msg u).pool.presentation = some p → p.msg = msg ∧ p.userIdentity = u) ∧
    ((j.present msg u).pool = .idle →
      ∃ code, (j.present msg u).responses = (msg, .error code) :: j.responses) := by
  have hrefuse : ∀ code,
      (∀ p, (j.respond msg (.error code)).pool.presentation = some p →
        p.msg = msg ∧ p.userIdentity = u) ∧
      ((j.respond msg (.error code)).pool = .idle →
        ∃ c, (j.respond msg (.error code)).responses = (msg, .error c) :: j.responses) := by
    intro code
    refine ⟨?_, fun _ => ⟨code, rfl⟩⟩
    intro p hp
    cases hp
  unfold Jds.System.present
  cases hj : j.pool with
  | idle =>
    dsimp only
    split
    · exact hrefuse _
    · split
      · exact hrefuse _
      · split
        · exact hrefuse _
        · constructor
          · intro p hp
            cases hp
            exact ⟨rfl, rfl⟩
          · intro hidle
            cases hidle
  | deactivating p => rw [hj] at hpool; cases hpool
  | taking p => rw [hj] at hpool; cases hpool
  | stopped =>
    dsimp only
    rw [hj]
    constructor
    · intro p hp
      cases hp
    · intro hidle
      cases hidle

theorem handleSetCustomMiningJob_loopInv {s : CustomJobs} (h : LoopInv env s) (d : DownstreamId)
    (msg : SetCustomMiningJob) : LoopInv env (s.handleSetCustomMiningJob env d msg) := by
  unfold CustomJobs.handleSetCustomMiningJob
  cases hloop : s.loop with
  | idle =>
    have hquiet : s.jds.pool.presentation = none := by
      apply h.quiet
      intro d' msg' u' hl
      rw [hloop] at hl
      cases hl
    dsimp only
    split
    next => exact h
    next channels hd =>
      split
      · exact h.toIdle rfl hquiet fun c hc => .inl hc
      · split
        · exact h.toIdle rfl hquiet fun c hc => .inl hc
        next u hu =>
          obtain ⟨hpres, hans⟩ := present_pool hquiet msg u
          refine ⟨?_, ?_, ?_, ?_, ?_, h.committed⟩
          · intro hl
            exact absurd rfl (hl d msg u)
          · intro d' msg' u' p hl hp
            cases hl
            exact hpres p hp
          · intro d' msg' u' m rest hl hidle hresp
            obtain ⟨code, hcode⟩ := hans hidle
            rw [hcode] at hresp
            cases hresp
          · intro d' msg' u' hl
            cases hl
          · rintro d' msg' u' (hl | hl) ch v hd' hv
            · cases hl
              dsimp only at hd'
              rw [hd] at hd'
              cases hd'
              rw [hu] at hv
              exact (Option.some.inj hv).symm
            · cases hl
  | validating d' msg' u => exact h
  | committing d' msg' u => exact h

/-- While the call is on, each step of the declarator keeps the message, and the last one
    answers it. -/
theorem poolStep_pool (env : Env) (j : Jds.System) :
    (∀ p, (j.poolStep env.jds).pool.presentation = some p → j.pool.presentation = some p) ∧
    (∀ m rest, j.pool ≠ .idle → (j.poolStep env.jds).pool = .idle →
      (j.poolStep env.jds).responses = (m, .ok) :: rest →
      ∃ p, j.pool.presentation = some p ∧ p ∈ (j.poolStep env.jds).accepted) := by
  unfold Jds.System.poolStep
  cases hj : j.pool with
  | idle =>
    dsimp only
    rw [hj]
    exact ⟨fun _ hp => hp, fun _ _ hne => absurd rfl hne⟩
  | stopped =>
    dsimp only
    rw [hj]
    refine ⟨fun _ hp => hp, ?_⟩
    intro m rest _ hidle
    cases hidle
  | deactivating p =>
    refine ⟨fun _ hp => hp, ?_⟩
    intro m rest _ hidle
    cases hidle
  | taking p =>
    dsimp only
    split
    next =>
      constructor
      · intro q hq
        cases hq
      · intro m rest _ _ _
        exact ⟨p, rfl, List.mem_cons_self⟩
    next =>
      constructor
      · intro q hq
        cases hq
      · intro m rest _ _ hresp
        cases hresp
    next =>
      constructor
      · intro q hq
        cases hq
      · intro m rest _ hidle
        cases hidle

theorem validate_of_running {s : CustomJobs} {d : DownstreamId} {msg : SetCustomMiningJob}
    {u : Identity} (hloop : s.loop = .validating d msg u) (hne : s.jds.pool ≠ .idle) :
    s.validate env = { s with jds := s.jds.poolStep env.jds } := by
  simp only [CustomJobs.validate, hloop]

theorem validate_loopInv {s : CustomJobs} (h : LoopInv env s)
    (hj : DeclaratorInv env (s.validate env).jds) : LoopInv env (s.validate env) := by
  cases hloop : s.loop with
  | idle => simp only [CustomJobs.validate, hloop]; exact h
  | committing d msg u => simp only [CustomJobs.validate, hloop]; exact h
  | validating d msg u =>
    by_cases hidle : s.jds.pool = .idle
    · have hquiet : s.jds.pool.presentation = none := by
        rw [hidle]
        rfl
      simp only [CustomJobs.validate, hloop, hidle]
      split
      · exact h.toIdle rfl hquiet fun c hc => .inl hc
      next m rest hresp =>
        refine ⟨fun _ => hquiet, ?_, ?_, ?_, ?_, h.committed⟩
        · intro d' msg' u' p hl
          cases hl
        · intro d' msg' u' m' rest' hl
          cases hl
        · intro d' msg' u' hl
          cases hl
          exact h.answered d msg u m rest hloop hidle hresp
        · rintro d' msg' u' (hl | hl)
          · cases hl
          · cases hl
            exact h.identity d msg u (.inl hloop)
      · exact h
    · rw [validate_of_running hloop hidle] at hj ⊢
      obtain ⟨hpres, hans⟩ := poolStep_pool env s.jds
      refine ⟨?_, ?_, ?_, ?_, h.identity, h.committed⟩
      · intro hl
        exact absurd hloop (hl d msg u)
      · intro d' msg' u' p hl hp
        exact h.presenting d' msg' u' p hl (hpres p hp)
      · intro d' msg' u' m rest hl hidle' hresp
        obtain ⟨p, hp, hacc⟩ := hans m rest hidle hidle' hresp
        obtain ⟨rfl, rfl⟩ := h.presenting d' msg' u' p hl hp
        exact accepted_paysShare env hj hacc
      · intro d' msg' u' hl
        cases hloop.symm.trans hl

theorem commit_loopInv {s : CustomJobs} (h : LoopInv env s) (jobId : Option UInt32) :
    LoopInv env (s.commit jobId) := by
  unfold CustomJobs.commit
  cases hloop : s.loop with
  | idle => exact h
  | validating d msg u => exact h
  | committing d msg u =>
    have hquiet : s.jds.pool.presentation = none := by
      apply h.quiet
      intro d' msg' u' hl
      rw [hloop] at hl
      cases hl
    dsimp only
    split
    next => exact h.toIdle rfl hquiet fun c hc => .inl hc
    next channels hd =>
      split
      next => exact h.toIdle rfl hquiet fun c hc => .inl hc
      next v hv =>
        split
        next => exact h.toIdle rfl hquiet fun c hc => .inl hc
        next id =>
          refine h.toIdle rfl hquiet ?_
          intro c hc
          rcases List.mem_cons.mp hc with rfl | hc
          · have hid : v = u := h.identity d msg u (.inr hloop) channels v hd hv
            subst hid
            exact .inr (h.committing d msg v hloop)
          · exact .inl hc

/-- Channels are opened and closed between two messages. -/
theorem LoopInv.channels {s : CustomJobs} (h : LoopInv env s) (hloop : s.loop = .idle)
    (downstreams : KeyMap DownstreamId (KeyMap ChannelId Identity)) :
    LoopInv env { s with downstreams := downstreams } := by
  refine h.toIdle hloop ?_ fun c hc => .inl hc
  apply h.quiet
  intro d msg u hl
  rw [hloop] at hl
  cases hl

theorem loopInv_step {s : CustomJobs} (h : LoopInv env s) {a : CustomJobs.Action}
    (hj : DeclaratorInv env (s.step env a).jds) : LoopInv env (s.step env a) := by
  have hkeep : ∀ d channels, s.downstreams.lookup d = some channels →
      channels = ∅ ∨ s.downstreams.lookup d = some channels := fun _ _ hd => .inr hd
  cases a with
  | jds b =>
    by_cases hpres : ∃ msg u, b = .present msg u
    · obtain ⟨msg, u, rfl⟩ := hpres
      exact h
    · by_cases hpool : b = .pool
      · subst hpool
        exact h
      · have hside := Jds.step_poolSide env.jds s.jds (fun msg u heq => hpres ⟨msg, u, heq⟩) hpool
        have hstep : s.step env (.jds b) = { s with jds := s.jds.step env.jds b } := by
          cases b with
          | present msg u => exact absurd ⟨msg, u, rfl⟩ hpres
          | pool => exact absurd rfl hpool
          | _ => rfl
        rw [hstep]
        exact h.frame rfl rfl hside.1 hside.2.1 hkeep
  | accept =>
    refine h.frame rfl rfl rfl rfl ?_
    intro d channels hd
    simp only [CustomJobs.step, KeyMap.lookup_insert_eq] at hd
    split at hd
    · cases hd
      exact .inl rfl
    · exact .inr hd
  | disconnect d =>
    refine h.frame rfl rfl rfl rfl ?_
    intro e channels hd
    exact .inr (KeyMap.lookup_erase_some hd)
  | openExtended d c u =>
    simp only [CustomJobs.step]
    split
    next hloop _ => exact h.channels hloop _
    next => exact h
  | closeChannel d c =>
    simp only [CustomJobs.step]
    split
    next hloop => exact h.channels hloop _
    next => exact h
  | setCustomMiningJob d msg => exact handleSetCustomMiningJob_loopInv h d msg
  | validate => exact validate_loopInv h hj
  | commit jobId => exact commit_loopInv h jobId

end

/-- **A committed custom job pays the pool's share** in every run in which the declarations
    that the node approves do. -/
theorem custom_job_pays_pool (env : Env) (as : List CustomJobs.Action)
    (hg : Runs.Guarded (CustomJobs.step env) (DeclarationsPayPool env) CustomJobs.new as) :
    ∀ c ∈ (CustomJobs.after env as).committed, poolShare env c.identity = true →
      ∃ outs, c.msg.coinbaseTxOutputs = serializeOutputs outs ∧
        ∃ o ∈ outs, o.scriptPubkey = env.jds.coinbaseRewardScript := by
  have hinv : DeclaratorInv env (CustomJobs.after env as).jds ∧
      LoopInv env (CustomJobs.after env as) := by
    refine Runs.run_invariant_of_guarded
      (fun s : CustomJobs => DeclaratorInv env s.jds ∧ LoopInv env s) ?_ ?_ as hg
    · rintro s a ⟨hj, hl⟩ hok
      have hj' := declaratorInv_step env hj hok
      exact ⟨hj', loopInv_step hl hj'⟩
    · exact ⟨⟨Jds.ledgerInv_new, Jds.declarationInv_new, Jds.declaredInv_new _ _ _⟩,
        loopInv_new env⟩
  intro c hc hshare
  obtain ⟨outs, houts, hpays⟩ := hinv.2.committed c hc hshare
  obtain ⟨o, ho, hscript⟩ := List.any_eq_true.mp hpays
  exact ⟨outs, houts, o, ho, by simpa using hscript⟩

/-- A token is allocated for `identity`, the sample declaration is approved for it, and its
    custom job is set on a channel of that identity. -/
def sampleCustomJobRun (identity : Identity) : List CustomJobs.Action :=
  [.jds .connect, .jds (.receive 0 (.allocateMiningJobToken ⟨identity, 0⟩) 0), .jds (.jds none 0),
   .jds (.receive 0 (.declareMiningJob Jds.sampleDeclaration) 1), .jds (.jds none 1),
   .jds (.jds none 1), .jds (.jds none 1),
   .jds (.jds (some (.success Hash256.allZeros 0x207fffff [])) 2), .jds (.jds none 2),
   .jds (.jds none 2), .accept, .openExtended 0 1 identity,
   .setCustomMiningJob 0 Jds.sampleCustomJob, .validate, .validate, .validate, .commit (some 7)]

/-- A pool that is paid with the given script, where no text is an address. -/
def sampleEnv (coinbaseRewardScript : Bytes) : Env :=
  ⟨⟨referenceBitcoin, coinbaseRewardScript⟩, fun _ => none, true⟩

theorem custom_job_pays_pool_sample :
    Runs.Guarded (CustomJobs.step (sampleEnv [0x51])) (DeclarationsPayPool (sampleEnv [0x51]))
      CustomJobs.new (sampleCustomJobRun "farm_01") ∧
    ((CustomJobs.after (sampleEnv [0x51]) (sampleCustomJobRun "farm_01")).committed.map
      fun c => poolShare (sampleEnv [0x51]) c.identity) = [true] ∧
    ∀ c ∈ (CustomJobs.after (sampleEnv [0x51]) (sampleCustomJobRun "farm_01")).committed,
      poolShare (sampleEnv [0x51]) c.identity = true →
        ∃ outs, c.msg.coinbaseTxOutputs = serializeOutputs outs ∧
          ∃ o ∈ outs, o.scriptPubkey = (sampleEnv [0x51]).jds.coinbaseRewardScript := by
  have hg : Runs.Guarded (CustomJobs.step (sampleEnv [0x51]))
      (DeclarationsPayPool (sampleEnv [0x51])) CustomJobs.new (sampleCustomJobRun "farm_01") := by
    decide +kernel
  exact ⟨hg, by decide +kernel, custom_job_pays_pool _ _ hg⟩

/-- The same run at a pool whose script is another one: the channel donates everything to the
    pool, the job pays the script `51` alone, and the pool acknowledges it. -/
theorem custom_job_pays_miner_only :
    ¬ ∀ c ∈ (CustomJobs.after (sampleEnv [0x52]) (sampleCustomJobRun "sri/donate")).committed,
      poolShare (sampleEnv [0x52]) c.identity = true →
        ∃ outs, c.msg.coinbaseTxOutputs = serializeOutputs outs ∧
          ∃ o ∈ outs, o.scriptPubkey = (sampleEnv [0x52]).jds.coinbaseRewardScript := by
  intro h
  have hcom : ((CustomJobs.after (sampleEnv [0x52]) (sampleCustomJobRun "sri/donate")).committed.map
      fun c => (c.identity, c.msg)) = [("sri/donate", Jds.sampleCustomJob)] := by
    decide +kernel
  obtain ⟨c, hc, hpair⟩ := List.mem_map.mp (hcom ▸ List.mem_cons_self)
  obtain ⟨hid, hmsg⟩ := Prod.mk.inj hpair
  have hshare : poolShare (sampleEnv [0x52]) c.identity = true := by
    rw [hid]
    decide +kernel
  obtain ⟨outs, houts, o, ho, hscript⟩ := h c hc hshare
  rw [hmsg] at houts
  -- the bytes of the outputs decode in one way only
  have hone : outs = [⟨5000000000, [0x51]⟩] := serializeOutputs_inj
    (by rw [← houts]; decide) houts.symm
  subst hone
  rcases List.mem_singleton.mp ho with rfl
  exact absurd hscript (by decide)

end Sv2Apps.Pool
