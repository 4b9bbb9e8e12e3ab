/-
  Jds/CleanupRaces.lean
  =====================
  **`cleanup_downstream` against the handlers of the job declarator** — `job_declarator/mod.rs`,
  `downstream/mod.rs`.

  `cleanup_downstream` goes through five maps, one after the other.  It is called by the task of
  the connection when its loop has ended, and by the message loop when a handler returned a
  disconnect error; such an error comes from a lookup that finds nothing and from a send into a
  channel whose receiver is gone.  The connection's task drops the receiver after its cleanup, so
  there is a time in which the maps are already clean and an answer is still accepted.  A handler
  that inserts an entry and answers in that time leaves the entry behind (`cleanup_wins`).
-/
import Sv2Apps.Jds.TokenLifecycle

namespace Sv2Apps.Jds

open Bitcoin

/-- The map that a call of `cleanup_downstream` removes from next. -/
inductive CleanupStage where
  | clients
  | senders
  | states
  | allocated
  | active
  | finished
deriving DecidableEq

namespace CleanupStage

def rank : CleanupStage → Nat
  | .clients => 0
  | .senders => 1
  | .states => 2
  | .allocated => 3
  | .active => 4
  | .finished => 5

def next : CleanupStage → CleanupStage
  | .clients => .senders
  | .senders => .states
  | .states => .allocated
  | .allocated => .active
  | .active => .finished
  | .finished => .finished

/-- The removal, as one step on one map. -/
def action (d : DownstreamId) : CleanupStage → Option Action
  | .clients => some (.cleanupClient d)
  | .senders => some (.cleanupSender d)
  | .states => some (.cleanupState d)
  | .allocated => some (.cleanupAllocated d fun _ => true)
  | .active => some (.cleanupActive d fun _ => true)
  | .finished => none

end CleanupStage

/-- The task of a connection.  It owns the receiver of the answers until it has ended. -/
inductive ConnectionTask where
  | serving
  | cleaning (stage : CleanupStage)
  | ended
deriving DecidableEq

/-- How the next step of the handler that is running ends. -/
inductive Outcome where
  /-- The handler is not done, or has returned without an answer. -/
  | goesOn
  /-- It answers the client and returns. -/
  | answers (client : DownstreamId)
  /-- It returns a disconnect error. -/
  | disconnects (client : DownstreamId)
deriving DecidableEq

/-- A call of the task's has yet to remove from the map of `stage`. -/
def ConnectionTask.ahead (stage : CleanupStage) : ConnectionTask → Prop
  | .cleaning reached => reached.rank ≤ stage.rank
  | _ => False

instance (stage : CleanupStage) (task : ConnectionTask) : Decidable (task.ahead stage) := by
  cases task <;> unfold ConnectionTask.ahead <;> infer_instance

namespace System

/-- The message loop takes a message of a client: the sender is looked up first by the two
    handlers of declarations. -/
def receiveOutcome (s : System) (client : DownstreamId) (msg : JobDeclarationMessage) : Outcome :=
  match s.jds, msg with
  | .idle, .declareMiningJob _ | .idle, .provideMissingTransactionsSuccess _ =>
    if client ∈ s.downstreamClientSenders then .goesOn else .disconnects client
  | _, _ => .goesOn

/-- The end of a declaration that has been validated. -/
def concludeOutcome (s : System) (w : Declaration) : DeclareMiningJobResult → Outcome
  | .success =>
    match s.tokenManager.activateRemove w.token w.client with
    | some _ => .goesOn
    | none => .answers w.client
  | .error _ => .answers w.client
  | .missingTransactions missing =>
    match w.provided with
    | some _ => .answers w.client
    | none =>
      if w.client ∈ s.downstreamClients then
        if (unknownTxPositionList w.dmj.wtxidList missing).length ≤ 65535 then .answers w.client
        else .goesOn
      else .disconnects w.client
  | .panic => .goesOn

def outcome (s : System) : Outcome :=
  match s.jds with
  | .answering client _ =>
    if client ∈ s.downstreamClientSenders then .answers client else .disconnects client
  | .checking client dmj =>
    match parseToken dmj.miningJobToken with
    | none => .answers client
    | some token => if s.tokenManager.isAllocated token client then .goesOn else .answers client
  | .retrying client _ => if client ∈ s.downstreamClients then .goesOn else .disconnects client
  | .concluding w result => s.concludeOutcome w result
  | .activating w _ => .answers w.client
  | _ => .goesOn

end System

/-- The job declarator together with the calls of `cleanup_downstream`. -/
structure CleanupSystem where
  system : System
  connections : KeyMap DownstreamId ConnectionTask
  /-- The call that the message loop is in. -/
  loopCleanup : Option (DownstreamId × CleanupStage)
  /-- The downstreams that the message loop has cleaned up after. -/
  disconnected : List DownstreamId

inductive CleanupAction where
  | act (a : Action)
  /-- The connection's task leaves its loop. -/
  | leave (d : DownstreamId)
  /-- It goes on with its cleanup, or ends. -/
  | connection (d : DownstreamId)
  /-- The message loop goes on with its cleanup. -/
  | loop

namespace CleanupSystem

def new : CleanupSystem := ⟨System.new, ∅, none, []⟩

/-- The channel to the client has its receiver. -/
def channelOpen (s : CleanupSystem) (d : DownstreamId) : Prop :=
  s.connections.lookup d ≠ some .ended

instance (s : CleanupSystem) (d : DownstreamId) : Decidable (s.channelOpen d) :=
  inferInstanceAs (Decidable (_ ≠ _))

/-- `handle_error_action` for a disconnect error. -/
def disconnect (s : CleanupSystem) (d : DownstreamId) : CleanupSystem :=
  { s with loopCleanup := some (d, .clients) }

/-- How the message loop goes on after a step of a handler. -/
def settle (s : CleanupSystem) : Outcome → CleanupSystem
  | .goesOn => s
  | .answers d => if s.channelOpen d then s else s.disconnect d
  | .disconnects d => s.disconnect d

/-- One removal of a cleanup. -/
def remove (env : Env) (s : CleanupSystem) (d : DownstreamId) (stage : CleanupStage) : System :=
  match stage.action d with
  | some a => s.system.step env a
  | none => s.system

def act (env : Env) (s : CleanupSystem) (a : Action) : CleanupSystem :=
  let s' := { s with system := s.system.step env a }
  match a with
  | .connect =>
    { s' with connections := s.connections.insert s.system.downstreamIdFactory .serving }
  | .receive client msg _ =>
    if s.loopCleanup = none ∧ client < s.system.downstreamIdFactory then
      s'.settle (s.system.receiveOutcome client msg)
    else s
  | .jds _ _ => if s.loopCleanup = none then s'.settle s.system.outcome else s
  -- the removals are steps of a call of `cleanup_downstream`
  | .cleanupClient _ => s
  | .cleanupSender _ => s
  | .cleanupState _ => s
  | .cleanupAllocated _ _ => s
  | .cleanupActive _ _ => s
  | _ => s'

def step (env : Env) (s : CleanupSystem) : CleanupAction → CleanupSystem
  | .act a => s.act env a
  | .leave d =>
    if s.connections.lookup d = some .serving then
      { s with connections := s.connections.insert d (.cleaning .clients) }
    else s
  | .connection d =>
    match s.connections.lookup d with
    | some (.cleaning .finished) => { s with connections := s.connections.insert d .ended }
    | some (.cleaning stage) =>
      { s with
        system := s.remove env d stage
        connections := s.connections.insert d (.cleaning stage.next) }
    | _ => s
  | .loop =>
    match s.loopCleanup with
    | some (d, .finished) =>
      { s with loopCleanup := none, disconnected := d :: s.disconnected }
    | some (d, stage) =>
      { s with system := s.remove env d stage, loopCleanup := some (d, stage.next) }
    | none => s

/-- The state after a run. -/
def after (env : Env) (es : List CleanupAction) : CleanupSystem := Runs.run (step env) new es

/-! ## The property -/

/-- `cleanup_downstream` has been called for `d`. -/
def Begun (s : CleanupSystem) (d : DownstreamId) : Prop :=
  (∃ task ∈ s.connections.lookup d, task ≠ .serving) ∨ (∃ call ∈ s.loopCleanup, call.1 = d) ∨
    d ∈ s.disconnected

/-- Every call for `d` has returned, and so has the handler of the message loop that served `d`.
    (Whether the pool still presents a token of `d` does not matter.) -/
structure Finished (s : CleanupSystem) (d : DownstreamId) : Prop where
  begun : s.Begun d
  connection : ∀ stage, s.connections.lookup d = some (.cleaning stage) → stage = .finished
  loop : ∀ stage, s.loopCleanup ≠ some (d, stage)
  handler : s.system.jds.client ≠ some d

/-- The active token `t` of `d` is still there.  (After 2^64 tokens the number comes again, and
    the entry under it may be another client's.) -/
def StaysActive (s : System) (d : DownstreamId) (t : JdToken) : Prop :=
  ∃ data, s.tokenManager.activeTokens.lookup t = some data ∧ data.owner = d

/-- Nothing of `d` is left. -/
structure NothingKept (s : System) (d : DownstreamId) : Prop where
  clients : d ∉ s.downstreamClients
  senders : d ∉ s.downstreamClientSenders
  states : d ∉ s.downstreamStates
  allocated : ∀ t data, s.tokenManager.allocatedTokens.lookup t = some data → data.owner ≠ d
  active : ∀ t data, s.tokenManager.activeTokens.lookup t = some data → data.owner ≠ d
  successes : ∀ r t, (d, .declareMiningJobSuccess r t) ∈ s.sent → ¬StaysActive s d t

def CleanupWins (s : CleanupSystem) : Prop := ∀ d, s.Finished d → NothingKept s.system d

/-- A removal from the map of `stage` is still to come: a call for `d` has not got beyond it, or
    none has been made yet. -/
def Ahead (s : CleanupSystem) (stage : CleanupStage) (d : DownstreamId) : Prop :=
  (∃ task ∈ s.connections.lookup d, task.ahead stage) ∨
    (∃ call ∈ s.loopCleanup, call.1 = d ∧ call.2.rank ≤ stage.rank) ∨ ¬s.Begun d

/-- The condition on a step: an answer that the channel accepts comes before the removal of what
    its handler has inserted. -/
def inTime (s : CleanupSystem) : CleanupAction → Prop
  | .act (.jds _ _) =>
    match s.system.outcome with
    | .answers d =>
      s.loopCleanup = none → s.channelOpen d →
        (d ∈ s.system.downstreamStates → s.Ahead .states d) ∧
          (s.system.jds.activation.isSome → s.Ahead .active d)
    | _ => True
  | _ => True

instance (s : CleanupSystem) (d : DownstreamId) : Decidable (s.Begun d) :=
  inferInstanceAs (Decidable (_ ∨ _))

instance (s : CleanupSystem) (stage : CleanupStage) (d : DownstreamId) :
    Decidable (s.Ahead stage d) :=
  inferInstanceAs (Decidable (_ ∨ _))

instance (s : CleanupSystem) (a : CleanupAction) : Decidable (s.inTime a) := by
  cases a with
  | act a =>
    cases a with
    | jds response now =>
      unfold inTime
      dsimp only
      split <;> infer_instance
    | _ => exact isTrue trivial
  | _ => exact isTrue trivial

/-! ## What a step of a handler adds -/

end CleanupSystem

/-- The client whose state the running handler may have made. -/
def JdsTask.ensured : JdsTask → Option DownstreamId
  | .waiting w _ _ => some w.client
  | .concluding _ .panic => none
  | .concluding w _ => some w.client
  | .activating w _ => some w.client
  | _ => none

/-- The client whose allocated token the running handler has inserted. -/
def JdsTask.allocating : JdsTask → Option DownstreamId
  | .answering client _ => some client
  | _ => none

/-- What a step that is not a connection or a removal does, when its handler ends as `o` says. -/
structure HandlerStep (s s' : System) (o : Outcome) : Prop where
  factory : s'.downstreamIdFactory = s.downstreamIdFactory
  clients : ∀ d ∈ s'.downstreamClients, d ∈ s.downstreamClients
  senders : ∀ d ∈ s'.downstreamClientSenders, d ∈ s.downstreamClientSenders
  states : ∀ d ∈ s'.downstreamStates, d ∈ s.downstreamStates ∨ s'.jds.ensured = some d
  allocated : ∀ t data, s'.tokenManager.allocatedTokens.lookup t = some data →
    s.tokenManager.allocatedTokens.lookup t = some data ∨ s'.jds.allocating = some data.owner
  active : ∀ t data, s'.tokenManager.activeTokens.lookup t = some data →
    s.tokenManager.activeTokens.lookup t = some data ∨
      s.jds.activation.isSome ∧ o = .answers data.owner
  /-- A handler that made a state ends with an answer or a disconnect error, unless it stops the
      declarator while its client is there. -/
  ensured : ∀ d, s.jds.ensured = some d →
    s'.jds.ensured = some d ∨ o = .answers d ∨ o = .disconnects d ∨ d ∈ s.downstreamClients
  /-- A handler that allocated finds the sender or ends with a disconnect error. -/
  allocating : ∀ d, s.jds.allocating = some d →
    s'.jds.allocating = some d ∨ o = .disconnects d ∨ d ∈ s.downstreamClientSenders
  handler : ∀ d, s'.jds.client = some d → s.jds.client = some d ∨ d < s.downstreamIdFactory
  outcome : ∀ d, o = .answers d ∨ o = .disconnects d →
    s.jds.client = some d ∨ d < s.downstreamIdFactory

theorem Shrinks.handlerStep {s s' : System} (htm : Shrinks s.tokenManager s'.tokenManager)
    (hjds : s'.jds = s.jds) (hfac : s'.downstreamIdFactory = s.downstreamIdFactory)
    (hclients : ∀ d ∈ s'.downstreamClients, d ∈ s.downstreamClients)
    (hsenders : s'.downstreamClientSenders = s.downstreamClientSenders)
    (hstates : ∀ d ∈ s'.downstreamStates, d ∈ s.downstreamStates) :
    HandlerStep s s' .goesOn where
  factory := hfac
  clients := hclients
  senders := by rw [hsenders]; exact fun d hd => hd
  states := fun d hd => Or.inl (hstates d hd)
  allocated := fun t data h => Or.inl (htm.allocated t data h)
  active := fun t data h => Or.inl (htm.active t data h)
  ensured := by rw [hjds]; exact fun d hd => Or.inl hd
  allocating := by rw [hjds]; exact fun d hd => Or.inl hd
  handler := by rw [hjds]; exact fun d hd => Or.inl hd
  outcome := by
    rintro d (h | h)
    · cases h
    · cases h

/-- The handler goes on, and what it has inserted stays on record. -/
theorem Shrinks.handlerStep_goesOn {s s' : System} (htm : Shrinks s.tokenManager s'.tokenManager)
    (hclient : ∀ d, s'.jds.client = some d → s.jds.client = some d)
    (hensured : ∀ d, s.jds.ensured = some d →
      s'.jds.ensured = some d ∨ d ∈ s.downstreamClients)
    (halloc : s.jds.allocating = none) (hfac : s'.downstreamIdFactory = s.downstreamIdFactory)
    (hclients : ∀ d ∈ s'.downstreamClients, d ∈ s.downstreamClients)
    (hsenders : s'.downstreamClientSenders = s.downstreamClientSenders)
    (hstates : ∀ d ∈ s'.downstreamStates, d ∈ s.downstreamStates ∨ s'.jds.ensured = some d) :
    HandlerStep s s' .goesOn where
  factory := hfac
  clients := hclients
  senders := by rw [hsenders]; exact fun d hd => hd
  states := hstates
  allocated := fun t data h => Or.inl (htm.allocated t data h)
  active := fun t data h => Or.inl (htm.active t data h)
  ensured := by
    intro d hd
    rcases hensured d hd with h | h
    · exact Or.inl h
    · exact Or.inr (Or.inr (Or.inr h))
  allocating := by
    intro d hd
    rw [halloc] at hd
    cases hd
  handler := fun d hd => Or.inl (hclient d hd)
  outcome := by
    rintro d (h | h)
    · cases h
    · cases h

/-- The handler of `c` returns, with an answer or a disconnect error. -/
theorem Shrinks.handlerStep_returns {s s' : System} {c : DownstreamId} {o : Outcome}
    (htm : Shrinks s.tokenManager s'.tokenManager) (hc : s.jds.client = some c)
    (hidle : s'.jds = .idle) (ho : o = .answers c ∨ o = .disconnects c)
    (hensured : ∀ d, s.jds.ensured = some d → d = c)
    (halloc : ∀ d, s.jds.allocating = some d →
      o = .disconnects d ∨ d ∈ s.downstreamClientSenders)
    (hfac : s'.downstreamIdFactory = s.downstreamIdFactory)
    (hclients : ∀ d ∈ s'.downstreamClients, d ∈ s.downstreamClients)
    (hsenders : s'.downstreamClientSenders = s.downstreamClientSenders)
    (hstates : s'.downstreamStates = s.downstreamStates) : HandlerStep s s' o where
  factory := hfac
  clients := hclients
  senders := by rw [hsenders]; exact fun d hd => hd
  states := by rw [hstates]; exact fun d hd => Or.inl hd
  allocated := fun t data h => Or.inl (htm.allocated t data h)
  active := fun t data h => Or.inl (htm.active t data h)
  ensured := by
    intro d hd
    rw [hensured d hd]
    rcases ho with ho | ho
    · exact Or.inr (Or.inl ho)
    · exact Or.inr (Or.inr (Or.inl ho))
  allocating := fun d hd => Or.inr (halloc d hd)
  handler := by
    intro d hd
    rw [hidle] at hd
    cases hd
  outcome := by
    intro d hd
    apply Or.inl
    rw [hc]
    rcases ho with rfl | rfl
    · rcases hd with hd | hd
      · cases hd
        rfl
      · cases hd
    · rcases hd with hd | hd
      · cases hd
      · cases hd
        rfl

theorem client_of_ensured {task : JdsTask} {d : DownstreamId} (h : task.ensured = some d) :
    task.client = some d := by
  cases task with
  | waiting w t p => exact h
  | concluding w result =>
    cases result with
    | panic => cases h
    | _ => exact h
  | activating w data => exact h
  | _ => cases h

theorem client_of_allocating {task : JdsTask} {d : DownstreamId}
    (h : task.allocating = some d) : task.client = some d := by
  cases task with
  | answering client a => exact h
  | _ => cases h

section Loop

variable (env : Env) {s : System}

theorem answering_handlerStep {client : DownstreamId} {a : JobDeclarationAnswer}
    (hs : s.jds = .answering client a) (response : Option JdResponse) (now : Instant) :
    HandlerStep s (s.jdsStep env response now) s.outcome := by
  have hens : ∀ d, s.jds.ensured = some d → d = client := by
    intro d hd
    rw [hs] at hd
    cases hd
  unfold System.jdsStep System.outcome
  rw [hs]
  dsimp only
  cases hlook : s.downstreamClientSenders.lookup client with
  | none =>
    have hnot : client ∉ s.downstreamClientSenders := AList.lookup_eq_none.mp hlook
    rw [if_neg hnot]
    refine Shrinks.handlerStep_returns (Shrinks.refl _) (by rw [hs]; rfl) rfl (Or.inr rfl) hens
      ?_ rfl (fun _ hd => hd) rfl rfl
    intro d hd
    rw [hs] at hd
    cases hd
    exact Or.inl rfl
  | some u =>
    have hmem : client ∈ s.downstreamClientSenders :=
      AList.lookup_isSome.mp (by rw [hlook]; rfl)
    rw [if_pos hmem]
    refine Shrinks.handlerStep_returns (Shrinks.refl _) (by rw [hs]; rfl) rfl (Or.inl rfl) hens
      ?_ rfl (fun _ hd => hd) rfl rfl
    intro d hd
    rw [hs] at hd
    cases hd
    exact Or.inr hmem

theorem checking_handlerStep {client : DownstreamId} {dmj : DeclareMiningJob}
    (hs : s.jds = .checking client dmj) (response : Option JdResponse) (now : Instant) :
    HandlerStep s (s.jdsStep env response now) s.outcome := by
  have hans : HandlerStep s (s.answerError client dmj.requestId .invalidMiningJobToken)
      (.answers client) := by
    refine Shrinks.handlerStep_returns (Shrinks.refl _) (by rw [hs]; rfl) rfl (Or.inl rfl) ?_ ?_
      rfl (fun _ hd => hd) rfl rfl
    · intro d hd
      rw [hs] at hd
      cases hd
    · intro d hd
      rw [hs] at hd
      cases hd
  unfold System.jdsStep System.outcome
  rw [hs]
  dsimp only
  cases parseToken dmj.miningJobToken with
  | none => exact hans
  | some token =>
    dsimp only
    by_cases hall : s.tokenManager.isAllocated token client = true
    · rw [if_pos hall, if_pos hall]
      refine Shrinks.handlerStep_goesOn (Shrinks.refl _) ?_ ?_ (by rw [hs]; rfl) rfl
        (fun _ hd => hd) rfl (fun _ hd => Or.inl hd)
      · intro d hd
        rw [hs]
        exact hd
      · intro d hd
        rw [hs] at hd
        cases hd
    · rw [if_neg hall, if_neg hall]
      exact hans

theorem retrying_handlerStep {client : DownstreamId} {msg : ProvideMissingTransactionsSuccess}
    (hs : s.jds = .retrying client msg) (response : Option JdResponse) (now : Instant) :
    HandlerStep s (s.jdsStep env response now) s.outcome := by
  have hens : ∀ d, s.jds.ensured ≠ some d := by
    intro d hd
    rw [hs] at hd
    cases hd
  have halloc : s.jds.allocating = none := by rw [hs]; rfl
  unfold System.jdsStep System.outcome
  rw [hs]
  dsimp only
  cases hlook : s.downstreamClients.lookup client with
  | none =>
    have hnot : client ∉ s.downstreamClients := AList.lookup_eq_none.mp hlook
    rw [if_neg hnot]
    refine Shrinks.handlerStep_returns (Shrinks.refl _) (by rw [hs]; rfl) rfl (Or.inr rfl)
      (fun d hd => absurd hd (hens d)) ?_ rfl (fun _ hd => hd) rfl rfl
    intro d hd
    rw [halloc] at hd
    cases hd
  | some ds =>
    have hmem : client ∈ s.downstreamClients := AList.lookup_isSome.mp (by rw [hlook]; rfl)
    rw [if_pos hmem]
    dsimp only
    split
    · refine Shrinks.handlerStep_goesOn (Shrinks.refl _) ?_ (fun d hd => absurd hd (hens d)) halloc
        rfl (fun _ hd => hd) rfl (fun _ hd => Or.inl hd)
      intro d hd
      cases hd
    · split
      · refine Shrinks.handlerStep_goesOn (Shrinks.refl _) ?_ (fun d hd => absurd hd (hens d))
          halloc rfl (fun _ hd => KeyMap.mem_of_mem_insert hlook hd) rfl (fun _ hd => Or.inl hd)
        intro d hd
        cases hd
      · refine Shrinks.handlerStep_goesOn (Shrinks.refl _) ?_ (fun d hd => absurd hd (hens d))
          halloc rfl (fun _ hd => KeyMap.mem_of_mem_insert hlook hd) rfl (fun _ hd => Or.inl hd)
        intro d hd
        rw [hs]
        exact hd

theorem validating_handlerStep {w : Declaration} (hs : s.jds = .validating w)
    (response : Option JdResponse) (now : Instant) :
    HandlerStep s (s.jdsStep env response now) s.outcome := by
  have hens : ∀ d, s.jds.ensured ≠ some d := by
    intro d hd
    rw [hs] at hd
    cases hd
  have hout : s.outcome = .goesOn := by
    unfold System.outcome
    rw [hs]
  rw [hout]
  unfold System.jdsStep
  rw [hs]
  dsimp only
  split
  · refine Shrinks.handlerStep_goesOn (Shrinks.refl _) ?_ (fun d hd => absurd hd (hens d))
      (by rw [hs]; rfl) rfl (fun _ hd => hd) rfl (fun _ hd => Or.inl hd)
    intro d hd
    rw [hs]
    exact hd
  · refine Shrinks.handlerStep_goesOn (Shrinks.refl _) ?_ (fun d hd => absurd hd (hens d))
      (by rw [hs]; rfl) rfl (fun _ hd => hd) rfl (fun _ hd => Or.inl hd)
    intro d hd
    rw [hs]
    exact hd

/-- The one step that makes a state. -/
theorem ensuring_handlerStep {w : Declaration} {t : JdToken} {previous : Option ValidationContext}
    (hs : s.jds = .ensuring w t previous) (response : Option JdResponse) (now : Instant) :
    HandlerStep s (s.jdsStep env response now) s.outcome := by
  have hout : s.outcome = .goesOn := by
    unfold System.outcome
    rw [hs]
  rw [hout]
  unfold System.jdsStep
  rw [hs]
  refine Shrinks.handlerStep_goesOn (Shrinks.refl _) ?_ ?_ (by rw [hs]; rfl) rfl
    (fun _ hd => hd) rfl ?_
  · intro d hd
    rw [hs]
    exact hd
  · intro d hd
    rw [hs] at hd
    cases hd
  · intro d hd
    rcases KeyMap.mem_ensure.mp hd with rfl | hd
    · exact Or.inr rfl
    · exact Or.inl hd

theorem applyJdResponse_ne_panic {states : DownstreamStates} {d : DownstreamId}
    {dmj : DeclareMiningJob} {isRetry : Bool} {t : JdToken}
    {previous : Option ValidationContext} {response : Option JdResponse} {now : Instant} :
    (applyJdResponse states d dmj isRetry t previous response now).1 ≠ .panic := by
  unfold applyJdResponse
  split
  · intro h
    cases h
  · split
    · intro h
      cases h
    · intro h
      cases h
  · intro h
    cases h
  · split_ifs
    · intro h
      cases h
    · split
      · intro h
        cases h
      · intro h
        cases h

/-- Every write after the wait goes to a state that is there. -/
theorem mem_of_mem_applyJdResponse {states : DownstreamStates} {d e : DownstreamId}
    {dmj : DeclareMiningJob} {isRetry : Bool} {t : JdToken}
    {previous : Option ValidationContext} {response : Option JdResponse} {now : Instant}
    (h : e ∈ (applyJdResponse states d dmj isRetry t previous response now).2) : e ∈ states := by
  have hstore : ∀ job states', storeDeclaredJob states d t job now = some states' →
      e ∈ states' → e ∈ states := by
    intro job states' hj he
    obtain ⟨st, hst, rfl⟩ := storeDeclaredJob_eq_some hj
    exact KeyMap.mem_of_mem_insert hst he
  unfold applyJdResponse at h
  split at h
  · exact h
  · split at h
    · exact h
    · rename_i states' hj
      exact hstore _ _ hj h
  · exact KeyMap.mem_modify.mp h
  · split_ifs at h
    · exact KeyMap.mem_modify.mp h
    · split at h
      · exact h
      · rename_i states' hj
        exact hstore _ _ hj h

theorem waiting_handlerStep {w : Declaration} {t : JdToken} {previous : Option ValidationContext}
    (hs : s.jds = .waiting w t previous) (response : Option JdResponse) (now : Instant) :
    HandlerStep s (s.jdsStep env response now) s.outcome := by
  have hout : s.outcome = .goesOn := by
    unfold System.outcome
    rw [hs]
  rw [hout]
  unfold System.jdsStep
  rw [hs]
  refine Shrinks.handlerStep_goesOn (Shrinks.refl _) ?_ ?_ (by rw [hs]; rfl) rfl
    (fun _ hd => hd) rfl (fun _ hd => Or.inl (mem_of_mem_applyJdResponse hd))
  · intro d hd
    rw [hs]
    exact hd
  · intro d hd
    apply Or.inl
    rw [hs] at hd
    cases hres : (applyJdResponse s.downstreamStates w.client w.dmj w.provided.isSome t previous
        response now).1 with
    | panic => exact absurd hres applyJdResponse_ne_panic
    | _ =>
      simp only [hres]
      exact hd

theorem concluding_handlerStep {w : Declaration} {result : DeclareMiningJobResult}
    (hs : s.jds = .concluding w result) (response : Option JdResponse) (now : Instant) :
    HandlerStep s (s.jdsStep env response now) s.outcome := by
  have hens : ∀ d, s.jds.ensured = some d → d = w.client := by
    intro d hd
    have hc := client_of_ensured hd
    rw [hs] at hc
    exact (Option.some.inj hc).symm
  have halloc : s.jds.allocating = none := by rw [hs]; rfl
  have hclient : s.jds.client = some w.client := by rw [hs]; rfl
  have hanswers : ∀ tm code, Shrinks s.tokenManager tm →
      HandlerStep s ({ s with tokenManager := tm }.answerError w.client w.requestId code)
        (.answers w.client) := by
    intro tm code htm
    refine Shrinks.handlerStep_returns htm hclient rfl (Or.inl rfl) hens ?_ rfl
      (fun _ hd => hd) rfl rfl
    intro d hd
    rw [halloc] at hd
    cases hd
  unfold System.jdsStep System.outcome
  rw [hs]
  dsimp only
  cases result with
  | success =>
    unfold System.conclude System.concludeOutcome
    cases hact : s.tokenManager.activateRemove w.token w.client with
    | none => exact hanswers s.tokenManager .invalidMiningJobToken (Shrinks.refl _)
    | some p =>
      obtain ⟨data, tm⟩ := p
      obtain ⟨-, -, rfl⟩ := TokenManager.activateRemove_eq_some hact
      refine Shrinks.handlerStep_goesOn (shrinks_deallocate s.tokenManager w.token) ?_ ?_ halloc rfl
        (fun _ hd => hd) rfl (fun _ hd => Or.inl hd)
      · intro d hd
        rw [hclient]
        exact hd
      · intro d hd
        rw [hens d hd]
        exact Or.inl rfl
  | error code => exact hanswers _ code (shrinks_deallocate _ _)
  | missingTransactions missing =>
    unfold System.conclude System.concludeOutcome
    cases hprov : w.provided with
    | some msg => exact hanswers _ .missingTxs (shrinks_deallocate _ _)
    | none =>
      dsimp only
      cases hlook : s.downstreamClients.lookup w.client with
      | none =>
        have hnot : w.client ∉ s.downstreamClients := AList.lookup_eq_none.mp hlook
        rw [if_neg hnot]
        refine Shrinks.handlerStep_returns (Shrinks.refl _) hclient rfl (Or.inr rfl) hens ?_ rfl
          (fun _ hd => hd) rfl rfl
        intro d hd
        rw [halloc] at hd
        cases hd
      | some ds =>
        have hmem : w.client ∈ s.downstreamClients :=
          AList.lookup_isSome.mp (by rw [hlook]; rfl)
        rw [if_pos hmem]
        dsimp only
        by_cases hlen : (System.unknownTxPositionList w.dmj.wtxidList missing).length ≤ 65535
        · rw [if_pos hlen, if_pos hlen]
          refine Shrinks.handlerStep_returns (Shrinks.refl _) hclient rfl (Or.inl rfl) hens ?_ rfl
            (fun _ hd => KeyMap.mem_of_mem_insert hlook hd) rfl rfl
          intro d hd
          rw [halloc] at hd
          cases hd
        · rw [if_neg hlen, if_neg hlen]
          refine Shrinks.handlerStep_goesOn (Shrinks.refl _) ?_ ?_ halloc rfl
            (fun _ hd => KeyMap.mem_of_mem_insert hlook hd) rfl (fun _ hd => Or.inl hd)
          · intro d hd
            cases hd
          · intro d hd
            rw [hens d hd]
            exact Or.inr hmem
  | panic =>
    refine Shrinks.handlerStep_goesOn (Shrinks.refl _) ?_ ?_ halloc rfl (fun _ hd => hd) rfl
      (fun _ hd => Or.inl hd)
    · intro d hd
      cases hd
    · intro d hd
      rw [hs] at hd
      cases hd

/-- The one step that inserts an active token. -/
theorem activating_handlerStep {w : Declaration} {data : AllocatedTokenData}
    (hs : s.jds = .activating w data) (response : Option JdResponse) (now : Instant) :
    HandlerStep s (s.jdsStep env response now) s.outcome := by
  have hout : s.outcome = .answers w.client := by
    unfold System.outcome
    rw [hs]
  rw [hout]
  unfold System.jdsStep
  rw [hs]
  refine ⟨rfl, fun _ hd => hd, fun _ hd => hd, fun _ hd => Or.inl hd, fun _ _ h => Or.inl h,
    ?_, ?_, ?_, ?_, ?_⟩
  · intro t e h
    dsimp only [System.answer, TokenManager.activateInsert] at h
    rw [KeyMap.lookup_insert_eq] at h
    split at h
    · cases h
      exact Or.inr ⟨by rw [hs]; rfl, rfl⟩
    · exact Or.inl h
  · intro d hd
    rw [hs] at hd
    cases hd
    exact Or.inr (Or.inl rfl)
  · intro d hd
    rw [hs] at hd
    cases hd
  · intro d hd
    cases hd
  · intro d hd
    rw [hs]
    apply Or.inl
    rcases hd with hd | hd
    · cases hd
      rfl
    · cases hd

theorem jdsStep_handlerStep (s : System) (response : Option JdResponse) (now : Instant) :
    HandlerStep s (s.jdsStep env response now) s.outcome := by
  have hstill : (s.jdsStep env response now) = s → s.outcome = .goesOn →
      HandlerStep s (s.jdsStep env response now) s.outcome := by
    intro h ho
    rw [h, ho]
    exact Shrinks.handlerStep (Shrinks.refl _) rfl rfl (fun _ hd => hd) rfl (fun _ hd => hd)
  cases hs : s.jds with
  | idle => exact hstill (by simp only [System.jdsStep, hs]) (by simp only [System.outcome, hs])
  | answering client a => exact answering_handlerStep env hs response now
  | checking client dmj => exact checking_handlerStep env hs response now
  | retrying client msg => exact retrying_handlerStep env hs response now
  | validating w => exact validating_handlerStep env hs response now
  | ensuring w t previous => exact ensuring_handlerStep env hs response now
  | waiting w t previous => exact waiting_handlerStep env hs response now
  | concluding w result => exact concluding_handlerStep env hs response now
  | activating w data => exact activating_handlerStep env hs response now
  | stopped =>
    exact hstill (by simp only [System.jdsStep, hs]) (by simp only [System.outcome, hs])

theorem receive_handlerStep (s : System) {client : DownstreamId} (msg : JobDeclarationMessage)
    (now : Instant) (hknown : client < s.downstreamIdFactory) :
    HandlerStep s (s.receive env client msg now) (s.receiveOutcome client msg) := by
  have hrefl : HandlerStep s s .goesOn :=
    Shrinks.handlerStep (Shrinks.refl _) rfl rfl (fun _ hd => hd) rfl (fun _ hd => hd)
  -- a handler of a declaration begins, or its client has no sender
  have hdeclaration : ∀ task : JdsTask, s.jds = .idle → task.ensured = none →
      (∀ d, task.client = some d → d = client) →
      ∀ s' : System, (s.downstreamClientSenders.lookup client = none → s' = s) →
        (∀ u, s.downstreamClientSenders.lookup client = some u → s' = { s with jds := task }) →
        HandlerStep s s'
          (if client ∈ s.downstreamClientSenders then .goesOn else .disconnects client) := by
    intro task hidle _ hclient s' habsent hpresent
    have hnone : ∀ d, s.jds.ensured ≠ some d := by
      intro d hd
      rw [hidle] at hd
      cases hd
    cases hlook : s.downstreamClientSenders.lookup client with
    | none =>
      rw [habsent hlook, if_neg (AList.lookup_eq_none.mp hlook)]
      refine { hrefl with active := fun _ _ h => Or.inl h, ensured := ?_, allocating := ?_,
                          outcome := ?_ }
      · intro d hd
        exact absurd hd (hnone d)
      · intro d hd
        rw [hidle] at hd
        cases hd
      · intro d hd
        apply Or.inr
        rcases hd with hd | hd
        · cases hd
        · cases hd
          exact hknown
    | some u =>
      rw [hpresent u hlook, if_pos (AList.lookup_isSome.mp (by rw [hlook]; rfl))]
      refine { hrefl with states := fun _ hd => Or.inl hd, allocated := fun _ _ h => Or.inl h,
                          ensured := ?_, allocating := ?_, handler := ?_ }
      · intro d hd
        exact absurd hd (hnone d)
      · intro d hd
        rw [hidle] at hd
        cases hd
      · intro d hd
        rw [hclient d hd]
        exact Or.inr hknown
  unfold System.receive System.receiveOutcome
  cases hidle : s.jds with
  | idle =>
    cases msg with
    | allocateMiningJobToken m =>
      refine { hrefl with states := fun _ hd => Or.inl hd, allocated := ?_, ensured := ?_,
                          allocating := ?_, handler := ?_ }
      · intro t data h
        dsimp only [TokenManager.allocate] at h
        rw [KeyMap.lookup_insert_eq] at h
        split at h
        · cases h
          exact Or.inr rfl
        · exact Or.inl h
      · intro d hd
        rw [hidle] at hd
        cases hd
      · intro d hd
        rw [hidle] at hd
        cases hd
      · intro d hd
        cases hd
        exact Or.inr hknown
    | declareMiningJob m =>
      refine hdeclaration (.checking client m) hidle rfl (fun d hd => (Option.some.inj hd).symm) _
        (fun hnone => ?_) fun u hsome => ?_
      · dsimp only
        rw [hnone]
      · dsimp only
        rw [hsome]
    | provideMissingTransactionsSuccess m =>
      refine hdeclaration (.retrying client m) hidle rfl (fun d hd => (Option.some.inj hd).symm) _
        (fun hnone => ?_) fun u hsome => ?_
      · dsimp only
        rw [hnone]
      · dsimp only
        rw [hsome]
  | _ => exact hrefl

theorem receiveOutcome_ne_answers (s : System) (client : DownstreamId)
    (msg : JobDeclarationMessage) (d : DownstreamId) :
    s.receiveOutcome client msg ≠ .answers d := by
  unfold System.receiveOutcome
  split
  · split_ifs
    · intro h
      cases h
    · intro h
      cases h
  · split_ifs
    · intro h
      cases h
    · intro h
      cases h
  · intro h
    cases h

end Loop

/-- The pool adds nothing to the maps. -/
theorem present_handlerStep (s : System) (msg : SetCustomMiningJob) (userIdentity : Identity) :
    HandlerStep s (s.present msg userIdentity) .goesOn := by
  have hrespond : ∀ r, HandlerStep s (s.respond msg r) .goesOn := fun r =>
    Shrinks.handlerStep (Shrinks.refl _) rfl rfl (fun _ hd => hd) rfl (fun _ hd => hd)
  have hsame : ∀ pool, HandlerStep s { s with pool := pool } .goesOn := fun pool =>
    Shrinks.handlerStep (Shrinks.refl _) rfl rfl (fun _ hd => hd) rfl (fun _ hd => hd)
  unfold System.present
  split
  · split
    · exact hrespond _
    · split
      · exact hrespond _
      · split_ifs
        · exact hrespond _
        · exact hsame _
  · exact hsame s.pool

theorem mem_of_mem_handleSetCustomMiningJob {rb : RustBitcoin} {states : DownstreamStates}
    {d e : DownstreamId} {msg : SetCustomMiningJob} {t : JdToken}
    (h : e ∈ (handleSetCustomMiningJob rb states d msg t).2) : e ∈ states := by
  unfold handleSetCustomMiningJob at h
  split at h
  · exact h
  · rename_i st hst
    dsimp only at h
    split at h
    · exact KeyMap.mem_of_mem_insert hst h
    · exact KeyMap.mem_of_mem_insert hst h

theorem poolStep_handlerStep (env : Env) (s : System) :
    HandlerStep s (s.poolStep env) .goesOn := by
  unfold System.poolStep
  split
  · exact Shrinks.handlerStep (Shrinks.refl _) rfl rfl (fun _ hd => hd) rfl (fun _ hd => hd)
  · exact Shrinks.handlerStep (Shrinks.refl _) rfl rfl (fun _ hd => hd) rfl (fun _ hd => hd)
  · exact Shrinks.handlerStep (shrinks_deactivate _ _) rfl rfl (fun _ hd => hd) rfl (fun _ hd => hd)
  · dsimp only
    split
    · exact Shrinks.handlerStep (Shrinks.refl _) rfl rfl (fun _ hd => hd) rfl
        (fun _ hd => mem_of_mem_handleSetCustomMiningJob hd)
    · exact Shrinks.handlerStep (Shrinks.refl _) rfl rfl (fun _ hd => hd) rfl
        (fun _ hd => mem_of_mem_handleSetCustomMiningJob hd)
    · exact Shrinks.handlerStep (Shrinks.refl _) rfl rfl (fun _ hd => hd) rfl
        (fun _ hd => mem_of_mem_handleSetCustomMiningJob hd)

/-! ## The invariant -/

namespace CleanupSystem

/-- Every entry has a removal ahead, or is the business of the handler that is running. -/
structure CleanupInv (s : CleanupSystem) : Prop where
  connected : ∀ d ∈ s.connections, d < s.system.downstreamIdFactory
  known : ∀ d, s.Begun d → d < s.system.downstreamIdFactory
  handler : ∀ d, s.system.jds.client = some d → d < s.system.downstreamIdFactory
  clients : ∀ d ∈ s.system.downstreamClients, s.Ahead .clients d
  senders : ∀ d ∈ s.system.downstreamClientSenders, s.Ahead .senders d
  states : ∀ d ∈ s.system.downstreamStates, s.Ahead .states d ∨ s.system.jds.ensured = some d
  allocated : ∀ t data, s.system.tokenManager.allocatedTokens.lookup t = some data →
    s.Ahead .allocated data.owner ∨ s.system.jds.allocating = some data.owner
  active : ∀ t data, s.system.tokenManager.activeTokens.lookup t = some data →
    s.Ahead .active data.owner

theorem cleanupInv_new : CleanupInv new := by
  constructor
  · intro d hd
    cases hd
  · rintro d (⟨task, h, -⟩ | ⟨call, h, -⟩ | h)
    · cases h
    · cases h
    · cases h
  · intro d hd
    cases hd
  · intro d hd
    cases hd
  · intro d hd
    cases hd
  · intro d hd
    cases hd
  · intro t data h
    cases h
  · intro t data h
    cases h

section Ahead

variable {s s' : CleanupSystem} {d : DownstreamId} {stage later : CleanupStage}

/-- A removal that is ahead has all later ones ahead of it, too. -/
theorem Ahead.mono (h : s.Ahead stage d) (hle : stage.rank ≤ later.rank) : s.Ahead later d := by
  rcases h with ⟨task, htask, h⟩ | ⟨call, hcall, hd, h⟩ | h
  · cases task with
    | cleaning reached => exact Or.inl ⟨_, htask, Nat.le_trans h hle⟩
    | _ => cases h
  · exact Or.inr (Or.inl ⟨call, hcall, hd, Nat.le_trans h hle⟩)
  · exact Or.inr (Or.inr h)

/-- A disconnect error makes the message loop clean up. -/
theorem ahead_disconnect (s : CleanupSystem) (d : DownstreamId) (stage : CleanupStage) :
    (s.disconnect d).Ahead stage d :=
  Or.inr (Or.inl ⟨(d, .clients), rfl, rfl, Nat.zero_le _⟩)

theorem Ahead.disconnect (h : s.Ahead stage d) (hloop : s.loopCleanup = none) (e : DownstreamId) :
    (s.disconnect e).Ahead stage d := by
  by_cases he : e = d
  · subst he
    exact ahead_disconnect s e stage
  · rcases h with h | ⟨call, hcall, -⟩ | h
    · exact Or.inl h
    · rw [hloop] at hcall
      cases hcall
    · refine Or.inr (Or.inr ?_)
      rintro (hb | ⟨call, hcall, hd⟩ | hb)
      · exact h (Or.inl hb)
      · cases hcall
        exact he hd
      · exact h (Or.inr (Or.inr hb))

theorem Ahead.settle (h : s.Ahead stage d) (hloop : s.loopCleanup = none) (o : Outcome) :
    (s.settle o).Ahead stage d := by
  cases o with
  | goesOn => exact h
  | answers e =>
    unfold CleanupSystem.settle
    dsimp only
    by_cases ho : s.channelOpen e
    · rw [if_pos ho]
      exact h
    · rw [if_neg ho]
      exact h.disconnect hloop e
  | disconnects e => exact h.disconnect hloop e

/-- What the cleanup does with an outcome moves neither the system nor the connections. -/
theorem settle_frame (s : CleanupSystem) (o : Outcome) :
    (s.settle o).system = s.system ∧ (s.settle o).connections = s.connections := by
  cases o with
  | answers e =>
    unfold CleanupSystem.settle
    dsimp only
    by_cases ho : s.channelOpen e
    · rw [if_pos ho]
      exact ⟨rfl, rfl⟩
    · rw [if_neg ho]
      exact ⟨rfl, rfl⟩
  | _ => exact ⟨rfl, rfl⟩

theorem settle_system (s : CleanupSystem) (o : Outcome) : (s.settle o).system = s.system :=
  (settle_frame s o).1

theorem begun_settle {o : Outcome} (h : (s.settle o).Begun d) :
    s.Begun d ∨ o = .answers d ∨ o = .disconnects d := by
  have hdis : ∀ e, (s.disconnect e).Begun d → s.Begun d ∨ e = d := by
    rintro e (hb | ⟨call, hcall, hd⟩ | hb)
    · exact Or.inl (Or.inl hb)
    · cases hcall
      exact Or.inr hd
    · exact Or.inl (Or.inr (Or.inr hb))
  cases o with
  | goesOn => exact Or.inl h
  | answers e =>
    unfold CleanupSystem.settle at h
    dsimp only at h
    by_cases ho : s.channelOpen e
    · rw [if_pos ho] at h
      exact Or.inl h
    · rw [if_neg ho] at h
      rcases hdis e h with h | rfl
      · exact Or.inl h
      · exact Or.inr (Or.inl rfl)
  | disconnects e =>
    rcases hdis e h with h | rfl
    · exact Or.inl h
    · exact Or.inr (Or.inr rfl)

/-- An answer that the channel does not accept makes the message loop clean up. -/
theorem ahead_settle_answers (hclosed : ¬s.channelOpen d) (stage : CleanupStage) :
    (s.settle (.answers d)).Ahead stage d := by
  unfold CleanupSystem.settle
  dsimp only
  rw [if_neg hclosed]
  exact ahead_disconnect s d stage

end Ahead

/-- A step of a handler, in time, keeps the invariant. -/
theorem CleanupInv.handlerStep {s : CleanupSystem} (h : CleanupInv s) {sys : System} {o : Outcome}
    (hstep : HandlerStep s.system sys o) (hloop : o ≠ .goesOn → s.loopCleanup = none)
    (hok : ∀ d, o = .answers d → s.channelOpen d →
      (d ∈ s.system.downstreamStates → s.Ahead .states d) ∧
        (s.system.jds.activation.isSome → s.Ahead .active d)) :
    CleanupInv ({ s with system := sys }.settle o) := by
  have hahead : ∀ stage d, s.Ahead stage d → ({ s with system := sys }.settle o).Ahead stage d := by
    intro stage d hd
    by_cases ho : o = .goesOn
    · subst ho
      exact hd
    · have hsame : ({ s with system := sys } : CleanupSystem).Ahead stage d := hd
      exact hsame.settle (hloop ho) o
  have hconn : ({ s with system := sys }.settle o).connections = s.connections :=
    (settle_frame _ o).2
  have hclosed : ∀ d stage, ¬s.channelOpen d → o = .answers d →
      ({ s with system := sys }.settle o).Ahead stage d := by
    rintro d stage hnot rfl
    have hsame : ¬({ s with system := sys } : CleanupSystem).channelOpen d := hnot
    exact ahead_settle_answers hsame stage
  constructor
  · rw [settle_system, hstep.factory, hconn]
    exact h.connected
  · rw [settle_system, hstep.factory]
    intro d hd
    rcases begun_settle hd with hd | hd
    · exact h.known d hd
    · rcases hstep.outcome d hd with hc | hlt
      · exact h.handler d hc
      · exact hlt
  · rw [settle_system, hstep.factory]
    intro d hd
    rcases hstep.handler d hd with hc | hlt
    · exact h.handler d hc
    · exact hlt
  · rw [settle_system]
    intro d hd
    exact hahead _ _ (h.clients d (hstep.clients d hd))
  · rw [settle_system]
    intro d hd
    exact hahead _ _ (h.senders d (hstep.senders d hd))
  · rw [settle_system]
    intro d hd
    rcases hstep.states d hd with hold | hens
    · rcases h.states d hold with ha | he
      · exact Or.inl (hahead _ _ ha)
      · -- the handler that made the state goes on, or returns
        rcases hstep.ensured d he with he' | rfl | rfl | hclient
        · exact Or.inr he'
        · apply Or.inl
          by_cases hopen : s.channelOpen d
          · exact hahead _ _ ((hok d rfl hopen).1 hold)
          · exact hclosed d .states hopen rfl
        · exact Or.inl (ahead_disconnect _ d .states)
        · exact Or.inl (hahead _ _ ((h.clients d hclient).mono (by decide)))
    · exact Or.inr hens
  · rw [settle_system]
    intro t data ht
    rcases hstep.allocated t data ht with hold | hnew
    · rcases h.allocated t data hold with ha | he
      · exact Or.inl (hahead _ _ ha)
      · rcases hstep.allocating _ he with he' | rfl | hsender
        · exact Or.inr he'
        · exact Or.inl (ahead_disconnect _ _ .allocated)
        · exact Or.inl (hahead _ _ ((h.senders _ hsender).mono (by decide)))
    · exact Or.inr hnew
  · rw [settle_system]
    intro t data ht
    rcases hstep.active t data ht with hold | ⟨hact, rfl⟩
    · exact hahead _ _ (h.active t data hold)
    · by_cases hopen : s.channelOpen data.owner
      · exact hahead _ _ ((hok _ rfl hopen).2 hact)
      · exact hclosed data.owner .active hopen rfl

/-- What one removal of a cleanup of `d` does: the entries of `d` go from the map of `stage`. -/
structure Removal (d : DownstreamId) (stage : CleanupStage) (s s' : System) : Prop where
  jds : s'.jds = s.jds
  factory : s'.downstreamIdFactory = s.downstreamIdFactory
  clients : ∀ e ∈ s'.downstreamClients, e ∈ s.downstreamClients ∧ ¬(stage = .clients ∧ e = d)
  senders : ∀ e ∈ s'.downstreamClientSenders,
    e ∈ s.downstreamClientSenders ∧ ¬(stage = .senders ∧ e = d)
  states : ∀ e ∈ s'.downstreamStates, e ∈ s.downstreamStates ∧ ¬(stage = .states ∧ e = d)
  allocated : ∀ t data, s'.tokenManager.allocatedTokens.lookup t = some data →
    s.tokenManager.allocatedTokens.lookup t = some data ∧ ¬(stage = .allocated ∧ data.owner = d)
  active : ∀ t data, s'.tokenManager.activeTokens.lookup t = some data →
    s.tokenManager.activeTokens.lookup t = some data ∧ ¬(stage = .active ∧ data.owner = d)

theorem removal_remove (env : Env) (s : CleanupSystem) (d : DownstreamId) (stage : CleanupStage) :
    Removal d stage s.system (s.remove env d stage) := by
  have herase : ∀ {V : Type} (m : KeyMap DownstreamId V) (e : DownstreamId) (st : CleanupStage),
      e ∈ m.erase d → e ∈ m ∧ ¬(st = st ∧ e = d) := by
    intro V m e st he
    obtain ⟨hne, hmem⟩ := AList.mem_erase.mp he
    exact ⟨hmem, fun hd => hne hd.2⟩
  unfold CleanupSystem.remove
  cases stage with
  | clients =>
    refine ⟨rfl, rfl, fun e he => herase _ e .clients he, ?_, ?_, ?_, ?_⟩
    all_goals simp [CleanupStage.action, System.step]
  | senders =>
    refine ⟨rfl, rfl, ?_, fun e he => herase _ e .senders he, ?_, ?_, ?_⟩
    all_goals simp [CleanupStage.action, System.step]
  | states =>
    refine ⟨rfl, rfl, ?_, ?_, fun e he => herase _ e .states he, ?_, ?_⟩
    all_goals simp [CleanupStage.action, System.step]
  | allocated =>
    refine ⟨rfl, rfl, ?_, ?_, ?_, ?_, ?_⟩
    case refine_4 =>
      intro t data ht
      dsimp only [CleanupStage.action, System.step, TokenManager.removeDownstreamAllocated] at ht
      rw [KeyMap.lookup_retain] at ht
      obtain ⟨hold, hne⟩ := Option.filter_eq_some_iff.mp ht
      exact ⟨hold, fun hd => by simp [hd.2] at hne⟩
    all_goals simp [CleanupStage.action, System.step, TokenManager.removeDownstreamAllocated]
  | active =>
    refine ⟨rfl, rfl, ?_, ?_, ?_, ?_, ?_⟩
    case refine_5 =>
      intro t data ht
      dsimp only [CleanupStage.action, System.step, TokenManager.removeDownstreamActive] at ht
      rw [KeyMap.lookup_retain] at ht
      obtain ⟨hold, hne⟩ := Option.filter_eq_some_iff.mp ht
      exact ⟨hold, fun hd => by simp [hd.2] at hne⟩
    all_goals simp [CleanupStage.action, System.step, TokenManager.removeDownstreamActive]
  | finished =>
    refine ⟨rfl, rfl, ?_, ?_, ?_, ?_, ?_⟩
    all_goals simp [CleanupStage.action]

/-- A call that goes on past the map of `stage`, with its entries of `d` removed. -/
theorem CleanupInv.removal {s s' : CleanupSystem} (h : CleanupInv s) {d : DownstreamId}
    {stage : CleanupStage} (hrem : Removal d stage s.system s'.system)
    (hconn : ∀ e ∈ s'.connections, e < s.system.downstreamIdFactory)
    (hbegun : ∀ e, s'.Begun e → e < s.system.downstreamIdFactory)
    (hahead : ∀ later e, later ≠ .finished → ¬(stage = later ∧ e = d) → s.Ahead later e →
      s'.Ahead later e) : CleanupInv s' := by
  constructor
  · rw [hrem.factory]
    exact hconn
  · rw [hrem.factory]
    exact hbegun
  · rw [hrem.factory, hrem.jds]
    exact h.handler
  · intro e he
    obtain ⟨hold, hne⟩ := hrem.clients e he
    exact hahead .clients e (by decide) hne (h.clients e hold)
  · intro e he
    obtain ⟨hold, hne⟩ := hrem.senders e he
    exact hahead .senders e (by decide) hne (h.senders e hold)
  · intro e he
    obtain ⟨hold, hne⟩ := hrem.states e he
    rw [hrem.jds]
    exact (h.states e hold).imp_left (hahead .states e (by decide) hne)
  · intro t data ht
    obtain ⟨hold, hne⟩ := hrem.allocated t data ht
    rw [hrem.jds]
    exact (h.allocated t data hold).imp_left (hahead .allocated _ (by decide) hne)
  · intro t data ht
    obtain ⟨hold, hne⟩ := hrem.active t data ht
    exact hahead .active _ (by decide) hne (h.active t data hold)

theorem Removal.refl (s : System) (d : DownstreamId) : Removal d .finished s s := by
  refine ⟨rfl, rfl, ?_, ?_, ?_, ?_, ?_⟩
  all_goals simp

theorem rank_next_le {stage later : CleanupStage} (hne : stage ≠ later)
    (hle : stage.rank ≤ later.rank) : stage.next.rank ≤ later.rank := by
  cases stage <;> cases later <;> simp_all [CleanupStage.rank, CleanupStage.next]

/-- Nothing comes after the last map. -/
theorem eq_finished {later : CleanupStage} (h : CleanupStage.finished.rank ≤ later.rank) :
    later = .finished := by
  cases later with
  | finished => rfl
  | _ => exact absurd h (by decide)

section Calls

variable {env : Env} {s : CleanupSystem} {d : DownstreamId}

/-- The task of `d` moves on in its own cleanup. -/
theorem CleanupInv.moveConnection (h : CleanupInv s) {task task' : ConnectionTask}
    {stage : CleanupStage} {sys : System} (hrem : Removal d stage s.system sys)
    (hlook : s.connections.lookup d = some task)
    (hahead : ∀ later : CleanupStage, later ≠ .finished → stage ≠ later → task.ahead later →
      task'.ahead later)
    (hserving : task = .serving → ∀ later, task'.ahead later) :
    CleanupInv { s with system := sys, connections := s.connections.insert d task' } := by
  have hat : (s.connections.insert d task').lookup d = some task' := AList.lookup_insert _
  have hne : ∀ e, e ≠ d → (s.connections.insert d task').lookup e = s.connections.lookup e :=
    fun e he => AList.lookup_insert_ne he
  have hlt : d < s.system.downstreamIdFactory :=
    h.connected d (AList.lookup_isSome.mp (by rw [hlook]; rfl))
  refine CleanupInv.removal h hrem ?_ ?_ ?_
  · exact fun e he => h.connected e (KeyMap.mem_of_mem_insert hlook he)
  · rintro e (⟨t, ht, hs⟩ | hb | hb)
    · by_cases he : e = d
      · subst he
        exact hlt
      · rw [hne e he] at ht
        exact h.known e (Or.inl ⟨t, ht, hs⟩)
    · exact h.known e (Or.inr (Or.inl hb))
    · exact h.known e (Or.inr (Or.inr hb))
  · intro later e hfin hpast ha
    by_cases he : e = d
    · subst he
      rcases ha with ⟨t, ht, ha⟩ | hb | hb
      · rw [hlook] at ht
        cases ht
        exact Or.inl ⟨task', hat, hahead later hfin (fun hs => hpast ⟨hs, rfl⟩) ha⟩
      · exact Or.inr (Or.inl hb)
      · refine Or.inl ⟨task', hat, hserving ?_ later⟩
        by_contra hs
        exact hb (Or.inl ⟨task, hlook, hs⟩)
    · rcases ha with ⟨t, ht, ha⟩ | hb | hb
      · refine Or.inl ⟨t, ?_, ha⟩
        rw [hne e he]
        exact ht
      · exact Or.inr (Or.inl hb)
      · refine Or.inr (Or.inr ?_)
        rintro (⟨t, ht, hs⟩ | hc | hc)
        · rw [hne e he] at ht
          exact hb (Or.inl ⟨t, ht, hs⟩)
        · exact hb (Or.inr (Or.inl hc))
        · exact hb (Or.inr (Or.inr hc))

/-- The message loop moves on in its cleanup of `d`, or has ended it. -/
theorem CleanupInv.moveLoop (h : CleanupInv s) {stage : CleanupStage} {sys : System}
    {call : Option (DownstreamId × CleanupStage)} {disconnected : List DownstreamId}
    (hrem : Removal d stage s.system sys) (hloop : s.loopCleanup = some (d, stage))
    (hcall : call = some (d, stage.next) ∧ disconnected = s.disconnected ∨
      stage = .finished ∧ call = none ∧ disconnected = d :: s.disconnected) :
    CleanupInv { s with
      system := sys, loopCleanup := call, disconnected := disconnected } := by
  have hd : s.Begun d := Or.inr (Or.inl ⟨(d, stage), hloop, rfl⟩)
  have hbegun : ∀ e, CleanupSystem.Begun { s with
      system := sys, loopCleanup := call, disconnected := disconnected } e → s.Begun e := by
    rintro e (hb | ⟨c, hc, he⟩ | hb)
    · exact Or.inl hb
    · rcases hcall with ⟨rfl, -⟩ | ⟨-, rfl, -⟩
      · cases hc
        subst he
        exact hd
      · cases hc
    · rcases hcall with ⟨-, rfl⟩ | ⟨-, -, rfl⟩
      · exact Or.inr (Or.inr hb)
      · rcases List.mem_cons.mp hb with rfl | hb
        · exact hd
        · exact Or.inr (Or.inr hb)
  refine CleanupInv.removal h hrem h.connected (fun e he => h.known e (hbegun e he)) ?_
  intro later e hfin hpast ha
  rcases ha with ha | ⟨c, hc, he, ha⟩ | hb
  · exact Or.inl ha
  · rw [hloop] at hc
    cases hc
    subst he
    have hne : stage ≠ later := fun hs => hpast ⟨hs, rfl⟩
    rcases hcall with ⟨rfl, -⟩ | ⟨rfl, -, -⟩
    · exact Or.inr (Or.inl ⟨_, rfl, rfl, rank_next_le hne ha⟩)
    · exact absurd (eq_finished ha) hfin
  · exact Or.inr (Or.inr fun he => hb (hbegun e he))

theorem CleanupInv.leave (h : CleanupInv s) (env : Env) (d : DownstreamId) :
    CleanupInv (s.step env (.leave d)) := by
  unfold CleanupSystem.step
  dsimp only
  by_cases hserving : s.connections.lookup d = some .serving
  · rw [if_pos hserving]
    refine h.moveConnection (Removal.refl _ d) hserving ?_ ?_
    · intro later _ _ ha
      cases ha
    · intro _ later
      exact Nat.zero_le _
  · rw [if_neg hserving]
    exact h

theorem CleanupInv.connection (h : CleanupInv s) (env : Env) (d : DownstreamId) :
    CleanupInv (s.step env (.connection d)) := by
  unfold CleanupSystem.step
  dsimp only
  split
  · rename_i hlook
    refine h.moveConnection (Removal.refl _ d) hlook ?_ ?_
    · intro later hfin _ ha
      exact absurd (eq_finished ha) hfin
    · intro hs
      cases hs
  · rename_i stage _ hlook
    refine h.moveConnection (removal_remove env s d stage) hlook ?_ ?_
    · intro later _ hne ha
      exact rank_next_le hne ha
    · intro hs
      cases hs
  · exact h

theorem CleanupInv.loopStep (h : CleanupInv s) (env : Env) :
    CleanupInv (s.step env .loop) := by
  unfold CleanupSystem.step
  dsimp only
  split
  · rename_i d hloop
    exact h.moveLoop (Removal.refl _ d) hloop (Or.inr ⟨rfl, rfl, rfl⟩)
  · rename_i d stage _ hloop
    exact h.moveLoop (removal_remove env s d stage) hloop (Or.inl ⟨rfl, rfl⟩)
  · exact h

theorem CleanupInv.connect (h : CleanupInv s) (env : Env) :
    CleanupInv (s.step env (.act .connect)) := by
  have hfresh : ¬s.Begun s.system.downstreamIdFactory :=
    fun hb => Nat.lt_irrefl _ (h.known _ hb)
  have hnone : s.connections.lookup s.system.downstreamIdFactory = none :=
    AList.lookup_eq_none.mpr fun hm => Nat.lt_irrefl _ (h.connected _ hm)
  have hlook : ∀ e, e ≠ s.system.downstreamIdFactory →
      (s.step env (.act .connect)).connections.lookup e = s.connections.lookup e :=
    fun e he => AList.lookup_insert_ne he
  have hat : (s.step env (.act .connect)).connections.lookup s.system.downstreamIdFactory =
      some .serving := AList.lookup_insert _
  have hbegun : ∀ e, (s.step env (.act .connect)).Begun e → s.Begun e := by
    rintro e (⟨task, ht, hs⟩ | hb | hb)
    · by_cases he : e = s.system.downstreamIdFactory
      · subst he
        rw [hat] at ht
        cases ht
        exact absurd rfl hs
      · rw [hlook e he] at ht
        exact Or.inl ⟨task, ht, hs⟩
    · exact Or.inr (Or.inl hb)
    · exact Or.inr (Or.inr hb)
  have hnew : ∀ stage, (s.step env (.act .connect)).Ahead stage s.system.downstreamIdFactory :=
    fun stage => Or.inr (Or.inr fun hb => hfresh (hbegun _ hb))
  have hahead : ∀ stage e, s.Ahead stage e → (s.step env (.act .connect)).Ahead stage e := by
    intro stage e ha
    by_cases he : e = s.system.downstreamIdFactory
    · subst he
      exact hnew stage
    · rcases ha with ⟨task, ht, ha⟩ | hb | hb
      · refine Or.inl ⟨task, ?_, ha⟩
        rw [hlook e he]
        exact ht
      · exact Or.inr (Or.inl hb)
      · exact Or.inr (Or.inr fun he => hb (hbegun e he))
  constructor
  · intro e he
    rcases (AList.mem_insert _).mp he with rfl | he
    · exact Nat.lt_succ_self _
    · exact Nat.lt_succ_of_lt (h.connected e he)
  · exact fun e he => Nat.lt_succ_of_lt (h.known e (hbegun e he))
  · exact fun e he => Nat.lt_succ_of_lt (h.handler e he)
  · intro e he
    rcases (AList.mem_insert _).mp he with rfl | he
    · exact hnew .clients
    · exact hahead _ _ (h.clients e he)
  · intro e he
    rcases (AList.mem_insert _).mp he with rfl | he
    · exact hnew .senders
    · exact hahead _ _ (h.senders e he)
  · exact fun e he => (h.states e he).imp_left (hahead _ _)
  · exact fun t data ht => (h.allocated t data ht).imp_left (hahead _ _)
  · exact fun t data ht => hahead _ _ (h.active t data ht)

/-- A step that is not the message loop's. -/
theorem CleanupInv.elsewhere (h : CleanupInv s) {sys : System}
    (hstep : HandlerStep s.system sys .goesOn) : CleanupInv { s with system := sys } :=
  h.handlerStep hstep (fun hne => absurd rfl hne) (fun _ ho => by cases ho)

theorem CleanupInv.act (h : CleanupInv s) (env : Env) (a : Action) (hok : s.inTime (.act a)) :
    CleanupInv (s.step env (.act a)) := by
  cases a with
  | connect => exact h.connect env
  | receive client msg now =>
    simp only [CleanupSystem.step, CleanupSystem.act]
    by_cases hc : s.loopCleanup = none ∧ client < s.system.downstreamIdFactory
    · rw [if_pos hc]
      refine h.handlerStep (receive_handlerStep env s.system msg now hc.2) (fun _ => hc.1) ?_
      intro d hd
      exact absurd hd (receiveOutcome_ne_answers s.system client msg d)
    · rw [if_neg hc]
      exact h
  | jds response now =>
    simp only [CleanupSystem.step, CleanupSystem.act]
    by_cases hloop : s.loopCleanup = none
    · rw [if_pos hloop]
      refine h.handlerStep (jdsStep_handlerStep env s.system response now) (fun _ => hloop) ?_
      intro d hd hopen
      simp only [inTime, hd] at hok
      exact hok hloop hopen
    · rw [if_neg hloop]
      exact h
  | present msg userIdentity => exact h.elsewhere (present_handlerStep s.system msg userIdentity)
  | pool => exact h.elsewhere (poolStep_handlerStep env s.system)
  | janitorAllocated shard now =>
    exact h.elsewhere (Shrinks.handlerStep (shrinks_retainAllocated _ _) rfl rfl
      (fun _ hd => hd) rfl (fun _ hd => hd))
  | janitorActive shard now =>
    exact h.elsewhere (Shrinks.handlerStep (shrinks_retainActive _ _) rfl rfl
      (fun _ hd => hd) rfl (fun _ hd => hd))
  | janitorDeclared d now =>
    exact h.elsewhere (Shrinks.handlerStep (Shrinks.refl _) rfl rfl (fun _ hd => hd) rfl
      (fun _ hd => KeyMap.mem_modify.mp hd))
  | janitorPending d shard now =>
    exact h.elsewhere (Shrinks.handlerStep (Shrinks.refl _) rfl rfl
      (fun _ hd => KeyMap.mem_modify.mp hd) rfl (fun _ hd => hd))
  | _ => exact h

theorem cleanupInv_step (env : Env) (s : CleanupSystem) (a : CleanupAction) (h : CleanupInv s)
    (hok : s.inTime a) : CleanupInv (s.step env a) := by
  cases a with
  | act a => exact h.act env a hok
  | leave d => exact h.leave env d
  | connection d => exact h.connection env d
  | loop => exact h.loopStep env

end Calls

/-! ## Cleanup wins -/

theorem cleanupInv_after {env : Env} {es : List CleanupAction}
    (h : Runs.Guarded (step env) inTime new es) : CleanupInv (after env es) :=
  Runs.run_invariant_of_guarded CleanupInv (cleanupInv_step env) cleanupInv_new es h

/-- When every call has returned, no removal is ahead. -/
theorem Finished.not_ahead {s : CleanupSystem} {d : DownstreamId} (h : s.Finished d)
    {stage : CleanupStage} (hstage : stage ≠ .finished) : ¬s.Ahead stage d := by
  rintro (⟨task, ht, ha⟩ | ⟨⟨e, reached⟩, hc, rfl, -⟩ | hb)
  · cases task with
    | cleaning reached =>
      have hfin : reached = .finished := h.connection reached ht
      subst hfin
      exact hstage (eq_finished ha)
    | _ => cases ha
  · exact h.loop reached hc
  · exact hb h.begun

theorem CleanupInv.wins {s : CleanupSystem} (h : CleanupInv s) : CleanupWins s := by
  intro d hd
  have hactive : ∀ t data, s.system.tokenManager.activeTokens.lookup t = some data →
      data.owner ≠ d := by
    rintro t data ht rfl
    exact hd.not_ahead (by decide) (h.active t data ht)
  constructor
  · exact fun hm => hd.not_ahead (by decide) (h.clients d hm)
  · exact fun hm => hd.not_ahead (by decide) (h.senders d hm)
  · intro hm
    rcases h.states d hm with ha | he
    · exact hd.not_ahead (by decide) ha
    · exact hd.handler (client_of_ensured he)
  · rintro t data ht rfl
    rcases h.allocated t data ht with ha | he
    · exact hd.not_ahead (by decide) ha
    · exact hd.handler (client_of_allocating he)
  · exact hactive
  · rintro r t - ⟨data, ht, howner⟩
    exact hactive t data ht howner

/-- In every run in which no answer that its channel accepts comes after the removal of what its
    handler has inserted, a finished cleanup leaves nothing. -/
theorem cleanup_wins (env : Env) (es : List CleanupAction)
    (h : Runs.Guarded (step env) inTime new es) : CleanupWins (after env es) :=
  (cleanupInv_after h).wins

/-- A client's declaration has been parsed; the handler has not yet made its state. -/
def declaredRun : List CleanupAction :=
  [.act .connect, .act (.receive 0 (.allocateMiningJobToken ⟨"farm_01", 0⟩) 0),
   .act (.jds none 0), .act (.receive 0 (.declareMiningJob sampleDeclaration) 1),
   .act (.jds none 1), .act (.jds none 1)]

/-- The whole cleanup comes first.  The answer finds no receiver, and the message loop cleans up
    once more. -/
def lateAnswerRun : List CleanupAction :=
  declaredRun ++
  [.leave 0, .connection 0, .connection 0, .connection 0, .connection 0, .connection 0,
   .connection 0, .act (.jds none 1), .act (.jds (some (.success Hash256.allZeros 0x207fffff [])) 2),
   .act (.jds none 2), .loop, .loop, .loop, .loop, .loop, .loop]

theorem cleanup_wins_lateAnswerRun :
    Runs.Guarded (step sampleEnv) inTime new lateAnswerRun ∧
      (after sampleEnv lateAnswerRun).Finished 0 ∧ CleanupWins (after sampleEnv lateAnswerRun) := by
  have h : Runs.Guarded (step sampleEnv) inTime new lateAnswerRun := by decide +kernel
  refine ⟨h, ⟨by decide +kernel, ?_, ?_, by decide +kernel⟩, cleanup_wins sampleEnv lateAnswerRun h⟩
  · intro stage hs
    have hlook : (after sampleEnv lateAnswerRun).connections.lookup 0 = some .ended := by
      decide +kernel
    rw [hlook] at hs
    cases hs
  · intro stage hs
    have hnone : (after sampleEnv lateAnswerRun).loopCleanup = none := by decide +kernel
    rw [hnone] at hs
    cases hs

/-- The cleanup has passed the states when the handler makes one, and the active tokens when it
    inserts one; the answer comes before the receiver is dropped. -/
def raceRun : List CleanupAction :=
  declaredRun ++
  [.leave 0, .connection 0, .connection 0, .connection 0, .act (.jds none 1),
   .act (.jds (some (.success Hash256.allZeros 0x207fffff [])) 2), .act (.jds none 2),
   .connection 0, .connection 0, .act (.jds none 2), .connection 0]

theorem raceRun_leaves :
    (after sampleEnv raceRun).Finished 0 ∧
    0 ∈ (after sampleEnv raceRun).system.downstreamStates ∧
    (0, .declareMiningJobSuccess 1 1) ∈ (after sampleEnv raceRun).system.sent ∧
    StaysActive (after sampleEnv raceRun).system 0 1 := by
  refine ⟨⟨by decide +kernel, ?_, ?_, by decide +kernel⟩, by decide +kernel, by decide +kernel, ?_⟩
  · intro stage hs
    have hlook : (after sampleEnv raceRun).connections.lookup 0 = some .ended := by decide +kernel
    rw [hlook] at hs
    cases hs
  · intro stage hs
    have hnone : (after sampleEnv raceRun).loopCleanup = none := by decide +kernel
    rw [hnone] at hs
    cases hs
  · exact ⟨⟨0, 2, 0, "farm_01"⟩, by decide +kernel, rfl⟩

theorem not_cleanup_wins : ¬CleanupWins (after sampleEnv raceRun) := by
  intro h
  obtain ⟨hfin, hstate, -, -⟩ := raceRun_leaves
  exact (h 0 hfin).states hstate

end CleanupSystem

end Sv2Apps.Jds
