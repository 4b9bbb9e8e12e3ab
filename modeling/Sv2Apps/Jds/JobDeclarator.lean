/-
  Jds/JobDeclarator.lean
  ======================
  **The job declarator as a system of tasks** — `job_declarator/mod.rs` and
  `job_declaration_message_handler.rs`.

  The message loop handles one job declaration message at a time (`JdsTask`), the pool
  one `SetCustomMiningJob` at a time (`PoolTask`).  Connections end, and the janitors
  run, whenever they like.  Between two accesses to a shared map any other task may
  move, so a handler is cut at each of them; a step of the system is one such piece.

  `history` records every token the counter gave out and `accepted` every presentation
  that was answered with success; no step reads them.
-/
import Sv2Apps.Jds.JobValidation
import Sv2Apps.Lib.Runs

namespace Sv2Apps.Jds

open Bitcoin

/-- What the code around the declarator provides. -/
structure Env where
  rb : RustBitcoin
  /-- `coinbase_reward_script.script_pubkey()`. -/
  coinbaseRewardScript : Bytes

/-- A token leaving the counter: allocated for a client, or given to the client whose
    declaration of `allocatedToken` has been validated. -/
inductive Issue where
  | allocation (token : JdToken) (owner : DownstreamId) (identity : Identity)
  | activation (token allocatedToken : JdToken) (declarer : DownstreamId) (identity : Identity)
deriving DecidableEq

def Issue.token : Issue → JdToken
  | .allocation t _ _ => t
  | .activation t _ _ _ => t

/-- The allocated token that an activation uses up. -/
def Issue.activated : Issue → Option JdToken
  | .allocation _ _ _ => none
  | .activation _ a _ _ => some a

inductive JobDeclarationMessage where
  | allocateMiningJobToken (msg : AllocateMiningJobToken)
  | declareMiningJob (msg : DeclareMiningJob)
  | provideMissingTransactionsSuccess (msg : ProvideMissingTransactionsSuccess)

/-- A declaration under validation; `provided` is there on the retry. -/
structure Declaration where
  client : DownstreamId
  dmj : DeclareMiningJob
  provided : Option ProvideMissingTransactionsSuccess
  token : JdToken

def Declaration.requestId (w : Declaration) : RequestId :=
  match w.provided with
  | some msg => msg.requestId
  | none => w.dmj.requestId

/-- Where the message loop stands. -/
inductive JdsTask where
  | idle
  /-- The token is allocated, the sender not yet looked up. -/
  | answering (client : DownstreamId) (answer : JobDeclarationAnswer)
  /-- The sender is cloned, the token not yet checked. -/
  | checking (client : DownstreamId) (dmj : DeclareMiningJob)
  /-- The sender is cloned, the pending job not yet taken. -/
  | retrying (client : DownstreamId) (msg : ProvideMissingTransactionsSuccess)
  | validating (w : Declaration)
  | ensuring (w : Declaration) (allocatedToken : JdToken) (previous : Option ValidationContext)
  /-- The request is at the node. -/
  | waiting (w : Declaration) (allocatedToken : JdToken) (previous : Option ValidationContext)
  | concluding (w : Declaration) (result : DeclareMiningJobResult)
  /-- Between the two halves of `activate`. -/
  | activating (w : Declaration) (data : AllocatedTokenData)
  | stopped

/-- A `SetCustomMiningJob` whose token and identity have been accepted. -/
structure Presentation where
  msg : SetCustomMiningJob
  userIdentity : Identity
  activeToken : JdToken
  data : ActiveTokenData

/-- Where the pool's call of `handle_set_custom_mining_job` stands. -/
inductive PoolTask where
  | idle
  | deactivating (p : Presentation)
  | taking (p : Presentation)
  | stopped

inductive SetCustomMiningJobResponse where
  | ok
  | error (code : SetCustomMiningJobErrorCode)
deriving DecidableEq

/-- Jobs waiting for missing transactions. -/
structure Downstream where
  pendingDeclareMiningJobs : KeyMap RequestId (Instant × DeclareMiningJob)

structure System where
  tokenManager : TokenManager
  downstreamStates : DownstreamStates
  downstreamClients : KeyMap DownstreamId Downstream
  downstreamClientSenders : KeyMap DownstreamId Unit
  downstreamIdFactory : DownstreamId
  jds : JdsTask
  pool : PoolTask
  sent : List (DownstreamId × JobDeclarationAnswer)
  responses : List (SetCustomMiningJob × SetCustomMiningJobResponse)
  history : List Issue
  accepted : List Presentation

def System.new : System where
  tokenManager := TokenManager.new
  downstreamStates := ∅
  downstreamClients := ∅
  downstreamClientSenders := ∅
  downstreamIdFactory := 0
  jds := .idle
  pool := .idle
  sent := []
  responses := []
  history := []
  accepted := []

inductive Action where
  | connect
  | receive (client : DownstreamId) (msg : JobDeclarationMessage) (now : Instant)
  | jds (response : Option JdResponse) (now : Instant)
  | present (msg : SetCustomMiningJob) (userIdentity : Identity)
  | pool
  | cleanupClient (d : DownstreamId)
  | cleanupSender (d : DownstreamId)
  | cleanupState (d : DownstreamId)
  | cleanupAllocated (d : DownstreamId) (shard : JdToken → Bool)
  | cleanupActive (d : DownstreamId) (shard : JdToken → Bool)
  | janitorAllocated (shard : JdToken → Bool) (now : Instant)
  | janitorActive (shard : JdToken → Bool) (now : Instant)
  | janitorDeclared (d : DownstreamId) (now : Instant)
  | janitorPending (d : DownstreamId) (shard : RequestId → Bool) (now : Instant)

namespace System

/-! ## The message loop -/

def answer (s : System) (client : DownstreamId) (a : JobDeclarationAnswer) : System :=
  { s with sent := (client, a) :: s.sent, jds := .idle }

def answerError (s : System) (client : DownstreamId) (requestId : RequestId)
    (code : DeclareMiningJobErrorCode) : System :=
  s.answer client (.declareMiningJobError requestId code)

/-- `AllocateMiningJobTokenSuccess.coinbase_outputs`: one output of value zero. -/
def handedOutOutputs (env : Env) : Bytes :=
  serializeOutputs [⟨0, env.coinbaseRewardScript⟩]

/-- The loop takes a message.  A client without a sender is disconnected. -/
def receive (env : Env) (s : System) (client : DownstreamId) (msg : JobDeclarationMessage)
    (now : Instant) : System :=
  match s.jds with
  | .idle =>
    match msg with
    | .allocateMiningJobToken m =>
      let r := s.tokenManager.allocate client m.userIdentifier now
      { s with
        tokenManager := r.2
        history := .allocation r.1 client m.userIdentifier :: s.history
        jds := .answering client
          (.allocateMiningJobTokenSuccess m.requestId r.1 (handedOutOutputs env)) }
    | .declareMiningJob m =>
      match s.downstreamClientSenders.lookup client with
      | none => s
      | some _ => { s with jds := .checking client m }
    | .provideMissingTransactionsSuccess m =>
      match s.downstreamClientSenders.lookup client with
      | none => s
      | some _ => { s with jds := .retrying client m }
  | _ => s

/-- Positions of the missing transactions in the declared list, as 16-bit numbers. -/
def unknownTxPositionList (wtxidList missing : List Hash256) : List UInt16 :=
  missing.filterMap fun w => (wtxidList.findIdx? (· = w)).map UInt16.ofNat

/-- The end of `handle_declare_mining_job` and of the retry. -/
def conclude (s : System) (w : Declaration) (result : DeclareMiningJobResult)
    (now : Instant) : System :=
  match result with
  | .success =>
    match s.tokenManager.activateRemove w.token w.client with
    | some (data, tm) => { s with tokenManager := tm, jds := .activating w data }
    | none => s.answerError w.client w.requestId .invalidMiningJobToken
  | .error code =>
    { s with tokenManager := s.tokenManager.deallocate w.token }.answerError
      w.client w.requestId code
  | .missingTransactions missing =>
    match w.provided with
    | some _ =>
      { s with tokenManager := s.tokenManager.deallocate w.token }.answerError
        w.client w.requestId .missingTxs
    | none =>
      match s.downstreamClients.lookup w.client with
      | none => { s with jds := .idle }
      | some ds =>
        let pending := ds.pendingDeclareMiningJobs.insert w.dmj.requestId (now, w.dmj)
        let s' := { s with downstreamClients := s.downstreamClients.insert w.client ⟨pending⟩ }
        let positions := unknownTxPositionList w.dmj.wtxidList missing
        if positions.length ≤ 65535 then
          s'.answer w.client (.provideMissingTransactions w.dmj.requestId positions)
        else { s' with jds := .stopped }
  | .panic => { s with jds := .stopped }

/-- The loop goes on with the message it is handling. -/
def jdsStep (env : Env) (s : System) (response : Option JdResponse) (now : Instant) : System :=
  match s.jds with
  | .idle => s
  | .stopped => s
  | .answering client a =>
    match s.downstreamClientSenders.lookup client with
    | none => { s with jds := .idle }
    | some _ => s.answer client a
  | .checking client dmj =>
    match parseToken dmj.miningJobToken with
    | none => s.answerError client dmj.requestId .invalidMiningJobToken
    | some token =>
      if s.tokenManager.isAllocated token client then
        { s with jds := .validating ⟨client, dmj, none, token⟩ }
      else s.answerError client dmj.requestId .invalidMiningJobToken
  | .retrying client msg =>
    match s.downstreamClients.lookup client with
    | none => { s with jds := .idle }
    | some ds =>
      match ds.pendingDeclareMiningJobs.lookup msg.requestId with
      | none => { s with jds := .idle }
      | some (_, dmj) =>
        let pending := ds.pendingDeclareMiningJobs.erase msg.requestId
        let s' := { s with downstreamClients := s.downstreamClients.insert client ⟨pending⟩ }
        match parseToken dmj.miningJobToken with
        | none => { s' with jds := .stopped }
        | some token => { s' with jds := .validating ⟨client, dmj, some msg, token⟩ }
  | .validating w =>
    match prepareDeclareMiningJob env.rb w.dmj w.provided with
    | .error result => { s with jds := .concluding w result }
    | .ok (allocatedToken, _) =>
      let previous :=
        previousPendingValidationContext s.downstreamStates w.client w.dmj w.provided
      { s with jds := .ensuring w allocatedToken previous }
  | .ensuring w allocatedToken previous =>
    { s with
      downstreamStates := KeyMap.ensure w.client DownstreamState.default s.downstreamStates
      jds := .waiting w allocatedToken previous }
  | .waiting w allocatedToken previous =>
    let r := applyJdResponse s.downstreamStates w.client w.dmj w.provided.isSome
      allocatedToken previous response now
    { s with downstreamStates := r.2, jds := .concluding w r.1 }
  | .concluding w result => s.conclude w result now
  | .activating w data =>
    let r := s.tokenManager.activateInsert w.token w.client data now
    { s with
      tokenManager := r.2
      history := .activation r.1 w.token w.client data.userIdentity :: s.history
    }.answer w.client (.declareMiningJobSuccess w.requestId r.1)

/-! ## The pool's call -/

def respond (s : System) (msg : SetCustomMiningJob) (r : SetCustomMiningJobResponse) : System :=
  { s with responses := (msg, r) :: s.responses, pool := .idle }

/-- Up to and including the comparison of the identities. -/
def present (s : System) (msg : SetCustomMiningJob) (userIdentity : Identity) : System :=
  match s.pool with
  | .idle =>
    match parseToken msg.token with
    | none => s.respond msg (.error .invalidMiningJobToken)
    | some activeToken =>
      match s.tokenManager.allocatedFromActive activeToken with
      | none => s.respond msg (.error .invalidMiningJobToken)
      | some data =>
        if userIdentity ≠ data.userIdentity then
          s.respond msg (.error .invalidMiningJobToken)
        else { s with pool := .deactivating ⟨msg, userIdentity, activeToken, data⟩ }
  | _ => s

def poolStep (env : Env) (s : System) : System :=
  match s.pool with
  | .idle => s
  | .stopped => s
  | .deactivating p =>
    { s with tokenManager := s.tokenManager.deactivate p.activeToken, pool := .taking p }
  | .taking p =>
    let r := handleSetCustomMiningJob env.rb s.downstreamStates p.data.owner p.msg
      p.data.allocatedToken
    let s' := { s with downstreamStates := r.2 }
    match r.1 with
    | .success => { s' with accepted := p :: s.accepted }.respond p.msg .ok
    | .error code => s'.respond p.msg (.error code)
    | .panic => { s' with pool := .stopped }

/-! ## What a task leaves alone -/

/-- A message moves the loop, and a request for a token the tokens and the history. -/
theorem receive_frame (env : Env) (s : System) (client : DownstreamId) (msg : JobDeclarationMessage)
    (now : Instant) : ∃ tm history jds, s.receive env client msg now = { s with
      tokenManager := tm
      history := history
      jds := jds } := by
  unfold receive
  split
  · split
    · exact ⟨_, _, _, rfl⟩
    · split
      · exact ⟨s.tokenManager, s.history, s.jds, rfl⟩
      · exact ⟨s.tokenManager, s.history, _, rfl⟩
    · split
      · exact ⟨s.tokenManager, s.history, s.jds, rfl⟩
      · exact ⟨s.tokenManager, s.history, _, rfl⟩
  · exact ⟨s.tokenManager, s.history, s.jds, rfl⟩

/-- A token that is presented is only looked at. -/
theorem present_frame (s : System) (msg : SetCustomMiningJob) (userIdentity : Identity) :
    ∃ responses pool, s.present msg userIdentity = { s with
      responses := responses
      pool := pool } := by
  unfold present respond
  split
  · split
    · exact ⟨_, _, rfl⟩
    · split
      · exact ⟨_, _, rfl⟩
      · split
        · exact ⟨_, _, rfl⟩
        · exact ⟨s.responses, _, rfl⟩
  · exact ⟨s.responses, s.pool, rfl⟩

/-- The pool's side touches the tokens and the declared jobs, not the loop or the pending
    declarations. -/
theorem poolStep_frame (env : Env) (s : System) :
    ∃ tm states responses accepted pool, s.poolStep env = { s with
      tokenManager := tm
      downstreamStates := states
      responses := responses
      accepted := accepted
      pool := pool } := by
  unfold poolStep respond
  split
  · exact ⟨s.tokenManager, s.downstreamStates, s.responses, s.accepted, s.pool, rfl⟩
  · exact ⟨s.tokenManager, s.downstreamStates, s.responses, s.accepted, s.pool, rfl⟩
  · exact ⟨_, s.downstreamStates, s.responses, s.accepted, _, rfl⟩
  · dsimp only
    split
    · exact ⟨s.tokenManager, _, _, _, _, rfl⟩
    · exact ⟨s.tokenManager, _, _, s.accepted, _, rfl⟩
    · exact ⟨s.tokenManager, _, s.responses, s.accepted, _, rfl⟩

/-! ## The system -/

def step (env : Env) (s : System) : Action → System
  | .connect =>
    { s with
      downstreamIdFactory := s.downstreamIdFactory + 1
      downstreamClients := s.downstreamClients.insert s.downstreamIdFactory ⟨∅⟩
      downstreamClientSenders := s.downstreamClientSenders.insert s.downstreamIdFactory () }
  | .receive client msg now => s.receive env client msg now
  | .jds response now => s.jdsStep env response now
  | .present msg userIdentity => s.present msg userIdentity
  | .pool => s.poolStep env
  | .cleanupClient d => { s with downstreamClients := s.downstreamClients.erase d }
  | .cleanupSender d => { s with downstreamClientSenders := s.downstreamClientSenders.erase d }
  | .cleanupState d => { s with downstreamStates := s.downstreamStates.erase d }
  | .cleanupAllocated d shard =>
    { s with tokenManager := s.tokenManager.removeDownstreamAllocated shard d }
  | .cleanupActive d shard =>
    { s with tokenManager := s.tokenManager.removeDownstreamActive shard d }
  | .janitorAllocated shard now =>
    { s with tokenManager := s.tokenManager.janitorAllocated shard now }
  | .janitorActive shard now =>
    { s with tokenManager := s.tokenManager.janitorActive shard now }
  | .janitorDeclared d now =>
    { s with downstreamStates :=
        KeyMap.modify d (fun st => st.pruneExpiredAllocations now) s.downstreamStates }
  | .janitorPending d shard now =>
    { s with downstreamClients := s.downstreamClients |> KeyMap.modify d fun ds =>
        ⟨ds.pendingDeclareMiningJobs |> KeyMap.retain fun r e =>
          !shard r || decide (now - e.1 ≤ durationFromSecs allocatedTokenTimeoutSecs)⟩ }

/-- The state after a run of the declarator. -/
def after (env : Env) (as : List Action) : System := Runs.run (step env) System.new as

end System

end Sv2Apps.Jds
