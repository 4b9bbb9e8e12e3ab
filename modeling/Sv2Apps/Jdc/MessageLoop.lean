/-
  Jdc/MessageLoop.lean
  ====================
  **The loop of the job declarator client** — the messages of the pool
  (`upstream_message_handler.rs`) and of the job declarator server (`jd_message_handler.rs`),
  the tasks of the connections, and the step function of the whole client.

  An error with the action `log` or `disconnect` ends the message; the other actions end the
  loop.
-/
import Sv2Apps.Jdc.Templates

namespace Sv2Apps.Jdc

open Bitcoin

namespace ChannelManager

/-! ## The pool -/

/-- The pool is told that its channel is not used. -/
def closeUpstream (s : ChannelManager) (channelId : ChannelId) : ChannelManager :=
  { s with upstreamState := .noChannel, sent := .closeChannel channelId :: s.sent }

/-- The coinbase-only custom job of `handle_open_extended_mining_channel_success`. -/
def openCustomJob (env : Env) (s : ChannelManager) (u : UpstreamChannel) (raw : List TxOut)
    (built : Bool) : ChannelManager × Option CustomJob :=
  if env.mode = .coinbaseOnly ∧ s.jobFactory = true then
    match s.lastFutureTemplate, s.lastNewPrevHash, s.allocateTokens with
    | some t, some p, token :: tokens =>
      let requestId := s.requestIdFactory
      let s := { s with allocateTokens := tokens, requestIdFactory := s.requestIdFactory + 1 }
      if built then
        let job : CustomJob :=
          ⟨u.channelId, requestId, token, p.chainTip, t, raw, u.fullExtranonceSize⟩
        let stored : DeclaredJob := ⟨none, t, some p, some job, some raw, [], false⟩
        ({ s with lastDeclareJobStore := s.lastDeclareJobStore.insert requestId stored }, some job)
      else (s, none)
    | _, _, _ => (s, none)
  else (s, none)

/-- `handle_open_extended_mining_channel_success`, up to the group channels. -/
def receiveOpenSuccess (env : Env) (s : ChannelManager) (msg : OpenSuccess)
    (ans : OpenSuccessAnswers) : ChannelManager :=
  match s.coinbaseOutputs with
  | none => s.fail .shutdown
  | some raw =>
    if msg.extranonceSize.toNat <
        localPrefixBytes + env.reservedDownstreamRollableExtranonceSize.toNat then s.fail .fallback
    else if s.pendingDownstreamRequests.isEmpty then s.closeUpstream msg.channelId
    else
      let s := { s with sizeWrapped := s.sizeWrapped || msg.wraps }
      if !ans.allocatorBuilt then s.closeUpstream msg.channelId
      else if !ans.channelBuilt then s.fail .fallback
      else
        let u : UpstreamChannel :=
          ⟨msg.channelId, msg.extranoncePrefix.val, msg.extranonceSize, ∅⟩
        let (s, customJob) := s.openCustomJob env u raw ans.customJobBuilt
        { s with
          extranonceAllocator := ⟨msg.extranoncePrefix.val, msg.totalLen.toNat % 2 ^ 8,
            s.extranonceAllocator.generation + 1⟩
          upstreamChannel := some u
          jobFactory := true
          upstreamState := .connected
          loop := .openSuccess u.fullExtranonceSize customJob s.downstream.keys [] }

/-- The transactions of the last future template are asked for once there is a channel. -/
def requestFutureTemplate (env : Env) (s : ChannelManager) : ChannelManager :=
  match env.mode, s.lastFutureTemplate with
  | .fullTemplate, some t => s.send [.requestTransactionData t.templateId]
  | _, _ => s

def sendOpenCustomJob (env : Env) (s : ChannelManager) (customJob : Option CustomJob) :
    ChannelManager :=
  match env.mode, customJob with
  | .coinbaseOnly, some job => (s.send [.setCustomMiningJob job false]).allocateToken
  | _, _ => s

/-- `mem::take`: the requests that waited are handled from now on. -/
def takePending (s : ChannelManager) : ChannelManager :=
  { s with
    pendingDownstreamRequests := []
    loop := if s.pendingDownstreamRequests.isEmpty then .idle
      else .pending s.pendingDownstreamRequests }

/-- The rest of the handler, up to the requests that waited. -/
def finishOpenSuccess (env : Env) (s : ChannelManager) (customJob : Option CustomJob) :
    ChannelManager :=
  ((s.requestFutureTemplate env).sendOpenCustomJob env customJob).takePending

/-- The next request that waited; an error drops those after it. -/
def handlePending (s : ChannelManager) (ans : OpenAnswers) : ChannelManager :=
  match s.loop with
  | .pending (r :: rest) =>
    let s := s.recordRollableSize r ans
    match s.handleOpen r ans with
    | .error f => s.fail f
    | .ok s => { s with loop := if rest.isEmpty then .idle else .pending rest }
  | _ => s

/-- `handle_set_extranonce_prefix`, up to the connections. -/
def receiveSetExtranoncePrefix (s : ChannelManager) (extranoncePrefix : B032)
    (upstreamAccepts allocatorBuilt : Bool) : ChannelManager :=
  match s.upstreamChannel with
  | none => s
  | some u =>
    if !upstreamAccepts then s.fail .fallback
    else
      let u := { u with extranoncePrefix := extranoncePrefix.val }
      let s := { s with upstreamChannel := some u }
      let full := extranoncePrefix.val.length + u.rollableExtranonceSize.toNat
      if maxExtranonceLen < full then s.fail .fallback
      else if !allocatorBuilt then s.fail .fallback
      else
        { s with
          extranonceAllocator :=
            ⟨extranoncePrefix.val, full % 2 ^ 8, s.extranonceAllocator.generation + 1⟩
          loop := .setExtranoncePrefix s.downstream.keys [] [] }

/-- A channel gets a prefix of the new allocator; an error leaves the channel as it is. -/
def renew (generation : Nat) (ans : PrefixAnswers) (channelId : ChannelId) (c : Channel) :
    Channel :=
  match ans.allocation channelId with
  | .allocated bytes =>
    if ans.channelAccepts channelId then
      { c with extranoncePrefix := bytes, generation := generation }
    else c
  | _ => c

def renewals (d : DownstreamId) (ans : PrefixAnswers) (channelIds : List ChannelId) :
    List Renewal :=
  channelIds.flatMap fun channelId =>
    match ans.allocation channelId with
    | .allocated bytes => if ans.channelAccepts channelId then [⟨d, channelId, bytes⟩] else []
    | _ => []

/-- One connection in `handle_set_extranonce_prefix`. -/
def visitSetExtranoncePrefix (s : ChannelManager) (d : DownstreamId) (ds : Downstream)
    (ans : PrefixAnswers) : ChannelManager × List Renewal :=
  let generation := s.extranonceAllocator.generation
  ({ s with downstream := s.downstream.insert d { ds with
      standardChannels := KeyMap.mapValues (renew generation ans) ds.standardChannels
      extendedChannels := KeyMap.mapValues (renew generation ans) ds.extendedChannels } },
    renewals d ans (ds.standardChannels.keys ++ ds.extendedChannels.keys))

/-- `validate_cached_share` for each share; an extranonce that is too long is a panic. -/
def validateCachedShares (s : ChannelManager) (p : SetNewPrevHash) (u : UpstreamChannel)
    (jobId : JobId) : List UpstreamShareAnswer → List CachedShare → ChannelManager
  | _, [] => s
  | answers, c :: cs =>
    let share := { c.share with jobId := jobId }
    match s.validateUpstream p u share c.accepted c.validatedWith (u.extranoncePrefix ++ share.extranonce)
        .panic (answers.headD .invalid) with
    | .error f => s.fail f
    | .ok s => s.validateCachedShares p u jobId answers.tail cs

/-- The pool has accepted the job of a template: what was kept for it is removed. -/
def completeJob (s : ChannelManager) (requestId : RequestId) (jobId : JobId)
    (templateId : TemplateId) : ChannelManager :=
  { s with
    lastDeclareJobStore := s.lastDeclareJobStore.erase requestId
    templateIdToUpstreamJobId := s.templateIdToUpstreamJobId.insert templateId jobId
    acknowledgements := (templateId, jobId) :: s.acknowledgements
    cachedShares := s.cachedShares.erase templateId }

def handleSetCustomMiningJobSuccess (s : ChannelManager) (requestId : RequestId) (jobId : JobId)
    (ack : AcknowledgementAnswer) (answers : List UpstreamShareAnswer) : ChannelManager :=
  match s.lastDeclareJobStore.lookup requestId with
  | none => s.fail .fallback
  | some job =>
    let cached := s.cachedShares.lookup job.template.templateId
    let s := s.completeJob requestId jobId job.template.templateId
    match s.upstreamChannel with
    | none => s.fail .log
    | some u => match job.setCustomMiningJob with
      | none => s.fail .shutdown
      | some _ => match ack with
        | .chainTipMismatch => s.fail .log
        | .fault => s.fail .fallback
        | .accepted =>
          let s := { s with upstreamChannel := some (u.acknowledge jobId) }
          match s.lastNewPrevHash, cached with
          | some p, some shares =>
            s.validateCachedShares p (u.acknowledge jobId) jobId answers shares
          | _, _ => s

/-- Only `stale-chain-tip` does not end the connection to the pool. -/
def handleSetCustomMiningJobError (s : ChannelManager) (requestId : RequestId)
    (staleChainTip : Bool) : ChannelManager :=
  if staleChainTip then
    match s.lastDeclareJobStore.lookup requestId with
    | none => s
    | some job =>
      { s with
        lastDeclareJobStore := s.lastDeclareJobStore.erase requestId
        cachedShares := s.cachedShares.erase job.template.templateId }
  else s.fail .fallback

/-! ## The job declarator server -/

/-- The outputs that come with a token replace the client's. -/
def handleAllocateMiningJobTokenSuccess (s : ChannelManager) (requestId : RequestId) (token : Bytes)
    (outs : Option (List TxOut)) : ChannelManager :=
  let changed := s.coinbaseOutputs ≠ outs
  let s := { s with
    coinbaseOutputs := outs
    allocateTokens := s.allocateTokens ++ [token]
    receivedTokens := token :: s.receivedTokens
    allocationRequests := s.allocationRequests.erase requestId }
  match outs with
  | none => if changed then s.fail .shutdown else s
  | some os => if changed then s.send [.coinbaseOutputConstraints os] else s

def handleDeclareMiningJobSuccess (s : ChannelManager) (requestId : RequestId) (newToken : Bytes)
    (customJobBuilt : Bool) : ChannelManager :=
  match s.lastDeclareJobStore.lookup requestId with
  | none => s
  | some job => match job.prevHash with
    | none => s
    | some p => match job.coinbaseOutput with
      | none => s.fail .shutdown
      | some outs => match s.upstreamInfo with
        | none => s
        | some (channelId, size) =>
          if s.jobFactory && customJobBuilt then
            let customJob : CustomJob :=
              ⟨channelId, requestId, newToken, p.chainTip, job.template, outs, size⟩
            let stored := { job with setCustomMiningJob := some customJob }
            { s with lastDeclareJobStore := s.lastDeclareJobStore.insert requestId stored }.send
              [.setCustomMiningJob customJob true]
          else s

def handleProvideMissingTransactions (s : ChannelManager) (requestId : RequestId)
    (positions : List UInt16) : ChannelManager :=
  match s.lastDeclareJobStore.lookup requestId with
  | none => s
  | some job =>
    let txs := positions.filterMap fun pos => job.txList[pos.toNat]?
    s.send [.provideMissingTransactionsSuccess requestId txs]

/-! ## Connections -/

/-- Connections are accepted once there are a future template and a prev-hash.  The task of the
    connection first reads the size of the full extranonces. -/
def accept (s : ChannelManager) : ChannelManager :=
  if s.lastFutureTemplate.isSome && s.lastNewPrevHash.isSome then
    { s with
      accepting := s.accepting.insert s.downstreamIdFactory (.readSize s.fullExtranonceSize)
      downstreamIdFactory := s.downstreamIdFactory + 1 }
  else s

/-- The rest of `bootstrap_group_channel`.  A failure cancels the global token. -/
def bootstrap (s : ChannelManager) (d : DownstreamId) (built : Bool) : ChannelManager :=
  match s.accepting.lookup d with
  | some (.readSize size) => match s.coinbaseOutputs with
    | some (_ :: _) =>
      if built then { s with accepting := s.accepting.insert d (.bootstrapped size) }
      else { s with accepting := s.accepting.erase d, cancelled := true }
    -- the task of the connection panics
    | some [] => { s with accepting := s.accepting.erase d }
    | none => { s with accepting := s.accepting.erase d, cancelled := true }
  | _ => s

def register (s : ChannelManager) (d : DownstreamId) : ChannelManager :=
  match s.accepting.lookup d with
  | some (.bootstrapped size) =>
    { s with
      downstream := s.downstream.insert d (Downstream.new size)
      accepting := s.accepting.erase d }
  | _ => s

/-- The first message of a connection. -/
def setUpConnection (s : ChannelManager) (d : DownstreamId) (requireStdJob : Bool) :
    ChannelManager :=
  { s with downstream := s.downstream |> KeyMap.modify d fun ds =>
      if ds.setUp then ds else { ds with requireStdJob := requireStdJob, setUp := true } }

/-! ## Steps -/

/-- What one visit of a handler to a connection is answered. -/
structure VisitAnswers where
  template : TemplateAnswers
  prevHash : PrevHashAnswers
  extranoncePrefix : PrefixAnswers
  groupSizeAccepted : Bool

/-- The messages that the loop takes. -/
inductive Event where
  | newTemplate (t : NewTemplate)
  | setNewPrevHash (p : SetNewPrevHash) (pick : RequestId) (customJobBuilt : Bool)
  | requestTransactionDataSuccess (templateId : TemplateId) (txs : List Bytes)
      (coinbase : Option (Bytes × Bytes))
  | openExtendedMiningChannelSuccess (msg : OpenSuccess) (ans : OpenSuccessAnswers)
  | setExtranoncePrefix (extranoncePrefix : B032) (upstreamAccepts allocatorBuilt : Bool)
  | setCustomMiningJobSuccess (requestId : RequestId) (jobId : JobId) (ack : AcknowledgementAnswer)
      (answers : List UpstreamShareAnswer)
  | setCustomMiningJobError (requestId : RequestId) (staleChainTip : Bool)
  | closeUpstreamChannel
  /-- Any message of the pool that only ends the connection to it. -/
  | upstreamFault
  | allocateMiningJobTokenSuccess (requestId : RequestId) (token : Bytes)
      (outs : Option (List TxOut))
  | declareMiningJobSuccess (requestId : RequestId) (newToken : Bytes) (customJobBuilt : Bool)
  | declareMiningJobError (requestId : RequestId) (staleChainTip : Bool)
  | provideMissingTransactions (requestId : RequestId) (positions : List UInt16)
  | openChannel (r : PendingRequest) (ans : OpenAnswers)
  | closeChannel (d : DownstreamId) (channelId : ChannelId)
  | submitSharesStandard (d : DownstreamId) (channelId : ChannelId) (jobId : JobId)
      (ans : ShareAnswer) (upstream : UpstreamShareAnswer)
  | submitSharesExtended (d : DownstreamId) (channelId : ChannelId) (jobId : JobId)
      (extranonce : B032) (ans : ShareAnswer) (upstream : UpstreamShareAnswer)

/-- The connection that a message comes from. -/
def Event.sender : Event → Option DownstreamId
  | .openChannel r _ => some r.downstreamId
  | .closeChannel d _ => some d
  | .submitSharesStandard d _ _ _ _ => some d
  | .submitSharesExtended d _ _ _ _ _ => some d
  | _ => none

inductive Action where
  | event (e : Event)
  | visit (d : DownstreamId) (ans : VisitAnswers)
  | finish
  | handlePending (ans : OpenAnswers)
  | accept
  | bootstrap (d : DownstreamId) (built : Bool)
  | register (d : DownstreamId)
  | setUpConnection (d : DownstreamId) (requireStdJob : Bool)
  | removeDownstream (d : DownstreamId)

def handle (env : Env) (s : ChannelManager) : Event → ChannelManager
  | .newTemplate t => s.receiveNewTemplate env t
  | .setNewPrevHash p pick built => s.receiveSetNewPrevHash env p pick built
  | .requestTransactionDataSuccess t txs coinbase => s.handleRequestTxDataSuccess env t txs coinbase
  | .openExtendedMiningChannelSuccess msg ans => s.receiveOpenSuccess env msg ans
  | .setExtranoncePrefix extranoncePrefix upstreamAccepts allocatorBuilt =>
    s.receiveSetExtranoncePrefix extranoncePrefix upstreamAccepts allocatorBuilt
  | .setCustomMiningJobSuccess requestId jobId ack answers =>
    s.handleSetCustomMiningJobSuccess requestId jobId ack answers
  | .setCustomMiningJobError requestId stale => s.handleSetCustomMiningJobError requestId stale
  | .closeUpstreamChannel => { s with upstreamChannel := none }.fail .fallback
  | .upstreamFault => s.fail .fallback
  | .allocateMiningJobTokenSuccess requestId token outs =>
    s.handleAllocateMiningJobTokenSuccess requestId token outs
  | .declareMiningJobSuccess requestId token built =>
    s.handleDeclareMiningJobSuccess requestId token built
  | .declareMiningJobError _ stale => if stale then s else s.fail .fallback
  | .provideMissingTransactions requestId positions =>
    s.handleProvideMissingTransactions requestId positions
  | .openChannel r ans => s.handleDownstreamOpen env r ans
  | .closeChannel d channelId => s.conclude (s.handleCloseChannel d channelId)
  | .submitSharesStandard d channelId jobId ans upstream =>
    s.conclude (s.handleSubmitSharesStandard d channelId jobId ans upstream)
  | .submitSharesExtended d channelId jobId extranonce ans upstream =>
    s.conclude (s.handleSubmitSharesExtended d channelId jobId extranonce ans upstream)

/-- The next connection of a handler that goes through them. -/
def visit (s : ChannelManager) (d : DownstreamId) (ans : VisitAnswers) : ChannelManager :=
  match s.downstream.lookup d with
  | none => s
  | some ds => match s.loop with
    | .newTemplate t ctx present visited messages =>
      if d ∈ visited then s
      else match s.visitNewTemplate t ctx d ds ans.template with
        | .error f => s.fail f
        | .ok (s, ms) => { s with loop := .newTemplate t ctx present (d :: visited) (messages ++ ms) }
    | .setNewPrevHash p tokenConsumed present visited messages =>
      if d ∈ visited then s
      else match s.visitSetNewPrevHash p d ds ans.prevHash with
        | .error f => s.fail f
        | .ok (s, ms) =>
          { s with loop := .setNewPrevHash p tokenConsumed present (d :: visited) (messages ++ ms) }
    | .openSuccess size customJob present visited =>
      if d ∈ visited then s
      else if ans.groupSizeAccepted then
        { s with
          downstream := s.downstream.insert d { ds with groupFullExtranonceSize := size }
          loop := .openSuccess size customJob present (d :: visited) }
      else s.fail .shutdown
    | .setExtranoncePrefix present visited renewals =>
      if d ∈ visited then s
      else
        let (s, rs) := s.visitSetExtranoncePrefix d ds ans.extranoncePrefix
        { s with loop := .setExtranoncePrefix present (d :: visited) (renewals ++ rs) }
    | _ => s

/-- Every connection that was there and still is has been visited. -/
def visitedAll (s : ChannelManager) (present visited : List DownstreamId) : Bool :=
  present.all fun d => decide (d ∈ visited) || (s.downstream.lookup d).isNone

/-- The end of a handler that went through the connections. -/
def finish (env : Env) (s : ChannelManager) : ChannelManager :=
  match s.loop with
  | .newTemplate _ ctx present visited messages =>
    if s.visitedAll present visited then
      let s := if ctx.token.isSome then s.allocateToken else s
      { s.send messages with loop := .idle }
    else s
  | .setNewPrevHash _ tokenConsumed present visited messages =>
    if s.visitedAll present visited then
      let s := if tokenConsumed then s.allocateToken else s
      { s.send messages with loop := .idle }
    else s
  | .openSuccess _ customJob present visited =>
    if s.visitedAll present visited then s.finishOpenSuccess env customJob else s
  | .setExtranoncePrefix present visited renewals =>
    if s.visitedAll present visited then { s.send (renewals.map Renewal.message) with loop := .idle }
    else s
  | _ => s

/-- Messages come from connections that are set up, and from connections that are gone. -/
def hasSpoken (s : ChannelManager) (d : DownstreamId) : Bool :=
  match s.downstream.lookup d with
  | some ds => ds.setUp
  | none => decide (d < s.downstreamIdFactory) && (s.accepting.lookup d).isNone

/-- The loop is free and the message can be there. -/
def takes (s : ChannelManager) (e : Event) : Bool :=
  decide (s.loop = .idle) && !s.cancelled && e.sender.all s.hasSpoken

def step (env : Env) (s : ChannelManager) : Action → ChannelManager
  | .event e => if s.takes e then s.handle env e else s
  | .visit d ans => s.visit d ans
  | .finish => s.finish env
  | .handlePending ans => s.handlePending ans
  | .accept => s.accept
  | .bootstrap d built => s.bootstrap d built
  | .register d => s.register d
  | .setUpConnection d requireStdJob => s.setUpConnection d requireStdJob
  | .removeDownstream d => s.removeDownstream d

/-- The state after a run of a client that starts with the given outputs. -/
def after (env : Env) (outs : Option (List TxOut)) (as : List Action) : ChannelManager :=
  Runs.run (step env) (start outs) as

/-! ## A client to try things on -/

/-- Four bytes are kept for each miner, and no transaction decodes. -/
def sampleEnv (mode : JDMode) : Env := ⟨mode, 4, fun _ => none⟩

def samplePrevHash (t : TemplateId) : SetNewPrevHash := ⟨t, Hash256.allZeros, 0, 0x207fffff⟩

/-- The crate hands out the given prefix and accepts everything. -/
def sampleOpen (extranoncePrefix : Bytes) : OpenAnswers :=
  ⟨.allocated extranoncePrefix, .built, some 1, true, true⟩

/-- The crate accepts everything at a visit; the channels get the given prefix. -/
def sampleVisit (jobId : JobId) (extranoncePrefix : Bytes) : VisitAnswers :=
  ⟨⟨some jobId, true, fun _ => some jobId, fun _ => true⟩,
    ⟨.activated jobId, fun _ => .activated jobId, fun _ => .activated jobId⟩,
    ⟨fun _ => .allocated extranoncePrefix, fun _ => true⟩, true⟩

/-- The first template is activated and `n` miners connect. -/
def sampleConnections (n : Nat) : List Action :=
  [.event (.newTemplate ⟨1, true, 4000⟩), .finish,
   .event (.setNewPrevHash (samplePrevHash 1) 0 true), .finish] ++
  (List.range n).flatMap fun d =>
    [.accept, .bootstrap d true, .register d, .setUpConnection d false]

def samplePrefix : B032 := ⟨[0xaa], by decide⟩

/-- A miner opens an extended channel, and with it the client one at the pool. -/
def sampleUpstream (d : DownstreamId) : List Action :=
  [.event (.openChannel ⟨d, 7, .extended 4⟩ (sampleOpen [])),
   .event (.openExtendedMiningChannelSuccess ⟨9, samplePrefix, 8⟩ ⟨true, true, true⟩)]

end ChannelManager

end Sv2Apps.Jdc
