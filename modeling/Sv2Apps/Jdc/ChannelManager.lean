/-
  Jdc/ChannelManager.lean
  =======================
  **The channel manager of the job declarator client** — its state, and the handlers of the
  miners' messages (`channel_manager/mod.rs`, `downstream_message_handler.rs`).

  One loop takes the messages of the template provider, the pool, the job declarator server
  and the miners one at a time.  A handler that goes through the connections visits them one
  by one, in any order and with other tasks moving in between; so does the handling of the
  requests that waited for the channel to the pool.  Each accepted connection has a task of
  its own, which reads the extranonce size, builds its group channel and then registers the
  connection; connections go away at any time.

  `sent` holds every message, newest first.  `history`, `receivedTokens`,
  `allocationRequests`, `openRequests`, `forwarded`, `acceptedShares`, `validations`,
  `acknowledgements` and `sizeWrapped` only record what happened; no step reads them.
-/
import Sv2Apps.Jdc.Channels
import Sv2Apps.Lib.Runs

namespace Sv2Apps.Jdc

open Bitcoin

/-! ## Messages -/

inductive OpenMiningChannelErrorCode where
  | extendedChannelsNotSupportedForStandardJobs
  /-- A code of the allocator or of a channel constructor. -/
  | channel (code : String)
deriving DecidableEq

/-- What the client sends to a miner. -/
inductive MiningMessage where
  | openMiningChannelError (requestId : RequestId) (code : OpenMiningChannelErrorCode)
  | openStandardMiningChannelSuccess (requestId : RequestId) (channelId : ChannelId)
      (extranoncePrefix : Bytes)
  | openExtendedMiningChannelSuccess (requestId : RequestId) (channelId : ChannelId)
      (extranoncePrefix : Bytes) (extranonceSize : Nat)
  | newMiningJob (channelId : ChannelId) (jobId : JobId)
  | newExtendedMiningJob (channelId : ChannelId) (jobId : JobId)
  | setNewPrevHash (channelId : ChannelId) (jobId : JobId) (prevHash : SetNewPrevHash)
  | setExtranoncePrefix (channelId : ChannelId) (extranoncePrefix : Bytes)
  | submitSharesSuccess (channelId : ChannelId)
  | submitSharesError (channelId : ChannelId) (code : String)
deriving DecidableEq

/-- `RouteMessageTo`. -/
inductive Message where
  | downstream (d : DownstreamId) (m : MiningMessage)
  | openExtendedMiningChannel (minExtranonceSize : UInt16)
  | closeChannel (channelId : ChannelId)
  /-- With whether the job was declared to the server before. -/
  | setCustomMiningJob (job : CustomJob) (afterDeclaration : Bool)
  | submitSharesExtended (share : UpstreamShare)
  | allocateMiningJobToken (requestId : RequestId)
  | declareMiningJob (declaration : Declaration)
  | provideMissingTransactionsSuccess (requestId : RequestId) (txs : List Bytes)
  | pushSolution (extranonce : Bytes) (prevHash : SetNewPrevHash)
  | requestTransactionData (templateId : TemplateId)
  | submitSolution (templateId : TemplateId)
  | coinbaseOutputConstraints (outs : List TxOut)
deriving DecidableEq

/-- `OpenExtendedMiningChannelSuccess` of the pool. -/
structure OpenSuccess where
  channelId : ChannelId
  extranoncePrefix : B032
  extranonceSize : UInt16
deriving DecidableEq

namespace OpenSuccess

/-- `prefix_len as u16 + extranonce_size`, in `u16` arithmetic. -/
def totalLen (msg : OpenSuccess) : UInt16 :=
  UInt16.ofNat msg.extranoncePrefix.val.length + msg.extranonceSize

/-- The exact length does not fit the `u8` that the allocator takes. -/
def wraps (msg : OpenSuccess) : Bool :=
  2 ^ 8 ≤ msg.extranoncePrefix.val.length + msg.extranonceSize.toNat

end OpenSuccess

/-- What the crate answers while the channel to the pool is set up. -/
structure OpenSuccessAnswers where
  allocatorBuilt : Bool
  channelBuilt : Bool
  customJobBuilt : Bool
deriving DecidableEq

/-! ## The state -/

structure Env where
  mode : JDMode
  reservedDownstreamRollableExtranonceSize : UInt8
  /-- `consensus::deserialize`, then `compute_wtxid`. -/
  wtxid : Bytes → Option Hash256

/-- The action of an error. -/
inductive Fault where
  | log
  | disconnect (d : DownstreamId)
  | fallback
  | shutdown
  | panic
deriving DecidableEq

/-- What `handle_new_template` reads before it visits the connections. -/
structure TemplateContext where
  outputs : List TxOut
  coinbaseOutputBytes : List TxOut
  token : Option Bytes
  upstream : Option (ChannelId × Nat)
  prevHash : Option SetNewPrevHash
deriving DecidableEq

/-- A channel has got a new prefix. -/
structure Renewal where
  downstreamId : DownstreamId
  channelId : ChannelId
  extranoncePrefix : Bytes
deriving DecidableEq

def Renewal.message (r : Renewal) : Message :=
  .downstream r.downstreamId (.setExtranoncePrefix r.channelId r.extranoncePrefix)

inductive LoopTask where
  | idle
  | newTemplate (t : NewTemplate) (ctx : TemplateContext) (present visited : List DownstreamId)
      (messages : List Message)
  | setNewPrevHash (p : SetNewPrevHash) (tokenConsumed : Bool) (present visited : List DownstreamId)
      (messages : List Message)
  /-- The group channels are told the size of the new channel to the pool. -/
  | openSuccess (size : Nat) (customJob : Option CustomJob) (present visited : List DownstreamId)
  /-- The requests that waited for the channel to the pool. -/
  | pending (requests : List PendingRequest)
  /-- The channels get prefixes of a new allocator; their owners are told at the end. -/
  | setExtranoncePrefix (present visited : List DownstreamId) (renewals : List Renewal)
  | stopped (fault : Fault)
deriving DecidableEq

inductive AcceptTask where
  | readSize (size : Nat)
  | bootstrapped (size : Nat)
deriving DecidableEq

inductive TemplateMessage where
  | newTemplate (t : NewTemplate)
  | setNewPrevHash (p : SetNewPrevHash)
deriving DecidableEq

/-- A share sent to the pool: the full extranonce with which the miner's channel validated it,
    the prefix that the channel to the pool had when it got the job, and what was sent. -/
structure ForwardedShare where
  validatedWith : Bytes
  jobPrefix : Bytes
  extranonce : Bytes
  pushSolution : Option Bytes
deriving DecidableEq

structure ChannelManager where
  downstream : KeyMap DownstreamId Downstream
  extranonceAllocator : ExtranonceAllocator
  requestIdFactory : RequestId
  downstreamIdFactory : DownstreamId
  lastFutureTemplate : Option NewTemplate
  lastNewPrevHash : Option SetNewPrevHash
  allocateTokens : List Bytes
  templateStore : KeyMap TemplateId NewTemplate
  lastDeclareJobStore : KeyMap RequestId DeclaredJob
  templateIdToUpstreamJobId : KeyMap TemplateId JobId
  /-- `downstream_channel_id_and_job_id_to_template_id`. -/
  jobToTemplateId : KeyMap (DownstreamId × ChannelId × JobId) TemplateId
  coinbaseOutputs : Option (List TxOut)
  upstreamChannel : Option UpstreamChannel
  pendingDownstreamRequests : List PendingRequest
  /-- The job factory is there. -/
  jobFactory : Bool
  cachedShares : KeyMap TemplateId (List CachedShare)
  upstreamState : UpstreamState
  loop : LoopTask
  accepting : KeyMap DownstreamId AcceptTask
  /-- The global cancellation token. -/
  cancelled : Bool
  sent : List Message
  /-- The template messages, newest first, each with the outputs at that time. -/
  history : List (TemplateMessage × Option (List TxOut))
  receivedTokens : List Bytes
  /-- The requests for tokens that have not been answered. -/
  allocationRequests : List RequestId
  openRequests : List PendingRequest
  forwarded : List ForwardedShare
  acceptedShares : List AcceptedShare
  validations : List Validation
  /-- The templates of which the pool has accepted a job, with the id of the job. -/
  acknowledgements : List (TemplateId × JobId)
  /-- Some computation of a size went over the width of its type. -/
  sizeWrapped : Bool

namespace ChannelManager

/-- The client has connected to a pool and a server and has asked for two tokens.  Its own
    coinbase outputs are `outs`. -/
def start (outs : Option (List TxOut)) : ChannelManager where
  downstream := ∅
  extranonceAllocator := ⟨[], soloFullExtranonceSize, 0⟩
  requestIdFactory := 2
  downstreamIdFactory := 0
  lastFutureTemplate := none
  lastNewPrevHash := none
  allocateTokens := []
  templateStore := ∅
  lastDeclareJobStore := ∅
  templateIdToUpstreamJobId := ∅
  jobToTemplateId := ∅
  coinbaseOutputs := outs
  upstreamChannel := none
  pendingDownstreamRequests := []
  jobFactory := false
  cachedShares := ∅
  upstreamState := .noChannel
  loop := .idle
  accepting := ∅
  cancelled := false
  sent := [.allocateMiningJobToken 1, .allocateMiningJobToken 0]
  history := []
  receivedTokens := []
  allocationRequests := [0, 1]
  openRequests := []
  forwarded := []
  acceptedShares := []
  validations := []
  acknowledgements := []
  sizeWrapped := false

def send (s : ChannelManager) (ms : List Message) : ChannelManager :=
  { s with sent := ms.reverse ++ s.sent }

def removeDownstream (s : ChannelManager) (d : DownstreamId) : ChannelManager :=
  { s with
    downstream := s.downstream.erase d
    jobToTemplateId := s.jobToTemplateId |> KeyMap.retain fun key _ => key.1 ≠ d }

/-- `handle_error_action`. -/
def fail (s : ChannelManager) : Fault → ChannelManager
  | .log => { s with loop := .idle }
  | .disconnect d => { s.removeDownstream d with loop := .idle }
  | f => { s with loop := .stopped f }

/-- The end of a message that is handled at once. -/
def conclude (s : ChannelManager) : Except Fault ChannelManager → ChannelManager
  | .error f => s.fail f
  | .ok s' => { s' with loop := .idle }

/-- `allocate_tokens(1)`. -/
def allocateToken (s : ChannelManager) : ChannelManager :=
  { s with
    requestIdFactory := s.requestIdFactory + 1
    sent := .allocateMiningJobToken s.requestIdFactory :: s.sent
    allocationRequests := s.allocationRequests ++ [s.requestIdFactory] }

def upstreamInfo (s : ChannelManager) : Option (ChannelId × Nat) :=
  s.upstreamChannel.map fun c => (c.channelId, c.fullExtranonceSize)

/-- The size of the full extranonces of the miners' channels. -/
def fullExtranonceSize (s : ChannelManager) : Nat :=
  match s.upstreamChannel with
  | some c => c.fullExtranonceSize
  | none => soloFullExtranonceSize

/-! ## Opening a miner's channel -/

/-- A fresh channel is given the last future template and the last prev-hash. -/
def bootstrapChannel (c : Channel) (t : NewTemplate) (outs : List TxOut) (ans : OpenAnswers) :
    Except Fault (Channel × JobId) :=
  match ans.templateJob with
  | none => .error .shutdown
  | some jobId =>
    if ans.prevHashAccepted then .ok (c.addJob jobId t outs c.fullExtranonceSize, jobId)
    else .error .shutdown

/-- The connection is answered with an error. -/
def refuseOpen (s : ChannelManager) (d : DownstreamId) (ds : Downstream) (req : OpenRequest)
    (code : OpenMiningChannelErrorCode) : ChannelManager :=
  { s with
    downstream := s.downstream.insert d ds
    sent := .downstream d (.openMiningChannelError req.requestId code) :: s.sent }

/-- A standard channel joins the group channel unless the connection wants standard jobs. -/
def registerStandardChannel (s : ChannelManager) (d : DownstreamId) (ds : Downstream)
    (req : OpenRequest) (channelId : ChannelId) (extranoncePrefix : Bytes) (t : NewTemplate)
    (p : SetNewPrevHash) (outs : List TxOut) (ans : OpenAnswers) :
    Except Fault ChannelManager :=
  match bootstrapChannel
      ⟨extranoncePrefix, 0, ∅, s.extranonceAllocator.generation, 1, []⟩ t outs ans with
  | .error f => .error f
  | .ok (c, jobId) =>
    if !ds.requireStdJob && !ans.addedToGroup then .error .shutdown
    else
      let ds := { ds with
        standardChannels := ds.standardChannels.insert channelId c
        groupChannelIds :=
          if ds.requireStdJob then ds.groupChannelIds else channelId :: ds.groupChannelIds }
      let s := { s with
        downstream := s.downstream.insert d ds
        jobToTemplateId := s.jobToTemplateId.insert (d, channelId, jobId) t.templateId }
      .ok (s.send
        [.downstream d (.openStandardMiningChannelSuccess req.requestId channelId extranoncePrefix),
         .downstream d (.newMiningJob channelId jobId),
         .downstream d (.setNewPrevHash channelId jobId p)])

def handleOpenStandardMiningChannel (s : ChannelManager) (d : DownstreamId) (req : OpenRequest)
    (ans : OpenAnswers) : Except Fault ChannelManager :=
  match s.coinbaseOutputs with
  | none => .error .shutdown
  | some raw => match s.lastFutureTemplate with
    | none => .error (.disconnect d)
    | some t => match s.lastNewPrevHash with
      | none => .error (.disconnect d)
      | some p => match withFirstValue t.coinbaseTxValueRemaining raw with
        | none => .error .panic
        | some outs => match s.downstream.lookup d with
          | none => .error (.disconnect d)
          | some ds =>
            let channelId := ds.channelIdFactory
            let ds := { ds with channelIdFactory := ds.channelIdFactory + 1 }
            match ans.allocation with
            | .fault => .error .shutdown
            | .refused code => .ok (s.refuseOpen d ds req (.channel code))
            | .allocated extranoncePrefix => match ans.construction with
              | .refused code => .ok (s.refuseOpen d ds req (.channel code))
              | .fault => .error (.disconnect d)
              | .built =>
                s.registerStandardChannel d ds req channelId extranoncePrefix t p outs ans

def registerExtendedChannel (s : ChannelManager) (d : DownstreamId) (ds : Downstream)
    (req : OpenRequest) (channelId : ChannelId) (extranoncePrefix : Bytes) (rollable : UInt16)
    (t : NewTemplate) (p : SetNewPrevHash) (ans : OpenAnswers) : Except Fault ChannelManager :=
  match s.coinbaseOutputs with
  | none => .error .shutdown
  | some raw => match withFirstValue t.coinbaseTxValueRemaining raw with
    | none => .error .panic
    | some outs =>
      match bootstrapChannel
          ⟨extranoncePrefix, rollable.toNat, ∅, s.extranonceAllocator.generation, 1, []⟩ t outs
          ans with
      | .error f => .error f
      | .ok (c, jobId) =>
        if !ans.addedToGroup then .error .shutdown
        else
          let ds := { ds with
            extendedChannels := ds.extendedChannels.insert channelId c
            groupChannelIds := channelId :: ds.groupChannelIds }
          let s := { s with
            downstream := s.downstream.insert d ds
            jobToTemplateId := s.jobToTemplateId.insert (d, channelId, jobId) t.templateId }
          .ok (s.send
            [.downstream d (.openExtendedMiningChannelSuccess req.requestId channelId
              extranoncePrefix rollable.toNat),
             .downstream d (.newExtendedMiningJob channelId jobId),
             .downstream d (.setNewPrevHash channelId jobId p)])

/-- `(full_extranonce_size - extranonce_prefix.len()) as u16`, in `usize` arithmetic. -/
def rollableSize (full len : Nat) : UInt16 := UInt16.ofNat ((full + 2 ^ 64 - len) % 2 ^ 64)

def handleOpenExtendedMiningChannel (s : ChannelManager) (d : DownstreamId) (req : OpenRequest)
    (ans : OpenAnswers) : Except Fault ChannelManager :=
  match s.lastFutureTemplate with
  | none => .error (.disconnect d)
  | some t => match s.lastNewPrevHash with
    | none => .error (.disconnect d)
    | some p => match s.downstream.lookup d with
      | none => .error (.disconnect d)
      | some ds =>
        if ds.requireStdJob then
          .ok (s.refuseOpen d ds req .extendedChannelsNotSupportedForStandardJobs)
        else
          let channelId := ds.channelIdFactory
          let ds := { ds with channelIdFactory := ds.channelIdFactory + 1 }
          match ans.allocation with
          | .fault => .error .shutdown
          | .refused code => .ok (s.refuseOpen d ds req (.channel code))
          | .allocated extranoncePrefix =>
            let rollable := rollableSize s.fullExtranonceSize extranoncePrefix.length
            match ans.construction with
            | .refused code => .ok (s.refuseOpen d ds req (.channel code))
            | .fault => .error (.disconnect d)
            | .built =>
              s.registerExtendedChannel d ds req channelId extranoncePrefix rollable t p ans

def handleOpen (s : ChannelManager) (r : PendingRequest) (ans : OpenAnswers) :
    Except Fault ChannelManager :=
  match r.request.kind with
  | .standard => s.handleOpenStandardMiningChannel r.downstreamId r.request ans
  | .extended _ => s.handleOpenExtendedMiningChannel r.downstreamId r.request ans

/-- Whether the rollable size of a channel that is opened leaves its type; only recorded. -/
def recordRollableSize (s : ChannelManager) (r : PendingRequest) (ans : OpenAnswers) :
    ChannelManager :=
  match r.request.kind, ans.allocation with
  | .extended _, .allocated extranoncePrefix =>
    { s with sizeWrapped := s.sizeWrapped || s.fullExtranonceSize < extranoncePrefix.length ||
        2 ^ 16 ≤ s.fullExtranonceSize - extranoncePrefix.length }
  | _, _ => s

/-- The rollable size to ask the pool for: `usize` and `u16` arithmetic. -/
def upstreamMinExtranonceSize (env : Env) : OpenKind → UInt16
  | .standard => 2 + env.reservedDownstreamRollableExtranonceSize.toUInt16
  | .extended m =>
    UInt16.ofNat (localPrefixBytes + max env.reservedDownstreamRollableExtranonceSize.toNat m.toNat)

def upstreamMinExtranonceSizeWraps (env : Env) : OpenKind → Bool
  | .standard => false
  | .extended m =>
    2 ^ 16 ≤ localPrefixBytes + max env.reservedDownstreamRollableExtranonceSize.toNat m.toNat

/-- An open request that does not have to wait. -/
def handleOpenNow (s : ChannelManager) (r : PendingRequest) (ans : OpenAnswers) : ChannelManager :=
  let s := s.recordRollableSize r ans
  s.conclude (s.handleOpen r ans)

/-- An open request in `handle_downstream_message`. -/
def handleDownstreamOpen (env : Env) (s : ChannelManager) (r : PendingRequest)
    (ans : OpenAnswers) : ChannelManager :=
  let s := { s with openRequests := r :: s.openRequests }
  match s.upstreamState with
  | .noChannel =>
    { s with
      pendingDownstreamRequests := r :: s.pendingDownstreamRequests
      upstreamState := .pending
      sizeWrapped := s.sizeWrapped || upstreamMinExtranonceSizeWraps env r.request.kind
      sent := .openExtendedMiningChannel (upstreamMinExtranonceSize env r.request.kind) :: s.sent }
  | .pending => { s with pendingDownstreamRequests := s.pendingDownstreamRequests ++ [r] }
  | .connected => s.handleOpenNow r ans
  | .soloMining => s.handleOpenNow r ans

/-- `handle_close_channel` of a miner. -/
def handleCloseChannel (s : ChannelManager) (d : DownstreamId) (channelId : ChannelId) :
    Except Fault ChannelManager :=
  match s.downstream.lookup d with
  | none => .error (.disconnect d)
  | some ds =>
    .ok { s with downstream := s.downstream.insert d { ds with
      groupChannelIds := ds.groupChannelIds.filter (· ≠ channelId)
      extendedChannels := ds.extendedChannels.erase channelId
      standardChannels := ds.standardChannels.erase channelId } }

/-! ## Shares -/

/-- The target of a share that the miner's channel accepts. -/
def acceptedTarget : ShareAnswer → Option Nat
  | .valid target _ => some target
  | .blockFound target _ => some target
  | .invalid _ => none
  | .budgetExhausted => none

/-- What the miner and the template provider are told. -/
def shareMessages (d : DownstreamId) (channelId : ChannelId) : ShareAnswer → List Message
  | .valid _ acknowledge =>
    if acknowledge then [.downstream d (.submitSharesSuccess channelId)] else []
  | .blockFound _ templateId =>
    templateId.toList.map Message.submitSolution ++ [.downstream d (.submitSharesSuccess channelId)]
  | .invalid code => [.downstream d (.submitSharesError channelId code)]
  | .budgetExhausted => []

/-- The channel to the pool validates a share; `push` is the extranonce for the solution. -/
def validateUpstream (s : ChannelManager) (p : SetNewPrevHash) (u : UpstreamChannel)
    (share : UpstreamShare) (accepted : AcceptedShare) (validatedWith push : Bytes) (oversizedPush : Fault)
    (ans : UpstreamShareAnswer) : Except Fault ChannelManager :=
  match u.jobs.lookup share.jobId, ans with
  | some jobPrefix, .valid =>
    .ok ({ s with
      forwarded := ⟨validatedWith, jobPrefix, share.extranonce, none⟩ :: s.forwarded
      validations := ⟨accepted, share.jobId, true⟩ :: s.validations }.send
        [.submitSharesExtended share])
  | some jobPrefix, .blockFound =>
    if maxExtranonceLen < push.length then .error oversizedPush
    else .ok ({ s with
      forwarded := ⟨validatedWith, jobPrefix, share.extranonce, some push⟩ :: s.forwarded
      validations := ⟨accepted, share.jobId, true⟩ :: s.validations }.send
        [.pushSolution push p, .submitSharesExtended share])
  | _, _ => .ok { s with validations := ⟨accepted, share.jobId, false⟩ :: s.validations }

/-- What the two kinds of shares differ in: the bytes that the miner rolled, the error of an
    extranonce that is too long, and how the extranonce of a solution is put together. -/
structure ShareKind where
  rolled : Bytes
  oversized : Fault
  solutionExtranonce : Channel → UpstreamChannel → Bytes → Bytes

/-- A share that the miner's channel has accepted for `job` goes to the pool, or waits until the
    pool has acknowledged the job of its template. -/
def forwardShare (s : ChannelManager) (kind : ShareKind) (p : SetNewPrevHash)
    (key : DownstreamId × ChannelId × JobId) (c : Channel) (job : ChannelJob) (target : Nat)
    (ans : UpstreamShareAnswer) : Except Fault ChannelManager :=
  match s.upstreamChannel with
  | none => .ok s
  | some u =>
    -- the slice `extranonce_prefix[upstream_extranonce_prefix.len()..]`
    if c.extranoncePrefix.length < u.extranoncePrefix.length then .error .panic
    else
      let extranonce := c.extranoncePrefix.drop u.extranoncePrefix.length ++ kind.rolled
      let validatedWith := job.extranoncePrefix ++ kind.rolled
      if maxExtranonceLen < extranonce.length then .error kind.oversized
      else
        let accepted : AcceptedShare := ⟨s.acceptedShares.length, job.template.templateId⟩
        let s := { s with acceptedShares := accepted :: s.acceptedShares }
        match s.jobToTemplateId.lookup key with
        | none => .ok s
        | some templateId => match s.templateIdToUpstreamJobId.lookup templateId with
          | some upstreamJobId =>
            s.validateUpstream p u ⟨u.channelId, upstreamJobId, extranonce⟩ accepted validatedWith
              (kind.solutionExtranonce c u extranonce) .shutdown ans
          | none =>
            let entry : CachedShare :=
              ⟨⟨u.channelId, 0, extranonce⟩, target, validatedWith, u.extranoncePrefix, accepted⟩
            let cached := (s.cachedShares.lookup templateId).getD []
            .ok { s with
              cachedShares := s.cachedShares.insert templateId (addShareToCache cached entry) }

def handleSubmitShares (s : ChannelManager) (kind : ShareKind) (d : DownstreamId)
    (channels : Downstream → KeyMap ChannelId Channel) (channelId : ChannelId) (jobId : JobId)
    (ans : ShareAnswer) (upstream : UpstreamShareAnswer) : Except Fault ChannelManager :=
  match s.lastNewPrevHash with
  | none => .error (.disconnect d)
  | some p => match s.downstream.lookup d with
    | none => .error (.disconnect d)
    | some ds => match (channels ds).lookup channelId with
      | none => .ok (s.send [.downstream d (.submitSharesError channelId "invalid-channel-id")])
      | some c => match acceptedTarget ans with
        | none =>
          if ans = .budgetExhausted then .error (.disconnect d)
          else .ok (s.send (shareMessages d channelId ans))
        | some target => match c.liveJob jobId with
          -- no channel accepts a share for a job that it does not have, or that is stale
          | none => .ok s
          | some job =>
            (s.send (shareMessages d channelId ans)).forwardShare kind p (d, channelId, jobId) c job
              target upstream

/-- The prefix of a standard channel is the full extranonce. -/
def handleSubmitSharesStandard (s : ChannelManager) (d : DownstreamId) (channelId : ChannelId)
    (jobId : JobId) (ans : ShareAnswer) (upstream : UpstreamShareAnswer) :
    Except Fault ChannelManager :=
  s.handleSubmitShares ⟨[], .shutdown, fun c _ _ => c.extranoncePrefix⟩ d
    Downstream.standardChannels channelId jobId ans upstream

def handleSubmitSharesExtended (s : ChannelManager) (d : DownstreamId) (channelId : ChannelId)
    (jobId : JobId) (extranonce : B032) (ans : ShareAnswer) (upstream : UpstreamShareAnswer) :
    Except Fault ChannelManager :=
  s.handleSubmitShares
    ⟨extranonce.val, .disconnect d, fun _ u extranonce => u.extranoncePrefix ++ extranonce⟩ d
    Downstream.extendedChannels channelId jobId ans upstream

end ChannelManager

end Sv2Apps.Jdc
