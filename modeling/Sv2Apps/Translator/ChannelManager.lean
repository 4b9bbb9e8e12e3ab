/-
  Translator/ChannelManager.lean
  ==============================
  **The channel manager of the translator** — `translator/src/lib/sv2/channel_manager`: it opens
  extended channels upstream for the miners that the `Sv1Server` accepts, keeps a channel for
  each of them, passes jobs on to the `Sv1Server` and shares to the upstream.

  In non-aggregated mode every miner has an upstream channel of its own.  In aggregated mode one
  upstream channel, kept under `aggregatedChannelId`, is divided among the miners: the allocator
  gives each of them a part of the extranonce.

  Both loops of the manager run in one task and its queues are unbounded, so that a handler is
  one step.  An error that asks for a fallback or a shutdown ends the loop, and what the handler
  had changed by then is kept for `handle_set_group_channel` only; an error that is only logged
  comes before a handler changes anything.  Maps are iterated in the order of their entries, and `Action.touch`
  makes that order arbitrary.  Hashrates, extensions and share accounting are left out.
-/
import Sv2Apps.Translator.Channels
import Sv2Apps.Lib.Fallible
import Sv2Apps.Lib.Runs

namespace Sv2Apps.Translator

open Bitcoin Fallible

inductive TproxyMode where
  | aggregated
  | nonAggregated
deriving DecidableEq

/-! ## Errors -/

inductive ErrorAction where
  | log
  | fallback
  | shutdown
  /-- An `unwrap`, `expect` or slice that panics. -/
  | panic
deriving DecidableEq

/-- The lookup that failed where the source says `ChannelNotFound`. -/
inductive Missing where
  | channel
  | member
  | group
  | groupSize
  | aggregate
  | advertisedPrefix
deriving DecidableEq

inductive ErrorKind where
  | pendingChannelNotFound (requestId : RequestId)
  | channelIdAlreadyInUse (channelId : ChannelId)
  | failedToAddChannelIdToGroupChannel
  | openMiningChannelError
  | channelNotFound (missing : Missing)
  | aggregatedChannelClosed
  | invalidExtranonceSize (prefixLen : Nat) (rollableSize : UInt16)
  | missingAggregatedExtranonceAllocator
  | aggregatedExtranonceAllocatorUpdateFailed
  | upstreamExtranoncePrefixUpdateFailed (channelId : ChannelId)
  | versionRollingNotAllowed
  | payoutVerificationFailed
  | failedToProcessNewExtendedMiningJob
  | failedToProcessSetNewPrevHash
  | failedToProcessSetTarget
  | binarySv2
  | panicked
deriving DecidableEq

structure TproxyError where
  action : ErrorAction
  kind : ErrorKind
deriving DecidableEq

def TproxyError.log (kind : ErrorKind) : TproxyError := ⟨.log, kind⟩
def TproxyError.fallback (kind : ErrorKind) : TproxyError := ⟨.fallback, kind⟩
def TproxyError.shutdown (kind : ErrorKind) : TproxyError := ⟨.shutdown, kind⟩
def TproxyError.panicked : TproxyError := ⟨.panic, .panicked⟩

/-! ## Messages -/

structure OpenExtendedMiningChannel where
  requestId : RequestId
  userIdentity : Identity
  minExtranonceSize : UInt16
deriving DecidableEq

structure OpenExtendedMiningChannelSuccess where
  requestId : RequestId
  channelId : ChannelId
  target : Target
  extranonceSize : UInt16
  extranoncePrefix : B032
  groupChannelId : ChannelId
deriving DecidableEq

inductive OpenMiningChannelErrorCode where
  | channelCapacityExhausted
  | unsupportedMinExtranonceSize
deriving DecidableEq

/-- The queue to the `Sv1Server`. -/
inductive Sv1Message where
  | openExtendedMiningChannelSuccess (m : OpenExtendedMiningChannelSuccess)
  | openMiningChannelError (requestId : RequestId) (code : OpenMiningChannelErrorCode)
  | setExtranoncePrefix (channelId : ChannelId) (extranoncePrefix : B032)
  | newExtendedMiningJob (m : NewExtendedMiningJob)
  | setNewPrevHash (m : SetNewPrevHash)
  | setTarget (channelId : ChannelId) (target : Target)
  | closeChannel (channelId : ChannelId)
deriving DecidableEq

/-- The queue to the upstream. -/
inductive UpstreamMessage where
  | openExtendedMiningChannel (m : OpenExtendedMiningChannel)
  | submitSharesExtended (m : SubmitSharesExtended)
  | closeChannel (channelId : ChannelId)
deriving DecidableEq

/-! ## State -/

inductive AggregatedState where
  | noChannel
  | pending
  | connected
deriving DecidableEq

/-- A downstream that waits for its channel. -/
structure PendingChannel where
  userIdentity : Identity
  downstreamExtranonceLen : Nat
deriving DecidableEq

/-- The configuration; `verifyPayout` stands for `validate_coinbase_tx_parts` of the expected
    payout distribution on a coinbase prefix, suffix and full extranonce size. -/
structure Config where
  mode : TproxyMode
  maxPastJobs : Option Nat
  verifyPayout : Bytes → Bytes → Nat → Bool

structure ChannelManager (Ch Gr Al : Type) where
  pendingDownstreamChannels : KeyMap RequestId PendingChannel
  extendedChannels : KeyMap ChannelId Ch
  sv1AdvertisedExtranoncePrefixes : KeyMap ChannelId Bytes
  groupChannels : KeyMap ChannelId Gr
  shareSequenceCounters : KeyMap ChannelId UInt32
  aggregatedExtranonceAllocator : Option Al
  aggregatedChannelState : AggregatedState
  toSv1Server : List Sv1Message
  toUpstream : List UpstreamMessage
  stopped : Option TproxyError

def aggregatedTproxyMaxChannels : UInt32 := 65536
def nonAggregatedTproxyMaxChannels : UInt32 := 1

namespace ChannelManager

variable {Ch Gr Al : Type}

def start : ChannelManager Ch Gr Al := ⟨∅, ∅, ∅, ∅, ∅, none, .noChannel, [], [], none⟩

def sendSv1 (s : ChannelManager Ch Gr Al) (m : Sv1Message) : ChannelManager Ch Gr Al :=
  { s with toSv1Server := s.toSv1Server ++ [m] }

def sendUpstream (s : ChannelManager Ch Gr Al) (m : UpstreamMessage) : ChannelManager Ch Gr Al :=
  { s with toUpstream := s.toUpstream ++ [m] }

def setChannel (s : ChannelManager Ch Gr Al) (channelId : ChannelId) (c : Ch) :
    ChannelManager Ch Gr Al :=
  { s with extendedChannels := s.extendedChannels.insert channelId c }

/-- A handler that fails: only a log-only error leaves the loop running. -/
def fail (s : ChannelManager Ch Gr Al) (e : TproxyError) : ChannelManager Ch Gr Al :=
  if e.action = .log then s else { s with stopped := some e }

section Handlers

variable (api : ClientChannels Ch Gr Al) (cfg : Config)

/-! ## Jobs to the `Sv1Server` -/

/-- The prefix that a channel captured with the job that is forwarded, if it is active there. -/
def activeJobPrefix (c : Ch) (m : NewExtendedMiningJob) : Option Bytes :=
  match api.getActiveJob c with
  | some job => if job.message.jobId = m.jobId then some job.extranoncePrefix else none
  | none => none

/-- The prefixes of all downstream channels; `none` if the job is not active in one of them. -/
def collectPrefixes (m : NewExtendedMiningJob) :
    List (Σ _ : ChannelId, Ch) → Option (List (ChannelId × Bytes))
  | [] => some []
  | e :: es =>
    if e.1 = aggregatedChannelId then collectPrefixes m es
    else (activeJobPrefix api e.2 m).bind fun b =>
      (collectPrefixes m es).map fun prefixes => (e.1, b) :: prefixes

/-- `active_job_extranonce_prefixes`. -/
def activeJobExtranoncePrefixes (s : ChannelManager Ch Gr Al) (m : NewExtendedMiningJob) :
    Option (List (ChannelId × Bytes)) :=
  if m.channelId = aggregatedChannelId then collectPrefixes api m s.extendedChannels.entries
  else
    (s.extendedChannels.lookup m.channelId).bind fun c =>
      (activeJobPrefix api c m).map fun b => [(m.channelId, b)]

/-- One turn of the loop of `forward_job_to_sv1_server`. -/
def announcePrefix (s : ChannelManager Ch Gr Al) (e : ChannelId × Bytes) :
    Except TproxyError (ChannelManager Ch Gr Al) := do
  let advertised ← orThrow (s.sv1AdvertisedExtranoncePrefixes.lookup e.1)
    (.shutdown (.channelNotFound .advertisedPrefix))
  if advertised = e.2 then return s
  else
    let extranoncePrefix ← orThrow (B032.ofBytes e.2) (.shutdown .binarySv2)
    return { s.sendSv1 (.setExtranoncePrefix e.1 extranoncePrefix) with
      sv1AdvertisedExtranoncePrefixes := s.sv1AdvertisedExtranoncePrefixes.insert e.1 e.2 }

/-- `forward_job_to_sv1_server`. -/
def forwardJobToSv1Server (s : ChannelManager Ch Gr Al) (m : NewExtendedMiningJob) :
    Except TproxyError (ChannelManager Ch Gr Al) := do
  let jobPrefixes ← orThrow (activeJobExtranoncePrefixes api s m)
    (.fallback .failedToProcessNewExtendedMiningJob)
  let s ← jobPrefixes.foldlM announcePrefix s
  return s.sendSv1 (.newExtendedMiningJob m)

/-! ## Channels of the aggregated mode -/

/-- `reject_downstream_channel_request`. -/
def rejectDownstreamChannelRequest (s : ChannelManager Ch Gr Al) (requestId : RequestId)
    (code : OpenMiningChannelErrorCode) : ChannelManager Ch Gr Al :=
  s.sendSv1 (.openMiningChannelError requestId code)

/-- The highest id of a downstream channel, or zero. -/
def highestChannelId (s : ChannelManager Ch Gr Al) : ChannelId :=
  s.extendedChannels.keys.foldl (fun n k => if k = aggregatedChannelId then n else max n k) 0

/-- The first id from 1 on that no channel has, `n` ids being tried. -/
def firstGap (s : ChannelManager Ch Gr Al) : Nat → ChannelId → Option ChannelId
  | 0, _ => none
  | n + 1, k => if (s.extendedChannels.lookup k).isSome then s.firstGap n (k + 1) else some k

/-- The next id above the highest one, or the first gap below the reserved id. -/
def nextChannelId (s : ChannelManager Ch Gr Al) : Option ChannelId :=
  if s.highestChannelId + 1 ≠ aggregatedChannelId then some (s.highestChannelId + 1)
  else s.firstGap (aggregatedChannelId.toNat - 1) 1

/-- `set_upstream_extranonce_prefix` on a channel that is being initialized. -/
def initPrefix (channelId : ChannelId) (c : Ch) (b : Bytes) : Except TproxyError Ch :=
  orThrow (api.setUpstreamExtranoncePrefix c b)
    (.shutdown (.upstreamExtranoncePrefixUpdateFailed channelId))

/-- A job of the shared channel is replayed on a new one. -/
def inheritJob (channelId : ChannelId) (c : Ch) (job : ExtendedJob) : Except TproxyError Ch := do
  let c ← initPrefix api channelId c job.extranoncePrefix
  let c ← orThrow (api.setTarget c job.target) (.shutdown .failedToProcessNewExtendedMiningJob)
  orThrow (api.onNewExtendedMiningJob c { job.message with channelId := channelId })
    (.shutdown .failedToProcessNewExtendedMiningJob)

/-- The new channel with the work of the shared one, and the prefix that its miner is told. -/
def inheritWork (aggregate c : Ch) (channelId : ChannelId) : Except TproxyError (Ch × Bytes) := do
  let current := (api.getExtranoncePrefix aggregate).bytes
  let active := api.getActiveJob aggregate
  let c ← initPrefix api channelId c ((active.map ExtendedJob.extranoncePrefix).getD current)
  let successPrefix := (api.getExtranoncePrefix c).bytes
  let c := match api.getChainTip aggregate with
    | some tip => api.setChainTip c tip
    | none => c
  let c ← (active.toList ++ api.getFutureJobs aggregate).foldlM (inheritJob api channelId) c
  let c ← initPrefix api channelId c current
  let c ← orThrow (api.setTarget c (api.getTarget aggregate))
    (.shutdown .failedToProcessNewExtendedMiningJob)
  return (c, successPrefix)

/-- The channel is published, and its miner gets the job that is being mined. -/
def publishChannel (s : ChannelManager Ch Gr Al) (aggregate c : Ch) (channelId : ChannelId)
    (successPrefix : Bytes) (requestId : RequestId) (minExtranonceSize : Nat) :
    Except TproxyError (ChannelManager Ch Gr Al) := do
  let extranoncePrefix ← orThrow (B032.ofBytes successPrefix) (.shutdown .binarySv2)
  let s := (s.setChannel channelId c).sendSv1 (.openExtendedMiningChannelSuccess
    ⟨requestId, channelId, api.getTarget aggregate, UInt16.ofNat minExtranonceSize,
      extranoncePrefix, 0⟩)
  let s := { s with sv1AdvertisedExtranoncePrefixes :=
    s.sv1AdvertisedExtranoncePrefixes.insert channelId successPrefix }
  match api.getActiveJob aggregate with
  | some job => forwardJobToSv1Server api s { job.message with channelId := channelId }
  | none => return s

/-- `handle_downstream_channel_request_in_aggregated_mode`. -/
def handleDownstreamChannelRequest (s : ChannelManager Ch Gr Al) (requestId : RequestId)
    (userIdentity : Identity) (minExtranonceSize : Nat) :
    Except TproxyError (ChannelManager Ch Gr Al) := do
  let aggregate ← orThrow (s.extendedChannels.lookup aggregatedChannelId)
    (.shutdown (.channelNotFound .aggregate))
  let allocator ← orThrow s.aggregatedExtranonceAllocator (.shutdown .openMiningChannelError)
  let fits := decide (api.rollableExtranonceSize allocator = minExtranonceSize)
  match api.allocateExtended allocator minExtranonceSize with
  | none =>
    return s.rejectDownstreamChannelRequest requestId
      (if fits then .channelCapacityExhausted else .unsupportedMinExtranonceSize)
  | some (allocator, extranoncePrefix) =>
    -- a prefix that is not used gives its index back
    let released := { s with
      aggregatedExtranonceAllocator := some (api.release allocator extranoncePrefix) }
    if fits then
      match s.nextChannelId with
      | none => return released.rejectDownstreamChannelRequest requestId .channelCapacityExhausted
      | some channelId =>
        let c ← orThrow (api.newChannel channelId userIdentity extranoncePrefix
          (api.getTarget aggregate) (UInt16.ofNat minExtranonceSize) cfg.maxPastJobs)
          (.shutdown .openMiningChannelError)
        let (c, successPrefix) ← inheritWork api aggregate c channelId
        publishChannel api { s with aggregatedExtranonceAllocator := some allocator } aggregate c
          channelId successPrefix requestId minExtranonceSize
    else return released.rejectDownstreamChannelRequest requestId .unsupportedMinExtranonceSize

/-- `open_pending_aggregated_downstream_channels`. -/
def openPendingAggregatedDownstreamChannels (s : ChannelManager Ch Gr Al) :
    Except TproxyError (ChannelManager Ch Gr Al) :=
  if s.aggregatedChannelState = .connected then
    s.pendingDownstreamChannels.entries.foldlM (fun s e =>
      handleDownstreamChannelRequest api cfg s e.1 e.2.userIdentity e.2.downstreamExtranonceLen)
      { s with pendingDownstreamChannels := ∅ }
  else return s

/-! ## Messages of the upstream -/

/-- `colliding_channel_id`. -/
def collidingChannelId (s : ChannelManager Ch Gr Al) (channelId groupChannelId : ChannelId) :
    Option ChannelId :=
  if channelId = aggregatedChannelId ∨ groupChannelId = aggregatedChannelId then
    some aggregatedChannelId
  else if cfg.mode = .nonAggregated ∧ (s.extendedChannels.lookup groupChannelId).isSome then
    some groupChannelId
  else if channelId = groupChannelId ∨ (cfg.mode = .nonAggregated ∧
      ((s.extendedChannels.lookup channelId).isSome ∨ (s.groupChannels.lookup channelId).isSome)) then
    some channelId
  else none

/-- The channel becomes a member of its group, which may be a new one. -/
def joinGroup (s : ChannelManager Ch Gr Al) (m : OpenExtendedMiningChannelSuccess) :
    Except TproxyError (ChannelManager Ch Gr Al) := do
  let group := (s.groupChannels.lookup m.groupChannelId).getD (api.newGroup m.groupChannelId)
  let group ← orThrow
    (api.addChannelId group m.channelId (m.extranonceSize.toNat + m.extranoncePrefix.1.length))
    (.fallback .failedToAddChannelIdToGroupChannel)
  return { s with groupChannels := s.groupChannels.insert m.groupChannelId group }

/-- An allocator for what the upstream granted: prefix and size, the index and what the miner
    rolls taken off, are padded with zeros.  The total length is computed in eight bits. -/
def buildAllocator (m : OpenExtendedMiningChannelSuccess) (downstreamExtranonceLen : Nat)
    (maxChannels : UInt32) : Except TproxyError (Al × ExtranoncePrefix) := do
  let padding := m.extranonceSize.toNat - api.bytesNeeded maxChannels - downstreamExtranonceLen
  let allocator ← orThrow (api.fromUpstreamPrefix m.extranoncePrefix.1 (List.replicate padding 0)
    (UInt8.ofNat m.extranoncePrefix.1.length + m.extranonceSize.toUInt8) maxChannels)
    (.fallback .openMiningChannelError)
  orThrow (api.allocateExtended allocator downstreamExtranonceLen)
    (.fallback .openMiningChannelError)

/-- The success is passed on; its prefix is what the miner is told. -/
def publishOpenSuccess (s : ChannelManager Ch Gr Al) (success : OpenExtendedMiningChannelSuccess) :
    ChannelManager Ch Gr Al :=
  { s.sendSv1 (.openExtendedMiningChannelSuccess success) with
    sv1AdvertisedExtranoncePrefixes :=
      s.sv1AdvertisedExtranoncePrefixes.insert success.channelId success.extranoncePrefix.1 }

/-- What precedes the first dot, with the name of the proxy; a payout pattern is kept. -/
def aggregatedUpstreamUserIdentity (userIdentity : Identity) : Identity :=
  if userIdentity.startsWith "sri/" then userIdentity
  else String.ofList (userIdentity.toList.takeWhile (· ≠ '.')) ++ ".translator-proxy"

/-- The shared channel and the channel of the first downstream. -/
def openAggregated (s : ChannelManager Ch Gr Al) (m : OpenExtendedMiningChannelSuccess)
    (pending : PendingChannel) :
    Except TproxyError (ChannelManager Ch Gr Al × OpenExtendedMiningChannelSuccess) := do
  let len := pending.downstreamExtranonceLen
  let _ ← require (decide (api.bytesNeeded aggregatedTproxyMaxChannels + len ≤
    m.extranonceSize.toNat)) (.fallback .openMiningChannelError)
  let (allocator, downstreamPrefix) ← buildAllocator api m len aggregatedTproxyMaxChannels
  let upstreamPrefix ← orThrow (ExtranoncePrefix.fromWire (api.getUpstreamPrefix allocator)) .panicked
  let aggregate ← orThrow (api.newChannel m.channelId
    (aggregatedUpstreamUserIdentity pending.userIdentity) upstreamPrefix m.target m.extranonceSize
    cfg.maxPastJobs) (.fallback .openMiningChannelError)
  let c ← orThrow (api.newChannel 1 pending.userIdentity downstreamPrefix m.target
    (UInt16.ofNat len) cfg.maxPastJobs) (.fallback .openMiningChannelError)
  let extranoncePrefix ← orThrow (B032.ofBytes downstreamPrefix.bytes) (.shutdown .binarySv2)
  return ({ (s.setChannel aggregatedChannelId aggregate).setChannel 1 c with
      aggregatedExtranonceAllocator := some allocator
      aggregatedChannelState := .connected },
    { m with channelId := 1, extranoncePrefix := extranoncePrefix, extranonceSize := UInt16.ofNat len })

/-- The prefix of a miner that has an upstream channel of its own. -/
def nonAggregatedPrefix (m : OpenExtendedMiningChannelSuccess) (downstreamExtranonceLen : Nat) :
    Except TproxyError ExtranoncePrefix := do
  if m.extranonceSize.toNat = downstreamExtranonceLen then
    orThrow (ExtranoncePrefix.fromWire m.extranoncePrefix.1) (.shutdown .openMiningChannelError)
  else
    let _ ← require (decide (api.bytesNeeded nonAggregatedTproxyMaxChannels +
      downstreamExtranonceLen ≤ m.extranonceSize.toNat)) (.fallback .openMiningChannelError)
    -- the allocator is dropped after its only prefix
    let (_, extranoncePrefix) ← buildAllocator api m downstreamExtranonceLen
      nonAggregatedTproxyMaxChannels
    return extranoncePrefix

/-- The channel of a downstream that has an upstream channel of its own. -/
def openNonAggregated (s : ChannelManager Ch Gr Al) (m : OpenExtendedMiningChannelSuccess)
    (pending : PendingChannel) :
    Except TproxyError (ChannelManager Ch Gr Al × OpenExtendedMiningChannelSuccess) := do
  let len := pending.downstreamExtranonceLen
  let _ ← require (decide (len ≤ m.extranonceSize.toNat)) (.fallback .openMiningChannelError)
  let downstreamPrefix ← nonAggregatedPrefix api m len
  let c ← orThrow (api.newChannel m.channelId pending.userIdentity downstreamPrefix m.target
    (UInt16.ofNat len) cfg.maxPastJobs) (.fallback .openMiningChannelError)
  let extranoncePrefix ← orThrow (B032.ofBytes downstreamPrefix.bytes) (.shutdown .binarySv2)
  return (s.setChannel m.channelId c,
    { m with extranoncePrefix := extranoncePrefix, extranonceSize := UInt16.ofNat len })

/-- `handle_open_extended_mining_channel_success`. -/
def handleOpenExtendedMiningChannelSuccess (s : ChannelManager Ch Gr Al)
    (m : OpenExtendedMiningChannelSuccess) : Except TproxyError (ChannelManager Ch Gr Al) := do
  let pending ← orThrow (s.pendingDownstreamChannels.lookup m.requestId)
    (.log (.pendingChannelNotFound m.requestId))
  let s := { s with pendingDownstreamChannels := s.pendingDownstreamChannels.erase m.requestId }
  match s.collidingChannelId cfg m.channelId m.groupChannelId with
  | some channelId => throw (.fallback (.channelIdAlreadyInUse channelId))
  | none =>
    let s ← joinGroup api s m
    match cfg.mode with
    | .aggregated =>
      let (s, success) ← openAggregated api cfg s m pending
      openPendingAggregatedDownstreamChannels api cfg (s.publishOpenSuccess success)
    | .nonAggregated =>
      let (s, success) ← openNonAggregated api cfg s m pending
      return s.publishOpenSuccess success

/-- The channel leaves every group. -/
def leaveGroups (s : ChannelManager Ch Gr Al) (channelId : ChannelId) : ChannelManager Ch Gr Al :=
  { s with groupChannels := s.groupChannels.mapValues fun _ g =>
      if channelId ∈ api.getChannelIds g then api.removeChannelId g channelId else g }

/-- The `Sv1Server` is told of a channel that the upstream has closed. -/
def forwardClose (s : ChannelManager Ch Gr Al) (channelId : ChannelId) : ChannelManager Ch Gr Al :=
  { s.sendSv1 (.closeChannel channelId) with
    sv1AdvertisedExtranoncePrefixes := s.sv1AdvertisedExtranoncePrefixes.erase channelId }

/-- `handle_close_channel`. -/
def handleCloseChannel (s : ChannelManager Ch Gr Al) (channelId : ChannelId) :
    Except TproxyError (ChannelManager Ch Gr Al) :=
  if cfg.mode = .aggregated then .error (.fallback .aggregatedChannelClosed)
  else match s.groupChannels.lookup channelId with
  | some group =>
    let members := api.getChannelIds group
    let s := { s with
      groupChannels := s.groupChannels.erase channelId
      extendedChannels := members.foldl (fun m k => m.erase k) s.extendedChannels }
    .ok (members.foldl forwardClose s)
  | none =>
    match s.extendedChannels.lookup channelId with
    | some _ =>
      .ok ((leaveGroups api { s with extendedChannels := s.extendedChannels.erase channelId }
        channelId).forwardClose channelId)
    | none => .error (.log (.channelNotFound .channel))

/-- The upstream part of the prefix of every downstream channel is replaced. -/
def updateDownstreamPrefixes (s : ChannelManager Ch Gr Al) (b : Bytes) :
    Except TproxyError (ChannelManager Ch Gr Al) := do
  let channels ← s.extendedChannels.tryMap fun channelId c =>
    if channelId = aggregatedChannelId then .ok c else initPrefix api channelId c b
  return { s with extendedChannels := channels }

/-- `handle_set_extranonce_prefix`. -/
def handleSetExtranoncePrefix (s : ChannelManager Ch Gr Al) (channelId : ChannelId) (b : B032) :
    Except TproxyError (ChannelManager Ch Gr Al) := do
  match cfg.mode with
  | .aggregated =>
    let aggregate ← orThrow (s.extendedChannels.lookup aggregatedChannelId)
      (.shutdown (.channelNotFound .aggregate))
    let _ ← require (decide (channelId = api.getChannelId aggregate))
      (.log (.channelNotFound .channel))
    let size := api.getRollableExtranonceSize aggregate
    let _ ← require (decide (b.1.length + size.toNat ≤ 32))
      (.fallback (.invalidExtranonceSize b.1.length size))
    let allocator ← orThrow s.aggregatedExtranonceAllocator
      (.shutdown .missingAggregatedExtranonceAllocator)
    let allocator ← orThrow (api.setUpstreamPrefix allocator b.1)
      (.fallback .aggregatedExtranonceAllocatorUpdateFailed)
    let aggregate ← orThrow (api.setUpstreamExtranoncePrefix aggregate b.1)
      (.fallback (.upstreamExtranoncePrefixUpdateFailed (api.getChannelId aggregate)))
    updateDownstreamPrefixes api { s.setChannel aggregatedChannelId aggregate with
      aggregatedExtranonceAllocator := some allocator } b.1
  | .nonAggregated =>
    let c ← orThrow (s.extendedChannels.lookup channelId) (.log (.channelNotFound .channel))
    let c ← orThrow (api.setUpstreamExtranoncePrefix c b.1)
      (.fallback (.upstreamExtranoncePrefixUpdateFailed channelId))
    return s.setChannel channelId c

/-- `verify_payout_distribution`. -/
def verifyPayoutDistribution (m : NewExtendedMiningJob) (fullExtranonceSize : Nat) :
    Except TproxyError Unit :=
  require (cfg.verifyPayout m.coinbaseTxPrefix m.coinbaseTxSuffix fullExtranonceSize)
    (.fallback .payoutVerificationFailed)

/-- The shared channel, if the message is for it or for its group. -/
def addressedAggregate (s : ChannelManager Ch Gr Al) (channelId : ChannelId) :
    Except TproxyError Ch := do
  let aggregate ← orThrow (s.extendedChannels.lookup aggregatedChannelId)
    (.fallback (.channelNotFound .aggregate))
  let groupChannelId ← orThrow s.groupChannels.keys.head? (.fallback (.channelNotFound .group))
  let _ ← require (decide (api.getChannelId aggregate = channelId ∨ groupChannelId = channelId))
    (.log (.channelNotFound .channel))
  return aggregate

/-- `on_new_extended_mining_job`. -/
def giveJob (c : Ch) (m : NewExtendedMiningJob) : Except TproxyError Ch :=
  orThrow (api.onNewExtendedMiningJob c m) (.fallback .failedToProcessNewExtendedMiningJob)

/-- `on_set_new_prev_hash`. -/
def givePrevHash (c : Ch) (m : SetNewPrevHash) : Except TproxyError Ch :=
  orThrow (api.onSetNewPrevHash c m) (.fallback .failedToProcessSetNewPrevHash)

def giveTarget (c : Ch) (target : Target) : Except TproxyError Ch :=
  orThrow (api.setTarget c target) (.fallback .failedToProcessSetTarget)

/-- The member of a group that the loop of a group message has come to. -/
def member (s : ChannelManager Ch Gr Al) (channelId : ChannelId) : Except TproxyError Ch :=
  orThrow (s.extendedChannels.lookup channelId) (.fallback (.channelNotFound .member))

/-- A job for a group, given to one of its members. -/
def memberJob (m : NewExtendedMiningJob) (r : ChannelManager Ch Gr Al × List NewExtendedMiningJob)
    (channelId : ChannelId) :
    Except TproxyError (ChannelManager Ch Gr Al × List NewExtendedMiningJob) := do
  let c ← r.1.member channelId
  let job := { m with channelId := channelId }
  let c ← giveJob api c job
  return (r.1.setChannel channelId c, if job.isFuture then r.2 else r.2 ++ [job])

/-- `handle_new_extended_mining_job`. -/
def handleNewExtendedMiningJob (s : ChannelManager Ch Gr Al) (m : NewExtendedMiningJob) :
    Except TproxyError (ChannelManager Ch Gr Al) := do
  let _ ← require m.versionRollingAllowed (.fallback .versionRollingNotAllowed)
  match cfg.mode with
  | .aggregated =>
    let aggregate ← addressedAggregate api s m.channelId
    let _ ← verifyPayoutDistribution cfg m (api.getFullExtranonceSize aggregate)
    let channels ← s.extendedChannels.tryMap fun _ c => giveJob api c m
    let s := { s with extendedChannels := channels }
    if m.isFuture then return s
    else forwardJobToSv1Server api s { m with channelId := aggregatedChannelId }
  | .nonAggregated =>
    match s.groupChannels.lookup m.channelId with
    | some group =>
      let size ← orThrow (api.getGroupExtranonceSize group) (.fallback (.channelNotFound .groupSize))
      let _ ← verifyPayoutDistribution cfg m size
      let group := api.onGroupJob group m
      let (s, messages) ← (api.getChannelIds group).foldlM (memberJob api m)
        ({ s with groupChannels := s.groupChannels.insert m.channelId group }, [])
      messages.foldlM (forwardJobToSv1Server api) s
    | none =>
      let c ← orThrow (s.extendedChannels.lookup m.channelId) (.log (.channelNotFound .channel))
      let _ ← verifyPayoutDistribution cfg m (api.getFullExtranonceSize c)
      let c ← giveJob api c m
      let s := s.setChannel m.channelId c
      if m.isFuture then return s else forwardJobToSv1Server api s m

/-- `get_active_job().expect(..)` after a prev-hash. -/
def activeJobMessage (c : Ch) : Except TproxyError NewExtendedMiningJob :=
  orThrow ((api.getActiveJob c).map ExtendedJob.message) .panicked

/-- A prev-hash for a group, given to one of its members. -/
def memberPrevHash (m : SetNewPrevHash)
    (r : ChannelManager Ch Gr Al × List SetNewPrevHash × List NewExtendedMiningJob)
    (channelId : ChannelId) :
    Except TproxyError (ChannelManager Ch Gr Al × List SetNewPrevHash × List NewExtendedMiningJob) := do
  let c ← r.1.member channelId
  let c ← givePrevHash api c m
  let job ← activeJobMessage api c
  return (r.1.setChannel channelId c, r.2.1 ++ [{ m with channelId := channelId }], r.2.2 ++ [job])

/-- The prev-hashes first, then the jobs that they activate. -/
def forwardPrevHashes (s : ChannelManager Ch Gr Al) (prevHashes : List SetNewPrevHash)
    (jobs : List NewExtendedMiningJob) : Except TproxyError (ChannelManager Ch Gr Al) :=
  jobs.foldlM (forwardJobToSv1Server api) (prevHashes.foldl (fun s p => s.sendSv1 (.setNewPrevHash p)) s)

/-- `handle_set_new_prev_hash`. -/
def handleSetNewPrevHash (s : ChannelManager Ch Gr Al) (m : SetNewPrevHash) :
    Except TproxyError (ChannelManager Ch Gr Al) := do
  match cfg.mode with
  | .aggregated =>
    let _ ← addressedAggregate api s m.channelId
    let channels ← s.extendedChannels.tryMap fun _ c => givePrevHash api c m
    let aggregate ← orThrow (channels.lookup aggregatedChannelId) .panicked
    let job ← activeJobMessage api aggregate
    forwardPrevHashes api { s with extendedChannels := channels }
      [{ m with channelId := aggregatedChannelId }] [{ job with channelId := aggregatedChannelId }]
  | .nonAggregated =>
    match s.groupChannels.lookup m.channelId with
    | some group =>
      let group ← orThrow (api.onGroupPrevHash group m) (.fallback .failedToProcessSetNewPrevHash)
      let (s, prevHashes, jobs) ← (api.getChannelIds group).foldlM (memberPrevHash api m)
        ({ s with groupChannels := s.groupChannels.insert m.channelId group }, [], [])
      forwardPrevHashes api s prevHashes jobs
    | none =>
      let c ← orThrow (s.extendedChannels.lookup m.channelId) (.log (.channelNotFound .channel))
      let c ← givePrevHash api c m
      let job ← activeJobMessage api c
      forwardPrevHashes api (s.setChannel m.channelId c) [m] [job]

/-- A target for a group, given to one of its members. -/
def memberTarget (target : Target) (s : ChannelManager Ch Gr Al) (channelId : ChannelId) :
    Except TproxyError (ChannelManager Ch Gr Al) := do
  let c ← s.member channelId
  let c ← giveTarget api c target
  return s.setChannel channelId c

/-- `handle_set_target`. -/
def handleSetTarget (s : ChannelManager Ch Gr Al) (channelId : ChannelId) (target : Target) :
    Except TproxyError (ChannelManager Ch Gr Al) := do
  match cfg.mode with
  | .aggregated =>
    let _ ← addressedAggregate api s channelId
    let channels ← s.extendedChannels.tryMap fun _ c => giveTarget api c target
    return { s with extendedChannels := channels }.sendSv1 (.setTarget aggregatedChannelId target)
  | .nonAggregated =>
    match s.groupChannels.lookup channelId with
    | some group =>
      let members := api.getChannelIds group
      let s ← members.foldlM (memberTarget api target) s
      return members.foldl (fun s k => s.sendSv1 (.setTarget k target)) s
    | none =>
      let c ← orThrow (s.extendedChannels.lookup channelId) (.log (.channelNotFound .channel))
      let c ← giveTarget api c target
      return (s.setChannel channelId c).sendSv1 (.setTarget channelId target)

/-- The full extranonce size of a channel that becomes a member of a group. -/
def memberSize (s : ChannelManager Ch Gr Al) (aggregate : Option Ch) (channelId : ChannelId) :
    Except TproxyError Nat :=
  match aggregate with
  | some c =>
    if channelId = api.getChannelId c then .ok (api.getFullExtranonceSize c)
    else .error (.fallback (.channelNotFound .channel))
  | none => orThrow ((s.extendedChannels.lookup channelId).map api.getFullExtranonceSize)
      (.fallback (.channelNotFound .channel))

/-- The group that replaces the old one, each member being checked. -/
def addMember (s : ChannelManager Ch Gr Al) (aggregate : Option Ch) (group : Gr)
    (channelId : ChannelId) : Except TproxyError Gr := do
  let _ ← require (decide (channelId ≠ aggregatedChannelId))
    (.fallback (.channelIdAlreadyInUse aggregatedChannelId))
  let size ← memberSize api s aggregate channelId
  orThrow (api.addChannelId group channelId size) (.fallback .failedToAddChannelIdToGroupChannel)

/-- The channels leave their groups, and groups without members go. -/
def regroup (s : ChannelManager Ch Gr Al) (channelIds : List ChannelId) : KeyMap ChannelId Gr :=
  (s.groupChannels.mapValues fun _ g => channelIds.foldl api.removeChannelId g).retain
    fun _ g => !(api.getChannelIds g).isEmpty

/-- The id of a group must not be that of a channel; in aggregated mode the only channel that
    the upstream knows is the shared one. -/
def groupedAggregate (s : ChannelManager Ch Gr Al) (groupChannelId : ChannelId) :
    Except TproxyError (Option Ch) := do
  match cfg.mode with
  | .aggregated =>
    let c ← orThrow (s.extendedChannels.lookup aggregatedChannelId)
      (.fallback (.channelNotFound .aggregate))
    let _ ← require (decide (groupChannelId ≠ api.getChannelId c))
      (.fallback (.channelIdAlreadyInUse (api.getChannelId c)))
    return some c
  | .nonAggregated =>
    let _ ← require (s.extendedChannels.lookup groupChannelId).isNone
      (.fallback (.channelIdAlreadyInUse groupChannelId))
    return none

def setGroups (s : ChannelManager Ch Gr Al) (groups : KeyMap ChannelId Gr) :
    ChannelManager Ch Gr Al :=
  { s with groupChannels := groups }

/-- `handle_set_group_channel`, which keeps what it has changed when it fails. -/
def handleSetGroupChannel (groupChannelId : ChannelId) (channelIds : List ChannelId) :
    EStateM TproxyError (ChannelManager Ch Gr Al) Unit := do
  let _ ← reading fun _ => require (decide (groupChannelId ≠ aggregatedChannelId))
    (.fallback (.channelIdAlreadyInUse groupChannelId))
  let aggregate ← reading fun s => groupedAggregate api cfg s groupChannelId
  let group ← channelIds.foldlM (fun group channelId => reading fun s =>
    addMember api s aggregate group channelId) (api.newGroup groupChannelId)
  -- from here on nothing fails
  modify fun s => s.setGroups (regroup api s channelIds)
  modify fun s => s.setGroups (s.groupChannels.erase groupChannelId)
  if channelIds.isEmpty then pure ()
  else modify fun s => s.setGroups (s.groupChannels.insert groupChannelId group)

/-! ## Messages of the `Sv1Server` -/

/-- `OpenExtendedMiningChannel` is sent upstream. -/
def requestUpstreamChannel (s : ChannelManager Ch Gr Al) (m : OpenExtendedMiningChannel) :
    ChannelManager Ch Gr Al :=
  s.sendUpstream (.openExtendedMiningChannel m)

/-- `OpenExtendedMiningChannel` of the `Sv1Server`. -/
def handleOpenExtendedMiningChannel (s : ChannelManager Ch Gr Al) (m : OpenExtendedMiningChannel) :
    Except TproxyError (ChannelManager Ch Gr Al) := do
  let waiting := { s with pendingDownstreamChannels :=
    s.pendingDownstreamChannels.insert m.requestId ⟨m.userIdentity, m.minExtranonceSize.toNat⟩ }
  match cfg.mode, s.aggregatedChannelState with
  | .aggregated, .connected =>
    handleDownstreamChannelRequest api cfg s m.requestId m.userIdentity m.minExtranonceSize.toNat
  | .aggregated, .pending => return waiting
  | .aggregated, .noChannel =>
    let userIdentity := aggregatedUpstreamUserIdentity m.userIdentity
    let _ ← require (decide (userIdentity.utf8ByteSize ≤ 255)) .panicked
    return { waiting with aggregatedChannelState := .pending }.requestUpstreamChannel
      { m with
        userIdentity := userIdentity
        minExtranonceSize := UInt16.ofNat
          (m.minExtranonceSize.toNat + api.bytesNeeded aggregatedTproxyMaxChannels) }
  | .nonAggregated, _ => return waiting.requestUpstreamChannel m

/-- `next_share_sequence_number`. -/
def nextShareSequenceNumber (s : ChannelManager Ch Gr Al) (key : ChannelId) :
    ChannelManager Ch Gr Al × UInt32 :=
  let n := (s.shareSequenceCounters.lookup key).getD 0 + 1
  ({ s with shareSequenceCounters := s.shareSequenceCounters.insert key n }, n)

/-- The local part of a prefix, cut at `len`, in front of what the miner rolled; the slice panics
    when the prefix is shorter. -/
def rewriteExtranonce (extranoncePrefix : Bytes) (len : Nat) (extranonce : B032) :
    Except TproxyError B032 := do
  let _ ← require (decide (len ≤ extranoncePrefix.length)) .panicked
  orThrow (B032.ofBytes (extranoncePrefix.drop len ++ extranonce.1)) (.shutdown .binarySv2)

/-- A share that is forwarded gets the next number of its upstream channel. -/
def forwardShare (s : ChannelManager Ch Gr Al) (m : SubmitSharesExtended) :
    ChannelManager Ch Gr Al :=
  let (s, n) := s.nextShareSequenceNumber m.channelId
  s.sendUpstream (.submitSharesExtended { m with sequenceNumber := n })

/-- What the shared channel sees as the extranonce of a miner's share. -/
def aggregatedExtranonce (s : ChannelManager Ch Gr Al) (m : SubmitSharesExtended) :
    Except TproxyError B032 :=
  match s.extendedChannels.lookup m.channelId, s.aggregatedExtranonceAllocator with
  | some c, some allocator => rewriteExtranonce (api.getExtranoncePrefix c).bytes
      (api.getUpstreamPrefix allocator).length m.extranonce
  | _, _ => .ok m.extranonce

/-- `SubmitSharesExtended` of the `Sv1Server`. -/
def handleSubmitSharesExtended (s : ChannelManager Ch Gr Al) (m : SubmitSharesExtended) :
    Except TproxyError (ChannelManager Ch Gr Al) := do
  match cfg.mode, s.extendedChannels.lookup aggregatedChannelId with
  | .aggregated, some aggregate =>
    let extranonce ← aggregatedExtranonce api s m
    let share := { m with extranonce := extranonce, channelId := api.getChannelId aggregate }
    let (outcome, aggregate) := api.validateShare aggregate share
    let s := s.setChannel aggregatedChannelId aggregate
    if outcome = .valid then return s.forwardShare share else return s
  | _, _ =>
    match s.extendedChannels.lookup m.channelId with
    | none => return s
    | some c =>
      let (outcome, c) := api.validateShare c m
      let s := s.setChannel m.channelId c
      if outcome = .valid then
        let extranoncePrefix := api.getExtranoncePrefix c
        let extranonce ← rewriteExtranonce extranoncePrefix.bytes extranoncePrefix.upstreamPrefixLen
          m.extranonce
        return s.forwardShare { m with extranonce := extranonce }
      else return s

/-- The channel is dropped, and with it the prefix that it owns. -/
def dropChannel (s : ChannelManager Ch Gr Al) (channelId : ChannelId) : ChannelManager Ch Gr Al :=
  match s.extendedChannels.lookup channelId with
  | some c => { s with
      extendedChannels := s.extendedChannels.erase channelId
      aggregatedExtranonceAllocator := s.aggregatedExtranonceAllocator.map fun a =>
        api.release a (api.getExtranoncePrefix c) }
  | none => s

/-- `CloseChannel` of the `Sv1Server`. -/
def handleCloseDownstreamChannel (s : ChannelManager Ch Gr Al) (channelId : ChannelId) :
    ChannelManager Ch Gr Al :=
  if cfg.mode = .aggregated ∧ channelId = aggregatedChannelId then s
  else
    let s := dropChannel api s channelId
    let s := { s with
      sv1AdvertisedExtranoncePrefixes := s.sv1AdvertisedExtranoncePrefixes.erase channelId }
    let s := leaveGroups api s channelId
    if cfg.mode = .aggregated then s else s.sendUpstream (.closeChannel channelId)

/-! ## The loop -/

end Handlers

/-- A message of the upstream or of the `Sv1Server`. -/
inductive Event where
  | openExtendedMiningChannelSuccess (m : OpenExtendedMiningChannelSuccess)
  | openMiningChannelError
  | closeChannel (channelId : ChannelId)
  | setExtranoncePrefix (channelId : ChannelId) (extranoncePrefix : B032)
  | newExtendedMiningJob (m : NewExtendedMiningJob)
  | setNewPrevHash (m : SetNewPrevHash)
  | setTarget (channelId : ChannelId) (target : Target)
  | setGroupChannel (groupChannelId : ChannelId) (channelIds : List ChannelId)
  | openExtendedMiningChannel (m : OpenExtendedMiningChannel)
  | submitSharesExtended (m : SubmitSharesExtended)
  | closeDownstreamChannel (channelId : ChannelId)
deriving DecidableEq

/-- A message is handled, or an entry comes first in the iteration order of its map. -/
inductive Action where
  | event (e : Event)
  | touchChannel (channelId : ChannelId)
  | touchPending (requestId : RequestId)
  | touchGroup (groupChannelId : ChannelId)
deriving DecidableEq

section Loop

variable (api : ClientChannels Ch Gr Al) (cfg : Config)

def handle (s : ChannelManager Ch Gr Al) : Event → Except TproxyError (ChannelManager Ch Gr Al)
  | .openExtendedMiningChannelSuccess m => handleOpenExtendedMiningChannelSuccess api cfg s m
  | .openMiningChannelError => .error (.fallback .openMiningChannelError)
  | .closeChannel channelId => handleCloseChannel api cfg s channelId
  | .setExtranoncePrefix channelId b => handleSetExtranoncePrefix api cfg s channelId b
  | .newExtendedMiningJob m => handleNewExtendedMiningJob api cfg s m
  | .setNewPrevHash m => handleSetNewPrevHash api cfg s m
  | .setTarget channelId target => handleSetTarget api cfg s channelId target
  | .setGroupChannel groupChannelId channelIds =>
    result (handleSetGroupChannel api cfg groupChannelId channelIds) s
  | .openExtendedMiningChannel m => handleOpenExtendedMiningChannel api cfg s m
  | .submitSharesExtended m => handleSubmitSharesExtended api cfg s m
  | .closeDownstreamChannel channelId => .ok (handleCloseDownstreamChannel api cfg s channelId)

/-- What a handler that fails has made of the manager. -/
def afterFailure (s : ChannelManager Ch Gr Al) : Event → ChannelManager Ch Gr Al
  | .setGroupChannel groupChannelId channelIds =>
    stateLeft (handleSetGroupChannel api cfg groupChannelId channelIds) s
  | _ => s

def step (s : ChannelManager Ch Gr Al) : Action → ChannelManager Ch Gr Al
  | .event e =>
    if s.stopped.isSome then s
    else match handle api cfg s e with
      | .ok s' => s'
      | .error err => (afterFailure api cfg s e).fail err
  | .touchChannel k => { s with extendedChannels := s.extendedChannels.modify k id }
  | .touchPending k => { s with pendingDownstreamChannels := s.pendingDownstreamChannels.modify k id }
  | .touchGroup k => { s with groupChannels := s.groupChannels.modify k id }

/-- The state after a run. -/
def after (as : List Action) : ChannelManager Ch Gr Al := Runs.run (step api cfg) start as

/-! ### `SetGroupChannel` is checked before a group is changed -/

/-- The group that replaces the old one, once the message has passed all checks. -/
def replacement (groupChannelId : ChannelId) (channelIds : List ChannelId)
    (s : ChannelManager Ch Gr Al) : Except TproxyError Gr := do
  let _ ← require (decide (groupChannelId ≠ aggregatedChannelId))
    (.fallback (.channelIdAlreadyInUse groupChannelId))
  let aggregate ← groupedAggregate api cfg s groupChannelId
  channelIds.foldlM (addMember api s aggregate) (api.newGroup groupChannelId)

/-- The listed channels move to the group. -/
def replaceGroup (groupChannelId : ChannelId) (channelIds : List ChannelId) (group : Gr)
    (s : ChannelManager Ch Gr Al) : ChannelManager Ch Gr Al :=
  let groups := (regroup api s channelIds).erase groupChannelId
  s.setGroups (if channelIds.isEmpty then groups else groups.insert groupChannelId group)

theorem handleSetGroupChannel_checked (groupChannelId : ChannelId) (channelIds : List ChannelId) :
    handleSetGroupChannel api cfg groupChannelId channelIds =
      reading (replacement api cfg groupChannelId channelIds) >>= fun group =>
        modify (replaceGroup api groupChannelId channelIds group) := by
  have hchange : ∀ group : Gr, (do
      modify fun s : ChannelManager Ch Gr Al => s.setGroups (regroup api s channelIds)
      modify fun s => s.setGroups (s.groupChannels.erase groupChannelId)
      if channelIds.isEmpty then pure ()
      else modify fun s => s.setGroups (s.groupChannels.insert groupChannelId group) :
      EStateM TproxyError (ChannelManager Ch Gr Al) Unit) =
      modify (replaceGroup api groupChannelId channelIds group) := by
    intro group
    funext s
    cases channelIds with
    | nil => rfl
    | cons channelId channelIds => rfl
  unfold handleSetGroupChannel replacement
  simp only [hchange, foldlM_reading, ← reading_bind, bind_assoc]

variable {api cfg} {s : ChannelManager Ch Gr Al}

theorem result_handleSetGroupChannel (groupChannelId : ChannelId) (channelIds : List ChannelId) :
    result (handleSetGroupChannel api cfg groupChannelId channelIds) s =
      replacement api cfg groupChannelId channelIds s >>= fun group =>
        pure (replaceGroup api groupChannelId channelIds group s) := by
  rw [handleSetGroupChannel_checked, result_checked]

/-- An error of `SetGroupChannel` comes before the handler has changed anything. -/
theorem afterFailure_eq {e : Event} {err : TproxyError} (h : handle api cfg s e = .error err) :
    afterFailure api cfg s e = s := by
  cases e with
  | setGroupChannel groupChannelId channelIds =>
    simp only [handle, handleSetGroupChannel_checked] at h
    simp only [afterFailure, handleSetGroupChannel_checked]
    exact stateLeft_checked h
  | _ => rfl

theorem step_event (e : Event) : step api cfg s (.event e) =
    if s.stopped.isSome then s
    else match handle api cfg s e with
      | .ok s' => s'
      | .error err => s.fail err := by
  simp only [step]
  cases hresult : handle api cfg s e with
  | ok s' => rfl
  | error err => simp only [afterFailure_eq hresult]

end Loop

/-! ## A manager to try things on -/

/-- Every payout is accepted. -/
def sampleConfig (mode : TproxyMode) : Config := ⟨mode, none, fun _ _ _ => true⟩

/-- A miner asks for four bytes to roll. -/
def sampleRequest (requestId : RequestId) : Action :=
  .event (.openExtendedMiningChannel ⟨requestId, "miner", 4⟩)

def samplePrefix : B032 := ⟨[1], by decide⟩

/-- The upstream grants them, and two more for the index of a miner. -/
def sampleGrant (requestId : RequestId) (channelId groupChannelId : ChannelId)
    (extranoncePrefix : B032) : Action :=
  .event (.openExtendedMiningChannelSuccess ⟨requestId, channelId, 9, 6, extranoncePrefix,
    groupChannelId⟩)

def sampleJob (channelId : ChannelId) (jobId : JobId) (minNtime : Option UInt32) : Action :=
  .event (.newExtendedMiningJob ⟨channelId, jobId, minNtime, true, [], [], 0⟩)

end ChannelManager

end Sv2Apps.Translator
