/-
  Jdc/Channels.lean
  =================
  **What the job declarator client keeps of its channels and jobs.**

  The client has one extended channel to the pool and, for every connected miner, a group
  channel with standard and extended channels.  The channels, the extranonce allocator and
  the job factory come from `channels_sv2`, which is not part of this repository.  A channel
  is kept here as what the client reads off it: its extranonce prefix, its rollable size, and
  for every job what the job was built from together with the prefix the channel had then.
  What the crate decides (whether it accepts a template, a prev-hash, a prefix or a share,
  which bytes the allocator hands out, which id a job gets) is an answer, part of the action
  that asks for it.

  Coinbase outputs travel as bytes; they are kept as what `deserialize_outputs` reads off
  them, `none` when it refuses.
-/
import Sv2Apps.ChannelsSv2

namespace Sv2Apps.Jdc

open Bitcoin

/-- `JDMode`. -/
inductive JDMode where
  | fullTemplate
  | coinbaseOnly
  | soloMining
deriving DecidableEq

inductive UpstreamState where
  | noChannel
  | pending
  | connected
  | soloMining
deriving DecidableEq

/-- `JDC_LOCAL_PREFIX_BYTES`, the bytes of a local index below `JDC_MAX_CHANNELS`. -/
def localPrefixBytes : Nat := 2

/-- `SOLO_FULL_EXTRANONCE_SIZE`. -/
def soloFullExtranonceSize : Nat := 20

/-- `MAX_EXTRANONCE_LEN`. -/
def maxExtranonceLen : Nat := 32

/-- The wire type of an extranonce. -/
abbrev B032 := { b : Bytes // b.length ≤ maxExtranonceLen }

/-- The outputs with the first value replaced; there is no index 0 in an empty list. -/
def withFirstValue (value : UInt64) : List TxOut → Option (List TxOut)
  | [] => none
  | o :: os => some ({ o with value := value } :: os)

/-! ## Jobs -/

structure ChainTip where
  prevHash : Hash256
  nBits : UInt32
  minNtime : UInt32
deriving DecidableEq

end Jdc

def SetNewPrevHash.chainTip (p : SetNewPrevHash) : Jdc.ChainTip :=
  ⟨p.prevHash, p.nBits, p.ntimeStart⟩

namespace Jdc

open Bitcoin

/-- A job of a standard or extended channel. -/
structure ChannelJob where
  template : NewTemplate
  coinbaseOutputs : List TxOut
  /-- The room that the coinbase leaves for the extranonce. -/
  fullExtranonceSize : Nat
  /-- The prefix of the channel when it got the job. -/
  extranoncePrefix : Bytes
deriving DecidableEq

/-- A `SetCustomMiningJob`, as what `new_custom_job` was given. -/
structure CustomJob where
  channelId : ChannelId
  requestId : RequestId
  token : Bytes
  chainTip : ChainTip
  template : NewTemplate
  coinbaseOutputs : List TxOut
  fullExtranonceSize : Nat
deriving DecidableEq

/-- A `DeclareMiningJob`, with the template for the fields that are copied from it. -/
structure Declaration where
  requestId : RequestId
  miningJobToken : Bytes
  template : NewTemplate
  coinbaseTxPrefix : Bytes
  coinbaseTxSuffix : Bytes
  wtxidList : List Hash256
deriving DecidableEq

structure DeclaredJob where
  declareMiningJob : Option Declaration
  template : NewTemplate
  prevHash : Option SetNewPrevHash
  setCustomMiningJob : Option CustomJob
  coinbaseOutput : Option (List TxOut)
  txList : List Bytes
  /-- The declaration has been sent; no handler reads this. -/
  declared : Bool
deriving DecidableEq

/-! ## Channels -/

/-- What an allocator was built from, and how many were built before it. -/
structure ExtranonceAllocator where
  upstreamPrefix : Bytes
  totalLen : Nat
  generation : Nat
deriving DecidableEq

/-- A standard or extended channel; a standard channel has nothing to roll. -/
structure Channel where
  extranoncePrefix : Bytes
  rollableExtranonceSize : Nat
  jobs : KeyMap JobId ChannelJob
  /-- The allocator that the prefix is from. -/
  generation : Nat
  /-- The jobs that its own factory has made. -/
  ownJobs : Nat
  /-- The jobs that are not stale: the active one, those before it at the same tip, and those of
      future templates. -/
  live : List JobId

namespace Channel

def fullExtranonceSize (c : Channel) : Nat := c.extranoncePrefix.length + c.rollableExtranonceSize

/-- The channel gets a job, built with the given room for the extranonce. -/
def addJob (c : Channel) (jobId : JobId) (t : NewTemplate) (outs : List TxOut) (size : Nat) :
    Channel :=
  { c with
    jobs := c.jobs.insert jobId ⟨t, outs, size, c.extranoncePrefix⟩
    live := jobId :: c.live }

/-- After a prev-hash every job but the active one is stale. -/
def activate (c : Channel) (active : Option JobId) : Channel :=
  { c with live := c.live.filter fun jobId => active = some jobId }

/-- The job that shares with the id are validated for. -/
def liveJob (c : Channel) (jobId : JobId) : Option ChannelJob :=
  if jobId ∈ c.live then c.jobs.lookup jobId else none

theorem liveJob_eq_some {c : Channel} {jobId : JobId} {job : ChannelJob} :
    c.liveJob jobId = some job ↔ jobId ∈ c.live ∧ c.jobs.lookup jobId = some job := by
  unfold liveJob
  split
  next hlive => simp [hlive]
  next hstale => simp [hstale]

end Channel

/-- The extended channel to the pool; a job is kept as the prefix the channel had when it was
    acknowledged. -/
structure UpstreamChannel where
  channelId : ChannelId
  extranoncePrefix : Bytes
  rollableExtranonceSize : UInt16
  jobs : KeyMap JobId Bytes

namespace UpstreamChannel

def fullExtranonceSize (c : UpstreamChannel) : Nat :=
  c.extranoncePrefix.length + c.rollableExtranonceSize.toNat

/-- `on_set_custom_mining_job_success`: the pool has given the job an id. -/
def acknowledge (c : UpstreamChannel) (jobId : JobId) : UpstreamChannel :=
  { c with jobs := c.jobs.insert jobId c.extranoncePrefix }

end UpstreamChannel

structure Downstream where
  groupFullExtranonceSize : Nat
  /-- The jobs that the factory of the group channel has made. -/
  groupJobs : Nat
  /-- The templates of these jobs, but for the first one, which is active from the start.  No
      handler reads this. -/
  groupTemplates : KeyMap JobId TemplateId
  groupChannelIds : List ChannelId
  standardChannels : KeyMap ChannelId Channel
  extendedChannels : KeyMap ChannelId Channel
  channelIdFactory : ChannelId
  requireStdJob : Bool
  /-- The connection has sent its `SetupConnection`. -/
  setUp : Bool

namespace Downstream

/-- The id of every group channel, the first one of the connection's factory. -/
def groupChannelId : ChannelId := 1

/-- `Downstream::new`, with a group channel for full extranonces of the given size that has been
    given its first template. -/
def new (size : Nat) : Downstream := ⟨size, 1, ∅, [], ∅, ∅, 2, false, false⟩

end Downstream

/-! ## Requests and shares -/

inductive OpenKind where
  | standard
  | extended (minExtranonceSize : UInt16)
deriving DecidableEq

/-- An `OpenStandardMiningChannel` or `OpenExtendedMiningChannel`. -/
structure OpenRequest where
  requestId : RequestId
  kind : OpenKind
deriving DecidableEq

/-- `PendingChannelRequest`. -/
structure PendingRequest where
  downstreamId : DownstreamId
  request : OpenRequest
deriving DecidableEq

/-- A share as it goes to the pool. -/
structure UpstreamShare where
  channelId : ChannelId
  jobId : JobId
  extranonce : Bytes
deriving DecidableEq

/-- A share that a miner's channel has accepted for a job of the template. -/
structure AcceptedShare where
  number : Nat
  templateId : TemplateId
deriving DecidableEq

/-- A share that waits for its job to be acknowledged.  No handler reads the last three fields. -/
structure CachedShare where
  share : UpstreamShare
  shareTarget : Nat
  /-- The full extranonce with which the miner's channel validated the share. -/
  validatedWith : Bytes
  /-- The prefix of the channel to the pool at that time. -/
  upstreamPrefix : Bytes
  accepted : AcceptedShare
deriving DecidableEq

/-- A share that the channel to the pool was given under a job id, and whether it was sent on. -/
structure Validation where
  share : AcceptedShare
  jobId : JobId
  forwarded : Bool
deriving DecidableEq

/-- `CACHED_SHARES_CAPACITY`. -/
def cachedSharesCapacity : Nat := 100

/-- The top of the heap: a share with the greatest target. -/
def worstShare : List CachedShare → Option CachedShare
  | [] => none
  | s :: rest =>
    match worstShare rest with
    | none => some s
    | some w => if w.shareTarget < s.shareTarget then some s else some w

def addShareToCache (heap : List CachedShare) (entry : CachedShare) : List CachedShare :=
  if heap.length < cachedSharesCapacity then entry :: heap
  else match worstShare heap with
    | none => heap
    | some worst =>
      if entry.shareTarget < worst.shareTarget then entry :: heap.erase worst else heap

theorem mem_addShareToCache {heap : List CachedShare} {entry c : CachedShare}
    (h : c ∈ addShareToCache heap entry) : c = entry ∨ c ∈ heap := by
  unfold addShareToCache at h
  split at h
  · exact List.mem_cons.mp h
  · split at h
    · exact Or.inr h
    · split at h
      · rcases List.mem_cons.mp h with rfl | hc
        · exact Or.inl rfl
        · exact Or.inr (List.mem_of_mem_erase hc)
      · exact Or.inr h

/-! ## Answers of the crate -/

/-- What the allocator answers: the bytes of a prefix, an error that has an error code, or
    another error. -/
inductive AllocationAnswer where
  | allocated (bytes : Bytes)
  | refused (code : String)
  | fault
deriving DecidableEq

/-- What a channel constructor answers. -/
inductive ConstructionAnswer where
  | built
  | refused (code : String)
  | fault
deriving DecidableEq

/-- Everything that is asked of the crate while a channel is opened; no job id means that the
    template was refused. -/
structure OpenAnswers where
  allocation : AllocationAnswer
  construction : ConstructionAnswer
  templateJob : Option JobId
  prevHashAccepted : Bool
  addedToGroup : Bool

/-- What the channels of one connection answer to a template: the id of the group's job, the
    ids of the jobs of standard channels with their own jobs, and who takes the group's job. -/
structure TemplateAnswers where
  groupJob : Option JobId
  customJobBuilt : Bool
  standardJob : ChannelId → Option JobId
  groupJobTaken : ChannelId → Bool

/-- What a channel makes of a prev-hash: it refuses one that names none of its future jobs, and is
    left without an active job if it has no future job. -/
inductive PrevHashAnswer where
  | refused
  | noActiveJob
  | activated (jobId : JobId)
deriving DecidableEq

/-- `get_active_job` after a prev-hash. -/
def PrevHashAnswer.activeJob : PrevHashAnswer → Option JobId
  | .activated jobId => some jobId
  | _ => none

/-- What the channels of one connection answer to a prev-hash. -/
structure PrevHashAnswers where
  groupJob : PrevHashAnswer
  standardJob : ChannelId → PrevHashAnswer
  extendedJob : ChannelId → PrevHashAnswer

/-- The connection after a prev-hash that its channels have not refused. -/
def Downstream.activate (ds : Downstream) (ans : PrevHashAnswers) : Downstream :=
  { ds with
    standardChannels :=
      KeyMap.mapValues (fun ch c => c.activate (ans.standardJob ch).activeJob) ds.standardChannels
    extendedChannels :=
      KeyMap.mapValues (fun ch c => c.activate (ans.extendedJob ch).activeJob) ds.extendedChannels }

/-- What the allocator gives to a channel of one connection, and whether the channel takes it. -/
structure PrefixAnswers where
  allocation : ChannelId → AllocationAnswer
  channelAccepts : ChannelId → Bool

/-- What a channel of a miner makes of a share. -/
inductive ShareAnswer where
  | valid (target : Nat) (acknowledge : Bool)
  | blockFound (target : Nat) (templateId : Option TemplateId)
  | invalid (code : String)
  | budgetExhausted
deriving DecidableEq

/-- What the channel to the pool makes of a share. -/
inductive UpstreamShareAnswer where
  | valid
  | blockFound
  | invalid
deriving DecidableEq

/-- What the channel to the pool makes of an acknowledged custom job. -/
inductive AcknowledgementAnswer where
  | accepted
  | chainTipMismatch
  | fault
deriving DecidableEq

end Jdc

end Sv2Apps
