/-
  Translator/Channels.lean
  ========================
  **The client side of `channels_sv2`** — extended channels, group channels and the allocator of
  extranonce prefixes, as the translator uses them.  The crate is not part of this repository:
  what the translator calls of it is a parameter (`ClientChannels`), and what it relies on is
  `ClientChannels.Lawful`:

  * an extended channel captures its current prefix with every job it is given, and keeps the
    local part of the prefix when the upstream part is replaced;
  * a group channel is the set of its members;
  * the allocator hands out `upstream prefix | local part`, with local parts of one length, and no
    local index that a prefix still owns; a prefix that is dropped gives its index back.

  `NewExtendedMiningJob.arrival` numbers the jobs that arrive; no code reads it.
-/
import Sv2Apps.Messages
import Sv2Apps.Lib.KeyMap

namespace Sv2Apps.Translator

open Bitcoin

abbrev JobId := UInt32
/-- A 256-bit number; a larger one is easier to meet. -/
abbrev Target := Nat

/-- `B032`: a byte string of the wire with at most 32 bytes. -/
abbrev B032 := { b : Bytes // b.length ≤ 32 }

/-- `try_into` of a byte vector. -/
def B032.ofBytes (b : Bytes) : Option B032 := if h : b.length ≤ 32 then some ⟨b, h⟩ else none

/-- The id of the shared upstream channel and of broadcasts in aggregated mode, `u32::MAX`. -/
def aggregatedChannelId : ChannelId := 0xffffffff

structure NewExtendedMiningJob where
  channelId : ChannelId
  jobId : JobId
  minNtime : Option UInt32
  versionRollingAllowed : Bool
  coinbaseTxPrefix : Bytes
  coinbaseTxSuffix : Bytes
  arrival : Nat
deriving DecidableEq

def NewExtendedMiningJob.isFuture (m : NewExtendedMiningJob) : Bool := m.minNtime.isNone

/-- Two messages are about the same job of the upstream. -/
def SameJob (m m' : NewExtendedMiningJob) : Prop := m.arrival = m'.arrival ∧ m.jobId = m'.jobId

theorem SameJob.refl (m : NewExtendedMiningJob) : SameJob m m := ⟨rfl, rfl⟩

theorem SameJob.trans {m m' m'' : NewExtendedMiningJob} (h : SameJob m m') (h' : SameJob m' m'') :
    SameJob m m'' := ⟨h.1.trans h'.1, h.2.trans h'.2⟩

/-- `SetNewPrevHash` of the mining protocol. -/
structure SetNewPrevHash where
  channelId : ChannelId
  jobId : JobId
  prevHash : Hash256
  minNtime : UInt32
  nbits : UInt32
deriving DecidableEq

structure SubmitSharesExtended where
  channelId : ChannelId
  sequenceNumber : UInt32
  jobId : JobId
  nonce : UInt32
  ntime : UInt32
  version : UInt32
  extranonce : B032
deriving DecidableEq

/-- A job of a channel, with what the channel captured when it was given the job. -/
structure ExtendedJob where
  message : NewExtendedMiningJob
  extranoncePrefix : Bytes
  target : Target
deriving DecidableEq

/-- `ExtranoncePrefix`; one that was received has no local index. -/
structure ExtranoncePrefix where
  bytes : Bytes
  upstreamPrefixLen : Nat
  localIndex : Option Nat
deriving DecidableEq

/-- `ExtranoncePrefix::from_wire`. -/
def ExtranoncePrefix.fromWire (b : Bytes) : Option ExtranoncePrefix :=
  if b.length ≤ 32 then some ⟨b, b.length, none⟩ else none

/-- The local part, which the translator puts in front of what the miner rolls. -/
def ExtranoncePrefix.localPart (p : ExtranoncePrefix) : Bytes := p.bytes.drop p.upstreamPrefixLen

inductive ShareValidation where
  | valid
  | doesNotMeetTarget
  | rejected
deriving DecidableEq

/-- What the translator calls of the crate; `none` is an error. -/
structure ClientChannels (Ch Gr Al : Type) where
  /-- `ExtendedChannel::new`: id, identity, prefix, target, rollable size, past jobs kept. -/
  newChannel : ChannelId → Identity → ExtranoncePrefix → Target → UInt16 → Option Nat → Option Ch
  getChannelId : Ch → ChannelId
  getExtranoncePrefix : Ch → ExtranoncePrefix
  getRollableExtranonceSize : Ch → UInt16
  getFullExtranonceSize : Ch → Nat
  getTarget : Ch → Target
  getActiveJob : Ch → Option ExtendedJob
  getFutureJobs : Ch → List ExtendedJob
  getPastJobs : Ch → List ExtendedJob
  getChainTip : Ch → Option SetNewPrevHash
  setUpstreamExtranoncePrefix : Ch → Bytes → Option Ch
  setTarget : Ch → Target → Option Ch
  setChainTip : Ch → SetNewPrevHash → Ch
  onNewExtendedMiningJob : Ch → NewExtendedMiningJob → Option Ch
  onSetNewPrevHash : Ch → SetNewPrevHash → Option Ch
  validateShare : Ch → SubmitSharesExtended → ShareValidation × Ch
  newGroup : ChannelId → Gr
  addChannelId : Gr → ChannelId → Nat → Option Gr
  removeChannelId : Gr → ChannelId → Gr
  getChannelIds : Gr → List ChannelId
  getGroupExtranonceSize : Gr → Option Nat
  onGroupJob : Gr → NewExtendedMiningJob → Gr
  onGroupPrevHash : Gr → SetNewPrevHash → Option Gr
  /-- The bytes of an index that distinguishes so many channels. -/
  bytesNeeded : UInt32 → Nat
  /-- `ExtranonceAllocator::from_upstream_prefix`: prefix, local prefix, total length, channels. -/
  fromUpstreamPrefix : Bytes → Bytes → UInt8 → UInt32 → Option Al
  allocateExtended : Al → Nat → Option (Al × ExtranoncePrefix)
  setUpstreamPrefix : Al → Bytes → Option Al
  /-- The drop of a prefix. -/
  release : Al → ExtranoncePrefix → Al
  getUpstreamPrefix : Al → Bytes
  rollableExtranonceSize : Al → Nat
  /-- The local indexes that are in use. -/
  localIndexes : Al → List Nat
  /-- The local part of the prefix with an index: the padding and the index. -/
  localPartOf : Al → Nat → Bytes

namespace ClientChannels

variable {Ch Gr Al : Type}

/-- The jobs for which a share can be submitted. -/
def heldJobs (api : ClientChannels Ch Gr Al) (c : Ch) : List ExtendedJob :=
  (api.getActiveJob c).toList ++ api.getFutureJobs c ++ api.getPastJobs c

/-- The job is one of the channel's, with the prefix that was captured for it; a job that has been
    activated has got the time of its prev-hash. -/
def IsFrom (api : ClientChannels Ch Gr Al) (c : Ch) (j : ExtendedJob) : Prop :=
  ∃ k ∈ api.heldJobs c, SameJob k.message j.message ∧ k.extranoncePrefix = j.extranoncePrefix

/-- The jobs of `c'` are jobs of `c`. -/
def JobsFrom (api : ClientChannels Ch Gr Al) (c c' : Ch) : Prop :=
  ∀ j ∈ api.heldJobs c', api.IsFrom c j

theorem isFrom_of_mem {api : ClientChannels Ch Gr Al} {c : Ch} {j : ExtendedJob}
    (h : j ∈ api.heldJobs c) : api.IsFrom c j := ⟨j, h, .refl _, rfl⟩

/-- The operation leaves the identity and the prefix of a channel alone. -/
structure Keeps (api : ClientChannels Ch Gr Al) (c c' : Ch) : Prop where
  channelId : api.getChannelId c' = api.getChannelId c
  extranoncePrefix : api.getExtranoncePrefix c' = api.getExtranoncePrefix c

/-- The allocator is for the same layout. -/
structure SameLayout (api : ClientChannels Ch Gr Al) (a a' : Al) : Prop where
  upstreamPrefix : api.getUpstreamPrefix a' = api.getUpstreamPrefix a
  localPartOf : api.localPartOf a' = api.localPartOf a

/-- What the translator relies on. -/
structure Lawful (api : ClientChannels Ch Gr Al) : Prop where
  new_id : ∀ {i u p t n k c}, api.newChannel i u p t n k = some c → api.getChannelId c = i
  new_prefix : ∀ {i u p t n k c}, api.newChannel i u p t n k = some c →
    api.getExtranoncePrefix c = p
  new_jobs : ∀ {i u p t n k c}, api.newChannel i u p t n k = some c → api.heldJobs c = []
  /-- Prefix and rollable part fit an extranonce. -/
  new_fits : ∀ {i u p t n k c}, api.newChannel i u p t n k = some c →
    p.bytes.length + n.toNat ≤ 32
  upstream_id : ∀ {c b c'}, api.setUpstreamExtranoncePrefix c b = some c' →
    api.getChannelId c' = api.getChannelId c
  /-- Only the upstream part of the prefix is replaced. -/
  upstream_prefix : ∀ {c b c'}, api.setUpstreamExtranoncePrefix c b = some c' →
    api.getExtranoncePrefix c' = ⟨b ++ (api.getExtranoncePrefix c).localPart, b.length,
      (api.getExtranoncePrefix c).localIndex⟩
  upstream_jobs : ∀ {c b c'}, api.setUpstreamExtranoncePrefix c b = some c' → api.JobsFrom c c'
  target_keeps : ∀ {c t c'}, api.setTarget c t = some c' → api.Keeps c c' ∧ api.JobsFrom c c'
  tip_keeps : ∀ c p, api.Keeps c (api.setChainTip c p) ∧ api.JobsFrom c (api.setChainTip c p)
  job_keeps : ∀ {c m c'}, api.onNewExtendedMiningJob c m = some c' → api.Keeps c c'
  /-- The new job has captured the current prefix. -/
  job_captures : ∀ {c m c'}, api.onNewExtendedMiningJob c m = some c' →
    ∀ j ∈ api.heldJobs c', (j.message = m ∧
        j.extranoncePrefix = (api.getExtranoncePrefix c).bytes) ∨ api.IsFrom c j
  prevHash_keeps : ∀ {c p c'}, api.onSetNewPrevHash c p = some c' →
    api.Keeps c c' ∧ api.JobsFrom c c'
  share_keeps : ∀ c m, api.Keeps c (api.validateShare c m).2 ∧
    api.JobsFrom c (api.validateShare c m).2
  newGroup_ids : ∀ i, api.getChannelIds (api.newGroup i) = []
  addChannelId_ids : ∀ {g i n g'}, api.addChannelId g i n = some g' →
    ∀ j, j ∈ api.getChannelIds g' ↔ j = i ∨ j ∈ api.getChannelIds g
  removeChannelId_ids : ∀ g i j, j ∈ api.getChannelIds (api.removeChannelId g i) ↔
    j ≠ i ∧ j ∈ api.getChannelIds g
  groupJob_ids : ∀ g m, api.getChannelIds (api.onGroupJob g m) = api.getChannelIds g
  groupPrevHash_ids : ∀ {g p g'}, api.onGroupPrevHash g p = some g' →
    api.getChannelIds g' = api.getChannelIds g
  allocator_new : ∀ {p b n k a}, api.fromUpstreamPrefix p b n k = some a →
    api.getUpstreamPrefix a = p ∧ api.localIndexes a = []
  allocate_layout : ∀ {a n a' p}, api.allocateExtended a n = some (a', p) → api.SameLayout a a'
  /-- The index is a free one, and its local part follows the upstream prefix. -/
  allocate_prefix : ∀ {a n a' p}, api.allocateExtended a n = some (a', p) →
    ∃ i, i ∉ api.localIndexes a ∧ api.localIndexes a' = i :: api.localIndexes a ∧
      p = ⟨api.getUpstreamPrefix a ++ api.localPartOf a i, (api.getUpstreamPrefix a).length, some i⟩
  localPart_injective : ∀ a, ∀ i ∈ api.localIndexes a, ∀ j ∈ api.localIndexes a,
    api.localPartOf a i = api.localPartOf a j → i = j
  localPart_length : ∀ a i j, (api.localPartOf a i).length = (api.localPartOf a j).length
  setUpstream_prefix : ∀ {a b a'}, api.setUpstreamPrefix a b = some a' →
    api.getUpstreamPrefix a' = b ∧ api.localPartOf a' = api.localPartOf a ∧
      api.localIndexes a' = api.localIndexes a
  release_layout : ∀ a p, api.SameLayout a (api.release a p)
  release_indexes : ∀ a p, api.localIndexes (api.release a p) =
    match p.localIndex with
    | some i => (api.localIndexes a).erase i
    | none => api.localIndexes a

end ClientChannels

end Sv2Apps.Translator
