/-
  Translator/ReferenceChannels.lean
  =================================
  **A reference implementation of the client channels** — small, with the properties that the
  translator relies on (`referenceChannels_lawful`), so that runs can be evaluated.  A share is
  valid when its job is held; the allocator hands out the first free index.  An extranonce that
  is longer than 32 bytes is refused, and so is a target of zero.
-/
import Sv2Apps.Translator.Channels

namespace Sv2Apps.Translator

open Bitcoin ByteCodec

structure ReferenceChannel where
  channelId : ChannelId
  extranoncePrefix : ExtranoncePrefix
  target : Target
  rollableExtranonceSize : UInt16
  activeJob : Option ExtendedJob
  futureJobs : List ExtendedJob
  pastJobs : List ExtendedJob
  chainTip : Option SetNewPrevHash
deriving DecidableEq

namespace ReferenceChannel

def setUpstreamExtranoncePrefix (c : ReferenceChannel) (b : Bytes) : Option ReferenceChannel :=
  let p := c.extranoncePrefix
  if b.length + p.localPart.length + c.rollableExtranonceSize.toNat ≤ 32 then
    some { c with extranoncePrefix := ⟨b ++ p.localPart, b.length, p.localIndex⟩ }
  else none

def setTarget (c : ReferenceChannel) (t : Target) : Option ReferenceChannel :=
  if t = 0 then none
  else some { c with target := t, futureJobs := c.futureJobs.map fun j => { j with target := t } }

def onNewExtendedMiningJob (c : ReferenceChannel) (m : NewExtendedMiningJob) : ReferenceChannel :=
  let job : ExtendedJob := ⟨m, c.extranoncePrefix.bytes, c.target⟩
  if m.isFuture then { c with futureJobs := job :: c.futureJobs }
  else { c with activeJob := some job, pastJobs := c.activeJob.toList ++ c.pastJobs }

/-- The job that is activated starts at the time of the prev-hash. -/
def onSetNewPrevHash (c : ReferenceChannel) (p : SetNewPrevHash) : Option ReferenceChannel :=
  match c.futureJobs.find? fun j => j.message.jobId = p.jobId with
  | some job => some { c with
      activeJob := some { job with message := { job.message with minNtime := some p.minNtime } }
      futureJobs := []
      pastJobs := []
      chainTip := some p }
  | none => none

end ReferenceChannel

structure ReferenceGroup where
  members : List ChannelId
  fullExtranonceSize : Option Nat
deriving DecidableEq

namespace ReferenceGroup

/-- The members of a group have one full extranonce size. -/
def addChannelId (g : ReferenceGroup) (i : ChannelId) (n : Nat) : Option ReferenceGroup :=
  if g.fullExtranonceSize.all (fun size => decide (size = n)) then
    some ⟨i :: g.members, some n⟩
  else none

end ReferenceGroup

/-- The bytes of an index below `k`. -/
def bytesNeeded (k : UInt32) : Nat :=
  if k ≤ 1 then 0 else if k ≤ 256 then 1 else if k ≤ 65536 then 2 else if k ≤ 16777216 then 3 else 4

theorem le_pow_bytesNeeded (k : UInt32) : k.toNat ≤ 256 ^ bytesNeeded k := by
  have hlt := k.toNat_lt
  simp only [bytesNeeded, UInt32.le_iff_toNat_le]
  simp only [show (1 : UInt32).toNat = 1 from rfl, show (256 : UInt32).toNat = 256 from rfl,
    show (65536 : UInt32).toNat = 65536 from rfl, show (16777216 : UInt32).toNat = 16777216 from rfl]
  split
  · omega
  split
  · omega
  split
  · omega
  split
  · omega
  · omega

/-- The indexes in use are below the number of channels, which the index bytes can tell apart. -/
structure ReferenceAllocator where
  upstreamPrefix : Bytes
  localPrefix : Bytes
  indexLen : Nat
  rollableExtranonceSize : Nat
  maxChannels : Nat
  indexes : List Nat
  bounded : ∀ i ∈ indexes, i < maxChannels
  distinguished : maxChannels ≤ 256 ^ indexLen

namespace ReferenceAllocator

def fromUpstreamPrefix (p b : Bytes) (n : UInt8) (k : UInt32) : Option ReferenceAllocator :=
  if p.length + b.length + bytesNeeded k ≤ n.toNat ∧ n.toNat ≤ 32 then
    some ⟨p, b, bytesNeeded k, n.toNat - p.length - b.length - bytesNeeded k, k.toNat, [],
      by simp, le_pow_bytesNeeded k⟩
  else none

def localPartOf (a : ReferenceAllocator) (i : Nat) : Bytes := a.localPrefix ++ leBytes a.indexLen i

/-- The first index that is not in use. -/
def firstFree (a : ReferenceAllocator) : Option Nat :=
  (List.range (a.indexes.length + 1)).find? fun i => decide (i ∉ a.indexes)

def allocateExtended (a : ReferenceAllocator) (n : Nat) :
    Option (ReferenceAllocator × ExtranoncePrefix) :=
  match a.firstFree with
  | none => none
  | some i =>
    if h : i < a.maxChannels ∧ n ≤ a.rollableExtranonceSize then
      some ({ a with
        indexes := i :: a.indexes
        bounded := by
          intro j hj
          rcases List.mem_cons.mp hj with rfl | hj
          · exact h.1
          · exact a.bounded j hj },
        ⟨a.upstreamPrefix ++ a.localPartOf i, a.upstreamPrefix.length, some i⟩)
    else none

def setUpstreamPrefix (a : ReferenceAllocator) (b : Bytes) : Option ReferenceAllocator :=
  if b.length + a.localPrefix.length + a.indexLen + a.rollableExtranonceSize ≤ 32 then
    some { a with upstreamPrefix := b }
  else none

def release (a : ReferenceAllocator) (p : ExtranoncePrefix) : ReferenceAllocator :=
  match p.localIndex with
  | none => a
  | some i => { a with
      indexes := a.indexes.erase i
      bounded := fun j hj => a.bounded j (List.mem_of_mem_erase hj) }

theorem firstFree_free {a : ReferenceAllocator} {i : Nat} (h : a.firstFree = some i) :
    i ∉ a.indexes := by
  simpa using List.find?_some h

theorem localPartOf_injective (a : ReferenceAllocator) {i j : Nat} (hi : i ∈ a.indexes)
    (hj : j ∈ a.indexes) (h : a.localPartOf i = a.localPartOf j) : i = j := by
  have hbytes : leBytes a.indexLen i = leBytes a.indexLen j := List.append_cancel_left h
  have hlt : ∀ k ∈ a.indexes, k < 256 ^ a.indexLen := fun k hk =>
    Nat.lt_of_lt_of_le (a.bounded k hk) a.distinguished
  have hi' := ofLe_leBytes (hlt i hi)
  have hj' := ofLe_leBytes (hlt j hj)
  rw [← hi', ← hj', hbytes]

end ReferenceAllocator

def referenceChannels : ClientChannels ReferenceChannel ReferenceGroup ReferenceAllocator where
  newChannel i _ p t n _ :=
    if t = 0 ∨ 32 < p.bytes.length + n.toNat then none
    else some ⟨i, p, t, n, none, [], [], none⟩
  getChannelId := ReferenceChannel.channelId
  getExtranoncePrefix := ReferenceChannel.extranoncePrefix
  getRollableExtranonceSize := ReferenceChannel.rollableExtranonceSize
  getFullExtranonceSize c := c.extranoncePrefix.bytes.length + c.rollableExtranonceSize.toNat
  getTarget := ReferenceChannel.target
  getActiveJob := ReferenceChannel.activeJob
  getFutureJobs := ReferenceChannel.futureJobs
  getPastJobs := ReferenceChannel.pastJobs
  getChainTip := ReferenceChannel.chainTip
  setUpstreamExtranoncePrefix := ReferenceChannel.setUpstreamExtranoncePrefix
  setTarget := ReferenceChannel.setTarget
  setChainTip c p := { c with chainTip := some p }
  onNewExtendedMiningJob c m := some (c.onNewExtendedMiningJob m)
  onSetNewPrevHash := ReferenceChannel.onSetNewPrevHash
  validateShare c m :=
    (if (c.activeJob.toList ++ c.pastJobs).any (fun j => decide (j.message.jobId = m.jobId)) then
      .valid else .rejected, c)
  newGroup _ := ⟨[], none⟩
  addChannelId := ReferenceGroup.addChannelId
  removeChannelId g i := { g with members := g.members.filter (· ≠ i) }
  getChannelIds := ReferenceGroup.members
  getGroupExtranonceSize := ReferenceGroup.fullExtranonceSize
  onGroupJob g _ := g
  onGroupPrevHash g _ := some g
  bytesNeeded := bytesNeeded
  fromUpstreamPrefix := ReferenceAllocator.fromUpstreamPrefix
  allocateExtended := ReferenceAllocator.allocateExtended
  setUpstreamPrefix := ReferenceAllocator.setUpstreamPrefix
  release := ReferenceAllocator.release
  getUpstreamPrefix := ReferenceAllocator.upstreamPrefix
  rollableExtranonceSize := ReferenceAllocator.rollableExtranonceSize
  localIndexes := ReferenceAllocator.indexes
  localPartOf := ReferenceAllocator.localPartOf

theorem referenceChannels_lawful : referenceChannels.Lawful where
  new_id h := by
    simp only [referenceChannels] at h
    split at h <;> cases h
    rfl
  new_prefix h := by
    simp only [referenceChannels] at h
    split at h <;> cases h
    rfl
  new_jobs h := by
    simp only [referenceChannels] at h
    split at h <;> cases h
    rfl
  new_fits h := by
    simp only [referenceChannels] at h
    split at h
    · cases h
    next hfits => omega
  upstream_id h := by
    simp only [referenceChannels, ReferenceChannel.setUpstreamExtranoncePrefix] at h
    split at h <;> cases h
    rfl
  upstream_prefix h := by
    simp only [referenceChannels, ReferenceChannel.setUpstreamExtranoncePrefix] at h
    split at h <;> cases h
    rfl
  upstream_jobs h := by
    simp only [referenceChannels, ReferenceChannel.setUpstreamExtranoncePrefix] at h
    split at h <;> cases h
    exact fun j hj => ClientChannels.isFrom_of_mem hj
  target_keeps h := by
    simp only [referenceChannels, ReferenceChannel.setTarget] at h
    split at h <;> cases h
    refine ⟨⟨rfl, rfl⟩, ?_⟩
    intro j hj
    simp only [ClientChannels.heldJobs, referenceChannels, List.mem_append, List.mem_map] at hj
    rcases hj with (hj | ⟨k, hk, rfl⟩) | hj
    · exact ⟨j, by simp [ClientChannels.heldJobs, referenceChannels, hj], ⟨rfl, rfl⟩, rfl⟩
    · exact ⟨k, by simp [ClientChannels.heldJobs, referenceChannels, hk], ⟨rfl, rfl⟩, rfl⟩
    · exact ⟨j, by simp [ClientChannels.heldJobs, referenceChannels, hj], ⟨rfl, rfl⟩, rfl⟩
  tip_keeps c p := ⟨⟨rfl, rfl⟩, fun j hj => ClientChannels.isFrom_of_mem hj⟩
  job_keeps h := by
    cases h
    simp only [referenceChannels, ReferenceChannel.onNewExtendedMiningJob]
    constructor <;> dsimp only <;> split <;> rfl
  job_captures {c m c'} h := by
    cases h
    intro j hj
    have hheld : j ∈ referenceChannels.heldJobs c ∨
        j = ⟨m, c.extranoncePrefix.bytes, c.target⟩ := by
      simp only [ClientChannels.heldJobs, referenceChannels,
        ReferenceChannel.onNewExtendedMiningJob] at hj ⊢
      split at hj
      · simp only [List.mem_append, List.mem_cons] at hj ⊢
        tauto
      · simp only [Option.toList_some, List.mem_append, List.mem_singleton] at hj ⊢
        tauto
    rcases hheld with hold | rfl
    · exact Or.inr (ClientChannels.isFrom_of_mem hold)
    · exact Or.inl ⟨rfl, rfl⟩
  prevHash_keeps {c p c'} h := by
    simp only [referenceChannels, ReferenceChannel.onSetNewPrevHash] at h
    split at h
    next job hjob =>
      cases h
      refine ⟨⟨rfl, rfl⟩, ?_⟩
      intro j hj
      simp only [ClientChannels.heldJobs, referenceChannels, Option.toList_some, List.append_nil,
        List.mem_singleton] at hj
      subst hj
      have hfuture := List.mem_of_find?_eq_some hjob
      exact ⟨job, by simp [ClientChannels.heldJobs, referenceChannels, hfuture], ⟨rfl, rfl⟩, rfl⟩
    · cases h
  share_keeps c m := ⟨⟨rfl, rfl⟩, fun j hj => ClientChannels.isFrom_of_mem hj⟩
  newGroup_ids _ := rfl
  addChannelId_ids h j := by
    simp only [referenceChannels, ReferenceGroup.addChannelId] at h
    split at h <;> cases h
    exact List.mem_cons
  removeChannelId_ids g i j := by
    simp [referenceChannels, and_comm]
  groupJob_ids _ _ := rfl
  groupPrevHash_ids h := by
    cases h
    rfl
  allocator_new h := by
    simp only [referenceChannels, ReferenceAllocator.fromUpstreamPrefix] at h
    split at h <;> cases h
    exact ⟨rfl, rfl⟩
  allocate_layout h := by
    simp only [referenceChannels, ReferenceAllocator.allocateExtended] at h
    split at h
    · cases h
    · split at h <;> cases h
      exact ⟨rfl, rfl⟩
  allocate_prefix h := by
    simp only [referenceChannels, ReferenceAllocator.allocateExtended] at h
    split at h
    · cases h
    next i hi =>
      split at h <;> cases h
      exact ⟨i, ReferenceAllocator.firstFree_free hi, rfl, rfl⟩
  localPart_injective a i hi j hj h := a.localPartOf_injective hi hj h
  localPart_length a i j := by
    simp [referenceChannels, ReferenceAllocator.localPartOf]
  setUpstream_prefix h := by
    simp only [referenceChannels, ReferenceAllocator.setUpstreamPrefix] at h
    split at h <;> cases h
    exact ⟨rfl, rfl, rfl⟩
  release_layout a p := by
    simp only [referenceChannels, ReferenceAllocator.release]
    split
    · exact ⟨rfl, rfl⟩
    · exact ⟨rfl, rfl⟩
  release_indexes a p := by
    simp only [referenceChannels, ReferenceAllocator.release]
    split
    next h => rw [h]
    next i h => rw [h]

end Sv2Apps.Translator
