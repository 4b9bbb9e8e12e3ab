/-
  ChannelsSv2.lean
  ================
  **The mining channels of `channels_sv2`** — the crate that keeps the jobs of a channel
  is not part of this repository.  What the applications call of it is a parameter
  (`ChannelsSv2`), and what they rely on is `ChannelsSv2.Lawful`:

  * a future template adds a future job, any other one needs a chain tip and becomes the
    active job; the job carries the template and the outputs it was given, which may pay no
    more than the template has to give;
  * a new prev-hash that names a future job makes it the active one and becomes the tip;
  * a group job is taken over by a channel of the group in the same two ways.

  `referenceChannels` is a small implementation with these properties on which runs can be
  evaluated; like the crate it refuses outputs that pay too much, and a prev-hash that names no
  future job when the channel has future jobs.
-/
import Sv2Apps.Messages
import Sv2Apps.Lib.KeyMap
import Sv2Apps.Lib.OverflowChecks

namespace Sv2Apps

open Bitcoin

abbrev TemplateId := UInt64
abbrev JobId := UInt32

/-- `NewTemplate` of the template distribution protocol; what only the jobs need of it is
    left out. -/
structure NewTemplate where
  templateId : TemplateId
  futureTemplate : Bool
  coinbaseTxValueRemaining : UInt64
deriving DecidableEq

/-- `SetNewPrevHash` of the template distribution protocol. -/
structure SetNewPrevHash where
  templateId : TemplateId
  prevHash : Hash256
  ntimeStart : UInt32
  nBits : UInt32
deriving DecidableEq

/-- The outputs pay no more than the template has to give. -/
def NewTemplate.Affords (t : NewTemplate) (outs : List TxOut) : Prop :=
  OverflowChecks.total (outs.map TxOut.value) ≤ t.coinbaseTxValueRemaining.toNat

instance (t : NewTemplate) (outs : List TxOut) : Decidable (t.Affords outs) :=
  inferInstanceAs (Decidable (_ ≤ _))

/-- A job built from a template. -/
structure Job where
  jobId : JobId
  template : NewTemplate
  coinbaseOutputs : List TxOut
deriving DecidableEq

/-- The operations on a group, standard or extended channel; `none` is an error. -/
structure ChannelsSv2 (Ch : Type) where
  newChannel : ChannelId → Nat → Ch
  onNewTemplate : Ch → NewTemplate → List TxOut → Option Ch
  onSetNewPrevHash : Ch → SetNewPrevHash → Option Ch
  onGroupChannelJob : Ch → Job → Option Ch
  /-- `get_future_job_id_from_template_id`, then `get_future_job`. -/
  getFutureJob : Ch → TemplateId → Option Job
  getActiveJob : Ch → Option Job
  getChainTip : Ch → Option SetNewPrevHash
  getFullExtranonceSize : Ch → Nat
  addChannelId : Ch → ChannelId → Nat → Option Ch
  removeChannelId : Ch → ChannelId → Ch
  isEmpty : Ch → Bool

namespace ChannelsSv2

variable {Ch : Type}

/-- The job for a template that the channel has just been given. -/
def templateJob (api : ChannelsSv2 Ch) (c : Ch) (t : NewTemplate) : Option Job :=
  if t.futureTemplate then api.getFutureJob c t.templateId else api.getActiveJob c

/-- Nothing but the members of a group differs. -/
structure SameJobs (api : ChannelsSv2 Ch) (c c' : Ch) : Prop where
  future : api.getFutureJob c' = api.getFutureJob c
  active : api.getActiveJob c' = api.getActiveJob c
  tip : api.getChainTip c' = api.getChainTip c
  size : api.getFullExtranonceSize c' = api.getFullExtranonceSize c

/-- What the applications rely on. -/
structure Lawful (api : ChannelsSv2 Ch) : Prop where
  newChannel_tip : ∀ ch n, api.getChainTip (api.newChannel ch n) = none
  newChannel_future : ∀ ch n t,
    api.getFutureJob (api.newChannel ch n) t = none
  newChannel_size : ∀ ch n, api.getFullExtranonceSize (api.newChannel ch n) = n
  newTemplate_ok : ∀ c t outs, t.Affords outs →
    t.futureTemplate = true ∨ (api.getChainTip c).isSome → (api.onNewTemplate c t outs).isSome
  newTemplate_job : ∀ c t outs c', api.onNewTemplate c t outs = some c' →
    ∃ j, api.templateJob c' t = some j ∧ j.template = t ∧ j.coinbaseOutputs = outs
  newTemplate_tip : ∀ c t outs c', api.onNewTemplate c t outs = some c' →
    api.getChainTip c' = api.getChainTip c ∧
    api.getFullExtranonceSize c' = api.getFullExtranonceSize c
  newTemplate_active : ∀ c t outs c', api.onNewTemplate c t outs = some c' →
    t.futureTemplate = true → api.getActiveJob c' = api.getActiveJob c
  newTemplate_future : ∀ c t outs c', api.onNewTemplate c t outs = some c' →
    t.futureTemplate = false → api.getFutureJob c' = api.getFutureJob c
  setNewPrevHash_ok : ∀ c p, (api.getFutureJob c p.templateId).isSome ∨
    (∀ t, api.getFutureJob c t = none) → (api.onSetNewPrevHash c p).isSome
  setNewPrevHash_tip : ∀ c p c', api.onSetNewPrevHash c p = some c' →
    api.getChainTip c' = some p ∧
    api.getFullExtranonceSize c' = api.getFullExtranonceSize c
  setNewPrevHash_active : ∀ c p c' j, api.onSetNewPrevHash c p = some c' →
    api.getFutureJob c p.templateId = some j → api.getActiveJob c' = some j
  groupJob_ok : ∀ c j, j.template.futureTemplate = true ∨ (api.getChainTip c).isSome →
    (api.onGroupChannelJob c j).isSome
  groupJob_tip : ∀ c j c', api.onGroupChannelJob c j = some c' →
    api.getChainTip c' = api.getChainTip c
  groupJob_future : ∀ c j c', api.onGroupChannelJob c j = some c' →
    if j.template.futureTemplate then
      ∃ k, api.getFutureJob c' j.template.templateId = some k ∧ k.template = j.template
    else api.getFutureJob c' = api.getFutureJob c
  addChannelId_ok : ∀ c ch, (api.addChannelId c ch (api.getFullExtranonceSize c)).isSome
  addChannelId_jobs : ∀ c ch n c', api.addChannelId c ch n = some c' → api.SameJobs c c'
  removeChannelId_jobs : ∀ c ch, api.SameJobs c (api.removeChannelId c ch)

end ChannelsSv2

/-! ## A reference implementation -/

/-- The jobs of a channel, and the members if it is a group channel. -/
structure ReferenceChannel where
  channelId : ChannelId
  fullExtranonceSize : Nat
  chainTip : Option SetNewPrevHash
  activeJob : Option Job
  futureJobs : KeyMap TemplateId Job
  nextJobId : JobId
  members : List ChannelId

namespace ReferenceChannel

def onNewTemplate (c : ReferenceChannel) (t : NewTemplate) (outs : List TxOut) :
    Option ReferenceChannel :=
  let job : Job := ⟨c.nextJobId, t, outs⟩
  if ¬ t.Affords outs then none
  else if t.futureTemplate then
    some { c with
      futureJobs := c.futureJobs.insert t.templateId job
      nextJobId := c.nextJobId + 1 }
  else if c.chainTip.isSome then
    some { c with activeJob := some job, nextJobId := c.nextJobId + 1 }
  else none

def onSetNewPrevHash (c : ReferenceChannel) (p : SetNewPrevHash) : Option ReferenceChannel :=
  match c.futureJobs.lookup p.templateId with
  | some job => some { c with chainTip := some p, activeJob := some job, futureJobs := ∅ }
  | none => if c.futureJobs.keys = [] then some { c with chainTip := some p } else none

def onGroupChannelJob (c : ReferenceChannel) (job : Job) : Option ReferenceChannel :=
  if job.template.futureTemplate then
    some { c with futureJobs := c.futureJobs.insert job.template.templateId job }
  else if c.chainTip.isSome then some { c with activeJob := some job }
  else none

end ReferenceChannel

def referenceChannels : ChannelsSv2 ReferenceChannel where
  newChannel channelId size := ⟨channelId, size, none, none, ∅, 1, []⟩
  onNewTemplate := ReferenceChannel.onNewTemplate
  onSetNewPrevHash := ReferenceChannel.onSetNewPrevHash
  onGroupChannelJob := ReferenceChannel.onGroupChannelJob
  getFutureJob c t := c.futureJobs.lookup t
  getActiveJob := ReferenceChannel.activeJob
  getChainTip := ReferenceChannel.chainTip
  getFullExtranonceSize := ReferenceChannel.fullExtranonceSize
  addChannelId c channelId size :=
    if size = c.fullExtranonceSize then some { c with members := channelId :: c.members } else none
  removeChannelId c channelId := { c with members := c.members.filter (· ≠ channelId) }
  isEmpty c := c.members.isEmpty

theorem ReferenceChannel.onNewTemplate_some {c c' : ReferenceChannel} {t : NewTemplate}
    {outs : List TxOut} (h : c.onNewTemplate t outs = some c') :
    t.Affords outs ∧
      (if t.futureTemplate then
        some { c with
          futureJobs := c.futureJobs.insert t.templateId ⟨c.nextJobId, t, outs⟩
          nextJobId := c.nextJobId + 1 }
      else if c.chainTip.isSome then
        some { c with activeJob := some ⟨c.nextJobId, t, outs⟩, nextJobId := c.nextJobId + 1 }
      else none) = some c' := by
  unfold onNewTemplate at h
  dsimp only at h
  split at h
  · cases h
  next ha => exact ⟨by simpa using ha, h⟩

theorem referenceChannels_lawful : referenceChannels.Lawful where
  newChannel_tip _ _ := rfl
  newChannel_future _ _ _ := rfl
  newChannel_size _ _ := rfl
  newTemplate_ok c t outs ha h := by
    simp only [referenceChannels, ReferenceChannel.onNewTemplate, ha, not_true, if_false] at h ⊢
    rcases h with h | h
    · simp [h]
    · simp only [h, if_true]
      split <;> rfl
  newTemplate_job c t outs c' h := by
    obtain ⟨-, h⟩ := ReferenceChannel.onNewTemplate_some h
    split at h
    next hf =>
      cases h
      simp [ChannelsSv2.templateJob, referenceChannels, hf]
    next hf =>
      split at h
      · cases h
        simp [ChannelsSv2.templateJob, referenceChannels, hf]
      · cases h
  newTemplate_tip c t outs c' h := by
    obtain ⟨-, h⟩ := ReferenceChannel.onNewTemplate_some h
    split at h
    · cases h
      exact ⟨rfl, rfl⟩
    · split at h <;> cases h
      exact ⟨rfl, rfl⟩
  newTemplate_active c t outs c' h hf := by
    obtain ⟨-, h⟩ := ReferenceChannel.onNewTemplate_some h
    rw [if_pos hf] at h
    cases h
    rfl
  newTemplate_future c t outs c' h hf := by
    obtain ⟨-, h⟩ := ReferenceChannel.onNewTemplate_some h
    simp only [hf, Bool.false_eq_true, if_false] at h
    split at h <;> cases h
    rfl
  setNewPrevHash_ok c p h := by
    simp only [referenceChannels, ReferenceChannel.onSetNewPrevHash] at h ⊢
    rcases h with h | h
    · obtain ⟨j, hj⟩ := Option.isSome_iff_exists.mp h
      simp [hj]
    · rw [h p.templateId]
      have hkeys : c.futureJobs.keys = [] := by
        rw [List.eq_nil_iff_forall_not_mem]
        intro t ht
        have hsome := AList.lookup_isSome.mpr (AList.mem_keys.mpr ht)
        rw [h t] at hsome
        cases hsome
      simp [hkeys]
  setNewPrevHash_tip c p c' h := by
    simp only [referenceChannels, ReferenceChannel.onSetNewPrevHash] at h
    split at h
    · cases h
      exact ⟨rfl, rfl⟩
    · split at h <;> cases h
      exact ⟨rfl, rfl⟩
  setNewPrevHash_active c p c' j h hj := by
    simp only [referenceChannels, ReferenceChannel.onSetNewPrevHash] at h hj
    rw [hj] at h
    cases h
    rfl
  groupJob_ok c j h := by
    simp only [referenceChannels, ReferenceChannel.onGroupChannelJob] at h ⊢
    rcases h with h | h
    · simp [h]
    · simp only [h, if_true]
      split <;> rfl
  groupJob_tip c j c' h := by
    simp only [referenceChannels, ReferenceChannel.onGroupChannelJob] at h
    split at h
    · cases h
      rfl
    · split at h <;> cases h
      rfl
  groupJob_future c j c' h := by
    simp only [referenceChannels, ReferenceChannel.onGroupChannelJob] at h ⊢
    split at h
    next hf =>
      cases h
      simp [hf]
    next hf =>
      split at h <;> cases h
      simp [hf]
  addChannelId_ok c ch := by
    simp [referenceChannels]
  addChannelId_jobs c ch n c' h := by
    simp only [referenceChannels] at h
    split at h <;> cases h
    exact ⟨rfl, rfl, rfl, rfl⟩
  removeChannelId_jobs _ _ := ⟨rfl, rfl, rfl, rfl⟩

end Sv2Apps
