/-
  Jdc/PoolChannel.lean
  ====================
  **The channel to the pool comes first** — a miner has a channel only once the client has a
  prev-hash and a channel to the pool (`PoolInv`), so that a share that a miner's channel accepts
  is never without one.
-/
import Sv2Apps.Jdc.JobTemplates

namespace Sv2Apps.Jdc

open Bitcoin

namespace LoopTask

/-- The channel to the pool has come, and the requests that waited for it are not all handled. -/
def isReplaying : LoopTask → Bool
  | .openSuccess _ _ _ _ => true
  | .pending _ => true
  | _ => false

theorem isReplaying_of_isCalm {l : LoopTask} (h : l.isCalm = true) : l.isReplaying = false := by
  cases l <;> first | rfl | cases h

theorem isReplaying_of_waiting {l : LoopTask} (h : l.waiting ≠ []) : l.isReplaying = true := by
  cases l <;> first | rfl | exact absurd rfl h

end LoopTask

namespace ChannelManager

variable {env : Env} {s s' : ChannelManager} {d : DownstreamId}

/-- Open requests wait, and none of them is being handled. -/
def NotConnected (s : ChannelManager) : Prop :=
  (s.upstreamState = .noChannel ∨ s.upstreamState = .pending) ∧ s.loop.isReplaying = false

structure PoolInv (s : ChannelManager) : Prop where
  prevHash : ∀ d k ch c, s.IsOpen d k ch c → s.lastNewPrevHash.isSome = true
  upstream : s.loop.isStopped = true ∨ s.upstreamChannel.isSome = true ∨
    (s.NotConnected ∧ ∀ d k ch c, ¬ s.IsOpen d k ch c)

theorem poolInv_start (outs : Option (List TxOut)) : PoolInv (start outs) := by
  have hnone : ∀ d k ch c, ¬ (start outs).IsOpen d k ch c := by
    rintro d k ch c ⟨ds, hds, -⟩
    cases hds
  exact ⟨fun d k ch c hc => absurd hc (hnone d k ch c), Or.inr (Or.inr ⟨⟨Or.inl rfl, rfl⟩, hnone⟩)⟩

/-- The pool stays reached, and is not reached without a channel to it. -/
structure PoolKept (s s' : ChannelManager) : Prop where
  prevHash : s.lastNewPrevHash.isSome = true → s'.lastNewPrevHash.isSome = true
  upstream : s.upstreamChannel.isSome = true →
    s'.loop.isStopped = true ∨ s'.upstreamChannel.isSome = true
  quiet : s.NotConnected →
    s'.loop.isStopped = true ∨ s'.upstreamChannel.isSome = true ∨ s'.NotConnected

namespace PoolKept

theorem of_eq (hp : s'.lastNewPrevHash = s.lastNewPrevHash)
    (hu : s'.upstreamChannel = s.upstreamChannel) (hstate : s'.upstreamState = s.upstreamState)
    (hloop : s.loop.isReplaying = false → s'.loop.isReplaying = false) : PoolKept s s' := by
  refine ⟨?_, ?_, ?_⟩
  · rw [hp]
    exact id
  · rw [hu]
    exact Or.inr
  · rintro ⟨hs, hw⟩
    rw [← hstate] at hs
    exact Or.inr (Or.inr ⟨hs, hloop hw⟩)

theorem refl (s : ChannelManager) : PoolKept s s := .of_eq rfl rfl rfl id

theorem fail (s : ChannelManager) (f : Fault) : PoolKept s (s.fail f) := by
  cases f <;> exact .of_eq rfl rfl rfl fun _ => rfl

theorem of_calmStep (h : CalmStep s s') : PoolKept s s' := by
  have hu : s'.upstreamChannel.isSome = s.upstreamChannel.isSome := by
    have hlayout := congrArg Option.isSome h.upstream
    rwa [upstreamLayout, upstreamLayout, Option.isSome_map, Option.isSome_map] at hlayout
  refine ⟨h.prevHash, ?_, ?_⟩
  · rw [hu]
    exact Or.inr
  · rintro ⟨hs, -⟩
    rw [← h.state] at hs
    exact Or.inr (Or.inr ⟨hs, LoopTask.isReplaying_of_isCalm h.loop⟩)

/-- The end of a message whose handler leaves the pool alone. -/
theorem conclude {r : Except Fault ChannelManager}
    (hr : ∀ s', r = .ok s' → s'.lastNewPrevHash = s.lastNewPrevHash ∧
      s'.upstreamChannel = s.upstreamChannel ∧ s'.upstreamState = s.upstreamState) :
    PoolKept s (s.conclude r) := by
  cases r with
  | error f => exact .fail s f
  | ok s₁ =>
    obtain ⟨hp, hu, hstate⟩ := hr s₁ rfl
    exact .of_eq hp hu hstate fun _ => rfl

end PoolKept

theorem Opens.pool {r : PendingRequest} {ans : OpenAnswers} (h : Opens s r ans s') :
    s'.lastNewPrevHash = s.lastNewPrevHash ∧ s'.upstreamChannel = s.upstreamChannel ∧
      s'.upstreamState = s.upstreamState := by
  cases h <;> exact ⟨rfl, rfl, rfl⟩

theorem SharesMoved.pool (h : SharesMoved s s') :
    s'.lastNewPrevHash = s.lastNewPrevHash ∧ s'.upstreamChannel = s.upstreamChannel ∧
      s'.upstreamState = s.upstreamState := by
  obtain ⟨ms, fw, cs, ac, vs, -, rfl⟩ := h
  exact ⟨rfl, rfl, rfl⟩

theorem handle_pool (hloop : s.loop = .idle) (e : Event) : PoolKept s (s.handle env e) := by
  by_cases hcalm : e.isCalm = true
  · exact .of_calmStep (@handle_calm env s e hcalm hloop)
  cases e with
  | openExtendedMiningChannelSuccess msg ans =>
    have hcases := receiveOpenSuccess_cases env s msg ans
    simp only [ChannelManager.handle]
    generalize s.receiveOpenSuccess env msg ans = s' at hcases ⊢
    have hclosed : ∀ wrapped, PoolKept s
        ({ s with sizeWrapped := wrapped }.closeUpstream msg.channelId) := by
      intro wrapped
      refine ⟨id, Or.inr, ?_⟩
      rintro ⟨-, hw⟩
      exact Or.inr (Or.inr ⟨Or.inl rfl, hw⟩)
    cases hcases with
    | failed f wrapped hf =>
      have h := PoolKept.fail { s with sizeWrapped := wrapped } f
      exact ⟨h.prevHash, h.upstream, h.quiet⟩
    | noRequest _ => exact hclosed s.sizeWrapped
    | refused _ => exact hclosed _
    | configured raw s₁ customJob hraw hsize hpending hallocator hjob =>
      refine ⟨?_, fun _ => Or.inr rfl, fun _ => Or.inr (Or.inl rfl)⟩
      obtain ⟨tokens, n, jobs, rfl⟩ := openCustomJob_frame hjob
      exact id
  | setExtranoncePrefix extranoncePrefix accepts built =>
    simp only [ChannelManager.handle, ChannelManager.receiveSetExtranoncePrefix]
    split
    · exact .refl s
    split
    · exact .fail s _
    · refine ⟨?_, fun _ => Or.inr ?_, fun _ => Or.inr (Or.inl ?_)⟩
      · split
        · exact id
        · split <;> exact id
      · split
        · rfl
        · split <;> rfl
      · split
        · rfl
        · split <;> rfl
  | closeUpstreamChannel => exact ⟨id, fun _ => Or.inl rfl, fun _ => Or.inl rfl⟩
  | openChannel r ans =>
    simp only [ChannelManager.handle, ChannelManager.handleDownstreamOpen]
    have hnow : PoolKept s
        ({ s with openRequests := r :: s.openRequests }.handleOpenNow r ans) := by
      unfold ChannelManager.handleOpenNow
      obtain ⟨wrapped, hrecord⟩ :=
        recordRollableSize_calm { s with openRequests := r :: s.openRequests } r ans
      rw [hrecord]
      have h := @PoolKept.conclude
        { s with openRequests := r :: s.openRequests, sizeWrapped := wrapped }
        (handleOpen { s with openRequests := r :: s.openRequests, sizeWrapped := wrapped } r ans)
        fun s' hs' => (handleOpen_opens hs').pool
      exact ⟨h.prevHash, h.upstream, h.quiet⟩
    split
    · refine ⟨id, Or.inr, ?_⟩
      rintro ⟨-, hw⟩
      exact Or.inr (Or.inr ⟨Or.inr rfl, hw⟩)
    next hstate => exact .of_eq rfl rfl rfl id
    · exact hnow
    · exact hnow
  | closeChannel d channelId =>
    refine .conclude ?_
    intro s' hs'
    unfold handleCloseChannel at hs'
    split at hs'
    · cases hs'
    · cases hs'
      exact ⟨rfl, rfl, rfl⟩
  | submitSharesStandard d channelId jobId ans upstream =>
    exact .conclude fun s' hs' => (handleSubmitShares_moves hs').pool
  | submitSharesExtended d channelId jobId extranonce ans upstream =>
    exact .conclude fun s' hs' => (handleSubmitShares_moves hs').pool
  | _ => exact absurd rfl hcalm

theorem visitNewTemplate_pool {t : NewTemplate} {ctx : TemplateContext} {ds : Downstream}
    {ans : TemplateAnswers} {out : List Message}
    (h : s.visitNewTemplate t ctx d ds ans = .ok (s', out)) :
    s'.lastNewPrevHash = s.lastNewPrevHash ∧ s'.upstreamChannel = s.upstreamChannel ∧
      s'.upstreamState = s.upstreamState := by
  obtain ⟨ds', jobs, notices, -, -, rfl, -⟩ := visitNewTemplate_ok h
  obtain ⟨n, store, heq⟩ := templateCustomJob_frame s t ctx ans.customJobBuilt
  rw [heq]
  exact ⟨rfl, rfl, rfl⟩

theorem visit_pool (d : DownstreamId) (ans : VisitAnswers) : PoolKept s (s.visit d ans) := by
  unfold ChannelManager.visit
  split
  · exact .refl s
  split
  · split
    · exact .refl s
    split
    · exact .fail s _
    next s₁ ms hs₁ =>
      obtain ⟨hp, hu, hstate⟩ := visitNewTemplate_pool hs₁
      exact .of_eq hp hu hstate fun _ => rfl
  · split
    · exact .refl s
    split
    · exact .fail s _
    next s₁ ms hs₁ =>
      obtain ⟨jobs, rfl, -⟩ := visitSetNewPrevHash_ok hs₁
      exact .of_eq rfl rfl rfl fun _ => rfl
  next hloop =>
    split
    · exact .refl s
    split
    · refine .of_eq rfl rfl rfl ?_
      rw [hloop]
      exact fun h => h
    · exact .fail s _
  · split
    · exact .refl s
    · exact .of_eq rfl rfl rfl fun _ => rfl
  · exact .refl s

theorem finish_pool (env : Env) (s : ChannelManager) : PoolKept s (s.finish env) := by
  have htoken : ∀ b : Bool, (if b then s.allocateToken else s).lastNewPrevHash = s.lastNewPrevHash ∧
      (if b then s.allocateToken else s).upstreamChannel = s.upstreamChannel ∧
      (if b then s.allocateToken else s).upstreamState = s.upstreamState := by
    intro b
    cases b <;> exact ⟨rfl, rfl, rfl⟩
  unfold ChannelManager.finish
  split
  · split
    · obtain ⟨hp, hu, hstate⟩ := htoken _
      exact .of_eq hp hu hstate fun _ => rfl
    · exact .refl s
  · split
    · obtain ⟨hp, hu, hstate⟩ := htoken _
      exact .of_eq hp hu hstate fun _ => rfl
    · exact .refl s
  next hloop =>
    split
    · have hsame : ∀ customJob, (s.finishOpenSuccess env customJob).lastNewPrevHash =
          s.lastNewPrevHash ∧
          (s.finishOpenSuccess env customJob).upstreamChannel = s.upstreamChannel := by
        intro customJob
        unfold finishOpenSuccess sendOpenCustomJob requestFutureTemplate
        split <;> split <;> exact ⟨rfl, rfl⟩
      obtain ⟨hp, hu⟩ := hsame _
      refine ⟨?_, ?_, ?_⟩
      · rw [hp]
        exact id
      · rw [hu]
        exact Or.inr
      · rintro ⟨-, hreplaying⟩
        rw [hloop] at hreplaying
        cases hreplaying
    · exact .refl s
  · split
    · exact .of_eq rfl rfl rfl fun _ => rfl
    · exact .refl s
  · exact .refl s

theorem step_pool (env : Env) (s : ChannelManager) (a : Action) : PoolKept s (s.step env a) := by
  cases a with
  | event e =>
    simp only [ChannelManager.step]
    split
    next htakes => exact handle_pool (takes_idle htakes) e
    · exact .refl s
  | visit d ans => exact visit_pool d ans
  | finish => exact finish_pool env s
  | handlePending ans =>
    simp only [ChannelManager.step, ChannelManager.handlePending]
    split
    next r rest hloop =>
      obtain ⟨wrapped, hrecord⟩ := recordRollableSize_calm s r ans
      rw [hrecord]
      split
      next f hf =>
        have h := PoolKept.fail { s with sizeWrapped := wrapped } f
        exact ⟨h.prevHash, h.upstream, h.quiet⟩
      next s₁ hs₁ =>
        obtain ⟨hp, hu, hstate⟩ := (handleOpen_opens hs₁).pool
        refine .of_eq hp hu hstate ?_
        rw [hloop]
        exact fun h => absurd h (by simp [LoopTask.isReplaying])
    · exact .refl s
  | accept =>
    simp only [ChannelManager.step, ChannelManager.accept]
    split <;> exact .of_eq rfl rfl rfl id
  | bootstrap d built =>
    simp only [ChannelManager.step, ChannelManager.bootstrap]
    split
    · split
      · split <;> exact .of_eq rfl rfl rfl id
      · exact .of_eq rfl rfl rfl id
      · exact .of_eq rfl rfl rfl id
    · exact .refl s
  | register d =>
    simp only [ChannelManager.step, ChannelManager.register]
    split <;> exact .of_eq rfl rfl rfl id
  | setUpConnection d requireStdJob => exact .of_eq rfl rfl rfl id
  | removeDownstream d => exact .of_eq rfl rfl rfl id

/-- A channel that is open after a step was open, or is opened by it. -/
theorem isOpen_step (env : Env) (s : ChannelManager) (a : Action) {k : ChannelKind} {ch : ChannelId}
    {c' : Channel} (h : (s.step env a).IsOpen d k ch c') :
    (∃ c, s.IsOpen d k ch c) ∨ s.lastNewPrevHash.isSome = true ∧ s.OpensNow := by
  have hmove := step_move env s a
  generalize s.step env a = s' at hmove h
  obtain ⟨ds', hds', hc'⟩ := h
  cases hmove with
  | kept hkept =>
    rcases hkept.connections d ds' hds' with ⟨ds, hds, hk⟩ | ⟨size, rfl, -⟩
    · exact Or.inl ⟨c', ds, hds, hk.channels k ch c' hc'⟩
    · cases k <;> cases hc'
  | opened r ans ds ds₁ k₁ extranoncePrefix t raw outs jobId ha hds hs' hnew hallocation hjob ht hraw
      houts hmap p hp haccepted hstd hready => exact Or.inr ⟨Option.isSome_of_eq_some hp, hready⟩
  | gotTemplate t ctx present visited messages ds ds₁ groupJob jobs hloop hnew hds hs' hgroup htakes =>
    rcases lookup_of_insert hs' hds' with ⟨rfl, rfl⟩ | ⟨-, hold⟩
    · have hrel := htakes.channels k ch
      rw [hc'] at hrel
      obtain ⟨c, hc, -⟩ := rel_some_right hrel
      exact Or.inl ⟨c, ds, hds, hc⟩
    · exact Or.inl ⟨c', ds', hold, hc'⟩
  | activated p consumed present visited messages ds jobs hloop hnew hds hs' =>
    rcases lookup_of_insert hs' hds' with ⟨rfl, rfl⟩ | ⟨-, hold⟩
    · obtain ⟨c, hc, -⟩ := Downstream.lookup_activate hc'
      exact Or.inl ⟨c, ds, hds, hc⟩
    · exact Or.inl ⟨c', ds', hold, hc'⟩
  | renewed present visited renewals ds hloop hnew hds hs' =>
    rcases lookup_of_insert hs' hds' with ⟨rfl, rfl⟩ | ⟨-, hold⟩
    · obtain ⟨c, hc, -⟩ := lookup_renewed hc'
      exact Or.inl ⟨c, ds, hds, hc⟩
    · exact Or.inl ⟨c', ds', hold, hc'⟩

theorem not_opensNow (h : s.NotConnected) : ¬ s.OpensNow := by
  obtain ⟨hstate, hreplaying⟩ := h
  rintro (hw | ⟨-, hconnected | hsolo⟩)
  · rw [LoopTask.isReplaying_of_waiting hw] at hreplaying
    cases hreplaying
  · rcases hstate with hstate | hstate <;> rw [hstate] at hconnected <;> cases hconnected
  · rcases hstate with hstate | hstate <;> rw [hstate] at hsolo <;> cases hsolo

theorem PoolInv.step (h : PoolInv s) (a : Action) : PoolInv (s.step env a) := by
  have hkept := step_pool env s a
  refine ⟨?_, ?_⟩
  · intro d k ch c' hc'
    apply hkept.prevHash
    rcases isOpen_step env s a hc' with ⟨c, hc⟩ | ⟨hp, -⟩
    · exact h.prevHash d k ch c hc
    · exact hp
  · rcases h.upstream with hstopped | hup | ⟨hquiet, hnone⟩
    · exact Or.inl (stopped_step hstopped a)
    · rcases hkept.upstream hup with hstopped | hup
      · exact Or.inl hstopped
      · exact Or.inr (Or.inl hup)
    · rcases hkept.quiet hquiet with hstopped | hup | hquiet'
      · exact Or.inl hstopped
      · exact Or.inr (Or.inl hup)
      · refine Or.inr (Or.inr ⟨hquiet', ?_⟩)
        intro d k ch c' hc'
        rcases isOpen_step env s a hc' with ⟨c, hc⟩ | ⟨-, hready⟩
        · exact hnone d k ch c hc
        · exact not_opensNow hquiet hready

end ChannelManager

end Sv2Apps.Jdc
