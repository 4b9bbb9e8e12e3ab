/-
  Jdc/PrevHashVisits.lean
  =======================
  **A prev-hash comes to the connections one after another** — while `handle_set_new_prev_hash` is
  at work, the channels of the connections it has not come to are still at the tip before
  (`Awaits`).  `step_prevHash` says how a step moves the last prev-hash and the connections that
  await it.
-/
import Sv2Apps.Jdc.OpenChannels

namespace Sv2Apps.Jdc

open Bitcoin

/-- A prev-hash is being handled. -/
def LoopTask.isPrevHash : LoopTask → Bool
  | .setNewPrevHash _ _ _ _ _ => true
  | _ => false

/-- The connections that the handler of a prev-hash has still to come to. -/
def LoopTask.awaiting : LoopTask → List DownstreamId
  | .setNewPrevHash _ _ present visited _ => present.filter fun d => decide (d ∉ visited)
  | _ => []

theorem LoopTask.awaiting_eq_nil {l : LoopTask} (h : l.isPrevHash = false) : l.awaiting = [] := by
  cases l with
  | setNewPrevHash => cases h
  | _ => rfl

namespace ChannelManager

variable {env : Env} {s s' : ChannelManager} {d : DownstreamId}

/-- The handler of the last prev-hash has still to come to the connection. -/
def Awaits (s : ChannelManager) (d : DownstreamId) : Prop := d ∈ s.loop.awaiting

theorem not_awaits (h : s.loop.isPrevHash = false) : ¬ s.Awaits d := by
  rw [Awaits, LoopTask.awaiting_eq_nil h]
  exact List.not_mem_nil

/-- What a step does to the last prev-hash. -/
inductive PrevHashMove (s : ChannelManager) : Action → ChannelManager → Prop
  | stopped {a : Action} {s' : ChannelManager} (h : s'.loop.isStopped = true) : PrevHashMove s a s'
  | announced {a : Action} {s' : ChannelManager} (p : SetNewPrevHash) (tokenConsumed : Bool)
      (messages : List Message)
      (hloop : s'.loop = .setNewPrevHash p tokenConsumed s'.downstream.keys [] messages)
      (hlast : s'.lastNewPrevHash = some p) : PrevHashMove s a s'
  | activated {d : DownstreamId} {ans : VisitAnswers} {s' : ChannelManager} (p : SetNewPrevHash)
      (tokenConsumed : Bool) (present visited : List DownstreamId) (messages messages' : List Message)
      (ds : Downstream) (hloop : s.loop = .setNewPrevHash p tokenConsumed present visited messages)
      (hds : s.downstream.lookup d = some ds)
      (hs' : s'.downstream = s.downstream.insert d (ds.activate ans.prevHash))
      (hloop' : s'.loop = .setNewPrevHash p tokenConsumed present (d :: visited) messages')
      (hlast : s'.lastNewPrevHash = s.lastNewPrevHash) : PrevHashMove s (.visit d ans) s'
  /-- The handler of a prev-hash is done, or not at work, or has not gone on. -/
  | kept {a : Action} {s' : ChannelManager} (hlast : s'.lastNewPrevHash = s.lastNewPrevHash)
      (hawaits : ∀ d, (s'.downstream.lookup d).isSome = true → s.Awaits d → s'.Awaits d)
      (hloop : s'.loop.isPrevHash = true → s'.loop = s.loop) : PrevHashMove s a s'

namespace PrevHashMove

/-- A step that leaves the loop where it is. -/
theorem of_loop {a : Action} (hlast : s'.lastNewPrevHash = s.lastNewPrevHash)
    (hloop : s'.loop = s.loop) : PrevHashMove s a s' := by
  refine .kept hlast ?_ fun _ => hloop
  intro d _ h
  rw [Awaits, hloop]
  exact h

theorem refl (s : ChannelManager) (a : Action) : PrevHashMove s a s := .of_loop rfl rfl

/-- A step between other handlers. -/
theorem of_other {a : Action} (hlast : s'.lastNewPrevHash = s.lastNewPrevHash)
    (hloop : s.loop.isPrevHash = false) (hloop' : s'.loop.isPrevHash = false) :
    PrevHashMove s a s' := by
  refine .kept hlast ?_ ?_
  · intro d _ h
    exact absurd h (not_awaits hloop)
  · intro hprevHash
    rw [hloop'] at hprevHash
    cases hprevHash

end PrevHashMove

/-! ## Other messages -/

theorem fail_prevHash (s : ChannelManager) (f : Fault) :
    (s.fail f).lastNewPrevHash = s.lastNewPrevHash ∧ (s.fail f).loop.isPrevHash = false := by
  cases f <;> exact ⟨rfl, rfl⟩

theorem conclude_prevHash {r : Except Fault ChannelManager}
    (hr : ∀ s', r = .ok s' → s'.lastNewPrevHash = s.lastNewPrevHash) :
    (s.conclude r).lastNewPrevHash = s.lastNewPrevHash ∧
      (s.conclude r).loop.isPrevHash = false := by
  cases r with
  | error f => exact fail_prevHash s f
  | ok s₁ => exact ⟨hr s₁ rfl, rfl⟩

theorem Opens.prevHash {r : PendingRequest} {ans : OpenAnswers} (h : Opens s r ans s') :
    s'.lastNewPrevHash = s.lastNewPrevHash := by
  cases h <;> rfl

theorem SharesMoved.prevHash (h : SharesMoved s s') : s'.lastNewPrevHash = s.lastNewPrevHash := by
  obtain ⟨ms, fw, cs, ac, vs, -, rfl⟩ := h
  rfl

theorem handleSetCustomMiningJobSuccess_prevHash {requestId : RequestId} {jobId : JobId}
    {ack : AcknowledgementAnswer} {answers : List UpstreamShareAnswer}
    (hloop : s.loop.isPrevHash = false) :
    (s.handleSetCustomMiningJobSuccess requestId jobId ack answers).lastNewPrevHash =
        s.lastNewPrevHash ∧
      (s.handleSetCustomMiningJobSuccess requestId jobId ack answers).loop.isPrevHash = false := by
  have hcases := handleSetCustomMiningJobSuccess_cases s requestId jobId ack answers
  generalize s.handleSetCustomMiningJobSuccess requestId jobId ack answers = s' at hcases ⊢
  cases hcases with
  | unknown => exact fail_prevHash s _
  | dropped job f hjob hf => exact fail_prevHash (s.completeJob requestId jobId _) f
  | noShares job u hjob hup => exact ⟨rfl, hloop⟩
  | shares job u p cs hjob hup hp hcs =>
    obtain ⟨s₂, hmoved, hend⟩ := @validateCachedShares_moves
      (s.acknowledged requestId jobId job.template.templateId u) p (u.acknowledge jobId) jobId
      answers cs
    have hlast : s₂.lastNewPrevHash = s.lastNewPrevHash := hmoved.prevHash
    rcases hend with heq | heq
    · rw [heq, hmoved.loop]
      exact ⟨hlast, hloop⟩
    · rw [heq]
      exact ⟨(fail_prevHash s₂ _).1.trans hlast, (fail_prevHash s₂ _).2⟩

theorem handleRequestTxDataSuccess_prevHash {templateId : TemplateId} {txs : List Bytes}
    {coinbase : Option (Bytes × Bytes)} (hloop : s.loop.isPrevHash = false) :
    (s.handleRequestTxDataSuccess env templateId txs coinbase).lastNewPrevHash =
        s.lastNewPrevHash ∧
      (s.handleRequestTxDataSuccess env templateId txs coinbase).loop.isPrevHash = false := by
  unfold handleRequestTxDataSuccess
  split
  · exact ⟨rfl, hloop⟩
  split
  · exact ⟨rfl, rfl⟩
  dsimp only
  split
  · exact ⟨rfl, hloop⟩
  split
  · exact ⟨rfl, rfl⟩
  split
  · exact ⟨rfl, rfl⟩
  split
  · exact ⟨rfl, rfl⟩
  split
  · exact ⟨rfl, rfl⟩
  split
  · exact ⟨rfl, rfl⟩
  · unfold declareJob
    split
    · split
      · dsimp only
        split <;> exact ⟨rfl, hloop⟩
      · exact ⟨rfl, hloop⟩
    · exact ⟨rfl, hloop⟩

theorem receiveOpenSuccess_prevHash {msg : OpenSuccess} {ans : OpenSuccessAnswers}
    (hloop : s.loop.isPrevHash = false) :
    (s.receiveOpenSuccess env msg ans).lastNewPrevHash = s.lastNewPrevHash ∧
      (s.receiveOpenSuccess env msg ans).loop.isPrevHash = false := by
  have hcases := receiveOpenSuccess_cases env s msg ans
  generalize s.receiveOpenSuccess env msg ans = s' at hcases ⊢
  cases hcases with
  | failed f wrapped hf => exact fail_prevHash { s with sizeWrapped := wrapped } f
  | noRequest _ => exact ⟨rfl, hloop⟩
  | refused _ => exact ⟨rfl, hloop⟩
  | configured raw s₁ customJob hraw hsize hpending hallocator hjob =>
    obtain ⟨tokens, n, jobs, rfl⟩ := openCustomJob_frame hjob
    exact ⟨rfl, rfl⟩

theorem handleOpenNow_prevHash {r : PendingRequest} {ans : OpenAnswers}
    {requests : List PendingRequest} :
    ({ s with openRequests := requests }.handleOpenNow r ans).lastNewPrevHash = s.lastNewPrevHash ∧
      ({ s with openRequests := requests }.handleOpenNow r ans).loop.isPrevHash = false := by
  unfold ChannelManager.handleOpenNow
  obtain ⟨wrapped, hrecord⟩ := recordRollableSize_calm { s with openRequests := requests } r ans
  rw [hrecord]
  exact conclude_prevHash fun s' hs' => (handleOpen_opens hs').prevHash

/-- Only a prev-hash changes the last one. -/
theorem handle_prevHash (hloop : s.loop.isPrevHash = false) {e : Event}
    (he : ∀ p pick built, e ≠ .setNewPrevHash p pick built) :
    (s.handle env e).lastNewPrevHash = s.lastNewPrevHash ∧
      (s.handle env e).loop.isPrevHash = false := by
  cases e with
  | setNewPrevHash p pick built => exact absurd rfl (he p pick built)
  | newTemplate t =>
    simp only [handle, receiveNewTemplate]
    split
    · exact ⟨rfl, rfl⟩
    split
    · exact ⟨rfl, rfl⟩
    · refine ⟨?_, rfl⟩
      split <;> rfl
  | requestTransactionDataSuccess t txs coinbase =>
    exact handleRequestTxDataSuccess_prevHash hloop
  | openExtendedMiningChannelSuccess msg ans => exact receiveOpenSuccess_prevHash hloop
  | setExtranoncePrefix extranoncePrefix accepts built =>
    simp only [handle, receiveSetExtranoncePrefix]
    split
    · exact ⟨rfl, hloop⟩
    split
    · exact ⟨rfl, rfl⟩
    split
    · exact ⟨rfl, rfl⟩
    split <;> exact ⟨rfl, rfl⟩
  | setCustomMiningJobSuccess requestId jobId ack answers =>
    exact handleSetCustomMiningJobSuccess_prevHash hloop
  | setCustomMiningJobError requestId stale =>
    simp only [handle, handleSetCustomMiningJobError]
    split
    · split <;> exact ⟨rfl, hloop⟩
    · exact ⟨rfl, rfl⟩
  | closeUpstreamChannel => exact ⟨rfl, rfl⟩
  | upstreamFault => exact ⟨rfl, rfl⟩
  | allocateMiningJobTokenSuccess requestId token outs =>
    simp only [handle, handleAllocateMiningJobTokenSuccess]
    split
    · split
      · exact ⟨rfl, rfl⟩
      · exact ⟨rfl, hloop⟩
    · split <;> exact ⟨rfl, hloop⟩
  | declareMiningJobSuccess requestId token built =>
    obtain heq | heq | ⟨job, p, outs, channelId, size, -, -, -, -, heq⟩ :=
      handleDeclareMiningJobSuccess_cases s requestId token built
    · rw [handle, heq]
      exact ⟨rfl, hloop⟩
    · rw [handle, heq]
      exact ⟨rfl, rfl⟩
    · rw [handle, heq]
      exact ⟨rfl, hloop⟩
  | declareMiningJobError requestId stale =>
    simp only [handle]
    split
    · exact ⟨rfl, hloop⟩
    · exact ⟨rfl, rfl⟩
  | provideMissingTransactions requestId positions =>
    simp only [handle, handleProvideMissingTransactions]
    split <;> exact ⟨rfl, hloop⟩
  | openChannel r ans =>
    simp only [handle, handleDownstreamOpen]
    split
    · exact ⟨rfl, hloop⟩
    · exact ⟨rfl, hloop⟩
    · exact handleOpenNow_prevHash
    · exact handleOpenNow_prevHash
  | closeChannel d channelId =>
    refine conclude_prevHash ?_
    intro s' hs'
    unfold handleCloseChannel at hs'
    split at hs' <;> cases hs'
    rfl
  | submitSharesStandard d channelId jobId ans upstream =>
    exact conclude_prevHash fun s' hs' => (handleSubmitShares_moves hs').prevHash
  | submitSharesExtended d channelId jobId extranonce ans upstream =>
    exact conclude_prevHash fun s' hs' => (handleSubmitShares_moves hs').prevHash

/-- Every connection that is there awaits a prev-hash that has come. -/
theorem receiveSetNewPrevHash_announces {a : Action} (p : SetNewPrevHash) (pick : RequestId)
    (built : Bool) : PrevHashMove s a (s.receiveSetNewPrevHash env p pick built) := by
  unfold receiveSetNewPrevHash
  dsimp only
  split
  · exact .stopped rfl
  split
  next f hf =>
    rw [prevHashCustomJob_error hf]
    exact .stopped rfl
  next s₂ consumed ms hjob =>
    refine .announced p consumed ms rfl ?_
    obtain ⟨rfl, -, -⟩ | ⟨t, token, tokens, -, -, -, hcase⟩ := prevHashCustomJob_ok hjob
    · rfl
    · obtain ⟨-, rfl, -, -⟩ | ⟨-, -, rfl⟩ | ⟨channelId, size, stored, -, -, -, -, rfl⟩ := hcase
      · rfl
      · rfl
      · rfl

/-! ## Steps -/

theorem visit_prevHash (d : DownstreamId) (ans : VisitAnswers) :
    PrevHashMove s (.visit d ans) (s.visit d ans) := by
  unfold ChannelManager.visit
  split
  · exact .refl s _
  next ds hds =>
  split
  next t ctx present visited messages hloop =>
    have hother : s.loop.isPrevHash = false := by rw [hloop]; rfl
    split
    · exact .refl s _
    split
    · exact .of_other (fail_prevHash s _).1 hother (fail_prevHash s _).2
    next s₁ ms hs₁ =>
      refine .of_other ?_ hother rfl
      obtain ⟨ds', jobs, notices, -, -, rfl, -⟩ := visitNewTemplate_ok hs₁
      obtain ⟨n, store, heq⟩ := templateCustomJob_frame s t ctx ans.template.customJobBuilt
      rw [heq]
  next p tokenConsumed present visited messages hloop =>
    split
    · exact .refl s _
    split
    next f hf => rcases visitSetNewPrevHash_error hf with rfl | rfl <;> exact .stopped rfl
    next s₁ ms hs₁ =>
      obtain ⟨jobs, rfl, -⟩ := visitSetNewPrevHash_ok hs₁
      exact .activated p tokenConsumed present visited messages _ ds hloop hds rfl rfl rfl
  next size customJob present visited hloop =>
    have hother : s.loop.isPrevHash = false := by rw [hloop]; rfl
    split
    · exact .refl s _
    split
    · exact .of_other rfl hother rfl
    · exact .of_other (fail_prevHash s _).1 hother (fail_prevHash s _).2
  next present visited renewals hloop =>
    have hother : s.loop.isPrevHash = false := by rw [hloop]; rfl
    split
    · exact .refl s _
    · exact .of_other rfl hother rfl
  · exact .refl s _

theorem takePending_prevHash (s : ChannelManager) :
    s.takePending.lastNewPrevHash = s.lastNewPrevHash ∧ s.takePending.loop.isPrevHash = false := by
  unfold takePending
  dsimp only
  refine ⟨rfl, ?_⟩
  split <;> rfl

theorem finish_prevHash {a : Action} : PrevHashMove s a (s.finish env) := by
  have htoken : ∀ b : Bool, (if b then s.allocateToken else s).lastNewPrevHash =
      s.lastNewPrevHash ∧ (if b then s.allocateToken else s).downstream = s.downstream := by
    intro b
    cases b <;> exact ⟨rfl, rfl⟩
  unfold ChannelManager.finish
  split
  next hloop =>
    split
    · exact .of_other (htoken _).1 (by rw [hloop]; rfl) rfl
    · exact .refl s a
  next p tokenConsumed present visited messages hloop =>
    split
    next hall =>
      -- who is still there has been visited
      refine .kept (htoken _).1 ?_ (fun h => nomatch h)
      intro d hd hawaits
      have hd : (s.downstream.lookup d).isSome = true := by
        rw [← (htoken tokenConsumed).2]
        exact hd
      rw [Awaits, hloop] at hawaits
      obtain ⟨hpresent, hnew⟩ := List.mem_filter.mp hawaits
      have hvisited := List.all_eq_true.mp hall d hpresent
      rw [Bool.or_eq_true, Option.isNone_iff_eq_none] at hvisited
      rcases hvisited with hvisited | hgone
      · simp at hnew hvisited
        exact absurd hvisited hnew
      · rw [hgone] at hd
        cases hd
    · exact .refl s a
  next hloop =>
    split
    · refine .of_other ?_ (by rw [hloop]; rfl) (takePending_prevHash _).2
      unfold finishOpenSuccess
      rw [(takePending_prevHash _).1]
      unfold sendOpenCustomJob requestFutureTemplate
      split <;> split <;> rfl
    · exact .refl s a
  next hloop =>
    split
    · exact .of_other rfl (by rw [hloop]; rfl) rfl
    · exact .refl s a
  · exact .refl s a

theorem handlePending_prevHash {a : Action} (ans : OpenAnswers) :
    PrevHashMove s a (s.handlePending ans) := by
  unfold ChannelManager.handlePending
  split
  next r rest hloop =>
    have hother : s.loop.isPrevHash = false := by rw [hloop]; rfl
    obtain ⟨wrapped, hrecord⟩ := recordRollableSize_calm s r ans
    rw [hrecord]
    dsimp only
    split
    next f hf =>
      obtain ⟨hlast, hloop'⟩ := fail_prevHash { s with sizeWrapped := wrapped } f
      exact .of_other hlast hother hloop'
    next s₁ hs₁ =>
      refine .of_other (handleOpen_opens hs₁).prevHash hother ?_
      dsimp only
      split <;> rfl
  · exact .refl s a

theorem step_prevHash (env : Env) (s : ChannelManager) (a : Action) :
    PrevHashMove s a (s.step env a) := by
  cases a with
  | event e =>
    simp only [ChannelManager.step]
    split
    next htakes =>
      have hother : s.loop.isPrevHash = false := by rw [takes_idle htakes]; rfl
      by_cases he : ∃ p pick built, e = .setNewPrevHash p pick built
      · obtain ⟨p, pick, built, rfl⟩ := he
        exact receiveSetNewPrevHash_announces p pick built
      · obtain ⟨hlast, hloop⟩ := @handle_prevHash env s hother e
          fun p pick built heq => he ⟨p, pick, built, heq⟩
        exact .of_other hlast hother hloop
    · exact .refl s _
  | visit d ans => exact visit_prevHash d ans
  | finish => exact finish_prevHash
  | handlePending ans => exact handlePending_prevHash ans
  | accept =>
    simp only [ChannelManager.step, ChannelManager.accept]
    split <;> exact .of_loop rfl rfl
  | bootstrap d built =>
    simp only [ChannelManager.step, ChannelManager.bootstrap]
    split
    · split
      · split <;> exact .of_loop rfl rfl
      · exact .of_loop rfl rfl
      · exact .of_loop rfl rfl
    · exact .refl s _
  | register d =>
    simp only [ChannelManager.step, ChannelManager.register]
    split <;> exact .of_loop rfl rfl
  | setUpConnection d requireStdJob => exact .of_loop rfl rfl
  | removeDownstream d => exact .of_loop rfl rfl

end ChannelManager

end Sv2Apps.Jdc
