/-
  Jdc/OutputsKept.lean
  ====================
  **Who touches the coinbase outputs, and who can panic** — only a token from the server replaces
  the outputs.  Unless the outputs are an empty list, and with a job factory beside every channel
  to the pool (`OutputsInv`), the only panics left are those of shares and of a coinbase that does
  not fit its fields (`step_steady`, `handleRequestTxDataSuccess_panics`).
-/
import Sv2Apps.Jdc.HandlerSpecs

namespace Sv2Apps.Jdc

open Bitcoin

namespace ChannelManager

variable {env : Env} {s s' : ChannelManager} {d : DownstreamId}

/-! ## Frames -/

/-- The outputs are as they were, a job factory is not lost, and a channel to the pool comes with
    one. -/
structure OutputsKept (s s' : ChannelManager) : Prop where
  outputs : s'.coinbaseOutputs = s.coinbaseOutputs
  factory : s.jobFactory = true → s'.jobFactory = true
  channel : s'.upstreamChannel.isSome = true →
    s.upstreamChannel.isSome = true ∨ s'.jobFactory = true

/-- And nothing has panicked. -/
structure Steady (s s' : ChannelManager) : Prop extends OutputsKept s s' where
  running : s'.loop = .stopped .panic → s.loop = .stopped .panic

/-- The outputs are not an empty list, and a channel to the pool comes with a job factory. -/
structure OutputsInv (s : ChannelManager) : Prop where
  outputs : s.coinbaseOutputs ≠ some []
  factory : s.upstreamChannel.isSome = true → s.jobFactory = true

theorem OutputsInv.of_kept (h : OutputsInv s) (hkept : OutputsKept s s') : OutputsInv s' := by
  constructor
  · rw [hkept.outputs]
    exact h.outputs
  · intro hup
    rcases hkept.channel hup with hold | hnew
    · exact hkept.factory (h.factory hold)
    · exact hnew

namespace OutputsKept

theorem of_eq (ho : s'.coinbaseOutputs = s.coinbaseOutputs) (hf : s'.jobFactory = s.jobFactory)
    (hu : s'.upstreamChannel.isSome = s.upstreamChannel.isSome) : OutputsKept s s' := by
  refine ⟨ho, ?_, ?_⟩
  · rw [hf]
    exact id
  · rw [hu]
    exact Or.inl

theorem refl (s : ChannelManager) : OutputsKept s s := .of_eq rfl rfl rfl

theorem trans {s₁ s₂ s₃ : ChannelManager} (h : OutputsKept s₁ s₂) (h' : OutputsKept s₂ s₃) :
    OutputsKept s₁ s₃ := by
  refine ⟨h'.outputs.trans h.outputs, fun hf => h'.factory (h.factory hf), ?_⟩
  intro hup
  rcases h'.channel hup with hold | hnew
  · rcases h.channel hold with hold | hnew
    · exact Or.inl hold
    · exact Or.inr (h'.factory hnew)
  · exact Or.inr hnew

theorem fail (s : ChannelManager) (f : Fault) : OutputsKept s (s.fail f) := by
  cases f <;> exact .of_eq rfl rfl rfl

theorem of_opens {r : PendingRequest} {ans : OpenAnswers} (h : Opens s r ans s') :
    OutputsKept s s' := by
  cases h <;> exact .of_eq rfl rfl rfl

theorem of_sharesMoved (h : SharesMoved s s') : OutputsKept s s' := by
  obtain ⟨ms, fw, cs, ac, vs, -, rfl⟩ := h
  exact .of_eq rfl rfl rfl

theorem conclude {r : Except Fault ChannelManager} (hr : ∀ s', r = .ok s' → OutputsKept s s') :
    OutputsKept s (s.conclude r) := by
  cases r with
  | error f => exact .fail s f
  | ok s₁ => exact (hr s₁ rfl).trans (.of_eq rfl rfl rfl)

end OutputsKept

namespace Steady

theorem refl (s : ChannelManager) : Steady s s := ⟨.refl s, id⟩

/-- A handler that leaves the loop as it was, or at work. -/
theorem of_kept (h : OutputsKept s s') (hloop : s'.loop ≠ .stopped .panic) : Steady s s' :=
  ⟨h, fun hp => absurd hp hloop⟩

/-- An error other than a panic. -/
theorem fail (h : OutputsKept s s') {f : Fault} (hf : f ≠ .panic) : Steady s (s'.fail f) := by
  refine .of_kept (h.trans (.fail s' f)) ?_
  cases f with
  | panic => exact absurd rfl hf
  | _ => simp [ChannelManager.fail]

/-- The end of a message that keeps the outputs and does not panic. -/
theorem conclude {r : Except Fault ChannelManager} (h : OutputsKept s s')
    (hr : ∀ s₁, r = .ok s₁ → OutputsKept s' s₁) (hf : r ≠ .error .panic) :
    Steady s (s'.conclude r) := by
  cases r with
  | error f => exact .fail h fun hpanic => hf (congrArg Except.error hpanic)
  | ok s₁ =>
    refine .of_kept (h.trans (.conclude hr)) ?_
    simp [ChannelManager.conclude]

end Steady

/-! ## Template messages -/

/-- Outputs that are not an empty list have a first one. -/
theorem OutputsInv.withFirstValue (h : OutputsInv s) {raw : List TxOut}
    (hraw : s.coinbaseOutputs = some raw) (value : UInt64) : withFirstValue value raw ≠ none := by
  cases raw with
  | nil => exact absurd hraw h.outputs
  | cons o os => simp [Jdc.withFirstValue]

theorem receiveNewTemplate_steady (h : OutputsInv s) (t : NewTemplate) :
    Steady s (s.receiveNewTemplate env t) := by
  have hreceived : OutputsKept s { s with
      history := (.newTemplate t, s.coinbaseOutputs) :: s.history
      templateStore := s.templateStore.insert t.templateId t
      lastFutureTemplate := if t.futureTemplate then some t else s.lastFutureTemplate } :=
    .of_eq rfl rfl rfl
  unfold receiveNewTemplate
  dsimp only
  split
  · exact .fail hreceived (by simp)
  next raw hraw =>
    split
    next hnone => exact absurd hnone (h.withFirstValue hraw _)
    · refine .of_kept ?_ (by simp)
      split <;> exact .of_eq rfl rfl rfl

theorem declareFutureTemplate_kept (pick : RequestId) :
    OutputsKept s (s.declareFutureTemplate env pick) := by
  obtain heq | ⟨t, requestId, job, declaration, -, -, -, -, heq⟩ :=
    declareFutureTemplate_cases env s pick
  · rw [heq]
    exact .refl s
  · rw [heq]
    exact .of_eq rfl rfl rfl

theorem prevHashCustomJob_kept {p : SetNewPrevHash} {raw : List TxOut} {built consumed : Bool}
    {ms : List Message} (h : s.prevHashCustomJob env p raw built = .ok (s', consumed, ms)) :
    OutputsKept s s' := by
  obtain ⟨rfl, -, -⟩ | ⟨t, token, tokens, -, -, -, hcase⟩ := prevHashCustomJob_ok h
  · exact .refl s'
  · obtain ⟨-, rfl, -, -⟩ | ⟨-, -, rfl⟩ | ⟨channelId, size, stored, -, -, -, -, rfl⟩ := hcase
    · exact .of_eq rfl rfl rfl
    · exact .of_eq rfl rfl rfl
    · exact .of_eq rfl rfl rfl

/-- The only error is a missing job factory. -/
theorem prevHashCustomJob_factory {p : SetNewPrevHash} {raw : List TxOut} {built : Bool} {f : Fault}
    (h : s.prevHashCustomJob env p raw built = .error f) :
    s.upstreamChannel.isSome = true ∧ s.jobFactory = false := by
  unfold prevHashCustomJob at h
  split at h
  · split at h
    · dsimp only at h
      split at h
      · cases h
      next hinfo =>
        split at h
        next hfactory =>
          refine ⟨?_, by simpa using hfactory⟩
          obtain ⟨u, hu, -⟩ := Option.map_eq_some_iff.mp hinfo
          exact Option.isSome_iff_exists.mpr ⟨u, hu⟩
        · split at h <;> cases h
    · cases h
  · cases h

theorem receiveSetNewPrevHash_steady (h : OutputsInv s) (p : SetNewPrevHash) (pick : RequestId)
    (built : Bool) : Steady s (s.receiveSetNewPrevHash env p pick built) := by
  unfold receiveSetNewPrevHash
  dsimp only
  split
  · refine .fail ?_ (show Fault.shutdown ≠ .panic by simp)
    exact .of_eq rfl rfl rfl
  have hreceived : OutputsKept s { s with
      history := (.setNewPrevHash p, s.coinbaseOutputs) :: s.history
      cachedShares := ∅ } := .of_eq rfl rfl rfl
  have hdeclared := hreceived.trans (@declareFutureTemplate_kept env _ pick)
  generalize ChannelManager.declareFutureTemplate env _ pick = s₁ at hdeclared ⊢
  have hset : OutputsKept s { s₁ with
      lastNewPrevHash := some p
      lastDeclareJobStore := KeyMap.mapValues (activate p) s₁.lastDeclareJobStore } :=
    hdeclared.trans (.of_eq rfl rfl rfl)
  split
  next f hf =>
    obtain ⟨hup, hfactory⟩ := prevHashCustomJob_factory hf
    rw [(h.of_kept hset).factory hup] at hfactory
    cases hfactory
  next s₂ consumed ms hjob =>
    exact .of_kept ((hset.trans (prevHashCustomJob_kept hjob)).trans (.of_eq rfl rfl rfl)) (by simp)

/-! ## Transaction data -/

theorem declareJob_kept {requestId : RequestId} {token : Bytes} {t : NewTemplate}
    {p : Option SetNewPrevHash} {outs : List TxOut} {txs : List Bytes} {wtxids : List Hash256}
    {coinbase : Option (Bytes × Bytes)} :
    OutputsKept s (s.declareJob requestId token t p outs txs wtxids coinbase) ∧
      (s.declareJob requestId token t p outs txs wtxids coinbase).loop = s.loop := by
  unfold declareJob
  split
  · split
    · dsimp only
      split
      · exact ⟨.of_eq rfl rfl rfl, rfl⟩
      · exact ⟨.of_eq rfl rfl rfl, rfl⟩
    · exact ⟨.refl s, rfl⟩
  · exact ⟨.refl s, rfl⟩

/-- A job would be declared for the template, and a part of its coinbase does not fit. -/
def declaresTooLong (env : Env) (s : ChannelManager) (templateId : TemplateId) (txs : List Bytes)
    (coinbase : Option (Bytes × Bytes)) : Bool :=
  decide (env.mode = .fullTemplate) && decide (s.upstreamState = .connected) &&
    s.coinbaseOutputs.isSome && !s.allocateTokens.isEmpty &&
    (s.templateStore.lookup templateId).isSome &&
    (txs.mapM env.wtxid).any (fun wtxids => decide (wtxids.length < 2 ^ 16)) &&
    s.overlongCoinbase coinbase

theorem handleRequestTxDataSuccess_steady (h : OutputsInv s) {templateId : TemplateId}
    {txs : List Bytes} {coinbase : Option (Bytes × Bytes)}
    (hfits : s.declaresTooLong env templateId txs coinbase = false) :
    Steady s (s.handleRequestTxDataSuccess env templateId txs coinbase) := by
  have hasked : Steady s { s with
      allocateTokens := s.allocateTokens.tail
      templateStore := s.templateStore.erase templateId
      requestIdFactory := s.requestIdFactory + 1 }.allocateToken := ⟨.of_eq rfl rfl rfl, id⟩
  unfold handleRequestTxDataSuccess
  split
  · exact .refl s
  next hmode =>
  obtain ⟨hfull, hconnected⟩ : env.mode = .fullTemplate ∧ s.upstreamState = .connected := by
    simpa using hmode
  split
  · exact .fail (.refl s) (by simp)
  next raw hraw =>
  dsimp only
  split
  · exact hasked
  next token htoken =>
  split
  · exact .fail hasked.toOutputsKept (by simp)
  next t ht =>
  split
  next hnone => exact absurd hnone (h.withFirstValue hraw _)
  split
  · exact .fail hasked.toOutputsKept (by simp)
  next wtxids hwtxids =>
  split
  · exact .fail hasked.toOutputsKept (by simp)
  next hcount =>
  split
  next hlong =>
    -- the job factory and the channel are those of before
    have hlong' : s.overlongCoinbase coinbase = true := hlong
    have htokens : s.allocateTokens ≠ [] := by
      intro hnil
      rw [hnil] at htoken
      cases htoken
    simp [declaresTooLong, hfull, hconnected, hraw, htokens, ht, hwtxids, hlong'] at hfits
    omega
  · obtain ⟨hkept, hloop⟩ := @declareJob_kept
      { s with
        allocateTokens := s.allocateTokens.tail
        templateStore := s.templateStore.erase templateId
        requestIdFactory := s.requestIdFactory + 1 }.allocateToken
      s.requestIdFactory token t s.lastNewPrevHash _ txs wtxids coinbase
    exact ⟨hasked.toOutputsKept.trans hkept, fun hpanic => hloop.symm.trans hpanic⟩

theorem receiveOpenSuccess_steady (msg : OpenSuccess) (ans : OpenSuccessAnswers) :
    Steady s (s.receiveOpenSuccess env msg ans) := by
  have hcases := receiveOpenSuccess_cases env s msg ans
  generalize s.receiveOpenSuccess env msg ans = s' at hcases ⊢
  cases hcases with
  | failed f wrapped hf =>
    have hwrapped : OutputsKept s { s with sizeWrapped := wrapped } := .of_eq rfl rfl rfl
    refine .fail hwrapped ?_
    rcases hf with rfl | rfl <;> simp
  | noRequest _ => exact ⟨.of_eq rfl rfl rfl, id⟩
  | refused _ => exact ⟨.of_eq rfl rfl rfl, id⟩
  | configured raw s₁ customJob hraw hsize hpending hallocator hjob =>
    refine ⟨⟨?_, fun _ => rfl, fun _ => Or.inr rfl⟩, by simp⟩
    obtain ⟨tokens, n, jobs, rfl⟩ := openCustomJob_frame hjob
    rfl

theorem receiveSetExtranoncePrefix_steady (extranoncePrefix : B032) (accepts built : Bool) :
    Steady s (s.receiveSetExtranoncePrefix extranoncePrefix accepts built) := by
  unfold receiveSetExtranoncePrefix
  split
  · exact .refl s
  next u hup =>
    have hrenewed : OutputsKept s { s with
        upstreamChannel := some { u with extranoncePrefix := extranoncePrefix.val } } := by
      refine .of_eq rfl rfl ?_
      rw [hup]
      rfl
    split
    · exact .fail (.refl s) (by simp)
    dsimp only
    split
    · exact .fail hrenewed (by simp)
    split
    · exact .fail hrenewed (by simp)
    · exact .of_kept (hrenewed.trans (.of_eq rfl rfl rfl)) (by simp)

/-! ## Opening a miner's channel -/

theorem registerExtendedChannel_no_panic (h : OutputsInv s) {ds : Downstream} {req : OpenRequest}
    {channelId : ChannelId} {extranoncePrefix : Bytes} {rollable : UInt16} {t : NewTemplate}
    {p : SetNewPrevHash} {ans : OpenAnswers} :
    s.registerExtendedChannel d ds req channelId extranoncePrefix rollable t p ans ≠
      .error .panic := by
  intro hpanic
  unfold registerExtendedChannel at hpanic
  split at hpanic
  · cases hpanic
  next raw hraw =>
  split at hpanic
  next hnone => exact h.withFirstValue hraw _ hnone
  split at hpanic
  next f hboot =>
    cases hpanic
    cases bootstrapChannel_error hboot
  · split at hpanic <;> cases hpanic

/-- A request panics only for want of a first output. -/
theorem handleOpen_no_panic (h : OutputsInv s) (r : PendingRequest) (ans : OpenAnswers) :
    s.handleOpen r ans ≠ .error .panic := by
  intro hpanic
  unfold handleOpen at hpanic
  split at hpanic
  · unfold handleOpenStandardMiningChannel at hpanic
    split at hpanic
    · cases hpanic
    next raw hraw =>
    split at hpanic
    · cases hpanic
    split at hpanic
    · cases hpanic
    split at hpanic
    next hnone => exact h.withFirstValue hraw _ hnone
    split at hpanic
    · cases hpanic
    dsimp only at hpanic
    split at hpanic
    · cases hpanic
    · cases hpanic
    split at hpanic
    · cases hpanic
    · cases hpanic
    · cases registerStandardChannel_error hpanic
  · unfold handleOpenExtendedMiningChannel at hpanic
    split at hpanic
    · cases hpanic
    split at hpanic
    · cases hpanic
    split at hpanic
    · cases hpanic
    split at hpanic
    · cases hpanic
    dsimp only at hpanic
    split at hpanic
    · cases hpanic
    · cases hpanic
    split at hpanic
    · cases hpanic
    · cases hpanic
    · exact registerExtendedChannel_no_panic h hpanic

theorem recordRollableSize_kept (r : PendingRequest) (ans : OpenAnswers) :
    OutputsKept s (s.recordRollableSize r ans) := by
  obtain ⟨wrapped, hrecord⟩ := recordRollableSize_calm s r ans
  rw [hrecord]
  exact .of_eq rfl rfl rfl

theorem handleOpenNow_steady (h : OutputsInv s) (r : PendingRequest) (ans : OpenAnswers) :
    Steady s (s.handleOpenNow r ans) := by
  have hrecord := @recordRollableSize_kept s r ans
  unfold handleOpenNow
  dsimp only
  exact .conclude hrecord (fun s₁ hs₁ => .of_opens (handleOpen_opens hs₁))
    (handleOpen_no_panic (h.of_kept hrecord) r ans)

/-! ## Shares -/

theorem handleSubmitShares_kept {kind : ShareKind} {channels : Downstream → KeyMap ChannelId Channel}
    {channelId : ChannelId} {jobId : JobId} {ans : ShareAnswer} {upstream : UpstreamShareAnswer} :
    OutputsKept s
      (s.conclude (s.handleSubmitShares kind d channels channelId jobId ans upstream)) :=
  .conclude fun _ hs' => .of_sharesMoved (handleSubmitShares_moves hs')

theorem handleSetCustomMiningJobSuccess_kept {requestId : RequestId} {jobId : JobId}
    {ack : AcknowledgementAnswer} {answers : List UpstreamShareAnswer} :
    OutputsKept s (s.handleSetCustomMiningJobSuccess requestId jobId ack answers) := by
  have hcomplete : ∀ t, OutputsKept s (s.completeJob requestId jobId t) :=
    fun _ => .of_eq rfl rfl rfl
  have hack : ∀ t u, s.upstreamChannel = some u →
      OutputsKept s (s.acknowledged requestId jobId t u) := by
    intro t u hup
    refine .of_eq rfl rfl ?_
    rw [hup]
    rfl
  have hcases := handleSetCustomMiningJobSuccess_cases s requestId jobId ack answers
  generalize s.handleSetCustomMiningJobSuccess requestId jobId ack answers = s' at hcases ⊢
  cases hcases with
  | unknown => exact .fail s _
  | dropped job f hjob hf => exact (hcomplete _).trans (.fail _ f)
  | noShares job u hjob hup => exact hack _ u hup
  | shares job u p cs hjob hup hp hcs =>
    obtain ⟨s₂, hmoved, hend⟩ := @validateCachedShares_moves
      (s.acknowledged requestId jobId job.template.templateId u) p (u.acknowledge jobId) jobId
      answers cs
    have hkept := (hack _ u hup).trans (.of_sharesMoved hmoved)
    rcases hend with heq | heq
    · rw [heq]
      exact hkept
    · rw [heq]
      exact hkept.trans (.fail s₂ _)

/-! ## Messages -/

/-- A message whose handler validates shares. -/
def Event.carriesShares : Event → Bool
  | .setCustomMiningJobSuccess _ _ _ _ => true
  | .submitSharesStandard _ _ _ _ _ => true
  | .submitSharesExtended _ _ _ _ _ _ => true
  | _ => false

def Event.isTokenSuccess : Event → Bool
  | .allocateMiningJobTokenSuccess _ _ _ => true
  | _ => false

/-- The transaction data of a template that would be declared with too long a coinbase. -/
def declaresTooLongOn (env : Env) (s : ChannelManager) : Event → Bool
  | .requestTransactionDataSuccess t txs coinbase => s.declaresTooLong env t txs coinbase
  | _ => false

theorem handle_kept {e : Event} (he : e.carriesShares = true) : OutputsKept s (s.handle env e) := by
  cases e with
  | setCustomMiningJobSuccess => exact handleSetCustomMiningJobSuccess_kept
  | submitSharesStandard => exact handleSubmitShares_kept
  | submitSharesExtended => exact handleSubmitShares_kept
  | _ => cases he

theorem handle_steady (h : OutputsInv s) {e : Event} (he : e.carriesShares = false)
    (htoken : e.isTokenSuccess = false) (hfits : s.declaresTooLongOn env e = false) :
    Steady s (s.handle env e) := by
  cases e with
  | newTemplate t => exact receiveNewTemplate_steady h t
  | setNewPrevHash p pick built => exact receiveSetNewPrevHash_steady h p pick built
  | requestTransactionDataSuccess t txs coinbase => exact handleRequestTxDataSuccess_steady h hfits
  | openExtendedMiningChannelSuccess msg ans => exact receiveOpenSuccess_steady msg ans
  | setExtranoncePrefix extranoncePrefix accepts built =>
    exact receiveSetExtranoncePrefix_steady extranoncePrefix accepts built
  | setCustomMiningJobError requestId stale =>
    simp only [handle, handleSetCustomMiningJobError]
    split
    · split
      · exact .refl s
      · exact ⟨.of_eq rfl rfl rfl, id⟩
    · exact .fail (.refl s) (by simp)
  | closeUpstreamChannel =>
    have hclosed : OutputsKept s { s with upstreamChannel := none } :=
      ⟨rfl, id, fun hnone => nomatch hnone⟩
    exact .fail hclosed (show Fault.fallback ≠ .panic by simp)
  | upstreamFault => exact .fail (.refl s) (show Fault.fallback ≠ .panic by simp)
  | declareMiningJobSuccess requestId token built =>
    obtain heq | heq | ⟨job, p, outs, channelId, size, -, -, -, -, heq⟩ :=
      handleDeclareMiningJobSuccess_cases s requestId token built
    · simp only [handle, heq]
      exact .refl s
    · simp only [handle, heq]
      exact .fail (.refl s) (by simp)
    · simp only [handle, heq]
      exact ⟨.of_eq rfl rfl rfl, id⟩
  | declareMiningJobError requestId stale =>
    simp only [handle]
    split
    · exact .refl s
    · exact .fail (.refl s) (by simp)
  | provideMissingTransactions requestId positions =>
    simp only [handle, handleProvideMissingTransactions]
    split
    · exact .refl s
    · exact ⟨.of_eq rfl rfl rfl, id⟩
  | openChannel r ans =>
    have hasked : OutputsKept s { s with openRequests := r :: s.openRequests } :=
      .of_eq rfl rfl rfl
    have hnow := handleOpenNow_steady (h.of_kept hasked) r ans
    simp only [handle, handleDownstreamOpen]
    split
    · exact ⟨.of_eq rfl rfl rfl, id⟩
    · exact ⟨.of_eq rfl rfl rfl, id⟩
    · exact ⟨hasked.trans hnow.toOutputsKept, hnow.running⟩
    · exact ⟨hasked.trans hnow.toOutputsKept, hnow.running⟩
  | closeChannel d channelId =>
    have hclosed : ∀ s', s.handleCloseChannel d channelId = .ok s' → OutputsKept s s' := by
      intro s' hs'
      unfold handleCloseChannel at hs'
      split at hs' <;> cases hs'
      exact .of_eq rfl rfl rfl
    refine .conclude (.refl s) hclosed ?_
    unfold handleCloseChannel
    split <;> simp
  | allocateMiningJobTokenSuccess => cases htoken
  | _ => cases he

/-! ## The tasks that a message leaves behind -/

/-- A prev-hash leaves the group channel, or a standard channel with its own jobs, without an active
    job. -/
def leavesNoJob (ds : Downstream) (ans : PrevHashAnswers) : Bool :=
  match ans.groupJob with
  | .refused => false
  | .noActiveJob => true
  | .activated _ => ds.requireStdJob &&
    decide ((ds.standardChannels.entries.map fun e => ans.standardJob e.1).find?
      (·.activeJob.isNone) = some .noActiveJob)

theorem tryMapEntries_panics {ds : Downstream} {ans : PrevHashAnswers}
    (hrequire : ds.requireStdJob = true) (es : List (Σ _ : ChannelId, Channel)) :
    KeyMap.tryMapEntries (standardOnSetNewPrevHash ds ans) es = .error .panic ↔
      (es.map fun e => ans.standardJob e.1).find? (·.activeJob.isNone) = some .noActiveJob := by
  induction es with
  | nil => simp [KeyMap.tryMapEntries]
  | cons e es ih =>
    simp only [KeyMap.tryMapEntries, standardOnSetNewPrevHash, hrequire, if_true, List.map_cons]
    cases ans.standardJob e.1 with
    | refused => simp [PrevHashAnswer.activeJob]
    | noActiveJob => simp [PrevHashAnswer.activeJob]
    | activated jobId =>
      have hrest : (PrevHashAnswer.activated jobId).activeJob.isNone = false := rfl
      rw [List.find?_cons_of_neg (by simp [hrest]), ← ih]
      dsimp only
      split
      next f hf => rw [hf]
      next ws hws => simp [hws]

theorem standardOnSetNewPrevHash_panics {ds : Downstream} {ans : PrevHashAnswers} {ch : ChannelId}
    {c : Channel} (h : standardOnSetNewPrevHash ds ans ch c = .error .panic) :
    ds.requireStdJob = true := by
  unfold standardOnSetNewPrevHash at h
  split at h
  · cases h
  · split at h
    next hrequire => exact hrequire
    · cases h
  · cases h

/-- The visit of a connection panics when a channel is left without an active job. -/
theorem visitSetNewPrevHash_panics {p : SetNewPrevHash} {ds : Downstream} {ans : PrevHashAnswers} :
    s.visitSetNewPrevHash p d ds ans = .error .panic ↔ leavesNoJob ds ans = true := by
  unfold visitSetNewPrevHash leavesNoJob
  cases ans.groupJob with
  | refused => simp
  | noActiveJob => simp
  | activated groupJob =>
    dsimp only
    rw [Bool.and_eq_true, decide_eq_true_eq]
    constructor
    · intro h
      split at h
      next f hstd =>
        cases h
        obtain ⟨ch, c, hc⟩ := KeyMap.tryMap_error hstd
        have hrequire := standardOnSetNewPrevHash_panics hc
        exact ⟨hrequire, (tryMapEntries_panics hrequire _).mp (KeyMap.tryMap_eq_error.mp hstd)⟩
      split at h
      next hext =>
        cases h
        obtain ⟨ch, c, hc⟩ := KeyMap.tryMap_error hext
        cases extendedOnSetNewPrevHash_error hc
      split at h
      · cases h
      · split at h <;> cases h
    · rintro ⟨hrequire, hfind⟩
      rw [KeyMap.tryMap_eq_error.mpr ((tryMapEntries_panics hrequire _).mpr hfind)]

/-- A step that leaves a channel without an active job. -/
def leavesNoJobAt (s : ChannelManager) : Action → Bool
  | .visit d ans => match s.downstream.lookup d, s.loop with
    | some ds, .setNewPrevHash _ _ _ visited _ =>
      !decide (d ∈ visited) && leavesNoJob ds ans.prevHash
    | _, _ => false
  | _ => false

/-- Whatever a visit ends in. -/
theorem visit_kept (d : DownstreamId) (ans : VisitAnswers) : OutputsKept s (s.visit d ans) := by
  unfold ChannelManager.visit
  split
  · exact .refl s
  split
  · split
    · exact .refl s
    split
    · exact .fail s _
    next s₁ ms hs₁ =>
      obtain ⟨ds', jobs, notices, -, -, rfl, -⟩ := visitNewTemplate_ok hs₁
      obtain ⟨n, store, heq⟩ := templateCustomJob_frame s _ _ ans.template.customJobBuilt
      rw [heq]
      exact .of_eq rfl rfl rfl
  · split
    · exact .refl s
    split
    · exact .fail s _
    next s₁ ms hs₁ =>
      obtain ⟨jobs, rfl, -⟩ := visitSetNewPrevHash_ok hs₁
      exact .of_eq rfl rfl rfl
  · split
    · exact .refl s
    split
    · exact .of_eq rfl rfl rfl
    · exact .fail s _
  · split
    · exact .refl s
    · exact .of_eq rfl rfl rfl
  · exact .refl s

theorem visit_steady (d : DownstreamId) (ans : VisitAnswers)
    (hjob : s.leavesNoJobAt (.visit d ans) = false) : Steady s (s.visit d ans) := by
  refine ⟨visit_kept d ans, ?_⟩
  intro hpanic
  unfold ChannelManager.visit at hpanic
  split at hpanic
  · exact hpanic
  next ds hds =>
  split at hpanic
  · split at hpanic
    · exact hpanic
    split at hpanic
    next f hf =>
      rw [visitNewTemplate_error hf] at hpanic
      cases hpanic
    · cases hpanic
  next p consumed present visited messages hloop =>
    split at hpanic
    · exact hpanic
    next hnew =>
    split at hpanic
    next f hf =>
      rcases visitSetNewPrevHash_error hf with rfl | rfl
      · cases hpanic
      · -- the channels of this connection are not all left with a job
        have hleaves := visitSetNewPrevHash_panics.mp hf
        simp [leavesNoJobAt, hds, hloop, hnew, hleaves] at hjob
    · cases hpanic
  · split at hpanic
    · exact hpanic
    split at hpanic
    · cases hpanic
    · cases hpanic
  · split at hpanic
    · exact hpanic
    · cases hpanic
  · exact hpanic

theorem takePending_loop (s : ChannelManager) : s.takePending.loop ≠ .stopped .panic := by
  unfold takePending
  dsimp only
  split <;> simp

theorem finish_steady (env : Env) (s : ChannelManager) : Steady s (s.finish env) := by
  have htoken : ∀ b : Bool, OutputsKept s (if b then s.allocateToken else s) := by
    intro b
    cases b <;> exact .of_eq rfl rfl rfl
  unfold ChannelManager.finish
  split
  · split
    · exact .of_kept ((htoken _).trans (.of_eq rfl rfl rfl)) (by simp)
    · exact .refl s
  · split
    · exact .of_kept ((htoken _).trans (.of_eq rfl rfl rfl)) (by simp)
    · exact .refl s
  · split
    · refine .of_kept ?_ (takePending_loop _)
      unfold finishOpenSuccess sendOpenCustomJob requestFutureTemplate takePending
      split <;> split <;> exact .of_eq rfl rfl rfl
    · exact .refl s
  · split
    · exact .of_kept (.of_eq rfl rfl rfl) (by simp)
    · exact .refl s
  · exact .refl s

theorem handlePending_steady (h : OutputsInv s) (ans : OpenAnswers) :
    Steady s (s.handlePending ans) := by
  unfold handlePending
  split
  next r rest hloop =>
    have hrecord := @recordRollableSize_kept s r ans
    dsimp only
    generalize s.recordRollableSize r ans = s₁ at hrecord ⊢
    split
    next f hf =>
      refine .fail hrecord ?_
      rintro rfl
      exact handleOpen_no_panic (h.of_kept hrecord) r ans hf
    next s₂ hs₂ =>
      refine .of_kept ((hrecord.trans (.of_opens (handleOpen_opens hs₂))).trans
        (.of_eq rfl rfl rfl)) ?_
      dsimp only
      split <;> simp
  · exact .refl s

/-! ## Steps -/

/-- A step of a handler that validates shares. -/
def Action.carriesShares : Action → Bool
  | .event e => e.carriesShares
  | _ => false

def Action.isTokenSuccess : Action → Bool
  | .event e => e.isTokenSuccess
  | _ => false

/-- A step that declares a job with too long a coinbase. -/
def declaresTooLongAt (env : Env) (s : ChannelManager) : Action → Bool
  | .event e => s.takes e && s.declaresTooLongOn env e
  | _ => false

/-- Only shares, a coinbase that is too long and a channel without an active job may panic. -/
theorem step_steady (h : OutputsInv s) {a : Action} (ha : a.carriesShares = false)
    (htoken : a.isTokenSuccess = false) (hfits : s.declaresTooLongAt env a = false)
    (hjob : s.leavesNoJobAt a = false) : Steady s (s.step env a) := by
  cases a with
  | event e =>
    simp only [step]
    split
    next htakes =>
      refine handle_steady h ha htoken ?_
      simpa [declaresTooLongAt, htakes] using hfits
    · exact .refl s
  | visit d ans => exact visit_steady d ans hjob
  | finish => exact finish_steady env s
  | handlePending ans => exact handlePending_steady h ans
  | accept =>
    simp only [step, accept]
    split
    · exact ⟨.of_eq rfl rfl rfl, id⟩
    · exact .refl s
  | bootstrap d built =>
    simp only [step, bootstrap]
    split
    · split
      · split <;> exact ⟨.of_eq rfl rfl rfl, id⟩
      · exact ⟨.of_eq rfl rfl rfl, id⟩
      · exact ⟨.of_eq rfl rfl rfl, id⟩
    · exact .refl s
  | register d =>
    simp only [step, register]
    split
    · exact ⟨.of_eq rfl rfl rfl, id⟩
    · exact .refl s
  | setUpConnection d requireStdJob => exact ⟨.of_eq rfl rfl rfl, id⟩
  | removeDownstream d => exact ⟨.of_eq rfl rfl rfl, id⟩

theorem step_kept (h : OutputsInv s) {a : Action} (htoken : a.isTokenSuccess = false)
    (hfits : s.declaresTooLongAt env a = false) : OutputsKept s (s.step env a) := by
  cases a with
  | event e =>
    by_cases he : e.carriesShares = true
    · simp only [step]
      split
      · exact handle_kept he
      · exact .refl s
    · exact (step_steady h (by simpa [Action.carriesShares] using he) htoken hfits rfl).toOutputsKept
  | visit d ans => exact visit_kept d ans
  | _ => exact (step_steady h rfl rfl rfl rfl).toOutputsKept

end ChannelManager

end Sv2Apps.Jdc
