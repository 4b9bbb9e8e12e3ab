/-
  Jdc/CalmMessages.lean
  =====================
  **Messages that leave the miners alone** — most messages of the template provider, the pool
  and the server change neither the connections and their channels nor the extranonce layout,
  and send nothing about them (`Calm`).  `handle_calm` says so once for all of them; the
  invariants about requests and extranonces only have to look at the others.
-/
import Sv2Apps.Jdc.HandlerSpecs

namespace Sv2Apps.Jdc

open Bitcoin

/-- The open request that a message answers: the miner and the id of the request. -/
def Message.answers : Message → Option (DownstreamId × RequestId)
  | .downstream d (.openMiningChannelError requestId _) => some (d, requestId)
  | .downstream d (.openStandardMiningChannelSuccess requestId _ _) => some (d, requestId)
  | .downstream d (.openExtendedMiningChannelSuccess requestId _ _ _) => some (d, requestId)
  | _ => none

/-- The prefix that a message tells the owner of a channel. -/
def Message.tellsPrefix : Message → Option ((DownstreamId × ChannelId) × Bytes)
  | .downstream d (.openStandardMiningChannelSuccess _ channelId bytes) => some ((d, channelId), bytes)
  | .downstream d (.openExtendedMiningChannelSuccess _ channelId bytes _) =>
    some ((d, channelId), bytes)
  | .downstream d (.setExtranoncePrefix channelId bytes) => some ((d, channelId), bytes)
  | _ => none

/-- A message that neither answers an open request nor tells a prefix. -/
structure Message.IsCalm (m : Message) : Prop where
  answers : m.answers = none
  tellsPrefix : m.tellsPrefix = none

theorem Message.IsAboutShare.calm {m : Message} (h : m.IsAboutShare) : m.IsCalm := by
  cases m with
  | downstream d m => cases m <;> first | exact ⟨rfl, rfl⟩ | cases h
  | _ => exact ⟨rfl, rfl⟩

theorem Message.IsJobNotice.calm {m : Message} (h : m.IsJobNotice) : m.IsCalm := by
  cases m with
  | downstream d m => cases m <;> first | exact ⟨rfl, rfl⟩ | cases h
  | _ => exact ⟨rfl, rfl⟩

/-- A message of a handler that goes through the connections: a notice of a job, or a custom job. -/
def Message.IsJobMessage (m : Message) : Prop :=
  m.IsJobNotice ∨ ∃ job, m = .setCustomMiningJob job false

theorem Message.IsJobMessage.calm {m : Message} (h : m.IsJobMessage) : m.IsCalm := by
  rcases h with h | ⟨job, rfl⟩
  · exact h.calm
  · exact ⟨rfl, rfl⟩

namespace LoopTask

/-- The messages that the handler at work will send. -/
def messages : LoopTask → List Message
  | .newTemplate _ _ _ _ ms => ms
  | .setNewPrevHash _ _ _ _ ms => ms
  | _ => []

/-- No handler is at work, or one that leaves connections and channels to the pool alone. -/
def isCalm : LoopTask → Bool
  | .idle => true
  | .newTemplate _ _ _ _ _ => true
  | .setNewPrevHash _ _ _ _ _ => true
  | .stopped _ => true
  | _ => false

end LoopTask

namespace ChannelManager

variable {env : Env} {s s' : ChannelManager} {d : DownstreamId}

/-! ## Calm messages -/

/-- The channel to the pool without its jobs. -/
def upstreamLayout (s : ChannelManager) : Option (Bytes × UInt16) :=
  s.upstreamChannel.map fun u => (u.extranoncePrefix, u.rollableExtranonceSize)

/-- The connections, their channels and requests, and the extranonce layout are as they were, and
    only calm messages have been sent. -/
structure Calm (s s' : ChannelManager) : Prop where
  downstream : s'.downstream = s.downstream
  allocator : s'.extranonceAllocator = s.extranonceAllocator
  upstream : s'.upstreamLayout = s.upstreamLayout
  state : s'.upstreamState = s.upstreamState
  pending : s'.pendingDownstreamRequests = s.pendingDownstreamRequests
  requests : s'.openRequests = s.openRequests
  accepting : s'.accepting = s.accepting
  factory : s'.downstreamIdFactory = s.downstreamIdFactory
  wrapped : s'.sizeWrapped = s.sizeWrapped
  jobTemplates : s'.jobToTemplateId = s.jobToTemplateId
  prevHash : s.lastNewPrevHash.isSome = true → s'.lastNewPrevHash.isSome = true
  sent : ∃ ms, s'.sent = ms ++ s.sent ∧ ∀ m ∈ ms, m.IsCalm

namespace Calm

theorem refl (s : ChannelManager) : Calm s s :=
  ⟨rfl, rfl, rfl, rfl, rfl, rfl, rfl, rfl, rfl, rfl, id, [], rfl, by simp⟩

theorem trans {s₁ s₂ s₃ : ChannelManager} (h : Calm s₁ s₂) (h' : Calm s₂ s₃) : Calm s₁ s₃ := by
  obtain ⟨ms, hms, hcalm⟩ := h.sent
  obtain ⟨ms', hms', hcalm'⟩ := h'.sent
  refine ⟨h'.downstream.trans h.downstream, h'.allocator.trans h.allocator,
    h'.upstream.trans h.upstream, h'.state.trans h.state, h'.pending.trans h.pending,
    h'.requests.trans h.requests, h'.accepting.trans h.accepting, h'.factory.trans h.factory,
    h'.wrapped.trans h.wrapped, h'.jobTemplates.trans h.jobTemplates,
    fun hp => h'.prevHash (h.prevHash hp), ms' ++ ms, by rw [hms', hms, List.append_assoc], ?_⟩
  intro m hm
  rcases List.mem_append.mp hm with hm | hm
  · exact hcalm' m hm
  · exact hcalm m hm

/-- Messages that are sent in the given order. -/
theorem send {ms : List Message} (h : ∀ m ∈ ms, m.IsCalm) : Calm s (s.send ms) :=
  ⟨rfl, rfl, rfl, rfl, rfl, rfl, rfl, rfl, rfl, rfl, id, ms.reverse, rfl, by simpa using h⟩

theorem of_sharesMoved (h : SharesMoved s s') : Calm s s' := by
  obtain ⟨ms, fw, cs, ac, vs, hms, rfl⟩ := h
  exact ⟨rfl, rfl, rfl, rfl, rfl, rfl, rfl, rfl, rfl, rfl, id, ms, rfl, fun m hm => (hms m hm).calm⟩

theorem allocateToken (s : ChannelManager) : Calm s s.allocateToken :=
  ⟨rfl, rfl, rfl, rfl, rfl, rfl, rfl, rfl, rfl, rfl, id, [_], rfl, by simpa using ⟨rfl, rfl⟩⟩

/-- A token that a handler has used is replaced at its end. -/
theorem replaceToken (s : ChannelManager) (used : Bool) :
    Calm s (if used then s.allocateToken else s) := by
  cases used with
  | true => exact .allocateToken s
  | false => exact .refl s

/-- An error that does not disconnect anyone. -/
theorem fail (s : ChannelManager) {f : Fault} (hf : ∀ d, f ≠ .disconnect d) : Calm s (s.fail f) := by
  cases f with
  | disconnect d => exact absurd rfl (hf d)
  | _ => exact ⟨rfl, rfl, rfl, rfl, rfl, rfl, rfl, rfl, rfl, rfl, id, [], rfl, by simp⟩

end Calm

/-- A calm step that leaves the loop free, ended, or with a handler that will send messages about
    jobs. -/
structure CalmStep (s s' : ChannelManager) : Prop extends Calm s s' where
  loop : s'.loop.isCalm = true
  messages : ∀ m ∈ s'.loop.messages, m.IsJobMessage

namespace CalmStep

theorem of_idle (h : Calm s s') (hloop : s'.loop = .idle) : CalmStep s s' := by
  refine ⟨h, by rw [hloop]; rfl, ?_⟩
  intro m hm
  rw [hloop] at hm
  cases hm

/-- A calm part of a handler, then an error that ends the loop or is only logged. -/
theorem fail (h : Calm s s') {f : Fault} (hf : ∀ d, f ≠ .disconnect d) : CalmStep s (s'.fail f) := by
  refine ⟨h.trans (.fail s' hf), ?_, ?_⟩
  · cases f <;> rfl
  · intro m hm
    cases f <;> cases hm

end CalmStep

end ChannelManager

/-- A message that is handled without touching connections, channels and the extranonce layout. -/
def ChannelManager.Event.isCalm : ChannelManager.Event → Bool
  | .newTemplate _ => true
  | .setNewPrevHash _ _ _ => true
  | .requestTransactionDataSuccess _ _ _ => true
  | .setCustomMiningJobSuccess _ _ _ _ => true
  | .setCustomMiningJobError _ _ => true
  | .upstreamFault => true
  | .allocateMiningJobTokenSuccess _ _ _ => true
  | .declareMiningJobSuccess _ _ _ => true
  | .declareMiningJobError _ _ => true
  | .provideMissingTransactions _ _ => true
  | _ => false

namespace ChannelManager

variable {env : Env} {s s' : ChannelManager} {d : DownstreamId}

theorem receiveNewTemplate_calm (t : NewTemplate) :
    CalmStep s (s.receiveNewTemplate env t) := by
  unfold receiveNewTemplate
  dsimp only
  have hreceived : Calm s { s with
      history := (.newTemplate t, s.coinbaseOutputs) :: s.history
      templateStore := s.templateStore.insert t.templateId t
      lastFutureTemplate := if t.futureTemplate then some t else s.lastFutureTemplate } :=
    ⟨rfl, rfl, rfl, rfl, rfl, rfl, rfl, rfl, rfl, rfl, id, [], rfl, by simp⟩
  split
  · exact .fail hreceived (by simp)
  split
  · exact .fail hreceived (by simp)
  refine ⟨?_, rfl, by simp [LoopTask.messages]⟩
  split
  · exact ⟨rfl, rfl, rfl, rfl, rfl, rfl, rfl, rfl, rfl, rfl, id, [_], rfl, by simpa using ⟨rfl, rfl⟩⟩
  · exact ⟨rfl, rfl, rfl, rfl, rfl, rfl, rfl, rfl, rfl, rfl, id, [], rfl, by simp⟩

theorem declareFutureTemplate_calm (pick : RequestId) : Calm s (s.declareFutureTemplate env pick) := by
  obtain heq | ⟨t, requestId, job, declaration, -, -, -, -, heq⟩ :=
    declareFutureTemplate_cases env s pick
  · rw [heq]
    exact .refl s
  · rw [heq]
    exact ⟨rfl, rfl, rfl, rfl, rfl, rfl, rfl, rfl, rfl, rfl, id, [_], rfl, by simpa using ⟨rfl, rfl⟩⟩

theorem prevHashCustomJob_calm {p : SetNewPrevHash} {raw : List TxOut} {built consumed : Bool}
    {ms : List Message} (h : s.prevHashCustomJob env p raw built = .ok (s', consumed, ms)) :
    Calm s s' ∧ ∀ m ∈ ms, m.IsJobMessage := by
  obtain ⟨rfl, -, rfl⟩ | ⟨t, token, tokens, -, -, -, hcase⟩ := prevHashCustomJob_ok h
  · exact ⟨.refl s', by simp⟩
  obtain ⟨-, rfl, -, rfl⟩ | ⟨-, rfl, rfl⟩ | ⟨channelId, size, stored, -, -, -, rfl, rfl⟩ := hcase
  · exact ⟨⟨rfl, rfl, rfl, rfl, rfl, rfl, rfl, rfl, rfl, rfl, id, [], rfl, by simp⟩, by simp⟩
  · exact ⟨⟨rfl, rfl, rfl, rfl, rfl, rfl, rfl, rfl, rfl, rfl, id, [], rfl, by simp⟩, by simp⟩
  · exact ⟨⟨rfl, rfl, rfl, rfl, rfl, rfl, rfl, rfl, rfl, rfl, id, [], rfl, by simp⟩,
      fun m hm => Or.inr ⟨_, List.mem_singleton.mp hm⟩⟩

theorem receiveSetNewPrevHash_calm (p : SetNewPrevHash) (pick : RequestId) (built : Bool) :
    CalmStep s (s.receiveSetNewPrevHash env p pick built) := by
  unfold receiveSetNewPrevHash
  dsimp only
  split
  · refine .fail ?_ (by simp)
    exact ⟨rfl, rfl, rfl, rfl, rfl, rfl, rfl, rfl, rfl, rfl, id, [], rfl, by simp⟩
  have hreceived : Calm s { s with
      history := (.setNewPrevHash p, s.coinbaseOutputs) :: s.history
      cachedShares := ∅ } :=
    ⟨rfl, rfl, rfl, rfl, rfl, rfl, rfl, rfl, rfl, rfl, id, [], rfl, by simp⟩
  have hdeclared := hreceived.trans (@declareFutureTemplate_calm env _ pick)
  generalize ChannelManager.declareFutureTemplate env _ pick = s₁ at hdeclared ⊢
  have hset : Calm s { s₁ with
      lastNewPrevHash := some p
      lastDeclareJobStore := KeyMap.mapValues (activate p) s₁.lastDeclareJobStore } :=
    hdeclared.trans ⟨rfl, rfl, rfl, rfl, rfl, rfl, rfl, rfl, rfl, rfl, fun _ => rfl, [], rfl, by simp⟩
  split
  next f hf =>
    rw [prevHashCustomJob_error hf]
    exact .fail hset (by simp)
  next s₂ consumed ms hjob =>
    obtain ⟨hcalm, hms⟩ := prevHashCustomJob_calm hjob
    exact ⟨hset.trans (hcalm.trans ⟨rfl, rfl, rfl, rfl, rfl, rfl, rfl, rfl, rfl, rfl, id, [], rfl, by simp⟩),
      rfl, hms⟩

theorem declareJob_calm {requestId : RequestId} {token : Bytes} {t : NewTemplate}
    {prevHash : Option SetNewPrevHash} {outs : List TxOut} {txs : List Bytes}
    {wtxids : List Hash256} {coinbase : Option (Bytes × Bytes)} :
    Calm s (s.declareJob requestId token t prevHash outs txs wtxids coinbase) ∧
      (s.declareJob requestId token t prevHash outs txs wtxids coinbase).loop = s.loop := by
  unfold declareJob
  split
  · split
    · dsimp only
      split
      · exact ⟨⟨rfl, rfl, rfl, rfl, rfl, rfl, rfl, rfl, rfl, rfl, id, [], rfl, by simp⟩, rfl⟩
      · exact ⟨⟨rfl, rfl, rfl, rfl, rfl, rfl, rfl, rfl, rfl, rfl, id, [_], rfl, by simpa using ⟨rfl, rfl⟩⟩,
          rfl⟩
    · exact ⟨.refl s, rfl⟩
  · exact ⟨.refl s, rfl⟩

theorem handleRequestTxDataSuccess_calm (hloop : s.loop = .idle) {templateId : TemplateId}
    {txs : List Bytes} {coinbase : Option (Bytes × Bytes)} :
    CalmStep s (s.handleRequestTxDataSuccess env templateId txs coinbase) := by
  unfold handleRequestTxDataSuccess
  split
  · exact .of_idle (.refl s) hloop
  split
  · exact .fail (.refl s) (by simp)
  dsimp only
  generalize hs₁ : allocateToken _ = s₁
  have hcalm : Calm s s₁ := by
    rw [← hs₁]
    refine Calm.trans ?_ (.allocateToken _)
    exact ⟨rfl, rfl, rfl, rfl, rfl, rfl, rfl, rfl, rfl, rfl, id, [], rfl, by simp⟩
  have hloop₁ : s₁.loop = .idle := by
    rw [← hs₁]
    exact hloop
  split
  · exact .of_idle hcalm hloop₁
  split
  · exact .fail hcalm (by simp)
  split
  · exact .fail hcalm (by simp)
  split
  · exact .fail hcalm (by simp)
  split
  · exact .fail hcalm (by simp)
  split
  · exact .fail hcalm (by simp)
  · exact .of_idle (hcalm.trans declareJob_calm.1) (declareJob_calm.2.trans hloop₁)

theorem handleSetCustomMiningJobSuccess_calm (hloop : s.loop = .idle) {requestId : RequestId}
    {jobId : JobId} {ack : AcknowledgementAnswer} {answers : List UpstreamShareAnswer} :
    CalmStep s (s.handleSetCustomMiningJobSuccess requestId jobId ack answers) := by
  have hcomplete : ∀ t, Calm s (s.completeJob requestId jobId t) :=
    fun t => ⟨rfl, rfl, rfl, rfl, rfl, rfl, rfl, rfl, rfl, rfl, id, [], rfl, by simp⟩
  have hack : ∀ t u, s.upstreamChannel = some u → Calm s (s.acknowledged requestId jobId t u) := by
    intro t u hup
    refine ⟨rfl, rfl, ?_, rfl, rfl, rfl, rfl, rfl, rfl, rfl, id, [], rfl, by simp⟩
    rw [upstreamLayout, upstreamLayout, hup]
    rfl
  have hcases := handleSetCustomMiningJobSuccess_cases s requestId jobId ack answers
  generalize s.handleSetCustomMiningJobSuccess requestId jobId ack answers = s' at hcases ⊢
  cases hcases with
  | unknown => exact .fail (.refl s) (by simp)
  | dropped job f hjob hf => exact .fail (hcomplete _) (by rcases hf with rfl | rfl | rfl <;> simp)
  | noShares job u hjob hup => exact .of_idle (hack _ u hup) hloop
  | shares job u p cs hjob hup hp hcs =>
    obtain ⟨s₂, hmoved, hend⟩ := @validateCachedShares_moves
      (s.acknowledged requestId jobId job.template.templateId u) p (u.acknowledge jobId) jobId
      answers cs
    have hcalm := (hack _ u hup).trans (.of_sharesMoved hmoved)
    rcases hend with heq | heq
    · rw [heq]
      exact .of_idle hcalm (hmoved.loop.trans hloop)
    · rw [heq]
      exact .fail hcalm (by simp)

/-- The spec of every calm message. -/
theorem handle_calm {e : Event} (he : e.isCalm = true) (hloop : s.loop = .idle) :
    CalmStep s (s.handle env e) := by
  cases e with
  | newTemplate t => exact receiveNewTemplate_calm t
  | setNewPrevHash p pick built => exact receiveSetNewPrevHash_calm p pick built
  | requestTransactionDataSuccess t txs coinbase => exact handleRequestTxDataSuccess_calm hloop
  | setCustomMiningJobSuccess requestId jobId ack answers =>
    exact handleSetCustomMiningJobSuccess_calm hloop
  | setCustomMiningJobError requestId stale =>
    simp only [handle, handleSetCustomMiningJobError]
    split
    · split
      · exact .of_idle (.refl s) hloop
      · exact .of_idle ⟨rfl, rfl, rfl, rfl, rfl, rfl, rfl, rfl, rfl, rfl, id, [], rfl, by simp⟩ hloop
    · exact .fail (.refl s) (by simp)
  | upstreamFault =>
    simp only [handle]
    exact .fail (.refl s) (by simp)
  | allocateMiningJobTokenSuccess requestId token outs =>
    simp only [handle, handleAllocateMiningJobTokenSuccess]
    have hcalm : Calm s { s with
        coinbaseOutputs := outs
        allocateTokens := s.allocateTokens ++ [token]
        receivedTokens := token :: s.receivedTokens
        allocationRequests := s.allocationRequests.erase requestId } :=
      ⟨rfl, rfl, rfl, rfl, rfl, rfl, rfl, rfl, rfl, rfl, id, [], rfl, by simp⟩
    split
    · split
      · exact .fail hcalm (by simp)
      · exact .of_idle hcalm hloop
    · split
      · exact .of_idle (hcalm.trans (.send (by simpa using ⟨rfl, rfl⟩))) hloop
      · exact .of_idle hcalm hloop
  | declareMiningJobSuccess requestId token built =>
    obtain heq | heq | ⟨job, p, outs, channelId, size, -, -, -, -, heq⟩ :=
      handleDeclareMiningJobSuccess_cases s requestId token built
    · simp only [handle, heq]
      exact .of_idle (.refl s) hloop
    · simp only [handle, heq]
      exact .fail (.refl s) (by simp)
    · simp only [handle, heq]
      exact .of_idle
        ⟨rfl, rfl, rfl, rfl, rfl, rfl, rfl, rfl, rfl, rfl, id, [_], rfl, by simpa using ⟨rfl, rfl⟩⟩ hloop
  | declareMiningJobError requestId stale =>
    simp only [handle]
    split
    · exact .of_idle (.refl s) hloop
    · exact .fail (.refl s) (by simp)
  | provideMissingTransactions requestId positions =>
    simp only [handle, handleProvideMissingTransactions]
    split
    · exact .of_idle (.refl s) hloop
    · exact .of_idle (.send (by simpa using ⟨rfl, rfl⟩)) hloop
  | _ => cases he

/-- What is asked for and sent once the group channels know the new channel to the pool. -/
theorem sendOpenCustomJob_calm (customJob : Option CustomJob) :
    Calm s ((s.requestFutureTemplate env).sendOpenCustomJob env customJob) := by
  have hrequest : Calm s (s.requestFutureTemplate env) := by
    unfold requestFutureTemplate
    split
    · exact .send (by simpa using ⟨rfl, rfl⟩)
    · exact .refl s
  refine hrequest.trans ?_
  unfold sendOpenCustomJob
  split
  · exact (Calm.send (by simpa using ⟨rfl, rfl⟩)).trans (.allocateToken _)
  · exact .refl _

/-! ## The messages of the handler at work -/

theorem messages_fail (s : ChannelManager) (f : Fault) : (s.fail f).loop.messages = [] := by
  cases f <;> rfl

theorem messages_conclude (s : ChannelManager) (r : Except Fault ChannelManager) :
    (s.conclude r).loop.messages = [] := by
  cases r with
  | error f => exact messages_fail s f
  | ok s' => rfl

theorem handle_messages (hloop : s.loop = .idle) (e : Event) :
    ∀ m ∈ (s.handle env e).loop.messages, m.IsJobMessage := by
  by_cases hcalm : e.isCalm = true
  · exact (@handle_calm env s e hcalm hloop).messages
  have hnil : (s.handle env e).loop.messages = [] := by
    cases e with
    | openExtendedMiningChannelSuccess msg ans =>
      have hcases := receiveOpenSuccess_cases env s msg ans
      simp only [ChannelManager.handle]
      generalize s.receiveOpenSuccess env msg ans = s' at hcases ⊢
      cases hcases with
      | failed f wrapped hf => exact messages_fail _ f
      | noRequest _ => exact congrArg LoopTask.messages hloop
      | refused _ => exact congrArg LoopTask.messages hloop
      | configured => rfl
    | setExtranoncePrefix extranoncePrefix accepts built =>
      simp only [ChannelManager.handle, receiveSetExtranoncePrefix]
      split
      · rw [hloop]
        rfl
      split
      · rfl
      split
      · rfl
      split <;> rfl
    | closeUpstreamChannel => rfl
    | openChannel r ans =>
      simp only [ChannelManager.handle, handleDownstreamOpen]
      split
      · exact congrArg LoopTask.messages hloop
      · exact congrArg LoopTask.messages hloop
      · exact messages_conclude _ _
      · exact messages_conclude _ _
    | closeChannel d channelId => exact messages_conclude _ _
    | submitSharesStandard d channelId jobId ans upstream => exact messages_conclude _ _
    | submitSharesExtended d channelId jobId extranonce ans upstream => exact messages_conclude _ _
    | _ => exact absurd rfl hcalm
  intro m hm
  rw [hnil] at hm
  cases hm

theorem templateCustomJob_messages (t : NewTemplate) (ctx : TemplateContext) (built : Bool) :
    ∀ m ∈ (s.templateCustomJob t ctx built).2, m.IsJobMessage := by
  obtain ⟨n, -, heq⟩ | ⟨token, channelId, size, p, stored, -, -, -, -, heq⟩ :=
    templateCustomJob_cases s t ctx built
  · rw [heq]
    intro m hm
    cases hm
  · rw [heq]
    intro m hm
    exact Or.inr ⟨_, List.mem_singleton.mp hm⟩

theorem visit_messages (h : ∀ m ∈ s.loop.messages, m.IsJobMessage) (d : DownstreamId)
    (ans : VisitAnswers) : ∀ m ∈ (s.visit d ans).loop.messages, m.IsJobMessage := by
  have hfail : ∀ f, ∀ m ∈ (s.fail f).loop.messages, m.IsJobMessage := by
    intro f m hm
    rw [messages_fail] at hm
    cases hm
  unfold visit
  split
  · exact h
  split
  next t ctx present visited messages hloop =>
    rw [hloop] at h
    split
    · rw [hloop]
      exact h
    split
    · exact hfail _
    next s₁ ms hs₁ =>
      obtain ⟨ds', jobs, notices, -, hnotices, -, rfl⟩ := visitNewTemplate_ok hs₁
      intro m hm
      rcases List.mem_append.mp hm with hm | hm
      · exact h m hm
      · rcases List.mem_append.mp hm with hm | hm
        · exact templateCustomJob_messages t ctx ans.template.customJobBuilt m hm
        · exact Or.inl (hnotices m hm)
  next p consumed present visited messages hloop =>
    rw [hloop] at h
    split
    · rw [hloop]
      exact h
    split
    · exact hfail _
    next s₁ ms hs₁ =>
      obtain ⟨jobs, -, hnotices⟩ := visitSetNewPrevHash_ok hs₁
      intro m hm
      rcases List.mem_append.mp hm with hm | hm
      · exact h m hm
      · exact Or.inl (hnotices m hm)
  · split
    · exact h
    split
    · exact fun m hm => by cases hm
    · exact hfail _
  · split
    · exact h
    · exact fun m hm => by cases hm
  · exact h

theorem finish_messages (h : ∀ m ∈ s.loop.messages, m.IsJobMessage) :
    ∀ m ∈ (s.finish env).loop.messages, m.IsJobMessage := by
  unfold finish
  split
  · split
    · exact fun m hm => by cases hm
    · exact h
  · split
    · exact fun m hm => by cases hm
    · exact h
  · split
    · intro m hm
      simp only [finishOpenSuccess, takePending] at hm
      split at hm <;> cases hm
    · exact h
  · split
    · exact fun m hm => by cases hm
    · exact h
  · exact h

/-- The handler at work will only send messages about jobs. -/
theorem step_messages (h : ∀ m ∈ s.loop.messages, m.IsJobMessage) (a : Action) :
    ∀ m ∈ (s.step env a).loop.messages, m.IsJobMessage := by
  cases a with
  | event e =>
    simp only [step]
    split
    next htakes => exact handle_messages (takes_idle htakes) e
    · exact h
  | visit d ans => exact visit_messages h d ans
  | finish => exact finish_messages h
  | handlePending ans =>
    simp only [step, handlePending]
    split
    · split
      · intro m hm
        rw [messages_fail] at hm
        cases hm
      · intro m hm
        dsimp only at hm
        split at hm <;> cases hm
    · exact h
  | accept =>
    simp only [step, accept]
    split <;> exact h
  | bootstrap d built =>
    simp only [step, bootstrap]
    split
    · split
      · split <;> exact h
      · exact h
      · exact h
    · exact h
  | register d =>
    simp only [step, register]
    split <;> exact h
  | setUpConnection d requireStdJob => exact h
  | removeDownstream d => exact h

end ChannelManager

end Sv2Apps.Jdc
