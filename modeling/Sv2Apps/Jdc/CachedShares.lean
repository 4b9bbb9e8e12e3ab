/-
  Jdc/CachedShares.lean
  =====================
  **Cached shares are delivered once and not stranded** — the client moves the ledger of shares
  (`step_ledger`), and a share that a miner's channel accepts is entered into it
  (`submission_entered`).

  The template of a share is read off the map from jobs to templates, so the ledger is right as
  long as that map is (`JobMapInv`).
-/
import Sv2Apps.Jdc.PoolChannel
import Sv2Apps.Jdc.ShareLedger

namespace Sv2Apps.Jdc

open Bitcoin

/-- The job id under which a message submits a share to the pool. -/
def Message.submittedJob : Message → Option JobId
  | .submitSharesExtended share => some share.jobId
  | _ => none

theorem Message.IsJobMessage.submittedJob {m : Message} (h : m.IsJobMessage) :
    m.submittedJob = none := by
  rcases h with h | ⟨job, rfl⟩
  · cases m <;> first | rfl | cases h
  · rfl

/-- A share that a miner sends. -/
structure Submission where
  downstreamId : DownstreamId
  kind : ChannelKind
  channelId : ChannelId
  jobId : JobId
  rolled : Bytes
  ans : ShareAnswer
  upstream : UpstreamShareAnswer

/-- How the shares of a submission are put together. -/
def Submission.shareKind (sub : Submission) : ChannelManager.ShareKind :=
  match sub.kind with
  | .standard => ⟨[], .shutdown, fun c _ _ => c.extranoncePrefix⟩
  | .extended => ⟨sub.rolled, .disconnect sub.downstreamId,
      fun _ u extranonce => u.extranoncePrefix ++ extranonce⟩

namespace ChannelManager

variable {env : Env} {s s' : ChannelManager} {d : DownstreamId}

def Event.submission : Event → Option Submission
  | .submitSharesStandard d channelId jobId ans upstream =>
    some ⟨d, .standard, channelId, jobId, [], ans, upstream⟩
  | .submitSharesExtended d channelId jobId extranonce ans upstream =>
    some ⟨d, .extended, channelId, jobId, extranonce.val, ans, upstream⟩
  | _ => none

theorem handle_submission {e : Event} {sub : Submission} (h : e.submission = some sub) :
    s.handle env e = s.conclude (s.handleSubmitShares sub.shareKind sub.downstreamId
      (fun ds => ds.channels sub.kind) sub.channelId sub.jobId sub.ans sub.upstream) := by
  cases e <;> cases h <;> rfl

/-- The channel, the job and the target with which a miner's channel accepts a share. -/
def acceptedBy (s : ChannelManager) (sub : Submission) : Option (Channel × ChannelJob × Nat) :=
  (s.downstream.lookup sub.downstreamId).bind fun ds =>
    ((ds.channels sub.kind).lookup sub.channelId).bind fun c =>
      (acceptedTarget sub.ans).bind fun target =>
        (c.liveJob sub.jobId).map fun job => (c, job, target)

/-- A channel accepts only shares whose full extranonce has at most 32 bytes. -/
def extranonceFits (s : ChannelManager) : Action → Bool
  | .event e => match e.submission with
    | none => true
    | some sub => match s.acceptedBy sub with
      | none => true
      | some (c, _, _) => decide (c.extranoncePrefix.length + sub.rolled.length ≤ maxExtranonceLen)
  | _ => true

/-! ## The ledger of the client -/

def ledger (s : ChannelManager) : ShareLedger :=
  ⟨s.cachedShares, s.acceptedShares, s.validations, s.acknowledgements,
    s.templateIdToUpstreamJobId, s.sent.filterMap Message.submittedJob⟩

/-- Whether an action makes the client give up the cache of a template. -/
def releases (s : ChannelManager) (a : Action) (t : TemplateId) : Bool :=
  match a with
  | .event (.setNewPrevHash _ _ _) => true
  | .event (.setCustomMiningJobSuccess requestId _ _ _) => isOfTemplate requestId
  | .event (.setCustomMiningJobError requestId stale) => stale && isOfTemplate requestId
  | _ => false
where
  isOfTemplate (requestId : RequestId) : Bool :=
    match s.lastDeclareJobStore.lookup requestId with
    | none => false
    | some job => decide (job.template.templateId = t)

/-- Nothing has happened to shares. -/
structure SameShares (s s' : ChannelManager) : Prop where
  cached : s'.cachedShares = s.cachedShares
  accepted : s'.acceptedShares = s.acceptedShares
  validations : s'.validations = s.validations
  acknowledgements : s'.acknowledgements = s.acknowledgements
  upstreamJobs : s'.templateIdToUpstreamJobId = s.templateIdToUpstreamJobId
  sent : ∃ ms, s'.sent = ms ++ s.sent ∧ ∀ m ∈ ms, m.submittedJob = none

namespace SameShares

theorem refl (s : ChannelManager) : SameShares s s :=
  ⟨rfl, rfl, rfl, rfl, rfl, [], rfl, by simp⟩

theorem trans {s₁ s₂ s₃ : ChannelManager} (h : SameShares s₁ s₂) (h' : SameShares s₂ s₃) :
    SameShares s₁ s₃ := by
  obtain ⟨ms, hms, hquiet⟩ := h.sent
  obtain ⟨ms', hms', hquiet'⟩ := h'.sent
  refine ⟨h'.cached.trans h.cached, h'.accepted.trans h.accepted,
    h'.validations.trans h.validations, h'.acknowledgements.trans h.acknowledgements,
    h'.upstreamJobs.trans h.upstreamJobs, ms' ++ ms, by rw [hms', hms, List.append_assoc], ?_⟩
  intro m hm
  rcases List.mem_append.mp hm with hm | hm
  · exact hquiet' m hm
  · exact hquiet m hm

theorem fail (s : ChannelManager) (f : Fault) : SameShares s (s.fail f) := by
  cases f <;> exact ⟨rfl, rfl, rfl, rfl, rfl, [], rfl, by simp⟩

theorem send {ms : List Message} (h : ∀ m ∈ ms, m.submittedJob = none) : SameShares s (s.send ms) :=
  ⟨rfl, rfl, rfl, rfl, rfl, ms.reverse, rfl, by simpa using h⟩

theorem allocateToken (s : ChannelManager) : SameShares s s.allocateToken :=
  ⟨rfl, rfl, rfl, rfl, rfl, [_], rfl, by simp [Message.submittedJob]⟩

theorem ledger (h : SameShares s s') : s'.ledger = s.ledger := by
  obtain ⟨ms, hms, hquiet⟩ := h.sent
  have hnil : ms.filterMap Message.submittedJob = [] := List.filterMap_eq_nil_iff.mpr hquiet
  rw [ChannelManager.ledger, ChannelManager.ledger, h.cached, h.accepted, h.validations,
    h.acknowledgements, h.upstreamJobs, hms, List.filterMap_append, hnil, List.nil_append]

theorem opens {r : PendingRequest} {ans : OpenAnswers} (h : Opens s r ans s') : SameShares s s' := by
  cases h with
  | refused ds factory code hds =>
    exact ⟨rfl, rfl, rfl, rfl, rfl, [_], rfl, by simp [Message.submittedJob]⟩
  | standard ds extranoncePrefix t p raw outs jobId group =>
    exact ⟨rfl, rfl, rfl, rfl, rfl, _, rfl, by simp [announcement, Message.submittedJob]⟩
  | extended ds extranoncePrefix m t p raw outs jobId group =>
    exact ⟨rfl, rfl, rfl, rfl, rfl, _, rfl, by simp [announcement, Message.submittedJob]⟩

end SameShares

/-- The step moves the ledger. -/
def LedgerStep (s : ChannelManager) (a : Action) (s' : ChannelManager) : Prop :=
  LedgerMove (s.releases a) s.ledger s'.ledger

namespace LedgerStep

variable {a : Action}

theorem of_same (h : SameShares s s') : LedgerStep s a s' := by
  rw [LedgerStep, h.ledger]
  exact .kept

/-- An error after a part of a handler that leaves shares alone. -/
theorem fail (h : SameShares s s') (f : Fault) : LedgerStep s a (s'.fail f) :=
  .of_same (h.trans (.fail s' f))

theorem conclude {r : Except Fault ChannelManager} (hr : ∀ s', r = .ok s' → SameShares s s') :
    LedgerStep s a (s.conclude r) := by
  cases r with
  | error f => exact .fail (.refl s) f
  | ok s₁ =>
    have h := hr s₁ rfl
    exact .of_same ⟨h.cached, h.accepted, h.validations, h.acknowledgements, h.upstreamJobs, h.sent⟩

end LedgerStep

/-! ## Messages that leave shares alone -/

theorem receiveNewTemplate_ledger {a : Action} (t : NewTemplate) :
    LedgerStep s a (s.receiveNewTemplate env t) := by
  unfold receiveNewTemplate
  dsimp only
  have hreceived : SameShares s { s with
      history := (.newTemplate t, s.coinbaseOutputs) :: s.history
      templateStore := s.templateStore.insert t.templateId t
      lastFutureTemplate := if t.futureTemplate then some t else s.lastFutureTemplate } :=
    ⟨rfl, rfl, rfl, rfl, rfl, [], rfl, by simp⟩
  split
  · exact .fail hreceived _
  split
  · exact .fail hreceived _
  refine .of_same ?_
  split
  · exact ⟨rfl, rfl, rfl, rfl, rfl, [_], rfl, by simp [Message.submittedJob]⟩
  · exact ⟨rfl, rfl, rfl, rfl, rfl, [], rfl, by simp⟩

theorem declareFutureTemplate_shares (pick : RequestId) :
    SameShares s (s.declareFutureTemplate env pick) := by
  obtain heq | ⟨t, requestId, job, declaration, -, -, -, -, heq⟩ :=
    declareFutureTemplate_cases env s pick
  · rw [heq]
    exact .refl s
  · rw [heq]
    exact ⟨rfl, rfl, rfl, rfl, rfl, [_], rfl, by simp [Message.submittedJob]⟩

theorem prevHashCustomJob_shares {p : SetNewPrevHash} {raw : List TxOut} {built consumed : Bool}
    {ms : List Message} (h : s.prevHashCustomJob env p raw built = .ok (s', consumed, ms)) :
    SameShares s s' := by
  obtain ⟨rfl, -, rfl⟩ | ⟨t, token, tokens, -, -, -, hcase⟩ := prevHashCustomJob_ok h
  · exact .refl s'
  obtain ⟨-, rfl, -, rfl⟩ | ⟨-, rfl, rfl⟩ | ⟨channelId, size, stored, -, -, -, rfl, rfl⟩ := hcase
  · exact ⟨rfl, rfl, rfl, rfl, rfl, [], rfl, by simp⟩
  · exact ⟨rfl, rfl, rfl, rfl, rfl, [], rfl, by simp⟩
  · exact ⟨rfl, rfl, rfl, rfl, rfl, [], rfl, by simp⟩

/-- A prev-hash gives up every cache. -/
theorem receiveSetNewPrevHash_ledger (p : SetNewPrevHash) (pick : RequestId) (built : Bool) :
    LedgerStep s (.event (.setNewPrevHash p pick built))
      (s.receiveSetNewPrevHash env p pick built) := by
  unfold receiveSetNewPrevHash
  dsimp only
  split
  · refine .fail ?_ _
    exact ⟨rfl, rfl, rfl, rfl, rfl, [], rfl, by simp⟩
  -- what follows the clearing of the caches leaves shares alone
  have hdeclared := @declareFutureTemplate_shares env { s with
    history := (.setNewPrevHash p, s.coinbaseOutputs) :: s.history
    cachedShares := ∅ } pick
  generalize ChannelManager.declareFutureTemplate env _ pick = s₁ at hdeclared ⊢
  have hset : SameShares { s with
      history := (.setNewPrevHash p, s.coinbaseOutputs) :: s.history
      cachedShares := ∅ } { s₁ with
      lastNewPrevHash := some p
      lastDeclareJobStore := KeyMap.mapValues (activate p) s₁.lastDeclareJobStore } :=
    hdeclared.trans ⟨rfl, rfl, rfl, rfl, rfl, [], rfl, by simp⟩
  have hcleared : ∀ s', SameShares { s with
      history := (.setNewPrevHash p, s.coinbaseOutputs) :: s.history
      cachedShares := ∅ } s' →
      LedgerMove (s.releases (.event (.setNewPrevHash p pick built))) s.ledger s'.ledger := by
    intro s' hs'
    rw [hs'.ledger]
    exact .cleared fun _ => rfl
  split
  next f hf => exact hcleared _ (hset.trans (.fail _ f))
  next s₂ consumed ms hjob =>
    have hsame := prevHashCustomJob_shares hjob
    exact hcleared _ (hset.trans (hsame.trans ⟨rfl, rfl, rfl, rfl, rfl, [], rfl, by simp⟩))

theorem declareJob_shares {requestId : RequestId} {token : Bytes} {t : NewTemplate}
    {prevHash : Option SetNewPrevHash} {outs : List TxOut} {txs : List Bytes}
    {wtxids : List Hash256} {coinbase : Option (Bytes × Bytes)} :
    SameShares s (s.declareJob requestId token t prevHash outs txs wtxids coinbase) := by
  unfold declareJob
  split
  · split
    · dsimp only
      split
      · exact ⟨rfl, rfl, rfl, rfl, rfl, [], rfl, by simp⟩
      · exact ⟨rfl, rfl, rfl, rfl, rfl, [_], rfl, by simp [Message.submittedJob]⟩
    · exact .refl s
  · exact .refl s

theorem handleRequestTxDataSuccess_shares {templateId : TemplateId} {txs : List Bytes}
    {coinbase : Option (Bytes × Bytes)} :
    SameShares s (s.handleRequestTxDataSuccess env templateId txs coinbase) := by
  unfold handleRequestTxDataSuccess
  split
  · exact .refl s
  split
  · exact .fail s _
  dsimp only
  generalize hs₁ : allocateToken _ = s₁
  have hsame : SameShares s s₁ := by
    rw [← hs₁]
    exact ⟨rfl, rfl, rfl, rfl, rfl, [_], rfl, by simp [Message.submittedJob]⟩
  split
  · exact hsame
  split
  · exact hsame.trans (.fail _ _)
  split
  · exact hsame.trans (.fail _ _)
  split
  · exact hsame.trans (.fail _ _)
  split
  · exact hsame.trans (.fail _ _)
  split
  · exact hsame.trans (.fail _ _)
  · exact hsame.trans declareJob_shares

/-! ## Validation -/

/-- A share that goes to the channel to the pool is entered as validated. -/
theorem validateUpstream_ok {p : SetNewPrevHash} {u : UpstreamChannel} {share : UpstreamShare}
    {accepted : AcceptedShare} {validatedWith push : Bytes} {oversized : Fault}
    {ans : UpstreamShareAnswer}
    (h : s.validateUpstream p u share accepted validatedWith push oversized ans = .ok s') :
    ∃ forwarded, s'.ledger = { s.ledger with
      validations := ⟨accepted, share.jobId, forwarded⟩ :: s.validations
      submitted := if forwarded then share.jobId :: s.ledger.submitted else s.ledger.submitted } := by
  unfold validateUpstream at h
  split at h
  · cases h
    exact ⟨true, rfl⟩
  · split at h
    · cases h
    · cases h
      exact ⟨true, rfl⟩
  · cases h
    exact ⟨false, rfl⟩

/-- The cached shares up to some point are entered as validated under the job. -/
theorem validateCachedShares_ledger {p : SetNewPrevHash} {u : UpstreamChannel} {jobId : JobId}
    {answers : List UpstreamShareAnswer} {cs : List CachedShare} :
    ∃ s' vs, (s.validateCachedShares p u jobId answers cs = s' ∨
        s.validateCachedShares p u jobId answers cs = s'.fail .panic) ∧
      (vs.map Validation.share).reverse.Sublist (cs.map CachedShare.accepted) ∧
      (∀ v ∈ vs, v.jobId = jobId) ∧
      s'.ledger = { s.ledger with
        validations := vs ++ s.validations
        submitted := (vs.filter Validation.forwarded).map Validation.jobId ++
          s.ledger.submitted } := by
  induction cs generalizing s answers with
  | nil => exact ⟨s, [], Or.inl rfl, List.Sublist.refl _, by simp, rfl⟩
  | cons c cs ih =>
    unfold validateCachedShares
    dsimp only
    split
    next f hf =>
      rw [validateUpstream_error hf]
      exact ⟨s, [], Or.inr rfl, List.nil_sublist _, by simp, rfl⟩
    next s₁ hs₁ =>
      obtain ⟨forwarded, hledger⟩ := validateUpstream_ok hs₁
      obtain ⟨s', vs, hend, hshares, hjobs, hledger'⟩ := @ih s₁ answers.tail
      have hvalidations : s₁.validations = ⟨c.accepted, jobId, forwarded⟩ :: s.validations :=
        congrArg ShareLedger.validations hledger
      refine ⟨s', vs ++ [⟨c.accepted, jobId, forwarded⟩], hend, ?_, ?_, ?_⟩
      · rw [List.map_append, List.reverse_append]
        exact hshares.cons_cons c.accepted
      · intro v hv
        rcases List.mem_append.mp hv with hv | hv
        · exact hjobs v hv
        · rw [List.mem_singleton.mp hv]
      · rw [hledger', hledger, hvalidations, List.append_assoc, List.filter_append, List.map_append,
          List.append_assoc]
        cases forwarded <;> rfl

/-- The pool's acceptance of a job, in the ledger. -/
theorem handleSetCustomMiningJobSuccess_ledger {requestId : RequestId} {jobId : JobId}
    {ack : AcknowledgementAnswer} {answers : List UpstreamShareAnswer} :
    LedgerStep s (.event (.setCustomMiningJobSuccess requestId jobId ack answers))
      (s.handleSetCustomMiningJobSuccess requestId jobId ack answers) := by
  have hreleases : ∀ job, s.lastDeclareJobStore.lookup requestId = some job →
      s.releases (.event (.setCustomMiningJobSuccess requestId jobId ack answers))
        job.template.templateId = true := by
    intro job hjob
    simp [releases, releases.isOfTemplate, hjob]
  have hnone : ∀ job, s.lastDeclareJobStore.lookup requestId = some job →
      LedgerStep s (.event (.setCustomMiningJobSuccess requestId jobId ack answers))
        (s.completeJob requestId jobId job.template.templateId) := fun job hjob =>
    .acknowledged job.template.templateId jobId [] (hreleases job hjob) (List.nil_sublist _) (by simp)
  have hcases := handleSetCustomMiningJobSuccess_cases s requestId jobId ack answers
  generalize s.handleSetCustomMiningJobSuccess requestId jobId ack answers = s' at hcases ⊢
  cases hcases with
  | unknown => exact .fail (.refl s) _
  | dropped job f hjob hf =>
    rw [LedgerStep, (SameShares.fail _ f).ledger]
    exact hnone job hjob
  | noShares job u hjob hup => exact hnone job hjob
  | shares job u p cs hjob hup hp hcs =>
    obtain ⟨s₂, vs, hend, hshares, hjobs, hledger⟩ := @validateCachedShares_ledger
      (s.acknowledged requestId jobId job.template.templateId u) p (u.acknowledge jobId) jobId
      answers cs
    have hmove : LedgerStep s (.event (.setCustomMiningJobSuccess requestId jobId ack answers)) s₂ := by
      rw [LedgerStep, hledger]
      refine .acknowledged job.template.templateId jobId vs (hreleases job hjob) ?_ hjobs
      rw [show s.ledger.cached.lookup job.template.templateId = some cs from hcs]
      exact hshares
    rcases hend with heq | heq
    · rw [heq]
      exact hmove
    · rw [heq, LedgerStep, (SameShares.fail s₂ .panic).ledger]
      exact hmove

theorem handleSetCustomMiningJobError_ledger {requestId : RequestId} {stale : Bool} :
    LedgerStep s (.event (.setCustomMiningJobError requestId stale))
      (s.handleSetCustomMiningJobError requestId stale) := by
  unfold handleSetCustomMiningJobError
  split
  next hstale =>
    split
    · exact .of_same (.refl s)
    next job hjob =>
      refine LedgerMove.dropped job.template.templateId ?_
      simp [releases, releases.isOfTemplate, hjob, hstale]
  · exact .fail (.refl s) _

/-! ## Submissions -/

theorem shareMessages_submittedJob {channelId : ChannelId} {ans : ShareAnswer} :
    ∀ m ∈ shareMessages d channelId ans, m.submittedJob = none := by
  intro m hm
  cases ans with
  | valid target acknowledge =>
    cases acknowledge <;> simp [shareMessages] at hm
    subst hm
    rfl
  | blockFound target templateId =>
    cases templateId <;> simp [shareMessages] at hm
    · subst hm
      rfl
    · rcases hm with rfl | rfl <;> rfl
  | invalid code =>
    simp [shareMessages] at hm
    subst hm
    rfl
  | budgetExhausted => simp [shareMessages] at hm

theorem acceptedBy_eq_some {sub : Submission} {c : Channel} {job : ChannelJob} {target : Nat} :
    s.acceptedBy sub = some (c, job, target) ↔ ∃ ds, s.downstream.lookup sub.downstreamId = some ds ∧
      (ds.channels sub.kind).lookup sub.channelId = some c ∧ acceptedTarget sub.ans = some target ∧
      c.liveJob sub.jobId = some job := by
  constructor
  · intro h
    obtain ⟨ds, hds, h⟩ := Option.bind_eq_some_iff.mp h
    obtain ⟨c', hc, h⟩ := Option.bind_eq_some_iff.mp h
    obtain ⟨target', htarget, h⟩ := Option.bind_eq_some_iff.mp h
    obtain ⟨job', hjob, heq⟩ := Option.map_eq_some_iff.mp h
    cases heq
    exact ⟨ds, hds, hc, htarget, hjob⟩
  · rintro ⟨ds, hds, hc, htarget, hjob⟩
    simp [acceptedBy, hds, hc, htarget, hjob]

theorem forwardShare_enters {kind : ShareKind} {p : SetNewPrevHash}
    {key : DownstreamId × ChannelId × JobId} {c : Channel} {job : ChannelJob} {target : Nat}
    {ans : UpstreamShareAnswer}
    (hmap : s.jobToTemplateId.lookup key = some job.template.templateId)
    (h : s.forwardShare kind p key c job target ans = .ok s') :
    (s.upstreamChannel = none ∧ s' = s) ∨
      Enters job.template.templateId target s.ledger s'.ledger := by
  unfold forwardShare at h
  split at h
  next hup =>
    cases h
    exact Or.inl ⟨hup, rfl⟩
  dsimp only at h
  split at h
  · cases h
  split at h
  · cases h
  rw [hmap] at h
  dsimp only at h
  right
  split at h
  next jobId hjob =>
    obtain ⟨forwarded, hledger⟩ := validateUpstream_ok h
    rw [hledger]
    exact .validated jobId forwarded hjob
  next hjob =>
    cases h
    exact .cached _ rfl rfl hjob

/-- A share that a miner sends is entered into the ledger if the miner's channel accepts it. -/
theorem handleSubmitShares_ledger {sub : Submission}
    (hmap : ∀ c job target, s.acceptedBy sub = some (c, job, target) →
      s.jobToTemplateId.lookup (sub.downstreamId, sub.channelId, sub.jobId) =
        some job.template.templateId)
    (h : s.handleSubmitShares sub.shareKind sub.downstreamId (fun ds => ds.channels sub.kind)
      sub.channelId sub.jobId sub.ans sub.upstream = .ok s') :
    (SameShares s s' ∧ (s.acceptedBy sub = none ∨ s.upstreamChannel = none)) ∨
      ∃ c job target, s.acceptedBy sub = some (c, job, target) ∧
        Enters job.template.templateId target s.ledger s'.ledger := by
  unfold handleSubmitShares at h
  split at h
  · cases h
  split at h
  · cases h
  next ds hds =>
  split at h
  next hc =>
    cases h
    exact Or.inl ⟨.send (by simp [Message.submittedJob]), Or.inl (by simp [acceptedBy, hds, hc])⟩
  next c hc =>
  split at h
  next htarget =>
    split at h
    · cases h
    · cases h
      exact Or.inl ⟨.send shareMessages_submittedJob,
        Or.inl (by simp [acceptedBy, hds, htarget])⟩
  next target htarget =>
  split at h
  next hjob =>
    cases h
    exact Or.inl ⟨.refl s, Or.inl (by simp [acceptedBy, hds, hc, htarget, hjob])⟩
  next job hjob =>
    have haccepted : s.acceptedBy sub = some (c, job, target) :=
      acceptedBy_eq_some.mpr ⟨ds, hds, hc, htarget, hjob⟩
    have hsent : SameShares s (s.send (shareMessages sub.downstreamId sub.channelId sub.ans)) :=
      .send shareMessages_submittedJob
    have hmapped : (s.send (shareMessages sub.downstreamId sub.channelId sub.ans)).jobToTemplateId.lookup
        (sub.downstreamId, sub.channelId, sub.jobId) = some job.template.templateId :=
      hmap c job target haccepted
    rcases forwardShare_enters hmapped h with ⟨hup, rfl⟩ | hentered
    · exact Or.inl ⟨hsent, Or.inr hup⟩
    · rw [hsent.ledger] at hentered
      exact Or.inr ⟨c, job, target, haccepted, hentered⟩

/-- The handling of an accepted share fails only on the slice of a prefix that is shorter than the
    one of the channel to the pool. -/
theorem handleSubmitShares_fails {sub : Submission} {c : Channel} {job : ChannelJob} {target : Nat}
    {f : Fault} (haccepted : s.acceptedBy sub = some (c, job, target))
    (hp : s.lastNewPrevHash.isSome = true)
    (hfits : c.extranoncePrefix.length + sub.rolled.length ≤ maxExtranonceLen)
    (h : s.handleSubmitShares sub.shareKind sub.downstreamId (fun ds => ds.channels sub.kind)
      sub.channelId sub.jobId sub.ans sub.upstream = .error f) :
    f = .panic ∧ ∃ u, s.upstreamChannel = some u ∧
      c.extranoncePrefix.length < u.extranoncePrefix.length := by
  obtain ⟨ds, hds, hc, htarget, hjob⟩ := acceptedBy_eq_some.mp haccepted
  obtain ⟨p, hp⟩ := Option.isSome_iff_exists.mp hp
  simp only [handleSubmitShares, hp, hds, hc, htarget, hjob] at h
  unfold forwardShare at h
  split at h
  · cases h
  next u hup =>
  dsimp only at h
  split at h
  next hshort =>
    cases h
    exact ⟨rfl, u, hup, hshort⟩
  next hprefix =>
  -- the extranonce is what comes after the pool's prefix in a full extranonce that fits
  have hextranonce : (c.extranoncePrefix.drop u.extranoncePrefix.length ++
      sub.shareKind.rolled).length + u.extranoncePrefix.length ≤ maxExtranonceLen := by
    have hrolled : sub.shareKind.rolled.length ≤ sub.rolled.length := by
      unfold Submission.shareKind
      split
      · exact Nat.zero_le _
      · exact Nat.le_refl _
    simp only [List.length_append, List.length_drop]
    omega
  split at h
  next hlong => omega
  split at h
  · cases h
  split at h
  · -- so that the extranonce of a solution fits too
    exfalso
    unfold validateUpstream at h
    split at h
    · cases h
    · split at h
      next hpush =>
        cases hkind : sub.kind with
        | standard =>
          simp only [Submission.shareKind, hkind] at hpush
          omega
        | extended =>
          simp only [Submission.shareKind, hkind, List.length_append, List.length_drop] at hpush
          omega
      · cases h
    · cases h
  · cases h

/-! ## Steps -/

/-- The map leads from the job of every share that is accepted to its template. -/
theorem JobMapInv.accepted (h : JobMapInv s) {sub : Submission} {c : Channel} {job : ChannelJob}
    {target : Nat} (haccepted : s.acceptedBy sub = some (c, job, target)) :
    s.jobToTemplateId.lookup (sub.downstreamId, sub.channelId, sub.jobId) =
      some job.template.templateId := by
  obtain ⟨ds, hds, hc, -, hjob⟩ := acceptedBy_eq_some.mp haccepted
  exact h.exact sub.downstreamId sub.kind sub.channelId c ⟨ds, hds, hc⟩ sub.jobId job hjob

theorem submission_ledger (hmap : JobMapInv s) {e : Event} {sub : Submission}
    (he : e.submission = some sub) : LedgerStep s (.event e) (s.handle env e) := by
  rw [handle_submission he]
  generalize hresult : s.handleSubmitShares _ _ _ _ _ _ _ = result
  cases result with
  | error f => exact .fail (.refl s) f
  | ok s₁ =>
    have hledger : (s.conclude (.ok s₁)).ledger = s₁.ledger := rfl
    rw [LedgerStep, hledger]
    rcases handleSubmitShares_ledger (fun c job target => hmap.accepted) hresult with
      ⟨hsame, -⟩ | ⟨c, job, target, -, henters⟩
    · rw [hsame.ledger]
      exact .kept
    · exact henters.move _

theorem handle_ledger (hmap : JobMapInv s) (e : Event) :
    LedgerStep s (.event e) (s.handle env e) := by
  cases e with
  | newTemplate t => exact receiveNewTemplate_ledger t
  | setNewPrevHash p pick built => exact receiveSetNewPrevHash_ledger p pick built
  | requestTransactionDataSuccess t txs coinbase => exact .of_same handleRequestTxDataSuccess_shares
  | openExtendedMiningChannelSuccess msg ans =>
    have hcases := receiveOpenSuccess_cases env s msg ans
    simp only [ChannelManager.handle]
    generalize s.receiveOpenSuccess env msg ans = s' at hcases ⊢
    cases hcases with
    | failed f wrapped hf =>
      refine .fail ?_ f
      exact ⟨rfl, rfl, rfl, rfl, rfl, [], rfl, by simp⟩
    | noRequest _ =>
      exact .of_same ⟨rfl, rfl, rfl, rfl, rfl, [_], rfl, by simp [Message.submittedJob]⟩
    | refused _ =>
      exact .of_same ⟨rfl, rfl, rfl, rfl, rfl, [_], rfl, by simp [Message.submittedJob]⟩
    | configured raw s₁ customJob hraw hsize hpending hallocator hjob =>
      refine .of_same ?_
      obtain ⟨tokens, n, jobs, rfl⟩ := openCustomJob_frame hjob
      exact ⟨rfl, rfl, rfl, rfl, rfl, [], rfl, by simp⟩
  | setExtranoncePrefix extranoncePrefix accepts built =>
    simp only [ChannelManager.handle, ChannelManager.receiveSetExtranoncePrefix]
    split
    · exact .of_same (.refl s)
    split
    · exact .fail (.refl s) _
    split
    · refine .fail ?_ _
      exact ⟨rfl, rfl, rfl, rfl, rfl, [], rfl, by simp⟩
    split
    · refine .fail ?_ _
      exact ⟨rfl, rfl, rfl, rfl, rfl, [], rfl, by simp⟩
    · exact .of_same ⟨rfl, rfl, rfl, rfl, rfl, [], rfl, by simp⟩
  | setCustomMiningJobSuccess requestId jobId ack answers =>
    exact handleSetCustomMiningJobSuccess_ledger
  | setCustomMiningJobError requestId stale => exact handleSetCustomMiningJobError_ledger
  | closeUpstreamChannel =>
    simp only [ChannelManager.handle]
    refine .fail ?_ _
    exact ⟨rfl, rfl, rfl, rfl, rfl, [], rfl, by simp⟩
  | upstreamFault =>
    simp only [ChannelManager.handle]
    exact .fail (.refl s) _
  | allocateMiningJobTokenSuccess requestId token outs =>
    simp only [ChannelManager.handle, handleAllocateMiningJobTokenSuccess]
    have hsame : SameShares s { s with
        coinbaseOutputs := outs
        allocateTokens := s.allocateTokens ++ [token]
        receivedTokens := token :: s.receivedTokens
        allocationRequests := s.allocationRequests.erase requestId } :=
      ⟨rfl, rfl, rfl, rfl, rfl, [], rfl, by simp⟩
    split
    · split
      · exact .fail hsame _
      · exact .of_same hsame
    · split
      · exact .of_same (hsame.trans (.send (by simp [Message.submittedJob])))
      · exact .of_same hsame
  | declareMiningJobSuccess requestId token built =>
    obtain heq | heq | ⟨job, p, outs, channelId, size, -, -, -, -, heq⟩ :=
      handleDeclareMiningJobSuccess_cases s requestId token built
    · simp only [ChannelManager.handle, heq]
      exact .of_same (.refl s)
    · simp only [ChannelManager.handle, heq]
      exact .fail (.refl s) _
    · simp only [ChannelManager.handle, heq]
      exact .of_same ⟨rfl, rfl, rfl, rfl, rfl, [_], rfl, by simp [Message.submittedJob]⟩
  | declareMiningJobError requestId stale =>
    simp only [ChannelManager.handle]
    split
    · exact .of_same (.refl s)
    · exact .fail (.refl s) _
  | provideMissingTransactions requestId positions =>
    simp only [ChannelManager.handle, handleProvideMissingTransactions]
    split
    · exact .of_same (.refl s)
    · exact .of_same (.send (by simp [Message.submittedJob]))
  | openChannel r ans =>
    simp only [ChannelManager.handle, ChannelManager.handleDownstreamOpen]
    have hnow : LedgerStep s (.event (.openChannel r ans))
        ({ s with openRequests := r :: s.openRequests }.handleOpenNow r ans) := by
      unfold ChannelManager.handleOpenNow
      obtain ⟨wrapped, hrecord⟩ :=
        recordRollableSize_calm { s with openRequests := r :: s.openRequests } r ans
      rw [hrecord]
      exact @LedgerStep.conclude
        { s with openRequests := r :: s.openRequests, sizeWrapped := wrapped }
        (.event (.openChannel r ans))
        (handleOpen { s with openRequests := r :: s.openRequests, sizeWrapped := wrapped } r ans)
        fun s' hs' => .opens (handleOpen_opens hs')
    split
    · exact .of_same ⟨rfl, rfl, rfl, rfl, rfl, [_], rfl, by simp [Message.submittedJob]⟩
    · exact .of_same ⟨rfl, rfl, rfl, rfl, rfl, [], rfl, by simp⟩
    · exact hnow
    · exact hnow
  | closeChannel d channelId =>
    refine .conclude ?_
    intro s' hs'
    unfold handleCloseChannel at hs'
    split at hs'
    · cases hs'
    · cases hs'
      exact ⟨rfl, rfl, rfl, rfl, rfl, [], rfl, by simp⟩
  | submitSharesStandard d channelId jobId ans upstream => exact submission_ledger hmap rfl
  | submitSharesExtended d channelId jobId extranonce ans upstream =>
    exact submission_ledger hmap rfl

theorem templateCustomJob_shares (t : NewTemplate) (ctx : TemplateContext) (built : Bool) :
    SameShares s (s.templateCustomJob t ctx built).1 := by
  obtain ⟨n, store, heq⟩ := templateCustomJob_frame s t ctx built
  rw [heq]
  exact ⟨rfl, rfl, rfl, rfl, rfl, [], rfl, by simp⟩

theorem visit_shares (d : DownstreamId) (ans : VisitAnswers) : SameShares s (s.visit d ans) := by
  unfold ChannelManager.visit
  split
  · exact .refl s
  split
  next t ctx present visited messages hloop =>
    split
    · exact .refl s
    split
    · exact .fail s _
    next s₁ ms hs₁ =>
      obtain ⟨ds', jobs, notices, -, -, rfl, rfl⟩ := visitNewTemplate_ok hs₁
      exact (@templateCustomJob_shares s t ctx ans.template.customJobBuilt).trans
        ⟨rfl, rfl, rfl, rfl, rfl, [], rfl, by simp⟩
  · split
    · exact .refl s
    split
    · exact .fail s _
    next s₁ ms hs₁ =>
      obtain ⟨jobs, rfl, -⟩ := visitSetNewPrevHash_ok hs₁
      exact ⟨rfl, rfl, rfl, rfl, rfl, [], rfl, by simp⟩
  · split
    · exact .refl s
    split
    · exact ⟨rfl, rfl, rfl, rfl, rfl, [], rfl, by simp⟩
    · exact .fail s _
  · split
    · exact .refl s
    · exact ⟨rfl, rfl, rfl, rfl, rfl, [], rfl, by simp⟩
  · exact .refl s

theorem finishOpenSuccess_shares (customJob : Option CustomJob) :
    SameShares s (s.finishOpenSuccess env customJob) := by
  have hrequest : SameShares s (s.requestFutureTemplate env) := by
    unfold requestFutureTemplate
    split
    · exact .send (by simp [Message.submittedJob])
    · exact .refl s
  have hsend : ∀ s : ChannelManager, SameShares s (s.sendOpenCustomJob env customJob) := by
    intro s
    unfold sendOpenCustomJob
    split
    · exact (SameShares.send (by simp [Message.submittedJob])).trans (.allocateToken _)
    · exact .refl s
  exact (hrequest.trans (hsend _)).trans ⟨rfl, rfl, rfl, rfl, rfl, [], rfl, by simp⟩

theorem finish_shares (hjobs : ∀ m ∈ s.loop.messages, m.IsJobMessage) :
    SameShares s (s.finish env) := by
  have htoken : ∀ b : Bool, SameShares s (if b then s.allocateToken else s) := by
    intro b
    cases b
    · exact .refl s
    · exact .allocateToken s
  -- the messages that the handler has collected
  have hsend : ∀ (b : Bool) (messages : List Message), (∀ m ∈ messages, m.submittedJob = none) →
      SameShares s { (if b then s.allocateToken else s).send messages with loop := .idle } := by
    intro b messages hmessages
    have h := (htoken b).trans (.send hmessages)
    exact ⟨h.cached, h.accepted, h.validations, h.acknowledgements, h.upstreamJobs, h.sent⟩
  unfold ChannelManager.finish
  split
  next hloop =>
    rw [hloop] at hjobs
    split
    · exact hsend _ _ fun m hm => (hjobs m hm).submittedJob
    · exact .refl s
  next hloop =>
    rw [hloop] at hjobs
    split
    · exact hsend _ _ fun m hm => (hjobs m hm).submittedJob
    · exact .refl s
  · split
    · exact finishOpenSuccess_shares _
    · exact .refl s
  · split
    · refine hsend false _ ?_
      intro m hm
      obtain ⟨r, -, rfl⟩ := List.mem_map.mp hm
      rfl
    · exact .refl s
  · exact .refl s

/-- A step of the client moves the ledger. -/
theorem step_ledger (hmap : JobMapInv s) (hjobs : ∀ m ∈ s.loop.messages, m.IsJobMessage)
    (a : Action) : LedgerStep s a (s.step env a) := by
  cases a with
  | event e =>
    simp only [ChannelManager.step]
    split
    · exact handle_ledger hmap e
    · exact .of_same (.refl s)
  | visit d ans => exact .of_same (visit_shares d ans)
  | finish => exact .of_same (finish_shares hjobs)
  | handlePending ans =>
    simp only [ChannelManager.step, ChannelManager.handlePending]
    split
    next r rest hloop =>
      obtain ⟨wrapped, hrecord⟩ := recordRollableSize_calm s r ans
      rw [hrecord]
      split
      next f hf =>
        refine .fail ?_ f
        exact ⟨rfl, rfl, rfl, rfl, rfl, [], rfl, by simp⟩
      next s₁ hs₁ =>
        have h := SameShares.opens (handleOpen_opens hs₁)
        exact .of_same
          ⟨h.cached, h.accepted, h.validations, h.acknowledgements, h.upstreamJobs, h.sent⟩
    · exact .of_same (.refl s)
  | accept =>
    simp only [ChannelManager.step, ChannelManager.accept]
    split <;> exact .of_same ⟨rfl, rfl, rfl, rfl, rfl, [], rfl, by simp⟩
  | bootstrap d built =>
    simp only [ChannelManager.step, ChannelManager.bootstrap]
    split
    · split
      · split <;> exact .of_same ⟨rfl, rfl, rfl, rfl, rfl, [], rfl, by simp⟩
      · exact .of_same ⟨rfl, rfl, rfl, rfl, rfl, [], rfl, by simp⟩
      · exact .of_same ⟨rfl, rfl, rfl, rfl, rfl, [], rfl, by simp⟩
    · exact .of_same (.refl s)
  | register d =>
    simp only [ChannelManager.step, ChannelManager.register]
    split <;> exact .of_same ⟨rfl, rfl, rfl, rfl, rfl, [], rfl, by simp⟩
  | setUpConnection d requireStdJob => exact .of_same ⟨rfl, rfl, rfl, rfl, rfl, [], rfl, by simp⟩
  | removeDownstream d => exact .of_same ⟨rfl, rfl, rfl, rfl, rfl, [], rfl, by simp⟩

/-- A share that a miner's channel accepts is entered into the ledger, or the client panics on a
    prefix that is too short. -/
theorem submission_entered (hmap : JobMapInv s) (hpool : PoolInv s) {e : Event} {sub : Submission}
    {c : Channel} {job : ChannelJob} {target : Nat} (he : e.submission = some sub)
    (htakes : s.takes e = true) (haccepted : s.acceptedBy sub = some (c, job, target))
    (hfits : s.extranonceFits (.event e) = true) :
    ((s.step env (.event e)).loop = .stopped .panic ∧ ∃ u, s.upstreamChannel = some u ∧
        c.extranoncePrefix.length < u.extranoncePrefix.length) ∨
      Enters job.template.templateId target s.ledger (s.step env (.event e)).ledger := by
  obtain ⟨ds, hds, hc, -, -⟩ := acceptedBy_eq_some.mp haccepted
  have hopen : s.IsOpen sub.downstreamId sub.kind sub.channelId c := ⟨ds, hds, hc⟩
  have hup : s.upstreamChannel ≠ none := by
    intro hnone
    rcases hpool.upstream with hstopped | hup | ⟨-, hnobody⟩
    · rw [takes_idle htakes] at hstopped
      cases hstopped
    · rw [hnone] at hup
      cases hup
    · exact hnobody _ _ _ _ hopen
  rw [step, if_pos htakes, handle_submission he]
  generalize hresult : s.handleSubmitShares _ _ _ _ _ _ _ = result
  cases result with
  | error f =>
    left
    simp only [extranonceFits, he, haccepted, decide_eq_true_eq] at hfits
    obtain ⟨rfl, hshort⟩ :=
      handleSubmitShares_fails haccepted (hpool.prevHash _ _ _ _ hopen) hfits hresult
    exact ⟨rfl, hshort⟩
  | ok s₁ =>
    right
    rcases handleSubmitShares_ledger (fun c job target => hmap.accepted) hresult with
      ⟨-, hnone | hnone⟩ | ⟨c', job', target', haccepted', henters⟩
    · rw [haccepted] at hnone
      cases hnone
    · exact absurd hnone hup
    · rw [haccepted] at haccepted'
      cases haccepted'
      exact henters

/-! ## Runs -/

/-- What holds of shares in every state. -/
structure SharesInv (s : ChannelManager) : Prop where
  jobs : JobsInv s
  pool : PoolInv s
  ledger : LedgerInv s.ledger
  messages : ∀ m ∈ s.loop.messages, m.IsJobMessage

theorem sharesInv_start (outs : Option (List TxOut)) : SharesInv (start outs) := by
  refine ⟨jobsInv_start outs, poolInv_start outs,
    ⟨by simp [ledger, start], List.nodup_nil, List.nodup_nil, by simp [ledger, start], ?_, ?_, ?_,
      by simp [ledger, start], ?_, rfl⟩, by simp [start, LoopTask.messages]⟩
  all_goals
    intro t cs hcs
    cases hcs

theorem SharesInv.step (h : SharesInv s) {a : Action} (hlaw : s.numbersJobs a = true)
    (hactivates : s.activatesNamed a = true) (hopens : s.opensNamed a = true) :
    SharesInv (s.step env a) :=
  ⟨h.jobs.step hlaw hactivates hopens, h.pool.step a,
    h.ledger.move (step_ledger h.jobs.map h.messages a), step_messages h.messages a⟩

/-- In every run with a crate that keeps to its rules: no share is validated twice, each one is
    validated under a job that the pool has acknowledged for its own template, and what is sent to
    the pool are the shares that were validated; the cache of a template has only shares of it that
    have not been validated, and none once the template is acknowledged; a share that is accepted
    is validated or cached, unless the client panics on a prefix that is shorter than the pool's,
    and stays in the cache until the cache is given up or is full of shares that are at least as
    good. -/
theorem cached_shares_delivered_once (env : Env) (outs : Option (List TxOut)) (as : List Action)
    (hcrate : Runs.Guarded (ChannelManager.step env) (fun s a => s.numbersJobs a = true ∧
      s.activatesNamed a = true ∧ s.opensNamed a = true) (start outs) as) :
    let s := after env outs as
    s.acceptedShares.Nodup ∧ (s.validations.map Validation.share).Nodup ∧
    (∀ v ∈ s.validations, v.share ∈ s.acceptedShares ∧
      (v.share.templateId, v.jobId) ∈ s.acknowledgements) ∧
    s.sent.filterMap Message.submittedJob =
      (s.validations.filter Validation.forwarded).map Validation.jobId ∧
    (∀ t cs, s.cachedShares.lookup t = some cs → ∀ c ∈ cs, c.accepted.templateId = t ∧
      c.accepted ∈ s.acceptedShares ∧ c.accepted ∉ s.validations.map Validation.share) ∧
    (∀ t jobId, (t, jobId) ∈ s.acknowledgements → s.cachedShares.lookup t = none) ∧
    (∀ a t cs c, s.cachedShares.lookup t = some cs → c ∈ cs → s.releases a t = true ∨
      ∃ cs', (s.step env a).cachedShares.lookup t = some cs' ∧
        (c ∈ cs' ∨ FullOfBetter cs' c.shareTarget)) ∧
    (∀ e sub c job target, e.submission = some sub → s.takes e = true →
      s.acceptedBy sub = some (c, job, target) → s.extranonceFits (.event e) = true →
      let s' := s.step env (.event e)
      let share : AcceptedShare := ⟨s.acceptedShares.length, job.template.templateId⟩
      (s'.loop = .stopped .panic ∧ ∃ u, s.upstreamChannel = some u ∧
          c.extranoncePrefix.length < u.extranoncePrefix.length) ∨
        s'.acceptedShares = share :: s.acceptedShares ∧
        ((s.templateIdToUpstreamJobId.lookup share.templateId ≠ none ∧
            ∃ v ∈ s'.validations, v.share = share) ∨
          ∃ cs, s'.cachedShares.lookup share.templateId = some cs ∧
            ((∃ c ∈ cs, c.accepted = share) ∨ FullOfBetter cs target))) := by
  have hinv : SharesInv (after env outs as) :=
    Runs.run_invariant_of_guarded SharesInv (fun s a h hok => h.step hok.1 hok.2.1 hok.2.2)
      (sharesInv_start outs) as hcrate
  have hledger := hinv.ledger
  refine ⟨hledger.accepted, hledger.once, hledger.validated, hledger.submitted, hledger.cached,
    fun t jobId h => (hledger.acknowledged t jobId h).1, ?_, ?_⟩
  · intro a t cs c hcs hc
    exact hledger.stays (step_ledger hinv.jobs.map hinv.messages a) hcs hc
  · intro e sub c job target he htakes haccepted hfits
    rcases submission_entered hinv.jobs.map hinv.pool he htakes haccepted hfits with hshort | henters
    · exact Or.inl hshort
    · exact Or.inr (hledger.entered henters)

/-- Job 1 is declared; a share for it arrives before the pool has accepted it, and one after. -/
def deliveredRun : List Action :=
  secondTemplateRun ++
  [.event (.allocateMiningJobTokenSuccess 0 [1] (some [⟨0, [0x51]⟩])),
   .event (.requestTransactionDataSuccess 1 [] (some ([], []))),
   .event (.declareMiningJobSuccess 2 [2] true),
   .event (.submitSharesExtended 0 2 1 ⟨[1, 2, 3, 4, 5, 6], by decide⟩ (.valid 7 true) .valid),
   .event (.setCustomMiningJobSuccess 2 40 .accepted [.valid]),
   .event (.submitSharesExtended 0 2 1 ⟨[6, 5, 4, 3, 2, 1], by decide⟩ (.valid 9 true) .valid)]

theorem cached_shares_delivered_once_twoShares :
    let s := after (sampleEnv .fullTemplate) (some [⟨0, [0x51]⟩]) deliveredRun
    s.validations = [⟨⟨1, 1⟩, 40, true⟩, ⟨⟨0, 1⟩, 40, true⟩] ∧
    (s.validations.map Validation.share).Nodup ∧
    ∀ t jobId, (t, jobId) ∈ s.acknowledgements → s.cachedShares.lookup t = none := by
  have h := cached_shares_delivered_once (sampleEnv .fullTemplate) (some [⟨0, [0x51]⟩]) deliveredRun
    (by decide +kernel)
  exact ⟨by decide +kernel, h.2.1, h.2.2.2.2.2.1⟩

end ChannelManager

end Sv2Apps.Jdc
