/-
  Jdc/HandlerSpecs.lean
  =====================
  **What each handler of the client can do** — one inversion lemma a handler, in terms of the
  fields it changes.  The invariants are proved from these; no later proof opens a handler.
-/
import Sv2Apps.Jdc.MessageLoop

namespace Sv2Apps.Jdc

open Bitcoin

/-- A message that only says something about a share. -/
def Message.IsAboutShare : Message → Prop
  | .submitSharesExtended _ => True
  | .pushSolution _ _ => True
  | .submitSolution _ => True
  | .downstream _ (.submitSharesSuccess _) => True
  | .downstream _ (.submitSharesError _ _) => True
  | _ => False

/-- A message that tells a miner of a job or of the prev-hash of a job. -/
def Message.IsJobNotice : Message → Prop
  | .downstream _ (.newMiningJob _ _) => True
  | .downstream _ (.newExtendedMiningJob _ _) => True
  | .downstream _ (.setNewPrevHash _ _ _) => True
  | _ => False

namespace LoopTask

def isStopped : LoopTask → Bool
  | .stopped _ => true
  | _ => false

end LoopTask

namespace ChannelManager

variable {env : Env} {s s' : ChannelManager} {d : DownstreamId}

theorem takes_idle {e : Event} (h : s.takes e = true) : s.loop = .idle := by
  simp only [takes, Bool.and_eq_true, decide_eq_true_eq] at h
  exact h.1.1

/-- A loop that has ended stays so. -/
theorem stopped_step (hstopped : s.loop.isStopped = true) (a : Action) :
    (s.step env a).loop.isStopped = true := by
  obtain ⟨f, hf⟩ : ∃ f, s.loop = .stopped f := by
    cases hloop : s.loop <;> rw [hloop] at hstopped <;> first | exact ⟨_, rfl⟩ | cases hstopped
  cases a with
  | event e =>
    have htakes : s.takes e = false := by
      simp [takes, hf]
    simp only [step, htakes]
    exact hstopped
  | visit d ans =>
    simp only [step, visit, hf]
    split <;> exact hstopped
  | finish =>
    simp only [step, finish, hf]
    rfl
  | handlePending ans =>
    simp only [step, handlePending, hf]
    rfl
  | accept =>
    simp only [step, accept]
    split <;> exact hstopped
  | bootstrap d built =>
    simp only [step, bootstrap]
    split
    · split
      · split <;> exact hstopped
      · exact hstopped
      · exact hstopped
    · exact hstopped
  | register d =>
    simp only [step, register]
    split <;> exact hstopped
  | setUpConnection d requireStdJob => exact hstopped
  | removeDownstream d => exact hstopped

/-- Only visits change connections and the jobs of their channels. -/
theorem finish_keeps (s : ChannelManager) : (s.finish env).downstream = s.downstream ∧
    (s.finish env).jobToTemplateId = s.jobToTemplateId := by
  have htoken : ∀ b : Bool, (if b then s.allocateToken else s).downstream = s.downstream ∧
      (if b then s.allocateToken else s).jobToTemplateId = s.jobToTemplateId := by
    intro b
    cases b <;> exact ⟨rfl, rfl⟩
  unfold finish
  split
  · split
    · exact htoken _
    · exact ⟨rfl, rfl⟩
  · split
    · exact htoken _
    · exact ⟨rfl, rfl⟩
  · split
    · unfold finishOpenSuccess sendOpenCustomJob requestFutureTemplate
      split <;> split <;> exact ⟨rfl, rfl⟩
    · exact ⟨rfl, rfl⟩
  · split <;> exact ⟨rfl, rfl⟩
  · exact ⟨rfl, rfl⟩

/-! ## Opening a channel -/

/-- The channel that an open request leads to. -/
def openedChannel (s : ChannelManager) (extranoncePrefix : Bytes) (rollable : Nat) (t : NewTemplate)
    (outs : List TxOut) (jobId : JobId) : Channel :=
  (⟨extranoncePrefix, rollable, ∅, s.extranonceAllocator.generation, 1, []⟩ : Channel).addJob jobId t
    outs (extranoncePrefix.length + rollable)

/-- The messages that announce a channel. -/
def announcement (d : DownstreamId) (success : MiningMessage) (job : MiningMessage)
    (channelId : ChannelId) (jobId : JobId) (p : SetNewPrevHash) : List Message :=
  [.downstream d (.setNewPrevHash channelId jobId p), .downstream d job, .downstream d success]

/-- How an open request that does not fail can end. -/
inductive Opens (s : ChannelManager) (r : PendingRequest) (ans : OpenAnswers) :
    ChannelManager → Prop
  | refused (ds : Downstream) (factory : ChannelId) (code : OpenMiningChannelErrorCode)
      (hds : s.downstream.lookup r.downstreamId = some ds) :
      Opens s r ans
        (s.refuseOpen r.downstreamId { ds with channelIdFactory := factory } r.request code)
  | standard (ds : Downstream) (extranoncePrefix : Bytes) (t : NewTemplate) (p : SetNewPrevHash)
      (raw outs : List TxOut) (jobId : JobId) (group : List ChannelId)
      (hkind : r.request.kind = .standard)
      (hds : s.downstream.lookup r.downstreamId = some ds)
      (hallocation : ans.allocation = .allocated extranoncePrefix)
      (ht : s.lastFutureTemplate = some t) (hp : s.lastNewPrevHash = some p)
      (hraw : s.coinbaseOutputs = some raw)
      (houts : withFirstValue t.coinbaseTxValueRemaining raw = some outs)
      (hjob : ans.templateJob = some jobId) (haccepted : ans.prevHashAccepted = true) :
      Opens s r ans { s with
        downstream := s.downstream.insert r.downstreamId { ds with
          channelIdFactory := ds.channelIdFactory + 1
          standardChannels := ds.standardChannels.insert ds.channelIdFactory
            (s.openedChannel extranoncePrefix 0 t outs jobId)
          groupChannelIds := group }
        jobToTemplateId := s.jobToTemplateId.insert (r.downstreamId, ds.channelIdFactory, jobId)
          t.templateId
        sent := announcement r.downstreamId
          (.openStandardMiningChannelSuccess r.request.requestId ds.channelIdFactory
            extranoncePrefix)
          (.newMiningJob ds.channelIdFactory jobId) ds.channelIdFactory jobId p ++ s.sent }
  | extended (ds : Downstream) (extranoncePrefix : Bytes) (m : UInt16) (t : NewTemplate)
      (p : SetNewPrevHash) (raw outs : List TxOut) (jobId : JobId) (group : List ChannelId)
      (hkind : r.request.kind = .extended m)
      (hds : s.downstream.lookup r.downstreamId = some ds) (hstd : ds.requireStdJob = false)
      (hallocation : ans.allocation = .allocated extranoncePrefix)
      (ht : s.lastFutureTemplate = some t) (hp : s.lastNewPrevHash = some p)
      (hraw : s.coinbaseOutputs = some raw)
      (houts : withFirstValue t.coinbaseTxValueRemaining raw = some outs)
      (hjob : ans.templateJob = some jobId) (haccepted : ans.prevHashAccepted = true) :
      Opens s r ans { s with
        downstream := s.downstream.insert r.downstreamId { ds with
          channelIdFactory := ds.channelIdFactory + 1
          extendedChannels := ds.extendedChannels.insert ds.channelIdFactory
            (s.openedChannel extranoncePrefix
              (rollableSize s.fullExtranonceSize extranoncePrefix.length).toNat t outs jobId)
          groupChannelIds := group }
        jobToTemplateId := s.jobToTemplateId.insert (r.downstreamId, ds.channelIdFactory, jobId)
          t.templateId
        sent := announcement r.downstreamId
          (.openExtendedMiningChannelSuccess r.request.requestId ds.channelIdFactory
            extranoncePrefix (rollableSize s.fullExtranonceSize extranoncePrefix.length).toNat)
          (.newExtendedMiningJob ds.channelIdFactory jobId) ds.channelIdFactory jobId p ++ s.sent }

theorem bootstrapChannel_ok {c c' : Channel} {t : NewTemplate} {outs : List TxOut}
    {ans : OpenAnswers} {jobId : JobId} (h : bootstrapChannel c t outs ans = .ok (c', jobId)) :
    c' = c.addJob jobId t outs c.fullExtranonceSize ∧ ans.templateJob = some jobId ∧
      ans.prevHashAccepted = true := by
  unfold bootstrapChannel at h
  split at h
  · cases h
  next hjob =>
    split at h
    next haccepted =>
      cases h
      exact ⟨rfl, hjob, haccepted⟩
    · cases h

theorem handleOpenStandard_opens {r : PendingRequest} {ans : OpenAnswers}
    (hkind : r.request.kind = .standard)
    (h : s.handleOpenStandardMiningChannel r.downstreamId r.request ans = .ok s') :
    Opens s r ans s' := by
  unfold handleOpenStandardMiningChannel at h
  split at h
  · cases h
  next raw hraw =>
  split at h
  · cases h
  next t ht =>
  split at h
  · cases h
  next p hp =>
  split at h
  · cases h
  next outs houts =>
  split at h
  · cases h
  next ds hds =>
  split at h
  · cases h
  · cases h
    exact .refused ds _ _ hds
  next extranoncePrefix hallocation =>
  split at h
  · cases h
    exact .refused ds _ _ hds
  · cases h
  unfold registerStandardChannel at h
  dsimp only at h
  split at h
  · cases h
  next c jobId hc =>
  split at h
  · cases h
  obtain ⟨rfl, hjob, haccepted⟩ := bootstrapChannel_ok hc
  cases h
  exact .standard ds extranoncePrefix t p raw outs jobId _ hkind hds hallocation ht hp hraw houts hjob
    haccepted

theorem handleOpenExtended_opens {r : PendingRequest} {ans : OpenAnswers} {m : UInt16}
    (hkind : r.request.kind = .extended m)
    (h : s.handleOpenExtendedMiningChannel r.downstreamId r.request ans = .ok s') :
    Opens s r ans s' := by
  unfold handleOpenExtendedMiningChannel at h
  split at h
  · cases h
  next t ht =>
  split at h
  · cases h
  next p hp =>
  split at h
  · cases h
  next ds hds =>
  split at h
  · cases h
    exact .refused ds ds.channelIdFactory _ hds
  next hstd =>
  split at h
  · cases h
  · cases h
    exact .refused ds _ _ hds
  next extranoncePrefix hallocation =>
  split at h
  · cases h
    exact .refused ds _ _ hds
  · cases h
  unfold registerExtendedChannel at h
  dsimp only at h
  split at h
  · cases h
  next raw hraw =>
  split at h
  · cases h
  next outs houts =>
  split at h
  · cases h
  next c jobId hc =>
  split at h
  · cases h
  obtain ⟨rfl, hjob, haccepted⟩ := bootstrapChannel_ok hc
  cases h
  exact .extended ds extranoncePrefix m t p raw outs jobId _ hkind hds (by simpa using hstd)
    hallocation ht hp hraw houts hjob haccepted

theorem handleOpen_opens {r : PendingRequest} {ans : OpenAnswers}
    (h : s.handleOpen r ans = .ok s') : Opens s r ans s' := by
  unfold handleOpen at h
  split at h
  next hkind => exact handleOpenStandard_opens hkind h
  next m hkind => exact handleOpenExtended_opens hkind h

/-- A request that fails disconnects its own miner or ends the loop. -/
def OpenFails (s : ChannelManager) (r : PendingRequest) (ans : OpenAnswers) (f : Fault) : Prop :=
  f = .shutdown ∨ f = .panic ∨ f = .disconnect r.downstreamId ∧
    (s.downstream.lookup r.downstreamId = none ∨ s.lastFutureTemplate = none ∨
      s.lastNewPrevHash = none ∨ ans.construction = .fault)

theorem bootstrapChannel_error {c : Channel} {t : NewTemplate} {outs : List TxOut}
    {ans : OpenAnswers} {f : Fault} (h : bootstrapChannel c t outs ans = .error f) :
    f = .shutdown := by
  unfold bootstrapChannel at h
  split at h
  · cases h
    rfl
  · split at h <;> cases h
    rfl

theorem registerStandardChannel_error {ds : Downstream} {req : OpenRequest} {channelId : ChannelId}
    {extranoncePrefix : Bytes} {t : NewTemplate} {p : SetNewPrevHash} {outs : List TxOut}
    {ans : OpenAnswers} {f : Fault}
    (h : s.registerStandardChannel d ds req channelId extranoncePrefix t p outs ans = .error f) :
    f = .shutdown := by
  unfold registerStandardChannel at h
  split at h
  next hboot =>
    cases h
    exact bootstrapChannel_error hboot
  · split at h <;> cases h
    rfl

theorem registerExtendedChannel_error {ds : Downstream} {req : OpenRequest} {channelId : ChannelId}
    {extranoncePrefix : Bytes} {rollable : UInt16} {t : NewTemplate} {p : SetNewPrevHash}
    {ans : OpenAnswers} {f : Fault}
    (h : s.registerExtendedChannel d ds req channelId extranoncePrefix rollable t p ans = .error f) :
    f = .shutdown ∨ f = .panic := by
  unfold registerExtendedChannel at h
  split at h
  · cases h
    exact Or.inl rfl
  split at h
  · cases h
    exact Or.inr rfl
  split at h
  next hboot =>
    cases h
    exact Or.inl (bootstrapChannel_error hboot)
  · split at h <;> cases h
    exact Or.inl rfl

theorem handleOpenStandard_fails {r : PendingRequest} {ans : OpenAnswers} {f : Fault}
    (h : s.handleOpenStandardMiningChannel r.downstreamId r.request ans = .error f) :
    OpenFails s r ans f := by
  unfold handleOpenStandardMiningChannel at h
  split at h
  · cases h
    exact Or.inl rfl
  split at h
  next ht =>
    cases h
    exact Or.inr (Or.inr ⟨rfl, Or.inr (Or.inl ht)⟩)
  split at h
  next hp =>
    cases h
    exact Or.inr (Or.inr ⟨rfl, Or.inr (Or.inr (Or.inl hp))⟩)
  split at h
  · cases h
    exact Or.inr (Or.inl rfl)
  split at h
  next hds =>
    cases h
    exact Or.inr (Or.inr ⟨rfl, Or.inl hds⟩)
  split at h
  · cases h
    exact Or.inl rfl
  · cases h
  split at h
  · cases h
  next hconstruction =>
    cases h
    exact Or.inr (Or.inr ⟨rfl, Or.inr (Or.inr (Or.inr hconstruction))⟩)
  · exact Or.inl (registerStandardChannel_error h)

theorem handleOpenExtended_fails {r : PendingRequest} {ans : OpenAnswers} {f : Fault}
    (h : s.handleOpenExtendedMiningChannel r.downstreamId r.request ans = .error f) :
    OpenFails s r ans f := by
  unfold handleOpenExtendedMiningChannel at h
  split at h
  next ht =>
    cases h
    exact Or.inr (Or.inr ⟨rfl, Or.inr (Or.inl ht)⟩)
  split at h
  next hp =>
    cases h
    exact Or.inr (Or.inr ⟨rfl, Or.inr (Or.inr (Or.inl hp))⟩)
  split at h
  next hds =>
    cases h
    exact Or.inr (Or.inr ⟨rfl, Or.inl hds⟩)
  split at h
  · cases h
  split at h
  · cases h
    exact Or.inl rfl
  · cases h
  split at h
  · cases h
  next hconstruction =>
    cases h
    exact Or.inr (Or.inr ⟨rfl, Or.inr (Or.inr (Or.inr hconstruction))⟩)
  · rcases registerExtendedChannel_error h with hf | hf
    · exact Or.inl hf
    · exact Or.inr (Or.inl hf)

theorem handleOpen_fails {r : PendingRequest} {ans : OpenAnswers} {f : Fault}
    (h : s.handleOpen r ans = .error f) : OpenFails s r ans f := by
  unfold handleOpen at h
  split at h
  · exact handleOpenStandard_fails h
  · exact handleOpenExtended_fails h

theorem recordRollableSize_calm (s : ChannelManager) (r : PendingRequest) (ans : OpenAnswers) :
    ∃ wrapped, s.recordRollableSize r ans = { s with sizeWrapped := wrapped } := by
  unfold recordRollableSize
  split
  · exact ⟨_, rfl⟩
  · exact ⟨s.sizeWrapped, rfl⟩

/-! ## Shares -/

/-- Nothing but shares has moved. -/
def SharesMoved (s s' : ChannelManager) : Prop :=
  ∃ ms forwarded cached accepted validations, (∀ m ∈ ms, Message.IsAboutShare m) ∧
    s' = { s with
      sent := ms ++ s.sent
      forwarded := forwarded
      cachedShares := cached
      acceptedShares := accepted
      validations := validations }

theorem SharesMoved.refl (s : ChannelManager) : SharesMoved s s :=
  ⟨[], s.forwarded, s.cachedShares, s.acceptedShares, s.validations, by simp, rfl⟩

theorem SharesMoved.trans {s₁ s₂ s₃ : ChannelManager} (h : SharesMoved s₁ s₂)
    (h' : SharesMoved s₂ s₃) : SharesMoved s₁ s₃ := by
  obtain ⟨ms, fw, cs, ac, vs, hms, rfl⟩ := h
  obtain ⟨ms', fw', cs', ac', vs', hms', rfl⟩ := h'
  refine ⟨ms' ++ ms, fw', cs', ac', vs', ?_, by simp⟩
  intro m hm
  rcases List.mem_append.mp hm with hm | hm
  · exact hms' m hm
  · exact hms m hm

theorem SharesMoved.loop (h : SharesMoved s s') : s'.loop = s.loop := by
  obtain ⟨ms, fw, cs, ac, vs, -, rfl⟩ := h
  rfl

theorem validateUpstream_moves {p : SetNewPrevHash} {u : UpstreamChannel} {share : UpstreamShare}
    {accepted : AcceptedShare} {validatedWith push : Bytes} {oversized : Fault} {ans : UpstreamShareAnswer}
    (h : s.validateUpstream p u share accepted validatedWith push oversized ans = .ok s') :
    SharesMoved s s' := by
  unfold validateUpstream at h
  split at h
  · cases h
    exact ⟨[.submitSharesExtended share], _, s.cachedShares, s.acceptedShares, _,
      by simp [Message.IsAboutShare], rfl⟩
  · split at h
    · cases h
    · cases h
      exact ⟨[.submitSharesExtended share, .pushSolution push p], _, s.cachedShares,
        s.acceptedShares, _, by simp [Message.IsAboutShare], rfl⟩
  · cases h
    exact ⟨[], s.forwarded, s.cachedShares, s.acceptedShares, _, by simp, rfl⟩

theorem forwardShare_moves {kind : ShareKind} {p : SetNewPrevHash}
    {key : DownstreamId × ChannelId × JobId} {c : Channel} {job : ChannelJob} {target : Nat}
    {ans : UpstreamShareAnswer} (h : s.forwardShare kind p key c job target ans = .ok s') :
    SharesMoved s s' := by
  unfold forwardShare at h
  split at h
  · cases h
    exact .refl s
  dsimp only at h
  split at h
  · cases h
  split at h
  · cases h
  have haccepted : ∀ accepted, SharesMoved s { s with acceptedShares := accepted } :=
    fun accepted => ⟨[], s.forwarded, s.cachedShares, accepted, s.validations, by simp, rfl⟩
  split at h
  · cases h
    exact haccepted _
  split at h
  · exact (haccepted _).trans (validateUpstream_moves h)
  · cases h
    exact ⟨[], s.forwarded, _, _, s.validations, by simp, rfl⟩

theorem shareMessages_about {ans : ShareAnswer} {channelId : ChannelId} :
    ∀ m ∈ shareMessages d channelId ans, Message.IsAboutShare m := by
  intro m hm
  cases ans with
  | valid target acknowledge =>
    cases acknowledge <;> simp [shareMessages] at hm
    subst hm
    trivial
  | blockFound target templateId =>
    cases templateId with
    | none =>
      simp [shareMessages] at hm
      subst hm
      trivial
    | some t =>
      simp [shareMessages] at hm
      rcases hm with rfl | rfl <;> trivial
  | invalid code =>
    simp [shareMessages] at hm
    subst hm
    trivial
  | budgetExhausted => simp [shareMessages] at hm

theorem send_moves {ms : List Message} (h : ∀ m ∈ ms, Message.IsAboutShare m) :
    SharesMoved s (s.send ms) :=
  ⟨ms.reverse, s.forwarded, s.cachedShares, s.acceptedShares, s.validations, by simpa using h, rfl⟩

theorem handleSubmitShares_moves {kind : ShareKind} {channels : Downstream → KeyMap ChannelId Channel}
    {channelId : ChannelId} {jobId : JobId} {ans : ShareAnswer} {upstream : UpstreamShareAnswer}
    (h : s.handleSubmitShares kind d channels channelId jobId ans upstream = .ok s') :
    SharesMoved s s' := by
  unfold handleSubmitShares at h
  split at h
  · cases h
  split at h
  · cases h
  split at h
  · cases h
    exact send_moves (by simp [Message.IsAboutShare])
  split at h
  · split at h
    · cases h
    · cases h
      exact send_moves shareMessages_about
  · split at h
    · cases h
      exact .refl s
    · exact (send_moves shareMessages_about).trans (forwardShare_moves h)

theorem validateUpstream_error {p : SetNewPrevHash} {u : UpstreamChannel} {share : UpstreamShare}
    {accepted : AcceptedShare} {validatedWith push : Bytes} {oversized f : Fault} {ans : UpstreamShareAnswer}
    (h : s.validateUpstream p u share accepted validatedWith push oversized ans = .error f) :
    f = oversized := by
  unfold validateUpstream at h
  split at h
  · cases h
  · split at h <;> cases h
    rfl
  · cases h

/-- The cached shares are gone through to the end, or up to one with which the loop ends. -/
theorem validateCachedShares_moves {p : SetNewPrevHash} {u : UpstreamChannel} {jobId : JobId}
    {answers : List UpstreamShareAnswer} {cs : List CachedShare} :
    ∃ s', SharesMoved s s' ∧ (s.validateCachedShares p u jobId answers cs = s' ∨
      s.validateCachedShares p u jobId answers cs = s'.fail .panic) := by
  induction cs generalizing s answers with
  | nil => exact ⟨s, .refl s, Or.inl rfl⟩
  | cons c cs ih =>
    unfold validateCachedShares
    dsimp only
    split
    next f hf =>
      rw [validateUpstream_error hf]
      exact ⟨s, .refl s, Or.inr rfl⟩
    next s₁ hs₁ =>
      obtain ⟨s', hmoved, hs'⟩ := @ih s₁ answers.tail
      exact ⟨s', (validateUpstream_moves hs₁).trans hmoved, hs'⟩

/-! ## Template messages at a connection -/

/-- A channel has got a job of the template, built with the group's size or its own. -/
def GotJob (ds : Downstream) (t : NewTemplate) (outs : List TxOut) (c c' : Channel) : Prop :=
  ∃ jobId size own, c' = { c.addJob jobId t outs size with ownJobs := own } ∧
    (size = ds.groupFullExtranonceSize ∨ size = c.fullExtranonceSize)

/-- The channels of a connection have got their jobs of a template. -/
structure GotTemplate (ds ds' : Downstream) (t : NewTemplate) (outs : List TxOut) : Prop where
  size : ds'.groupFullExtranonceSize = ds.groupFullExtranonceSize
  ids : ds'.groupChannelIds = ds.groupChannelIds
  standard : ∀ ch, Option.Rel (GotJob ds t outs) (ds.standardChannels.lookup ch)
    (ds'.standardChannels.lookup ch)
  extended : ∀ ch, Option.Rel (GotJob ds t outs) (ds.extendedChannels.lookup ch)
    (ds'.extendedChannels.lookup ch)

theorem standardOnNewTemplate_gotJob {ds : Downstream} {t : NewTemplate} {outs : List TxOut}
    {groupJob jobId : JobId} {ans : TemplateAnswers} {ch : ChannelId} {c c' : Channel}
    (h : standardOnNewTemplate ds t outs groupJob ans ch c = .ok (c', jobId)) :
    GotJob ds t outs c c' := by
  unfold standardOnNewTemplate at h
  split at h
  · split at h
    · cases h
      exact ⟨groupJob, _, c.ownJobs, rfl, Or.inl rfl⟩
    · cases h
  · split at h
    · cases h
    · cases h
      exact ⟨jobId, _, _, rfl, Or.inr rfl⟩

theorem extendedOnNewTemplate_gotJob {ds : Downstream} {t : NewTemplate} {outs : List TxOut}
    {groupJob jobId : JobId} {ans : TemplateAnswers} {ch : ChannelId} {c c' : Channel}
    (h : extendedOnNewTemplate ds t outs groupJob ans ch c = .ok (c', jobId)) :
    GotJob ds t outs c c' := by
  unfold extendedOnNewTemplate at h
  split at h
  · cases h
    exact ⟨groupJob, _, c.ownJobs, rfl, Or.inl rfl⟩
  · cases h

theorem rel_gotJob {ds : Downstream} {t : NewTemplate} {outs : List TxOut}
    {f : ChannelId → Channel → Except Fault (Channel × JobId)}
    (hf : ∀ {ch c c' jobId}, f ch c = .ok (c', jobId) → GotJob ds t outs c c')
    {m : KeyMap ChannelId Channel} {m' : KeyMap ChannelId (Channel × JobId)}
    (h : KeyMap.tryMap f m = .ok m') (ch : ChannelId) :
    Option.Rel (GotJob ds t outs) (m.lookup ch)
      ((KeyMap.mapValues (fun _ c => c.1) m').lookup ch) := by
  rw [KeyMap.lookup_mapValues]
  generalize hv : m.lookup ch = v, hw : m'.lookup ch = w
  have hrel := KeyMap.rel_tryMap h ch
  rw [hv, hw] at hrel
  cases hrel with
  | none => exact .none
  | some hfw => exact .some (hf hfw)

/-- A coinbase-only custom job is built at a connection, or only a request id is used up. -/
theorem templateCustomJob_cases (s : ChannelManager) (t : NewTemplate) (ctx : TemplateContext)
    (built : Bool) :
    (∃ n, (n = s.requestIdFactory ∨ n = s.requestIdFactory + 1) ∧
      s.templateCustomJob t ctx built = ({ s with requestIdFactory := n }, [])) ∨
    ∃ token channelId size p stored, ctx.token = some token ∧
      ctx.upstream = some (channelId, size) ∧ ctx.prevHash = some p ∧
      stored.declareMiningJob = none ∧
      s.templateCustomJob t ctx built = ({ s with
          requestIdFactory := s.requestIdFactory + 1
          lastDeclareJobStore := s.lastDeclareJobStore.insert s.requestIdFactory stored },
        [.setCustomMiningJob
          ⟨channelId, s.requestIdFactory, token, p.chainTip, t, ctx.outputs, size⟩ false]) := by
  unfold templateCustomJob
  split
  next token channelId size p htoken hup hp =>
    dsimp only
    split
    · exact Or.inr ⟨token, channelId, size, p, _, htoken, hup, hp, rfl, rfl⟩
    · exact Or.inl ⟨_, Or.inr rfl, rfl⟩
  · exact Or.inl ⟨s.requestIdFactory, Or.inl rfl, rfl⟩

/-- A custom job that is built at a connection takes a request id and is stored. -/
theorem templateCustomJob_frame (s : ChannelManager) (t : NewTemplate) (ctx : TemplateContext)
    (built : Bool) : ∃ n jobs, (s.templateCustomJob t ctx built).1 = { s with
      requestIdFactory := n
      lastDeclareJobStore := jobs } := by
  obtain ⟨n, -, heq⟩ | ⟨token, channelId, size, p, stored, -, -, -, -, heq⟩ :=
    templateCustomJob_cases s t ctx built
  · rw [heq]
    exact ⟨n, s.lastDeclareJobStore, rfl⟩
  · rw [heq]
    exact ⟨_, _, rfl⟩

theorem visitNewTemplate_ok {t : NewTemplate} {ctx : TemplateContext} {ds : Downstream}
    {ans : TemplateAnswers} {out : List Message}
    (h : s.visitNewTemplate t ctx d ds ans = .ok (s', out)) :
    ∃ ds' jobs notices, GotTemplate ds ds' t ctx.outputs ∧ (∀ m ∈ notices, Message.IsJobNotice m) ∧
      s' = { (s.templateCustomJob t ctx ans.customJobBuilt).1 with
        downstream :=
          (s.templateCustomJob t ctx ans.customJobBuilt).1.downstream.insert d ds'
        jobToTemplateId := jobs } ∧
      out = (s.templateCustomJob t ctx ans.customJobBuilt).2 ++ notices := by
  unfold visitNewTemplate at h
  split at h
  · cases h
  dsimp only at h
  split at h
  · cases h
  next std hstd =>
  split at h
  · cases h
  next ext hext =>
  cases h
  refine ⟨{ ds with
    groupJobs := ds.groupJobs + 1
    groupTemplates := ds.groupTemplates.insert _ t.templateId
    standardChannels := KeyMap.mapValues (fun _ c => c.1) std
    extendedChannels := KeyMap.mapValues (fun _ c => c.1) ext }, _, _,
    ⟨rfl, rfl, rel_gotJob standardOnNewTemplate_gotJob hstd,
      rel_gotJob extendedOnNewTemplate_gotJob hext⟩, ?_, rfl, List.append_assoc _ _ _⟩
  intro m hm
  rcases List.mem_append.mp hm with hm | hm
  · split at hm
    · rcases List.mem_singleton.mp hm with rfl
      trivial
    · cases hm
  · split at hm
    · obtain ⟨e, -, rfl⟩ := List.mem_map.mp hm
      trivial
    · cases hm

theorem standardOnNewTemplate_error {ds : Downstream} {t : NewTemplate} {outs : List TxOut}
    {groupJob : JobId} {ans : TemplateAnswers} {ch : ChannelId} {c : Channel} {f : Fault}
    (h : standardOnNewTemplate ds t outs groupJob ans ch c = .error f) : f = .shutdown := by
  unfold standardOnNewTemplate at h
  split at h <;> split at h <;> cases h <;> rfl

theorem extendedOnNewTemplate_error {ds : Downstream} {t : NewTemplate} {outs : List TxOut}
    {groupJob : JobId} {ans : TemplateAnswers} {ch : ChannelId} {c : Channel} {f : Fault}
    (h : extendedOnNewTemplate ds t outs groupJob ans ch c = .error f) : f = .shutdown := by
  unfold extendedOnNewTemplate at h
  split at h <;> cases h
  rfl

theorem visitNewTemplate_error {t : NewTemplate} {ctx : TemplateContext} {ds : Downstream}
    {ans : TemplateAnswers} {f : Fault} (h : s.visitNewTemplate t ctx d ds ans = .error f) :
    f = .shutdown := by
  unfold visitNewTemplate at h
  split at h
  · cases h
    rfl
  dsimp only at h
  split at h
  next hstd =>
    cases h
    obtain ⟨ch, c, hc⟩ := KeyMap.tryMap_error hstd
    exact standardOnNewTemplate_error hc
  split at h
  next hext =>
    cases h
    obtain ⟨ch, c, hc⟩ := KeyMap.tryMap_error hext
    exact extendedOnNewTemplate_error hc
  · cases h

theorem standardOnSetNewPrevHash_error {ds : Downstream} {ans : PrevHashAnswers} {ch : ChannelId}
    {c : Channel} {f : Fault} (h : standardOnSetNewPrevHash ds ans ch c = .error f) :
    f = .fallback ∨ f = .panic := by
  unfold standardOnSetNewPrevHash at h
  split at h
  · cases h
    exact Or.inl rfl
  · split at h <;> cases h
    exact Or.inr rfl
  · cases h

theorem extendedOnSetNewPrevHash_error {ans : PrevHashAnswers} {ch : ChannelId} {c : Channel}
    {f : Fault} (h : extendedOnSetNewPrevHash ans ch c = .error f) : f = .fallback := by
  unfold extendedOnSetNewPrevHash at h
  split at h <;> cases h
  rfl

theorem visitSetNewPrevHash_error {p : SetNewPrevHash} {ds : Downstream} {ans : PrevHashAnswers}
    {f : Fault} (h : s.visitSetNewPrevHash p d ds ans = .error f) : f = .fallback ∨ f = .panic := by
  unfold visitSetNewPrevHash at h
  split at h
  · cases h
    exact Or.inl rfl
  · cases h
    exact Or.inr rfl
  split at h
  next hstd =>
    cases h
    obtain ⟨ch, c, hc⟩ := KeyMap.tryMap_error hstd
    exact standardOnSetNewPrevHash_error hc
  split at h
  next hext =>
    cases h
    obtain ⟨ch, c, hc⟩ := KeyMap.tryMap_error hext
    exact Or.inl (extendedOnSetNewPrevHash_error hc)
  split at h
  · cases h
  · split at h <;> cases h

theorem visitSetNewPrevHash_ok {p : SetNewPrevHash} {ds : Downstream} {ans : PrevHashAnswers}
    {out : List Message} (h : s.visitSetNewPrevHash p d ds ans = .ok (s', out)) :
    ∃ jobs, s' = { s with
        downstream := s.downstream.insert d (ds.activate ans)
        jobToTemplateId := jobs } ∧
      ∀ m ∈ out, Message.IsJobNotice m := by
  unfold visitSetNewPrevHash at h
  split at h
  · cases h
  · cases h
  split at h
  · cases h
  split at h
  · cases h
  split at h
  · cases h
    refine ⟨_, rfl, ?_⟩
    intro m hm
    obtain ⟨e, -, rfl⟩ := List.mem_map.mp hm
    trivial
  · split at h
    · cases h
      exact ⟨s.jobToTemplateId, rfl, by simp⟩
    · cases h
      refine ⟨_, rfl, ?_⟩
      intro m hm
      rcases List.mem_singleton.mp hm with rfl
      trivial

theorem storedJobOf_lookup {t : TemplateId} {pick k : RequestId} {job : DeclaredJob}
    (h : s.storedJobOf t pick = some (k, job)) :
    s.lastDeclareJobStore.lookup k = some job ∧ job.template.templateId = t := by
  have hfirst : storedJobOf.first s t = some (k, job) →
      s.lastDeclareJobStore.lookup k = some job ∧ job.template.templateId = t := by
    intro hf
    obtain ⟨e, he, hek⟩ := Option.map_eq_some_iff.mp hf
    cases hek
    exact ⟨(KeyMap.mem_entries_iff _ _ _).mp (List.mem_of_find?_eq_some he),
      by simpa using List.find?_some he⟩
  unfold storedJobOf at h
  split at h
  next hpick =>
    split at h
    next ht =>
      cases h
      exact ⟨hpick, ht⟩
    · exact hfirst h
  · exact hfirst h

/-! ## The jobs of a prev-hash and of a new channel to the pool -/

theorem declareFutureTemplate_cases (env : Env) (s : ChannelManager) (pick : RequestId) :
    s.declareFutureTemplate env pick = s ∨
    ∃ t requestId job declaration, env.mode = .fullTemplate ∧ s.lastFutureTemplate = some t ∧
      s.storedJobOf t.templateId pick = some (requestId, job) ∧
      job.declareMiningJob = some declaration ∧
      s.declareFutureTemplate env pick = { s with
        lastDeclareJobStore := s.lastDeclareJobStore.insert requestId { job with declared := true }
        sent := .declareMiningJob declaration :: s.sent } := by
  unfold declareFutureTemplate
  split
  next hmode =>
    split
    next requestId job hbind =>
      obtain ⟨t, ht, hjob⟩ := Option.bind_eq_some_iff.mp hbind
      split
      next declaration hdeclaration =>
        exact Or.inr ⟨t, requestId, job, declaration, hmode, ht, hjob, hdeclaration, rfl⟩
      · exact Or.inl rfl
    · exact Or.inl rfl
  · exact Or.inl rfl

/-- What `prevHashCustomJob` does with a token it takes. -/
theorem prevHashCustomJob_ok {p : SetNewPrevHash} {raw : List TxOut} {built consumed : Bool}
    {ms : List Message}
    (h : s.prevHashCustomJob env p raw built = .ok (s', consumed, ms)) :
    (s' = s ∧ consumed = false ∧ ms = []) ∨
    ∃ t token tokens, env.mode = .coinbaseOnly ∧ s.lastFutureTemplate = some t ∧
      s.allocateTokens = token :: tokens ∧
      ((s.upstreamChannel = none ∧ s' = { s with allocateTokens := tokens } ∧ consumed = false ∧
          ms = []) ∨
        (consumed = true ∧ ms = [] ∧ s' = { s with
          allocateTokens := tokens
          requestIdFactory := s.requestIdFactory + 1 }) ∨
        ∃ channelId size stored, s.upstreamInfo = some (channelId, size) ∧ consumed = true ∧
          stored.declareMiningJob = none ∧
          ms = [.setCustomMiningJob
            ⟨channelId, s.requestIdFactory, token, p.chainTip, t, raw, size⟩ false] ∧
          s' = { s with
            allocateTokens := tokens
            requestIdFactory := s.requestIdFactory + 1
            lastDeclareJobStore := s.lastDeclareJobStore.insert s.requestIdFactory stored }) := by
  unfold prevHashCustomJob at h
  split at h
  next hmode =>
    split at h
    next t token tokens ht htokens =>
      dsimp only at h
      split at h
      next hup =>
        cases h
        refine Or.inr ⟨t, token, tokens, hmode, ht, htokens, Or.inl ⟨?_, rfl, rfl, rfl⟩⟩
        exact Option.map_eq_none_iff.mp hup
      next channelId size hup =>
        split at h
        · cases h
        split at h
        · cases h
          exact Or.inr ⟨t, token, tokens, hmode, ht, htokens,
            Or.inr (Or.inr ⟨channelId, size, _, hup, rfl, rfl, rfl, rfl⟩)⟩
        · cases h
          exact Or.inr ⟨t, token, tokens, hmode, ht, htokens, Or.inr (Or.inl ⟨rfl, rfl, rfl⟩)⟩
    · cases h
      exact Or.inl ⟨rfl, rfl, rfl⟩
  · cases h
    exact Or.inl ⟨rfl, rfl, rfl⟩

theorem prevHashCustomJob_error {p : SetNewPrevHash} {raw : List TxOut} {built : Bool} {f : Fault}
    (h : s.prevHashCustomJob env p raw built = .error f) : f = .panic := by
  unfold prevHashCustomJob at h
  split at h
  · split at h
    · dsimp only at h
      split at h
      · cases h
      · split at h
        · cases h
          rfl
        · split at h <;> cases h
    · cases h
  · cases h

/-- What `openCustomJob` does with a token it takes. -/
theorem openCustomJob_cases (env : Env) (s : ChannelManager) (u : UpstreamChannel)
    (raw : List TxOut) (built : Bool) :
    s.openCustomJob env u raw built = (s, none) ∨
    ∃ t p token tokens, env.mode = .coinbaseOnly ∧ s.jobFactory = true ∧
      s.lastFutureTemplate = some t ∧ s.lastNewPrevHash = some p ∧
      s.allocateTokens = token :: tokens ∧
      ((built = false ∧ s.openCustomJob env u raw built = ({ s with
          allocateTokens := tokens
          requestIdFactory := s.requestIdFactory + 1 }, none)) ∨
        ∃ stored, stored.declareMiningJob = none ∧
          s.openCustomJob env u raw built = ({ s with
            allocateTokens := tokens
            requestIdFactory := s.requestIdFactory + 1
            lastDeclareJobStore := s.lastDeclareJobStore.insert s.requestIdFactory stored },
            some ⟨u.channelId, s.requestIdFactory, token, p.chainTip, t, raw,
              u.fullExtranonceSize⟩)) := by
  unfold openCustomJob
  split
  next hmode =>
    split
    next t p token tokens ht hp htokens =>
      refine Or.inr ⟨t, p, token, tokens, hmode.1, hmode.2, ht, hp, htokens, ?_⟩
      dsimp only
      split
      · exact Or.inr ⟨_, rfl, rfl⟩
      next hbuilt => exact Or.inl ⟨by simpa using hbuilt, rfl⟩
    · exact Or.inl rfl
  · exact Or.inl rfl

/-- The custom job of a new channel takes a token and a request id, and is stored. -/
theorem openCustomJob_frame {u : UpstreamChannel} {raw : List TxOut} {built : Bool}
    {customJob : Option CustomJob} (h : s.openCustomJob env u raw built = (s', customJob)) :
    ∃ tokens n jobs, s' = { s with
      allocateTokens := tokens
      requestIdFactory := n
      lastDeclareJobStore := jobs } := by
  have hcase := openCustomJob_cases env s u raw built
  rw [h] at hcase
  obtain heq | ⟨t, p, token, tokens, -, -, -, -, -, ⟨-, heq⟩ | ⟨stored, -, heq⟩⟩ := hcase
  · cases heq
    exact ⟨s.allocateTokens, s.requestIdFactory, s.lastDeclareJobStore, rfl⟩
  · cases heq
    exact ⟨tokens, _, s.lastDeclareJobStore, rfl⟩
  · cases heq
    exact ⟨tokens, _, _, rfl⟩

/-- The channel that the pool's answer describes. -/
def openedUpstream (msg : OpenSuccess) : UpstreamChannel :=
  ⟨msg.channelId, msg.extranoncePrefix.val, msg.extranonceSize, ∅⟩

/-- How the first part of `handle_open_extended_mining_channel_success` can end. -/
inductive OpenSucceeds (env : Env) (s : ChannelManager) (msg : OpenSuccess)
    (ans : OpenSuccessAnswers) : ChannelManager → Prop
  | failed (f : Fault) (wrapped : Bool) (hf : f = .shutdown ∨ f = .fallback) :
      OpenSucceeds env s msg ans ({ s with sizeWrapped := wrapped }.fail f)
  | noRequest (hempty : s.pendingDownstreamRequests = []) :
      OpenSucceeds env s msg ans (s.closeUpstream msg.channelId)
  | refused (hallocator : ans.allocatorBuilt = false) :
      OpenSucceeds env s msg ans
        ({ s with sizeWrapped := s.sizeWrapped || msg.wraps }.closeUpstream msg.channelId)
  | configured (raw : List TxOut) (s₁ : ChannelManager) (customJob : Option CustomJob)
      (hraw : s.coinbaseOutputs = some raw)
      (hsize : localPrefixBytes + env.reservedDownstreamRollableExtranonceSize.toNat ≤
        msg.extranonceSize.toNat)
      (hpending : s.pendingDownstreamRequests ≠ []) (hallocator : ans.allocatorBuilt = true)
      (hjob : { s with sizeWrapped := s.sizeWrapped || msg.wraps }.openCustomJob env
        (openedUpstream msg) raw ans.customJobBuilt = (s₁, customJob)) :
      OpenSucceeds env s msg ans { s₁ with
        extranonceAllocator := ⟨msg.extranoncePrefix.val, msg.totalLen.toNat % 2 ^ 8,
          s₁.extranonceAllocator.generation + 1⟩
        upstreamChannel := some (openedUpstream msg)
        jobFactory := true
        upstreamState := .connected
        loop := .openSuccess (openedUpstream msg).fullExtranonceSize customJob
          s₁.downstream.keys [] }

theorem receiveOpenSuccess_cases (env : Env) (s : ChannelManager) (msg : OpenSuccess)
    (ans : OpenSuccessAnswers) :
    OpenSucceeds env s msg ans (s.receiveOpenSuccess env msg ans) := by
  unfold receiveOpenSuccess
  split
  · exact .failed .shutdown s.sizeWrapped (Or.inl rfl)
  next raw hraw =>
  split
  · exact .failed .fallback s.sizeWrapped (Or.inr rfl)
  next hsize =>
  split
  next hempty => exact .noRequest (List.isEmpty_iff.mp hempty)
  next hempty =>
  dsimp only
  split
  next hallocator => exact .refused (by simpa using hallocator)
  next hallocator =>
  split
  · exact .failed .fallback _ (Or.inr rfl)
  · refine .configured raw _ _ hraw (by omega) ?_ (by simpa using hallocator) rfl
    intro hnil
    exact hempty (List.isEmpty_iff.mpr hnil)

/-! ## Answers of the pool and the server -/

/-- The state in which the cached shares of an acknowledged job are validated. -/
def acknowledged (s : ChannelManager) (requestId : RequestId) (jobId : JobId)
    (templateId : TemplateId) (u : UpstreamChannel) : ChannelManager :=
  { s.completeJob requestId jobId templateId with upstreamChannel := some (u.acknowledge jobId) }

/-- How `handle_set_custom_mining_job_success` can end. -/
inductive Acknowledges (s : ChannelManager) (requestId : RequestId) (jobId : JobId)
    (answers : List UpstreamShareAnswer) : ChannelManager → Prop
  | unknown : Acknowledges s requestId jobId answers (s.fail .fallback)
  | dropped (job : DeclaredJob) (f : Fault)
      (hjob : s.lastDeclareJobStore.lookup requestId = some job)
      (hf : f = .log ∨ f = .shutdown ∨ f = .fallback) :
      Acknowledges s requestId jobId answers
        ((s.completeJob requestId jobId job.template.templateId).fail f)
  | noShares (job : DeclaredJob) (u : UpstreamChannel)
      (hjob : s.lastDeclareJobStore.lookup requestId = some job)
      (hup : s.upstreamChannel = some u) :
      Acknowledges s requestId jobId answers
        (s.acknowledged requestId jobId job.template.templateId u)
  | shares (job : DeclaredJob) (u : UpstreamChannel) (p : SetNewPrevHash) (cs : List CachedShare)
      (hjob : s.lastDeclareJobStore.lookup requestId = some job)
      (hup : s.upstreamChannel = some u) (hp : s.lastNewPrevHash = some p)
      (hcs : s.cachedShares.lookup job.template.templateId = some cs) :
      Acknowledges s requestId jobId answers
        ((s.acknowledged requestId jobId job.template.templateId u).validateCachedShares p
          (u.acknowledge jobId) jobId answers cs)

theorem handleSetCustomMiningJobSuccess_cases (s : ChannelManager) (requestId : RequestId)
    (jobId : JobId) (ack : AcknowledgementAnswer) (answers : List UpstreamShareAnswer) :
    Acknowledges s requestId jobId answers
      (s.handleSetCustomMiningJobSuccess requestId jobId ack answers) := by
  unfold handleSetCustomMiningJobSuccess
  split
  · exact .unknown
  next job hjob =>
  dsimp only
  split
  · exact .dropped job .log hjob (Or.inl rfl)
  next u hup =>
  split
  · exact .dropped job .shutdown hjob (Or.inr (Or.inl rfl))
  split
  · exact .dropped job .log hjob (Or.inl rfl)
  · exact .dropped job .fallback hjob (Or.inr (Or.inr rfl))
  split
  next p cs hp hcs => exact .shares job u p cs hjob hup hp hcs
  · exact .noShares job u hjob hup

/-- `handle_declare_mining_job_success` ends the loop, does nothing, or sends a custom job. -/
theorem handleDeclareMiningJobSuccess_cases (s : ChannelManager) (requestId : RequestId)
    (newToken : Bytes) (built : Bool) :
    s.handleDeclareMiningJobSuccess requestId newToken built = s ∨
    s.handleDeclareMiningJobSuccess requestId newToken built = s.fail .shutdown ∨
    ∃ job p outs channelId size, s.lastDeclareJobStore.lookup requestId = some job ∧
      job.prevHash = some p ∧ job.coinbaseOutput = some outs ∧
      s.upstreamInfo = some (channelId, size) ∧
      s.handleDeclareMiningJobSuccess requestId newToken built = { s with
        lastDeclareJobStore := s.lastDeclareJobStore.insert requestId { job with
          setCustomMiningJob :=
            some ⟨channelId, requestId, newToken, p.chainTip, job.template, outs, size⟩ }
        sent := .setCustomMiningJob
          ⟨channelId, requestId, newToken, p.chainTip, job.template, outs, size⟩ true :: s.sent } := by
  unfold handleDeclareMiningJobSuccess
  split
  · exact Or.inl rfl
  next job hjob =>
  split
  · exact Or.inl rfl
  next p hp =>
  split
  · exact Or.inr (Or.inl rfl)
  next outs houts =>
  split
  · exact Or.inl rfl
  next channelId size hup =>
  split
  · exact Or.inr (Or.inr ⟨job, p, outs, channelId, size, hjob, hp, houts, hup, rfl⟩)
  · exact Or.inl rfl

end ChannelManager

end Sv2Apps.Jdc
