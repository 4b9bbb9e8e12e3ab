/-
  Jdc/PendingOpens.lean
  =====================
  **Open requests are answered** — a request that a miner sends is answered at once, or waits for
  the channel to the pool and is answered when that is there.

  For every miner that is not gone, what was answered and what still waits are together what was
  asked (`RequestsKept`).  The requests that waited are handled one after another, and an error
  drops those behind it: the invariant is kept as long as no other miner that is still connected
  is behind a request that ends in a disconnection (`answersPending`).
-/
import Sv2Apps.Jdc.CalmMessages

namespace Sv2Apps.Jdc

open Bitcoin

/-- The miner and the id of a request. -/
def PendingRequest.key (r : PendingRequest) : DownstreamId × RequestId :=
  (r.downstreamId, r.request.requestId)

namespace LoopTask

/-- The requests that are being handled. -/
def waiting : LoopTask → List PendingRequest
  | .pending requests => requests
  | _ => []

def isOpenSuccess : LoopTask → Bool
  | .openSuccess _ _ _ _ => true
  | _ => false

theorem waiting_of_isCalm {l : LoopTask} (h : l.isCalm = true) : l.waiting = [] := by
  cases l <;> first | rfl | cases h

end LoopTask

namespace ChannelManager

variable {env : Env} {s s' : ChannelManager} {d : DownstreamId}

/-- The open requests that have been answered, with a success or an error. -/
def answered (s : ChannelManager) : List (DownstreamId × RequestId) :=
  s.sent.filterMap Message.answers

/-- The open requests that have been received. -/
def requested (s : ChannelManager) : List (DownstreamId × RequestId) :=
  s.openRequests.map PendingRequest.key

/-- The open requests that wait. -/
def waiting (s : ChannelManager) : List (DownstreamId × RequestId) :=
  (s.pendingDownstreamRequests ++ s.loop.waiting).map PendingRequest.key

/-- Whether the connection is there. -/
def isRegistered (s : ChannelManager) (d : DownstreamId) : Bool := (s.downstream.lookup d).isSome

/-- The connection has not been registered yet. -/
def Unspoken (s : ChannelManager) (d : DownstreamId) : Prop :=
  s.downstreamIdFactory ≤ d ∨ (s.accepting.lookup d).isSome = true

/-- When a waiting request is handled, it does not end in a disconnection or nobody else who is
    still connected waits behind it. -/
def answersPending (s : ChannelManager) : Action → Bool
  | .handlePending ans => match s.loop with
    | .pending (r :: rest) =>
      (s.isRegistered r.downstreamId && s.lastFutureTemplate.isSome && s.lastNewPrevHash.isSome &&
        decide (ans.construction ≠ .fault)) ||
      rest.all fun q => decide (q.downstreamId = r.downstreamId) || !s.isRegistered q.downstreamId
    | _ => true
  | _ => true

/-! ## The invariant -/

/-- The requests of every miner that is not gone are answered or wait, and once there is a
    channel to the pool nothing is put off. -/
structure RequestsKept (s : ChannelManager) : Prop where
  registered : ∀ d, s.isRegistered d = true → ¬ s.Unspoken d
  accepting : ∀ d, (s.accepting.lookup d).isSome = true → d < s.downstreamIdFactory
  spoken : ∀ r ∈ s.openRequests, ¬ s.Unspoken r.downstreamId
  balanced : ∀ d, s.isRegistered d = true ∨ s.Unspoken d → ∀ requestId,
    s.answered.count (d, requestId) + s.waiting.count (d, requestId) =
      s.requested.count (d, requestId)
  queue : s.upstreamState = .connected →
    s.pendingDownstreamRequests = [] ∨ s.loop.isOpenSuccess = true
  messages : ∀ m ∈ s.loop.messages, m.IsCalm

/-- The invariant of a loop that has not ended. -/
def OpensInv (s : ChannelManager) : Prop := s.loop.isStopped = false → RequestsKept s

theorem requestsKept_start (outs : Option (List TxOut)) : RequestsKept (start outs) := by
  refine ⟨?_, ?_, ?_, ?_, ?_, ?_⟩
  · intro d hd
    cases hd
  · intro d hd
    cases hd
  · intro r hr
    cases hr
  · intro d _ requestId
    rfl
  · intro h
    cases h
  · intro m hm
    cases hm

/-- Nothing has happened to any request: the connections are the same, and nothing was asked or
    answered. -/
structure SameRequests (s s' : ChannelManager) : Prop where
  registered : ∀ d, s'.isRegistered d = s.isRegistered d
  accepting : s'.accepting = s.accepting
  factory : s'.downstreamIdFactory = s.downstreamIdFactory
  requests : s'.openRequests = s.openRequests
  answered : s'.answered = s.answered
  pending : s'.pendingDownstreamRequests = s.pendingDownstreamRequests
  state : s'.upstreamState = s.upstreamState

theorem answered_of_sent {ms : List Message} (hsent : s'.sent = ms ++ s.sent)
    (hms : ∀ m ∈ ms, m.answers = none) : s'.answered = s.answered := by
  have hnil : ms.filterMap Message.answers = [] := List.filterMap_eq_nil_iff.mpr hms
  rw [answered, answered, hsent, List.filterMap_append, hnil, List.nil_append]

theorem SameRequests.of_calm (h : Calm s s') : SameRequests s s' := by
  obtain ⟨ms, hms, hcalm⟩ := h.sent
  refine ⟨?_, h.accepting, h.factory, h.requests,
    answered_of_sent hms fun m hm => (hcalm m hm).answers, h.pending, h.state⟩
  intro d
  rw [isRegistered, isRegistered, h.downstream]

theorem isRegistered_insert {ds ds' : Downstream} (hds : s.downstream.lookup d = some ds)
    (hs' : s'.downstream = s.downstream.insert d ds') (d' : DownstreamId) :
    s'.isRegistered d' = s.isRegistered d' := by
  rw [isRegistered, isRegistered, hs', KeyMap.lookup_insert_eq]
  split
  next heq =>
    rw [heq, hds]
    rfl
  · rfl

/-- One connection is changed and nothing is asked or answered. -/
theorem SameRequests.of_insert {ds ds' : Downstream} (hds : s.downstream.lookup d = some ds)
    (hs' : s'.downstream = s.downstream.insert d ds') (haccepting : s'.accepting = s.accepting)
    (hfactory : s'.downstreamIdFactory = s.downstreamIdFactory)
    (hrequests : s'.openRequests = s.openRequests) (hsent : s'.sent = s.sent)
    (hpending : s'.pendingDownstreamRequests = s.pendingDownstreamRequests)
    (hstate : s'.upstreamState = s.upstreamState) : SameRequests s s' := by
  refine ⟨isRegistered_insert hds hs', haccepting, hfactory, hrequests, ?_, hpending, hstate⟩
  exact @answered_of_sent _ _ [] hsent (by simp)

theorem isRegistered_removeDownstream {d' : DownstreamId}
    (h : (s.removeDownstream d).isRegistered d' = true) : d' ≠ d ∧ s.isRegistered d' = true := by
  have hlookup : (s.removeDownstream d).downstream.lookup d' =
      if d' = d then none else s.downstream.lookup d' := KeyMap.lookup_erase_eq _ _ _
  rw [isRegistered, hlookup] at h
  split at h
  · cases h
  next hne => exact ⟨hne, h⟩

namespace RequestsKept

/-- What a step has to show: no connection appears, and for the miners that stay as much was
    answered and put off as was asked. -/
theorem of_counts (h : RequestsKept s)
    (hregistered : ∀ d, s'.isRegistered d = true → s.isRegistered d = true)
    (haccepting : s'.accepting = s.accepting)
    (hfactory : s'.downstreamIdFactory = s.downstreamIdFactory)
    (hspoken : ∀ r ∈ s'.openRequests, r ∈ s.openRequests ∨ ¬ s.Unspoken r.downstreamId)
    (hcounts : ∀ d, s'.isRegistered d = true ∨ s.Unspoken d → ∀ requestId,
      s'.answered.count (d, requestId) + s'.waiting.count (d, requestId) +
        s.requested.count (d, requestId) =
      s.answered.count (d, requestId) + s.waiting.count (d, requestId) +
        s'.requested.count (d, requestId))
    (hqueue : s'.upstreamState = .connected →
      s'.pendingDownstreamRequests = [] ∨ s'.loop.isOpenSuccess = true)
    (hmessages : ∀ m ∈ s'.loop.messages, m.IsCalm) : RequestsKept s' := by
  have hunspoken : ∀ d, s'.Unspoken d ↔ s.Unspoken d := by
    intro d
    rw [Unspoken, Unspoken, hfactory, haccepting]
  refine ⟨?_, ?_, ?_, ?_, hqueue, hmessages⟩
  · intro d hd
    rw [hunspoken]
    exact h.registered d (hregistered d hd)
  · intro d hd
    rw [haccepting] at hd
    rw [hfactory]
    exact h.accepting d hd
  · intro r hr
    rw [hunspoken]
    rcases hspoken r hr with hr | hr
    · exact h.spoken r hr
    · exact hr
  · intro d hd requestId
    rw [hunspoken] at hd
    have hbalanced := h.balanced d (hd.imp_left (hregistered d)) requestId
    have hcount := hcounts d hd requestId
    omega

theorem of_same (h : RequestsKept s) (same : SameRequests s s')
    (hwaiting : s'.loop.waiting = s.loop.waiting)
    (hqueue : s.loop.isOpenSuccess = true → s'.loop.isOpenSuccess = true)
    (hmessages : ∀ m ∈ s'.loop.messages, m.IsCalm) : RequestsKept s' := by
  refine h.of_counts ?_ same.accepting same.factory ?_ ?_ ?_ hmessages
  · intro d hd
    rw [← same.registered]
    exact hd
  · intro r hr
    rw [same.requests] at hr
    exact Or.inl hr
  · intro d _ requestId
    rw [same.answered, waiting, waiting, requested, requested, same.pending, hwaiting,
      same.requests]
  · intro hstate
    rw [same.state] at hstate
    rw [same.pending]
    exact (h.queue hstate).imp_right hqueue

/-- A connection goes away: nothing is asked of the client for it any more. -/
theorem removeDownstream (h : RequestsKept s) (d : DownstreamId) :
    RequestsKept (s.removeDownstream d) := by
  refine h.of_counts ?_ rfl rfl (fun r hr => Or.inl hr) (fun _ _ _ => rfl) h.queue h.messages
  intro d' hd'
  exact (isRegistered_removeDownstream hd').2

/-- An error while no request waits and the group channels are not being told their size. -/
theorem fail (h : RequestsKept s) (hwaiting : s.loop.waiting = [])
    (hopen : s.loop.isOpenSuccess = false) (f : Fault) : OpensInv (s.fail f) := by
  have hidle : ∀ s₁ : ChannelManager, RequestsKept s₁ → s₁.loop = s.loop →
      RequestsKept { s₁ with loop := .idle } := by
    intro s₁ h₁ hloop
    refine h₁.of_same ⟨fun _ => rfl, rfl, rfl, rfl, rfl, rfl, rfl⟩ ?_ ?_ ?_
    · rw [hloop, hwaiting]
      rfl
    · intro ho
      rw [hloop, hopen] at ho
      cases ho
    · intro m hm
      cases hm
  cases f with
  | log => exact fun _ => hidle s h rfl
  | disconnect d => exact fun _ => hidle _ (h.removeDownstream d) rfl
  | _ =>
    intro hstopped
    cases hstopped

end RequestsKept

/-- An error that ends the loop. -/
theorem OpensInv.stop {f : Fault} (hf : ∀ d, f ≠ .disconnect d) (hlog : f ≠ .log) :
    OpensInv (s.fail f) := by
  cases f with
  | log => exact absurd rfl hlog
  | disconnect d => exact absurd rfl (hf d)
  | _ =>
    intro hstopped
    cases hstopped

/-! ## Open requests -/

/-- A request that does not fail is answered once. -/
structure AnswersOne (s : ChannelManager) (r : PendingRequest) (s' : ChannelManager) : Prop where
  registered : ∀ d, s'.isRegistered d = s.isRegistered d
  accepting : s'.accepting = s.accepting
  factory : s'.downstreamIdFactory = s.downstreamIdFactory
  requests : s'.openRequests = s.openRequests
  answered : s'.answered = r.key :: s.answered
  pending : s'.pendingDownstreamRequests = s.pendingDownstreamRequests
  state : s'.upstreamState = s.upstreamState
  loop : s'.loop = s.loop

theorem Opens.answersOne {r : PendingRequest} {ans : OpenAnswers} (h : Opens s r ans s') :
    AnswersOne s r s' := by
  cases h with
  | refused ds factory code hds =>
    exact ⟨isRegistered_insert hds rfl, rfl, rfl, rfl, rfl, rfl, rfl, rfl⟩
  | standard ds extranoncePrefix t p raw outs jobId group hkind hds =>
    exact ⟨isRegistered_insert hds rfl, rfl, rfl, rfl, rfl, rfl, rfl, rfl⟩
  | extended ds extranoncePrefix m t p raw outs jobId group hkind hds =>
    exact ⟨isRegistered_insert hds rfl, rfl, rfl, rfl, rfl, rfl, rfl, rfl⟩

theorem hasSpoken_spoken (h : RequestsKept s) (hd : s.hasSpoken d = true) : ¬ s.Unspoken d := by
  unfold hasSpoken at hd
  split at hd
  next ds hds => exact h.registered d (by rw [isRegistered, hds]; rfl)
  next hds =>
    simp only [Bool.and_eq_true, decide_eq_true_eq, Option.isNone_iff_eq_none] at hd
    rintro (hlt | hsome)
    · exact absurd hd.1 (Nat.not_lt.mpr hlt)
    · rw [hd.2] at hsome
      cases hsome

/-- A request that does not have to wait is answered, or its miner is disconnected. -/
theorem RequestsKept.handleOpenNow (h : RequestsKept s) (hloop : s.loop = .idle)
    {r : PendingRequest} {ans : OpenAnswers} (hr : ¬ s.Unspoken r.downstreamId) :
    OpensInv ({ s with openRequests := r :: s.openRequests }.handleOpenNow r ans) := by
  unfold ChannelManager.handleOpenNow
  obtain ⟨wrapped, hrecord⟩ :=
    recordRollableSize_calm { s with openRequests := r :: s.openRequests } r ans
  rw [hrecord]
  dsimp only
  have hspoken : ∀ q ∈ r :: s.openRequests, q ∈ s.openRequests ∨ ¬ s.Unspoken q.downstreamId := by
    intro q hq
    rcases List.mem_cons.mp hq with rfl | hq
    · exact Or.inr hr
    · exact Or.inl hq
  have hqueue : s.upstreamState = .connected → s.pendingDownstreamRequests = [] := by
    intro hstate
    rcases h.queue hstate with hq | hq
    · exact hq
    · rw [hloop] at hq
      cases hq
  generalize hopen : handleOpen _ r ans = result
  cases result with
  | ok s₁ =>
    intro _
    have hone := (handleOpen_opens hopen).answersOne
    refine h.of_counts ?_ hone.accepting hone.factory ?_ ?_ ?_ ?_
    · intro d hd
      have hreg := hone.registered d
      exact hreg.symm.trans hd
    · intro q hq
      have hreq : s₁.openRequests = r :: s.openRequests := hone.requests
      exact hspoken q (hreq ▸ hq)
    · intro d _ requestId
      have hans : s₁.answered = r.key :: s.answered := hone.answered
      have hreq : s₁.openRequests = r :: s.openRequests := hone.requests
      have hpend : s₁.pendingDownstreamRequests = s.pendingDownstreamRequests := hone.pending
      simp only [ChannelManager.conclude, ChannelManager.answered, waiting, requested] at hans ⊢
      rw [hans, hreq, hpend, hloop, List.map_cons, List.count_cons, List.count_cons]
      simp only [LoopTask.waiting]
      omega
    · intro hstate
      have hs : s.upstreamState = .connected := hone.state.symm.trans hstate
      exact Or.inl (hone.pending.trans (hqueue hs))
    · intro m hm
      cases hm
  | error f =>
    rcases handleOpen_fails hopen with rfl | rfl | ⟨rfl, -⟩
    · exact .stop (by simp) (by simp)
    · exact .stop (by simp) (by simp)
    · intro _
      refine h.of_counts ?_ rfl rfl hspoken ?_ (fun hs => Or.inl (hqueue hs)) ?_
      · intro d hd
        exact (isRegistered_removeDownstream (s := s) hd).2
      · intro d hd requestId
        -- the count of the new request is only wrong for the miner that is gone
        have hne : r.downstreamId ≠ d := by
          rintro rfl
          rcases hd with hd | hd
          · exact (isRegistered_removeDownstream (s := s) hd).1 rfl
          · exact hr hd
        have hkey : r.key ≠ (d, requestId) := fun heq => hne (congrArg Prod.fst heq)
        have hcount : (r.key :: s.requested).count (d, requestId) =
          s.requested.count (d, requestId) := List.count_cons_of_ne hkey
        have hwaiting : s.waiting = s.pendingDownstreamRequests.map PendingRequest.key := by
          rw [waiting, hloop]
          simp [LoopTask.waiting]
        rw [hwaiting]
        simp only [ChannelManager.conclude, ChannelManager.fail, ChannelManager.removeDownstream,
          ChannelManager.answered, waiting, requested, LoopTask.waiting, List.append_nil,
          List.map_cons] at hcount ⊢
        rw [hcount]
      · intro m hm
        cases hm

theorem RequestsKept.handleDownstreamOpen (h : RequestsKept s) (hloop : s.loop = .idle)
    {r : PendingRequest} {ans : OpenAnswers} (hr : ¬ s.Unspoken r.downstreamId) :
    OpensInv (s.handleDownstreamOpen env r ans) := by
  have hspoken : ∀ q ∈ r :: s.openRequests, q ∈ s.openRequests ∨ ¬ s.Unspoken q.downstreamId := by
    intro q hq
    rcases List.mem_cons.mp hq with rfl | hq
    · exact Or.inr hr
    · exact Or.inl hq
  unfold ChannelManager.handleDownstreamOpen
  dsimp only
  split
  · intro _
    refine h.of_counts (fun _ hd => hd) rfl rfl hspoken ?_ ?_ h.messages
    · intro d _ requestId
      simp only [ChannelManager.answered, Message.answers, List.filterMap_cons, waiting, requested,
        List.cons_append, List.map_cons, List.count_cons]
      omega
    · intro hstate
      cases hstate
  next hpending =>
    intro _
    refine h.of_counts (fun _ hd => hd) rfl rfl hspoken ?_ ?_ h.messages
    · intro d _ requestId
      simp only [ChannelManager.answered, waiting, requested, List.map_append, List.map_cons,
        List.map_nil, List.count_append, List.count_cons, List.count_nil]
      omega
    · intro hstate
      dsimp only at hstate
      rw [hpending] at hstate
      cases hstate
  · exact h.handleOpenNow hloop hr
  · exact h.handleOpenNow hloop hr

/-- Who waits has been heard of. -/
theorem RequestsKept.spoken_of_waiting (h : RequestsKept s) {key : DownstreamId × RequestId}
    (hkey : key ∈ s.waiting) : ¬ s.Unspoken key.1 := by
  intro hunspoken
  have hbalanced : s.answered.count key + s.waiting.count key = s.requested.count key :=
    h.balanced key.1 (Or.inr hunspoken) key.2
  have hwaits := List.count_pos_iff.mpr hkey
  have hasked : 0 < s.requested.count key := by omega
  obtain ⟨r, hr, rfl⟩ := List.mem_map.mp (List.count_pos_iff.mp hasked)
  exact h.spoken r hr hunspoken

/-- The next request that waited is answered; or its miner is disconnected, and nobody who is
    still there waited behind it. -/
theorem RequestsKept.handlePending (h : RequestsKept s) {ans : OpenAnswers}
    (hok : s.answersPending (.handlePending ans) = true) : OpensInv (s.handlePending ans) := by
  unfold ChannelManager.handlePending
  split
  next r rest hloop =>
    have hqueue : s.upstreamState = .connected → s.pendingDownstreamRequests = [] := by
      intro hstate
      rcases h.queue hstate with hq | hq
      · exact hq
      · rw [hloop] at hq
        cases hq
    have hwaiting : s.waiting = s.pendingDownstreamRequests.map PendingRequest.key ++
        r.key :: rest.map PendingRequest.key := by
      rw [waiting, hloop]
      simp [LoopTask.waiting]
    obtain ⟨wrapped, hrecord⟩ := recordRollableSize_calm s r ans
    rw [hrecord]
    dsimp only
    split
    next f hf =>
      rcases handleOpen_fails hf with rfl | rfl | ⟨rfl, hcause⟩
      · exact .stop (by simp) (by simp)
      · exact .stop (by simp) (by simp)
      · intro _
        have hrest : ∀ q ∈ rest, q.downstreamId = r.downstreamId ∨
            s.isRegistered q.downstreamId = false := by
          simp only [answersPending, hloop, Bool.or_eq_true, Bool.and_eq_true, decide_eq_true_eq,
            List.all_eq_true, Bool.not_eq_true'] at hok
          rcases hok with ⟨⟨⟨hreg, ht⟩, hp⟩, hbuilt⟩ | hrest
          · dsimp only at hcause
            rcases hcause with hnone | hnone | hnone | hfault
            · rw [isRegistered, hnone] at hreg
              cases hreg
            · rw [hnone] at ht
              cases ht
            · rw [hnone] at hp
              cases hp
            · exact absurd hfault hbuilt
          · exact hrest
        refine h.of_counts ?_ rfl rfl (fun q hq => Or.inl hq) ?_ (fun hs => Or.inl (hqueue hs)) ?_
        · intro d hd
          exact (isRegistered_removeDownstream (s := s) hd).2
        · intro d hd requestId
          have hspoken : ∀ q ∈ r :: rest, ¬ s.Unspoken q.downstreamId := by
            intro q hq
            apply @RequestsKept.spoken_of_waiting _ h q.key
            rw [hwaiting]
            exact List.mem_append_right _ (List.mem_map_of_mem hq)
          have hzero : (r.key :: rest.map PendingRequest.key).count (d, requestId) = 0 := by
            apply List.count_eq_zero.mpr
            intro hmem
            obtain ⟨q, hq, hkey⟩ := List.mem_map.mp (show (d, requestId) ∈
              (r :: rest).map PendingRequest.key from hmem)
            have hqd : q.downstreamId = d := congrArg Prod.fst hkey
            rcases hd with hd | hd
            · obtain ⟨hne, hreg⟩ := isRegistered_removeDownstream (s := s) hd
              rcases List.mem_cons.mp hq with rfl | hq
              · exact hne hqd.symm
              · rcases hrest q hq with hsame | hgone
                · exact hne (hqd.symm.trans hsame)
                · rw [hqd] at hgone
                  rw [isRegistered] at hreg hgone
                  rw [hgone] at hreg
                  cases hreg
            · rw [← hqd] at hd
              exact hspoken q hq hd
          rw [hwaiting, List.count_append, hzero]
          simp only [ChannelManager.fail, ChannelManager.removeDownstream,
            ChannelManager.answered, waiting, requested, LoopTask.waiting, List.append_nil]
          omega
        · intro m hm
          cases hm
    next s₁ hs₁ =>
      intro _
      have hone := (handleOpen_opens hs₁).answersOne
      refine h.of_counts ?_ hone.accepting hone.factory ?_ ?_ ?_ ?_
      · intro d hd
        have hreg := hone.registered d
        exact hreg.symm.trans hd
      · intro q hq
        have hreq : s₁.openRequests = s.openRequests := hone.requests
        exact Or.inl (hreq ▸ hq)
      · intro d _ requestId
        have hans : s₁.answered = r.key :: s.answered := hone.answered
        have hreq : s₁.openRequests = s.openRequests := hone.requests
        have hpend : s₁.pendingDownstreamRequests = s.pendingDownstreamRequests := hone.pending
        have hrest : (if rest.isEmpty then LoopTask.idle else .pending rest).waiting = rest := by
          cases rest <;> rfl
        rw [hwaiting]
        simp only [ChannelManager.answered, waiting, requested, hrest] at hans ⊢
        rw [hans, hreq, hpend]
        simp only [List.map_append, List.count_append, List.count_cons]
        omega
      · intro hstate
        have hs : s.upstreamState = .connected := hone.state.symm.trans hstate
        exact Or.inl (hone.pending.trans (hqueue hs))
      · intro m hm
        dsimp only at hm
        split at hm <;> cases hm
  · exact fun _ => h

/-! ## The other messages -/

/-- A share that is not forwarded ends the loop or disconnects its miner. -/
theorem handleSubmitShares_error {kind : ShareKind} {channels : Downstream → KeyMap ChannelId Channel}
    {channelId : ChannelId} {jobId : JobId} {ans : ShareAnswer} {upstream : UpstreamShareAnswer}
    {f : Fault} (h : s.handleSubmitShares kind d channels channelId jobId ans upstream = .error f) :
    f = .disconnect d ∨ f = kind.oversized ∨ f = .panic ∨ f = .shutdown := by
  unfold handleSubmitShares at h
  split at h
  · cases h
    exact Or.inl rfl
  split at h
  · cases h
    exact Or.inl rfl
  split at h
  · cases h
  split at h
  · split at h
    · cases h
      exact Or.inl rfl
    · cases h
  split at h
  · cases h
  unfold forwardShare at h
  split at h
  · cases h
  dsimp only at h
  split at h
  · cases h
    exact Or.inr (Or.inr (Or.inl rfl))
  split at h
  · cases h
    exact Or.inr (Or.inl rfl)
  split at h
  · cases h
  split at h
  · exact Or.inr (Or.inr (Or.inr (validateUpstream_error h)))
  · cases h

/-- The end of a message that neither asks nor answers. -/
theorem RequestsKept.conclude (h : RequestsKept s) (hloop : s.loop = .idle)
    {r : Except Fault ChannelManager} (hr : ∀ s', r = .ok s' → SameRequests s s') :
    OpensInv (s.conclude r) := by
  cases r with
  | error f => exact h.fail (by rw [hloop]; rfl) (by rw [hloop]; rfl) f
  | ok s' =>
    intro _
    have same := hr s' rfl
    refine h.of_same ⟨same.registered, same.accepting, same.factory, same.requests, same.answered,
      same.pending, same.state⟩ ?_ ?_ ?_
    · rw [hloop]
      rfl
    · intro ho
      rw [hloop] at ho
      cases ho
    · intro m hm
      cases hm

theorem RequestsKept.receiveOpenSuccess (h : RequestsKept s) (hloop : s.loop = .idle)
    {msg : OpenSuccess} {ans : OpenSuccessAnswers} :
    OpensInv (s.receiveOpenSuccess env msg ans) := by
  have hcases := receiveOpenSuccess_cases env s msg ans
  generalize s.receiveOpenSuccess env msg ans = s' at hcases ⊢
  cases hcases with
  | failed f wrapped hf => rcases hf with rfl | rfl <;> exact .stop (by simp) (by simp)
  | noRequest hempty =>
    intro _
    exact h.of_counts (fun _ hd => hd) rfl rfl (fun _ hr => Or.inl hr) (fun _ _ _ => rfl)
      (fun _ => Or.inl hempty) h.messages
  | refused hallocator =>
    intro _
    refine h.of_counts (fun _ hd => hd) rfl rfl (fun _ hr => Or.inl hr) (fun _ _ _ => rfl) ?_
      h.messages
    intro hstate
    cases hstate
  | configured raw s₁ customJob hraw hsize hpending hallocator hjob =>
    intro _
    have hwaiting : s.loop.waiting = [] := by
      rw [hloop]
      rfl
    obtain ⟨tokens, n, jobs, rfl⟩ := openCustomJob_frame hjob
    refine h.of_counts (fun _ hd => hd) rfl rfl (fun _ hr => Or.inl hr) ?_ (fun _ => Or.inr rfl)
      (by simp [LoopTask.messages])
    intro d _ requestId
    simp only [waiting, hwaiting]
    rfl

theorem RequestsKept.receiveSetExtranoncePrefix (h : RequestsKept s) (hloop : s.loop = .idle)
    {extranoncePrefix : B032} {upstreamAccepts allocatorBuilt : Bool} :
    OpensInv (s.receiveSetExtranoncePrefix extranoncePrefix upstreamAccepts allocatorBuilt) := by
  unfold ChannelManager.receiveSetExtranoncePrefix
  split
  · exact fun _ => h
  split
  · exact .stop (by simp) (by simp)
  dsimp only
  split
  · exact .stop (by simp) (by simp)
  split
  · exact .stop (by simp) (by simp)
  · intro _
    refine h.of_same ⟨fun _ => rfl, rfl, rfl, rfl, rfl, rfl, rfl⟩ ?_ ?_ (by simp [LoopTask.messages])
    · rw [hloop]
      rfl
    · intro ho
      rw [hloop] at ho
      cases ho

theorem RequestsKept.handle (h : RequestsKept s) {e : Event} (htakes : s.takes e = true) :
    OpensInv (s.handle env e) := by
  have hloop := takes_idle htakes
  by_cases hcalm : e.isCalm = true
  · intro _
    have hstep := @handle_calm env s e hcalm hloop
    refine h.of_same (.of_calm hstep.toCalm) ?_ ?_ fun m hm => (hstep.messages m hm).calm
    · rw [LoopTask.waiting_of_isCalm hstep.loop, hloop]
      rfl
    · intro ho
      rw [hloop] at ho
      cases ho
  have hspoken : ∀ d, e.sender = some d → ¬ s.Unspoken d := by
    intro d hd
    simp only [takes, Bool.and_eq_true, hd, Option.all_some] at htakes
    exact hasSpoken_spoken h htakes.2
  cases e with
  | openExtendedMiningChannelSuccess msg ans => exact h.receiveOpenSuccess hloop
  | setExtranoncePrefix extranoncePrefix accepts built => exact h.receiveSetExtranoncePrefix hloop
  | closeUpstreamChannel => exact OpensInv.stop (by simp) (by simp)
  | openChannel r ans => exact h.handleDownstreamOpen hloop (hspoken _ rfl)
  | closeChannel d channelId =>
    apply h.conclude hloop
    intro s' hs'
    unfold handleCloseChannel at hs'
    split at hs'
    · cases hs'
    next ds hds =>
      cases hs'
      exact .of_insert hds rfl rfl rfl rfl rfl rfl rfl
  | submitSharesStandard d channelId jobId ans upstream =>
    apply h.conclude hloop
    intro s' hs'
    exact .of_calm (.of_sharesMoved (handleSubmitShares_moves hs'))
  | submitSharesExtended d channelId jobId extranonce ans upstream =>
    apply h.conclude hloop
    intro s' hs'
    exact .of_calm (.of_sharesMoved (handleSubmitShares_moves hs'))
  | _ => exact absurd rfl hcalm

/-! ## Handlers that go through the connections -/

theorem visitNewTemplate_requests {t : NewTemplate} {ctx : TemplateContext} {ds : Downstream}
    {ans : TemplateAnswers} {out : List Message} (hds : s.downstream.lookup d = some ds)
    (h : s.visitNewTemplate t ctx d ds ans = .ok (s', out)) :
    SameRequests s s' ∧ ∀ m ∈ out, m.IsCalm := by
  obtain ⟨ds', jobs, notices, -, hnotices, rfl, rfl⟩ := visitNewTemplate_ok h
  obtain ⟨n, -, heq⟩ | ⟨token, channelId, size, p, stored, -, -, -, -, heq⟩ :=
    templateCustomJob_cases s t ctx ans.customJobBuilt
  · rw [heq]
    exact ⟨.of_insert hds rfl rfl rfl rfl rfl rfl rfl, fun m hm => (hnotices m hm).calm⟩
  · rw [heq]
    refine ⟨.of_insert hds rfl rfl rfl rfl rfl rfl rfl, ?_⟩
    intro m hm
    rcases List.mem_append.mp hm with hm | hm
    · rcases List.mem_singleton.mp hm with rfl
      exact ⟨rfl, rfl⟩
    · exact (hnotices m hm).calm

theorem RequestsKept.visit (h : RequestsKept s) {ans : VisitAnswers} :
    OpensInv (s.visit d ans) := by
  unfold ChannelManager.visit
  split
  · exact fun _ => h
  next ds hds =>
  split
  next t ctx present visited messages hloop =>
    split
    · exact fun _ => h
    split
    next f hf =>
      rw [visitNewTemplate_error hf]
      exact .stop (by simp) (by simp)
    next s₁ ms hs₁ =>
      intro _
      obtain ⟨same, hms⟩ := visitNewTemplate_requests hds hs₁
      refine h.of_same ⟨same.registered, same.accepting, same.factory, same.requests, same.answered,
        same.pending, same.state⟩ ?_ ?_ ?_
      · rw [hloop]
        rfl
      · intro ho
        rw [hloop] at ho
        cases ho
      · intro m hm
        rcases List.mem_append.mp hm with hm | hm
        · exact h.messages m (by rw [hloop]; exact hm)
        · exact hms m hm
  next p tokenConsumed present visited messages hloop =>
    split
    · exact fun _ => h
    split
    next f hf =>
      rcases visitSetNewPrevHash_error hf with rfl | rfl <;> exact .stop (by simp) (by simp)
    next s₁ ms hs₁ =>
      intro _
      obtain ⟨jobs, rfl, hms⟩ := visitSetNewPrevHash_ok hs₁
      refine h.of_same (.of_insert hds rfl rfl rfl rfl rfl rfl rfl) ?_ ?_ ?_
      · rw [hloop]
        rfl
      · intro ho
        rw [hloop] at ho
        cases ho
      · intro m hm
        rcases List.mem_append.mp hm with hm | hm
        · exact h.messages m (by rw [hloop]; exact hm)
        · exact (hms m hm).calm
  next size customJob present visited hloop =>
    split
    · exact fun _ => h
    split
    · intro _
      refine h.of_same (.of_insert hds rfl rfl rfl rfl rfl rfl rfl) ?_ (fun _ => rfl)
        (by simp [LoopTask.messages])
      rw [hloop]
      rfl
    · exact .stop (by simp) (by simp)
  next present visited renewals hloop =>
    split
    · exact fun _ => h
    · intro _
      refine h.of_same (.of_insert hds rfl rfl rfl rfl rfl rfl rfl) ?_ ?_
        (by simp [LoopTask.messages])
      · rw [hloop]
        rfl
      · intro ho
        rw [hloop] at ho
        cases ho
  · exact fun _ => h

/-- A handler ends: its messages do not answer any request. -/
theorem RequestsKept.finishVisits (h : RequestsKept s) {s₁ : ChannelManager} (hcalm : Calm s s₁)
    (hloop : s.loop.waiting = []) (hopen : s.loop.isOpenSuccess = false) {ms : List Message}
    (hms : ∀ m ∈ ms, m.answers = none) : RequestsKept { s₁.send ms with loop := .idle } := by
  have same := SameRequests.of_calm hcalm
  have hanswered : (s₁.send ms).answered = s₁.answered :=
    answered_of_sent rfl (by simpa using hms)
  refine h.of_same ⟨same.registered, same.accepting, same.factory, same.requests,
    hanswered.trans same.answered, same.pending, same.state⟩ ?_ ?_ (by simp [LoopTask.messages])
  · rw [hloop]
    rfl
  · intro ho
    rw [hopen] at ho
    cases ho

/-- The requests that waited for the channel are handled from now on. -/
theorem RequestsKept.finishOpenSuccess (h : RequestsKept s) (hloop : s.loop.waiting = [])
    (customJob : Option CustomJob) : RequestsKept (s.finishOpenSuccess env customJob) := by
  unfold ChannelManager.finishOpenSuccess
  have hcalm := @sendOpenCustomJob_calm env s customJob
  generalize sendOpenCustomJob env (s.requestFutureTemplate env) customJob = s₁ at hcalm ⊢
  have same := SameRequests.of_calm hcalm
  have hwaits : s₁.takePending.loop.waiting = s₁.pendingDownstreamRequests := by
    unfold takePending
    cases s₁.pendingDownstreamRequests <;> rfl
  refine h.of_counts ?_ same.accepting same.factory ?_ ?_ (fun _ => Or.inl rfl) ?_
  · intro d hd
    rw [← same.registered]
    exact hd
  · intro r hr
    rw [← same.requests]
    exact Or.inl hr
  · intro d _ requestId
    have hanswered : s₁.takePending.answered = s.answered := same.answered
    have hrequested : s₁.takePending.requested = s.requested := by
      rw [requested, requested, ← same.requests]
      rfl
    have hwaiting : s₁.takePending.waiting = s.waiting := by
      rw [waiting, waiting, hwaits, hloop, same.pending, List.append_nil]
      rfl
    rw [hanswered, hrequested, hwaiting]
  · intro m hm
    unfold takePending at hm
    dsimp only at hm
    split at hm <;> cases hm

theorem RequestsKept.finish (h : RequestsKept s) : RequestsKept (s.finish env) := by
  have htoken := Calm.replaceToken s
  unfold ChannelManager.finish
  split
  next t ctx present visited messages hloop =>
    split
    · refine h.finishVisits (htoken _) (by rw [hloop]; rfl) (by rw [hloop]; rfl) ?_
      intro m hm
      exact (h.messages m (by rw [hloop]; exact hm)).answers
    · exact h
  next p tokenConsumed present visited messages hloop =>
    split
    · refine h.finishVisits (htoken _) (by rw [hloop]; rfl) (by rw [hloop]; rfl) ?_
      intro m hm
      exact (h.messages m (by rw [hloop]; exact hm)).answers
    · exact h
  next size customJob present visited hloop =>
    split
    · exact h.finishOpenSuccess (by rw [hloop]; rfl) customJob
    · exact h
  next present visited renewals hloop =>
    split
    · refine h.finishVisits (.refl s) (by rw [hloop]; rfl) (by rw [hloop]; rfl) ?_
      intro m hm
      obtain ⟨r, -, rfl⟩ := List.mem_map.mp hm
      rfl
    · exact h
  · exact h

/-! ## Connections -/

/-- The task of a connection moves on: nobody is heard of who has been heard of before. -/
theorem RequestsKept.of_connections (h : RequestsKept s)
    (hsent : s'.sent = s.sent) (hrequests : s'.openRequests = s.openRequests)
    (hpending : s'.pendingDownstreamRequests = s.pendingDownstreamRequests)
    (hloop : s'.loop = s.loop) (hstate : s'.upstreamState = s.upstreamState)
    (hunspoken : ∀ d, s'.Unspoken d → s.Unspoken d)
    (hregistered : ∀ d, s'.isRegistered d = true →
      (s.isRegistered d = true ∨ s.Unspoken d) ∧ ¬ s'.Unspoken d)
    (haccepting : ∀ d, (s'.accepting.lookup d).isSome = true → d < s'.downstreamIdFactory) :
    RequestsKept s' := by
  refine ⟨fun d hd => (hregistered d hd).2, haccepting, ?_, ?_, ?_, ?_⟩
  · intro r hr hd
    rw [hrequests] at hr
    exact h.spoken r hr (hunspoken _ hd)
  · intro d hd requestId
    have halive : s.isRegistered d = true ∨ s.Unspoken d := by
      rcases hd with hd | hd
      · exact (hregistered d hd).1
      · exact Or.inr (hunspoken d hd)
    rw [answered, waiting, requested, hsent, hpending, hloop, hrequests]
    exact h.balanced d halive requestId
  · intro hs
    rw [hstate] at hs
    rw [hpending, hloop]
    exact h.queue hs
  · rw [hloop]
    exact h.messages

theorem RequestsKept.accept (h : RequestsKept s) : RequestsKept s.accept := by
  unfold ChannelManager.accept
  split
  · have hunspoken : ∀ d, s.downstreamIdFactory + 1 ≤ d ∨ (AList.lookup d
        (s.accepting.insert s.downstreamIdFactory
          (AcceptTask.readSize s.fullExtranonceSize))).isSome = true → s.Unspoken d := by
      intro d hd
      rcases hd with hd | hd
      · exact Or.inl (Nat.le_of_succ_le hd)
      · rcases KeyMap.isSome_lookup_insert hd with rfl | hd
        · exact Or.inl (Nat.le_refl _)
        · exact Or.inr hd
    refine h.of_connections rfl rfl rfl rfl rfl hunspoken ?_ ?_
    · intro d hd
      exact ⟨Or.inl hd, fun hu => h.registered d hd (hunspoken d hu)⟩
    · intro d hd
      rcases KeyMap.isSome_lookup_insert hd with rfl | hd
      · exact Nat.lt_succ_self _
      · exact Nat.lt_succ_of_lt (h.accepting d hd)
  · exact h

theorem RequestsKept.bootstrap (h : RequestsKept s) {built : Bool} :
    RequestsKept (s.bootstrap d built) := by
  have herase : ∀ s₁ : ChannelManager, s₁.sent = s.sent → s₁.openRequests = s.openRequests →
      s₁.pendingDownstreamRequests = s.pendingDownstreamRequests → s₁.loop = s.loop →
      s₁.upstreamState = s.upstreamState → s₁.downstreamIdFactory = s.downstreamIdFactory →
      s₁.downstream = s.downstream → (∀ d', (s₁.accepting.lookup d').isSome = true →
        (s.accepting.lookup d').isSome = true) → RequestsKept s₁ := by
    intro s₁ hsent hrequests hpending hloop hstate hfactory hdownstream haccepting
    have hunspoken : ∀ d', s₁.Unspoken d' → s.Unspoken d' := by
      intro d' hd'
      rw [Unspoken, hfactory] at hd'
      exact hd'.imp_right (haccepting d')
    refine h.of_connections hsent hrequests hpending hloop hstate hunspoken ?_ ?_
    · intro d' hd'
      rw [isRegistered, hdownstream] at hd'
      exact ⟨Or.inl hd', fun hu => h.registered d' hd' (hunspoken d' hu)⟩
    · intro d' hd'
      rw [hfactory]
      exact h.accepting d' (haccepting d' hd')
  have hgone : ∀ d', (AList.lookup d' (s.accepting.erase d)).isSome = true →
      (s.accepting.lookup d').isSome = true := by
    intro d' hd'
    obtain ⟨task, htask⟩ := Option.isSome_iff_exists.mp hd'
    rw [KeyMap.lookup_erase_some htask]
    rfl
  unfold ChannelManager.bootstrap
  split
  next size hsize =>
    split
    · split
      · refine herase _ rfl rfl rfl rfl rfl rfl rfl ?_
        intro d' hd'
        dsimp only at hd'
        rw [KeyMap.lookup_insert_eq] at hd'
        split at hd'
        next heq =>
          rw [heq, hsize]
          rfl
        · exact hd'
      · exact herase _ rfl rfl rfl rfl rfl rfl rfl hgone
    · exact herase _ rfl rfl rfl rfl rfl rfl rfl hgone
    · exact herase _ rfl rfl rfl rfl rfl rfl rfl hgone
  · exact h

theorem RequestsKept.register (h : RequestsKept s) : RequestsKept (s.register d) := by
  unfold ChannelManager.register
  split
  next size hsize =>
    have hold : s.Unspoken d := Or.inr (by rw [hsize]; rfl)
    have haccepting : ∀ d', (AList.lookup d' (s.accepting.erase d)).isSome = true →
        d' ≠ d ∧ (s.accepting.lookup d').isSome = true := by
      intro d' hd'
      rw [KeyMap.lookup_erase_eq] at hd'
      split at hd'
      · cases hd'
      next hne => exact ⟨hne, hd'⟩
    refine h.of_connections rfl rfl rfl rfl rfl ?_ ?_ ?_
    · intro d' hd'
      exact hd'.imp_right fun hd' => (haccepting d' hd').2
    · intro d' hd'
      rw [isRegistered] at hd'
      dsimp only at hd'
      rw [KeyMap.lookup_insert_eq] at hd'
      split at hd'
      next heq =>
        subst heq
        refine ⟨Or.inr hold, ?_⟩
        rintro (hle | hsome)
        · exact absurd (h.accepting d' (by rw [hsize]; rfl)) (Nat.not_lt.mpr hle)
        · exact (haccepting d' hsome).1 rfl
      · refine ⟨Or.inl hd', ?_⟩
        intro hu
        exact h.registered d' hd' (hu.imp_right fun hsome => (haccepting d' hsome).2)
    · intro d' hd'
      exact h.accepting d' (haccepting d' hd').2
  · exact h

theorem RequestsKept.setUpConnection (h : RequestsKept s) {requireStdJob : Bool} :
    RequestsKept (s.setUpConnection d requireStdJob) := by
  refine h.of_same ⟨?_, rfl, rfl, rfl, rfl, rfl, rfl⟩ rfl (fun ho => ho) h.messages
  intro d'
  rw [isRegistered, isRegistered, ChannelManager.setUpConnection]
  dsimp only
  rw [KeyMap.lookup_modify]
  split
  next heq =>
    rw [heq]
    cases s.downstream.lookup d <;> rfl
  · rfl

/-! ## Runs -/

theorem OpensInv.step (h : OpensInv s) {a : Action} (hok : s.answersPending a = true) :
    OpensInv (s.step env a) := by
  by_cases hstopped : s.loop.isStopped = true
  · intro hrunning
    rw [stopped_step hstopped] at hrunning
    cases hrunning
  have hkept := h (by simpa using hstopped)
  cases a with
  | event e =>
    simp only [ChannelManager.step]
    split
    next htakes => exact hkept.handle htakes
    · exact h
  | visit d ans => exact hkept.visit
  | finish => exact fun _ => hkept.finish
  | handlePending ans => exact hkept.handlePending hok
  | accept => exact fun _ => hkept.accept
  | bootstrap d built => exact fun _ => hkept.bootstrap
  | register d => exact fun _ => hkept.register
  | setUpConnection d requireStdJob => exact fun _ => hkept.setUpConnection
  | removeDownstream d => exact fun _ => hkept.removeDownstream d

/-! ## Disconnections -/

/-- The connection leaves, or a message of its own is handled. -/
def isOwn (s : ChannelManager) (d : DownstreamId) : Action → Bool
  | .event e => decide (e.sender = some d)
  | .handlePending _ => match s.loop with
    | .pending (r :: _) => decide (r.downstreamId = d)
    | _ => false
  | .removeDownstream d' => decide (d' = d)
  | _ => false

theorem isRegistered_fail {f : Fault} (hd : s.isRegistered d = true) (hf : f ≠ .disconnect d) :
    (s.fail f).isRegistered d = true := by
  cases f with
  | disconnect d' =>
    have hne : d ≠ d' := by
      rintro rfl
      exact hf rfl
    have hlookup : (s.fail (.disconnect d')).downstream.lookup d =
        if d = d' then none else s.downstream.lookup d := KeyMap.lookup_erase_eq _ _ _
    rw [isRegistered, hlookup, if_neg hne]
    exact hd
  | _ => exact hd

theorem isRegistered_conclude {r : Except Fault ChannelManager} {d' : DownstreamId}
    (hd : s.isRegistered d = true) (hne : d' ≠ d)
    (hok : ∀ s', r = .ok s' → s'.isRegistered d = s.isRegistered d)
    (herror : ∀ f, r = .error f → f = .disconnect d' ∨ f = .panic ∨ f = .shutdown) :
    (s.conclude r).isRegistered d = true := by
  cases r with
  | ok s' =>
    have hsame : s'.isRegistered d = s.isRegistered d := hok s' rfl
    exact hsame.trans hd
  | error f =>
    apply isRegistered_fail hd
    rcases herror f rfl with rfl | rfl | rfl
    · intro heq
      cases heq
      exact hne rfl
    · simp
    · simp

theorem isRegistered_handleOpenNow {r : PendingRequest} {ans : OpenAnswers}
    (hd : s.isRegistered d = true) (hne : r.downstreamId ≠ d) :
    (s.handleOpenNow r ans).isRegistered d = true := by
  unfold ChannelManager.handleOpenNow
  obtain ⟨wrapped, hrecord⟩ := recordRollableSize_calm s r ans
  rw [hrecord]
  refine isRegistered_conclude hd hne ?_ ?_
  · intro s' hs'
    exact (handleOpen_opens hs').answersOne.registered d
  · intro f hf
    rcases handleOpen_fails hf with rfl | rfl | ⟨rfl, -⟩
    · exact Or.inr (Or.inr rfl)
    · exact Or.inr (Or.inl rfl)
    · exact Or.inl rfl

theorem isRegistered_handle (hloop : s.loop = .idle) {e : Event} (hd : s.isRegistered d = true)
    (hne : e.sender ≠ some d) : (s.handle env e).isRegistered d = true := by
  by_cases hcalm : e.isCalm = true
  · rw [isRegistered, (@handle_calm env s e hcalm hloop).downstream]
    exact hd
  cases e with
  | openExtendedMiningChannelSuccess msg ans =>
    have hcases := receiveOpenSuccess_cases env s msg ans
    simp only [ChannelManager.handle]
    generalize s.receiveOpenSuccess env msg ans = s' at hcases ⊢
    cases hcases with
    | failed f wrapped hf => exact isRegistered_fail hd (by rcases hf with rfl | rfl <;> simp)
    | noRequest _ => exact hd
    | refused _ => exact hd
    | configured raw s₁ customJob hraw hsize hpending hallocator hjob =>
      obtain ⟨tokens, n, jobs, rfl⟩ := openCustomJob_frame hjob
      exact hd
  | setExtranoncePrefix extranoncePrefix accepts built =>
    simp only [ChannelManager.handle, ChannelManager.receiveSetExtranoncePrefix]
    split
    · exact hd
    split
    · exact hd
    split
    · exact hd
    split
    · exact hd
    · exact hd
  | closeUpstreamChannel => exact hd
  | openChannel r ans =>
    have hne : r.downstreamId ≠ d := fun heq => hne (congrArg some heq)
    simp only [ChannelManager.handle, ChannelManager.handleDownstreamOpen]
    split
    · exact hd
    · exact hd
    · exact isRegistered_handleOpenNow hd hne
    · exact isRegistered_handleOpenNow hd hne
  | closeChannel d' channelId =>
    refine isRegistered_conclude hd (fun heq => hne (congrArg some heq)) ?_ ?_
    · intro s' hs'
      unfold handleCloseChannel at hs'
      split at hs'
      · cases hs'
      next ds hds =>
        cases hs'
        exact isRegistered_insert hds rfl d
    · intro f hf
      unfold handleCloseChannel at hf
      split at hf <;> cases hf
      exact Or.inl rfl
  | submitSharesStandard d' channelId jobId ans upstream =>
    refine isRegistered_conclude hd (fun heq => hne (congrArg some heq)) ?_ ?_
    · intro s' hs'
      exact (SameRequests.of_calm (.of_sharesMoved (handleSubmitShares_moves hs'))).registered d
    · intro f hf
      rcases handleSubmitShares_error hf with rfl | rfl | rfl | rfl
      · exact Or.inl rfl
      · exact Or.inr (Or.inr rfl)
      · exact Or.inr (Or.inl rfl)
      · exact Or.inr (Or.inr rfl)
  | submitSharesExtended d' channelId jobId extranonce ans upstream =>
    refine isRegistered_conclude hd (fun heq => hne (congrArg some heq)) ?_ ?_
    · intro s' hs'
      exact (SameRequests.of_calm (.of_sharesMoved (handleSubmitShares_moves hs'))).registered d
    · intro f hf
      rcases handleSubmitShares_error hf with rfl | rfl | rfl | rfl
      · exact Or.inl rfl
      · exact Or.inl rfl
      · exact Or.inr (Or.inl rfl)
      · exact Or.inr (Or.inr rfl)
  | _ => exact absurd rfl hcalm

theorem isRegistered_visit {d' : DownstreamId} {ans : VisitAnswers}
    (hd : s.isRegistered d = true) : (s.visit d' ans).isRegistered d = true := by
  unfold ChannelManager.visit
  split
  · exact hd
  next ds hds =>
  have hinsert : ∀ (s' : ChannelManager) ds', s'.downstream = s.downstream.insert d' ds' →
      s'.isRegistered d = true :=
    fun s' ds' hs' => (isRegistered_insert hds hs' d).trans hd
  split
  · split
    · exact hd
    split
    next f hf => exact isRegistered_fail hd (by rw [visitNewTemplate_error hf]; simp)
    next s₁ ms hs₁ =>
      have hsame : s₁.isRegistered d = s.isRegistered d :=
        (visitNewTemplate_requests hds hs₁).1.registered d
      exact hsame.trans hd
  · split
    · exact hd
    split
    next f hf =>
      exact isRegistered_fail hd (by rcases visitSetNewPrevHash_error hf with rfl | rfl <;> simp)
    next s₁ ms hs₁ =>
      obtain ⟨jobs, rfl, -⟩ := visitSetNewPrevHash_ok hs₁
      exact hinsert _ _ rfl
  · split
    · exact hd
    split
    · exact hinsert _ _ rfl
    · exact hd
  · split
    · exact hd
    · exact hinsert _ _ rfl
  · exact hd

/-- A connection goes away only by itself or over a message of its own. -/
theorem isRegistered_step {a : Action} (hd : s.isRegistered d = true)
    (hown : s.isOwn d a = false) : (s.step env a).isRegistered d = true := by
  cases a with
  | event e =>
    simp only [ChannelManager.step]
    split
    next htakes =>
      exact isRegistered_handle (takes_idle htakes) hd (by simpa [isOwn] using hown)
    · exact hd
  | visit d' ans => exact isRegistered_visit hd
  | finish =>
    rw [ChannelManager.step, isRegistered, (finish_keeps s).1]
    exact hd
  | handlePending ans =>
    simp only [ChannelManager.step, ChannelManager.handlePending]
    split
    next r rest hloop =>
      have hne : r.downstreamId ≠ d := by simpa [isOwn, hloop] using hown
      obtain ⟨wrapped, hrecord⟩ := recordRollableSize_calm s r ans
      rw [hrecord]
      split
      next f hf =>
        refine isRegistered_fail (s := { s with sizeWrapped := wrapped }) hd ?_
        rcases handleOpen_fails hf with rfl | rfl | ⟨rfl, -⟩
        · simp
        · simp
        · intro heq
          cases heq
          exact hne rfl
      next s₁ hs₁ =>
        have hsame : s₁.isRegistered d = s.isRegistered d :=
          (handleOpen_opens hs₁).answersOne.registered d
        exact hsame.trans hd
    · exact hd
  | accept =>
    simp only [ChannelManager.step, ChannelManager.accept]
    split <;> exact hd
  | bootstrap d' built =>
    simp only [ChannelManager.step, ChannelManager.bootstrap]
    split
    · split
      · split <;> exact hd
      · exact hd
      · exact hd
    · exact hd
  | register d' =>
    simp only [ChannelManager.step, ChannelManager.register]
    split
    · rw [isRegistered]
      dsimp only
      rw [KeyMap.lookup_insert_eq]
      split
      · rfl
      · exact hd
    · exact hd
  | setUpConnection d' requireStdJob =>
    rw [ChannelManager.step, isRegistered, ChannelManager.setUpConnection]
    dsimp only
    rw [KeyMap.lookup_modify]
    split
    next heq =>
      rw [heq, isRegistered] at hd
      obtain ⟨ds, hds⟩ := Option.isSome_iff_exists.mp hd
      rw [hds]
      rfl
    · exact hd
  | removeDownstream d' =>
    have hne : d ≠ d' := by
      rintro rfl
      simp [isOwn] at hown
    have hlookup : (s.removeDownstream d').downstream.lookup d =
        if d = d' then none else s.downstream.lookup d := KeyMap.lookup_erase_eq _ _ _
    rw [ChannelManager.step, isRegistered, hlookup, if_neg hne]
    exact hd

/-- In a run that meets the condition, once the answer of the pool has been handled every miner
    that is still connected has an answer to each of its requests, exactly one; an open request that
    arrives without a channel to the pool asks for one and keeps those before it; and a connection
    goes away only by itself or over a message of its own. -/
theorem pending_opens_answered (env : Env) (outs : Option (List TxOut)) (as : List Action)
    (hok : Runs.Guarded (ChannelManager.step env) (fun s a => s.answersPending a = true)
      (start outs) as) :
    let s := after env outs as
    (s.loop = .idle → s.upstreamState = .connected → ∀ d, s.isRegistered d = true →
      ∀ requestId, s.answered.count (d, requestId) = s.requested.count (d, requestId)) ∧
    (∀ r ans, s.upstreamState = .noChannel → s.takes (.openChannel r ans) = true →
      let s' := s.step env (.event (.openChannel r ans))
      s'.sent = .openExtendedMiningChannel (upstreamMinExtranonceSize env r.request.kind) :: s.sent ∧
        s'.pendingDownstreamRequests = r :: s.pendingDownstreamRequests ∧
        s'.upstreamState = .pending) ∧
    (∀ a d, s.isRegistered d = true → (s.step env a).isRegistered d = false →
      s.isOwn d a = true) := by
  have hinv : OpensInv (after env outs as) :=
    Runs.run_invariant_of_guarded OpensInv (fun _ _ h hok => h.step hok)
      (fun _ => requestsKept_start outs) as hok
  refine ⟨?_, ?_, ?_⟩
  · intro hidle hstate d hd requestId
    have hkept := hinv (by rw [hidle]; rfl)
    have hbalanced := hkept.balanced d (Or.inl hd) requestId
    have hwaiting : (after env outs as).waiting = [] := by
      rcases hkept.queue hstate with hempty | hopen
      · rw [waiting, hempty, hidle]
        rfl
      · rw [hidle] at hopen
        cases hopen
    rw [hwaiting] at hbalanced
    exact hbalanced
  · intro r ans hstate htakes
    simp only [ChannelManager.step, htakes, if_true, ChannelManager.handle,
      ChannelManager.handleDownstreamOpen, hstate, and_self]
  · intro a d hd hgone
    by_contra hown
    rw [isRegistered_step hd (by simpa using hown)] at hgone
    cases hgone

/-- Two miners ask for channels before the client has one to the pool. -/
def twoPendingRun : List Action :=
  sampleConnections 2 ++
  [.event (.openChannel ⟨0, 7, .extended 4⟩ (sampleOpen [])),
   .event (.openChannel ⟨1, 8, .standard⟩ (sampleOpen [])),
   .event (.openExtendedMiningChannelSuccess ⟨9, samplePrefix, 8⟩ ⟨true, true, true⟩),
   .visit 0 (sampleVisit 1 []), .visit 1 (sampleVisit 1 []), .finish]

theorem pending_opens_answered_twoMiners :
    let outs : Option (List TxOut) := some [⟨0, [0x51]⟩]
    let as := twoPendingRun ++ [.handlePending (sampleOpen [0xaa, 0, 0]),
      .handlePending (sampleOpen [0xaa, 0, 1, 0, 0, 0, 0, 0, 0])]
    let s := after (sampleEnv .coinbaseOnly) outs as
    (s.loop = .idle ∧ s.upstreamState = .connected ∧ s.answered = [(1, 8), (0, 7)]) ∧
    (s.loop = .idle → s.upstreamState = .connected → ∀ d, s.isRegistered d = true →
      ∀ requestId, s.answered.count (d, requestId) = s.requested.count (d, requestId)) :=
  ⟨by decide +kernel,
    (pending_opens_answered (sampleEnv .coinbaseOnly) (some [⟨0, [0x51]⟩])
      (twoPendingRun ++ [.handlePending (sampleOpen [0xaa, 0, 0]),
        .handlePending (sampleOpen [0xaa, 0, 1, 0, 0, 0, 0, 0, 0])]) (by decide +kernel)).1⟩

/-- The first of two miners leaves while its request waits; the request of the second is lost. -/
theorem pending_open_lost :
    ¬ ∀ (env : Env) (outs : Option (List TxOut)) (as : List Action),
      let s := after env outs as
      s.loop = .idle → s.upstreamState = .connected → ∀ d, s.isRegistered d = true →
        ∀ requestId, s.answered.count (d, requestId) = s.requested.count (d, requestId) := by
  intro h
  have hlost := h (sampleEnv .coinbaseOnly) (some [⟨0, [0x51]⟩])
    (twoPendingRun ++ [.removeDownstream 0, .handlePending (sampleOpen [])])
    (by decide +kernel) (by decide +kernel) 1 (by decide +kernel) 8
  revert hlost
  decide +kernel

end ChannelManager

end Sv2Apps.Jdc
