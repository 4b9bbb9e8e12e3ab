/-
  Translator/ChannelCloses.lean
  =============================
  **Closing channels from both ends** — the channel manager and the `Sv1Server` with the two queues
  between them, without aggregation.

  A channel is closed by the upstream, alone or with its group, or by the `Sv1Server`: when its
  miner leaves, when its miner is gone before it is opened, or when a target finds no miner for it.
  The `Sv1Server` forgets the channel of a miner before it disconnects it for a close of the
  upstream, so that the disconnect closes nothing.  The manager learns of a close of the
  `Sv1Server` from its queue, when it may have removed the channel already, and sends it upstream
  all the same.

  `Proxy.history` is what the upstream sees: the channels that it opens and closes, and the closes
  that it is sent.  No step reads it.
-/
import Sv2Apps.Translator.GroupMembership
import Sv2Apps.Translator.MinerMaps

namespace Sv2Apps.Translator

open Bitcoin Fallible

/-! ## What the upstream sees -/

inductive ChannelEvent where
  /-- The upstream opens a channel, and the manager keeps it. -/
  | opened (channelId : ChannelId)
  /-- The upstream closes a channel or its group, and the manager removes the channel. -/
  | closedByUpstream (channelId : ChannelId)
  /-- `CloseChannel` is sent to the upstream. -/
  | closeSent (channelId : ChannelId)
deriving DecidableEq

namespace ChannelEvent

def channelId : ChannelEvent → ChannelId
  | opened c => c
  | closedByUpstream c => c
  | closeSent c => c

def opens : ChannelEvent → Bool
  | opened _ => true
  | _ => false

/-- Whether a channel is open after some events; the last one that is about it decides. -/
def openAfter (before : Bool) (events : List ChannelEvent) (c : ChannelId) : Bool :=
  events.foldl (fun b e => if e.channelId = c then e.opens else b) before

/-- The upstream has opened the channel, and since then neither has it closed the channel nor has
    it been sent a close. -/
def isOpen (history : List ChannelEvent) (c : ChannelId) : Bool := openAfter false history c

/-- A channel is closed towards the upstream only while it is open: at most once after it has been
    opened, and not after the upstream has closed it. -/
def ClosedOnce (history : List ChannelEvent) : Prop :=
  ∀ before c later, history = before ++ closeSent c :: later → isOpen before c = true

theorem openAfter_append (b : Bool) (events later : List ChannelEvent) (c : ChannelId) :
    openAfter b (events ++ later) c = openAfter (openAfter b events c) later c :=
  List.foldl_append

theorem openAfter_singleton (b : Bool) (e : ChannelEvent) (c : ChannelId) :
    openAfter b [e] c = if e.channelId = c then e.opens else b := rfl

theorem openAfter_closedByUpstream (b : Bool) (ks : List ChannelId) (c : ChannelId) :
    openAfter b (ks.map closedByUpstream) c = (!decide (c ∈ ks) && b) := by
  induction ks generalizing b with
  | nil => simp [openAfter]
  | cons k ks ih =>
    have hcons : openAfter b ((k :: ks).map closedByUpstream) c =
        openAfter (if k = c then false else b) (ks.map closedByUpstream) c := rfl
    rw [hcons, ih]
    by_cases hk : k = c
    · simp [hk]
    · have hck : c ≠ k := fun h => hk h.symm
      simp [hk, hck]

theorem closedOnce_nil : ClosedOnce [] := by
  intro before c later h
  cases before <;> cases h

/-- What comes later does not undo a close that was sent in vain. -/
theorem ClosedOnce.of_append {history later : List ChannelEvent}
    (h : ClosedOnce (history ++ later)) : ClosedOnce history := by
  intro before c rest hsplit
  apply h before c (rest ++ later)
  rw [hsplit, List.append_assoc, List.cons_append]

theorem closedOnce_concat {history : List ChannelEvent} {e : ChannelEvent} :
    ClosedOnce (history ++ [e]) ↔
      ClosedOnce history ∧ ∀ c, e = closeSent c → isOpen history c = true := by
  constructor
  · intro h
    refine ⟨h.of_append, ?_⟩
    rintro c rfl
    exact h history c [] rfl
  · rintro ⟨h, hlast⟩ before c later hsplit
    rcases List.eq_nil_or_concat later with rfl | ⟨rest, x, rfl⟩
    · obtain ⟨rfl, he⟩ := List.append_inj' hsplit rfl
      cases he
      exact hlast c rfl
    · rw [List.concat_eq_append, ← List.cons_append, ← List.append_assoc] at hsplit
      obtain ⟨hhistory, -⟩ := List.append_inj' hsplit rfl
      exact h before c rest hhistory

/-- Events among which no close is sent. -/
theorem ClosedOnce.append {history : List ChannelEvent} (h : ClosedOnce history)
    {events : List ChannelEvent} (hnone : ∀ c, closeSent c ∉ events) :
    ClosedOnce (history ++ events) := by
  induction events generalizing history with
  | nil => simpa using h
  | cons e events ih =>
    rw [List.append_cons]
    apply ih
    · rw [closedOnce_concat]
      refine ⟨h, ?_⟩
      rintro c rfl
      exact absurd List.mem_cons_self (hnone c)
    · intro c hc
      exact hnone c (List.mem_cons_of_mem e hc)

end ChannelEvent

namespace ChannelManager

variable {Ch Gr Al : Type}

/-- The channels of the closes that have been sent upstream. -/
def closesSent (s : ChannelManager Ch Gr Al) : List ChannelId :=
  s.toUpstream.filterMap fun m => match m with
    | .closeChannel c => some c
    | _ => none

/-- What the upstream sees of a step of the manager. -/
def observeCloses (s s' : ChannelManager Ch Gr Al) (e : Event) : List ChannelEvent :=
  (match e with
    | .openExtendedMiningChannelSuccess m =>
      if s.hasChannel m.channelId = false ∧ s'.hasChannel m.channelId = true then
        [.opened m.channelId] else []
    | .closeChannel _ =>
      (s.extendedChannels.keys.filter fun c => !s'.hasChannel c).map .closedByUpstream
    | _ => []) ++ (s'.closesSent.drop s.closesSent.length).map .closeSent

/-- The messages of the `Sv1Server` that come through its queue here; shares may come at any
    time. -/
def Event.queued : Event → Bool
  | .openExtendedMiningChannel _ => true
  | .closeDownstreamChannel _ => true
  | _ => false

end ChannelManager

/-! ## The two tasks and their queues -/

structure Proxy (Ch Gr Al : Type) where
  manager : ChannelManager Ch Gr Al
  server : Sv1Server
  /-- How many messages of the manager the server has taken. -/
  takenByServer : Nat
  /-- How many messages of the server the manager has taken. -/
  takenByManager : Nat
  history : List ChannelEvent

namespace Proxy

variable {Ch Gr Al : Type}

def start : Proxy Ch Gr Al := ⟨.start, .start, 0, 0, []⟩

inductive Action where
  /-- A message of the upstream or a share, or an entry comes first in its map. -/
  | manager (a : ChannelManager.Action)
  | managerTakes
  /-- A step of the server task, of a miner or of a disconnect. -/
  | server (a : Sv1Server.Action)
  | serverTakes

section Steps

variable (api : ClientChannels Ch Gr Al) (cfg : Config) (sv1 : Sv1Config)

/-- The manager handles a message. -/
def managerHandles (p : Proxy Ch Gr Al) (e : ChannelManager.Event) : Proxy Ch Gr Al :=
  let manager := ChannelManager.step api cfg p.manager (.event e)
  { p with manager := manager, history := p.history ++ p.manager.observeCloses manager e }

def step (p : Proxy Ch Gr Al) : Action → Proxy Ch Gr Al
  | .manager a =>
    match a with
    | .event e => if e.queued then p else managerHandles api cfg p e
    | a => { p with manager := ChannelManager.step api cfg p.manager a }
  | .managerTakes =>
    match p.server.toManager[p.takenByManager]? with
    | some e => { managerHandles api cfg p e with takenByManager := p.takenByManager + 1 }
    | none => p
  | .server a =>
    match a with
    | .upstreamMessage _ => p
    | a => { p with server := Sv1Server.step sv1 p.server a }
  | .serverTakes =>
    match p.server.task, p.manager.toSv1Server[p.takenByServer]? with
    | .idle, some m =>
      { p with
        server := Sv1Server.step sv1 p.server (.upstreamMessage m)
        takenByServer := p.takenByServer + 1 }
    | _, _ => p

/-- The state after a run. -/
def after (as : List Action) : Proxy Ch Gr Al := Runs.run (step api cfg sv1) start as

/-- A close of the `Sv1Server` that the manager takes finds its channel there. -/
def closeFinds (p : Proxy Ch Gr Al) : Action → Prop
  | .managerTakes =>
    match p.server.toManager[p.takenByManager]? with
    | some (.closeDownstreamChannel c) =>
      p.manager.stopped.isSome = true ∨ p.manager.hasChannel c = true
    | _ => True
  | _ => True

instance (p : Proxy Ch Gr Al) (a : Action) : Decidable (closeFinds p a) := by
  unfold closeFinds
  split
  · split <;> infer_instance
  · infer_instance

end Steps

end Proxy

namespace ChannelManager

variable {Ch Gr Al : Type} {api : ClientChannels Ch Gr Al} {cfg : Config}
  {s s' : ChannelManager Ch Gr Al}

/-! ## What a message does to the channels -/

/-- Nothing is sent to the upstream. -/
abbrev SendsNothing (s s' : ChannelManager Ch Gr Al) : Prop := s'.toUpstream = s.toUpstream

theorem sendAll_sendsNothing {α : Type} (f : α → Sv1Message) (l : List α)
    (s : ChannelManager Ch Gr Al) : SendsNothing s (l.foldl (fun s a => s.sendSv1 (f a)) s) := by
  induction l generalizing s with
  | nil => rfl
  | cons a l ih => exact ih (s.sendSv1 (f a))

theorem forwardClose_sendsNothing (ks : List ChannelId) (s : ChannelManager Ch Gr Al) :
    SendsNothing s (ks.foldl forwardClose s) := by
  induction ks generalizing s with
  | nil => rfl
  | cons k ks ih => exact ih (s.forwardClose k)

/-- A loop of which every turn sends nothing. -/
theorem foldlM_sendsNothing {α β : Type} {f : ChannelManager Ch Gr Al × β → α →
      Except TproxyError (ChannelManager Ch Gr Al × β)}
    (hf : ∀ r a, Meets (fun r' => SendsNothing r.1 r'.1) (fun _ => True) (f r a)) (l : List α)
    (r : ChannelManager Ch Gr Al × β) :
    Meets (fun r' : ChannelManager Ch Gr Al × β => SendsNothing r.1 r'.1) (fun _ => True)
      (l.foldlM f r) := by
  apply Meets.foldlM (fun r' : ChannelManager Ch Gr Al × β => SendsNothing r.1 r'.1)
  · intro r' hr' a _
    exact (hf r' a).mono fun r'' hr'' => hr''.trans hr'
  · rfl

theorem forwardJob_sendsNothing (s : ChannelManager Ch Gr Al) (m : NewExtendedMiningJob) :
    Meets (SendsNothing s) (fun _ => True) (forwardJobToSv1Server api s m) := by
  unfold forwardJobToSv1Server
  apply Meets.any.bind
  intro prefixes _
  refine Meets.bind (P := SendsNothing s) ?_ ?_
  · apply Meets.foldlM (SendsNothing s)
    · intro s₁ hs₁ e _
      unfold announcePrefix
      apply Meets.any.bind
      intro advertised _
      split
      · exact .pure hs₁
      · apply Meets.any.bind
        intro b _
        exact .pure hs₁
    · rfl
  · intro s₁ hs₁
    exact .pure hs₁

theorem forwardJobs_sendsNothing (jobs : List NewExtendedMiningJob) {s₀ : ChannelManager Ch Gr Al}
    (h : SendsNothing s s₀) :
    Meets (SendsNothing s) (fun _ => True) (jobs.foldlM (forwardJobToSv1Server api) s₀) := by
  apply Meets.foldlM (SendsNothing s)
  · intro s₁ hs₁ m _
    exact (forwardJob_sendsNothing s₁ m).mono fun s₂ hs₂ => hs₂.trans hs₁
  · exact h

theorem forwardPrevHashes_sendsNothing (prevHashes : List SetNewPrevHash)
    (jobs : List NewExtendedMiningJob) {s₀ : ChannelManager Ch Gr Al} (h : SendsNothing s s₀) :
    Meets (SendsNothing s) (fun _ => True) (forwardPrevHashes api s₀ prevHashes jobs) :=
  forwardJobs_sendsNothing jobs ((sendAll_sendsNothing _ prevHashes s₀).trans h)

section NonAggregated

variable (hmode : cfg.mode = .nonAggregated)
include hmode

theorem handleNewExtendedMiningJob_sendsNothing (m : NewExtendedMiningJob) :
    Meets (SendsNothing s) (fun _ => True) (handleNewExtendedMiningJob api cfg s m) := by
  simp only [handleNewExtendedMiningJob, hmode]
  apply Meets.any.bind
  intro _ _
  split
  next group hgroup =>
    apply Meets.any.bind
    intro size _
    apply Meets.any.bind
    intro _ _
    refine (foldlM_sendsNothing (f := memberJob api m) ?_ _ _).bind ?_
    · intro r k
      unfold memberJob
      apply Meets.any.bind
      intro c _
      apply Meets.any.bind
      intro c' _
      exact .pure rfl
    · rintro ⟨s₁, messages⟩ hs₁
      exact forwardJobs_sendsNothing messages hs₁
  · apply Meets.any.bind
    intro c _
    apply Meets.any.bind
    intro _ _
    apply Meets.any.bind
    intro c' _
    split
    · exact .pure rfl
    · exact forwardJob_sendsNothing _ m

theorem handleSetNewPrevHash_sendsNothing (m : SetNewPrevHash) :
    Meets (SendsNothing s) (fun _ => True) (handleSetNewPrevHash api cfg s m) := by
  simp only [handleSetNewPrevHash, hmode]
  split
  next group hgroup =>
    apply Meets.any.bind
    intro group' _
    refine (foldlM_sendsNothing (f := memberPrevHash api m) ?_ _ _).bind ?_
    · intro r k
      unfold memberPrevHash
      apply Meets.any.bind
      intro c _
      apply Meets.any.bind
      intro c' _
      apply Meets.any.bind
      intro job _
      exact .pure rfl
    · rintro ⟨s₁, prevHashes, jobs⟩ hs₁
      exact forwardPrevHashes_sendsNothing prevHashes jobs hs₁
  · apply Meets.any.bind
    intro c _
    apply Meets.any.bind
    intro c' _
    apply Meets.any.bind
    intro job _
    exact forwardPrevHashes_sendsNothing [m] [job] rfl

theorem handleSetTarget_sendsNothing (channelId : ChannelId) (target : Target) :
    Meets (SendsNothing s) (fun _ => True) (handleSetTarget api cfg s channelId target) := by
  simp only [handleSetTarget, hmode]
  split
  next group hgroup =>
    refine Meets.bind (P := SendsNothing s) ?_ ?_
    · apply Meets.foldlM (SendsNothing s)
      · intro s₁ hs₁ k _
        unfold memberTarget
        apply Meets.any.bind
        intro c _
        apply Meets.any.bind
        intro c' _
        exact .pure hs₁
      · rfl
    · intro s₁ hs₁
      exact .pure ((sendAll_sendsNothing _ _ s₁).trans hs₁)
  · apply Meets.any.bind
    intro c _
    apply Meets.any.bind
    intro c' _
    exact .pure rfl

theorem handleSetExtranoncePrefix_sendsNothing (channelId : ChannelId) (b : B032) :
    Meets (SendsNothing s) (fun _ => True) (handleSetExtranoncePrefix api cfg s channelId b) := by
  simp only [handleSetExtranoncePrefix, hmode]
  apply Meets.any.bind
  intro c _
  apply Meets.any.bind
  intro c' _
  exact .pure rfl

omit hmode in
/-- A group takes no channel away and opens none. -/
theorem handleSetGroupChannel_keepsChannels (g : ChannelId) (ks : List ChannelId) :
    Meets (fun s' => SendsNothing s s' ∧ s'.extendedChannels = s.extendedChannels) (fun _ => True)
      (result (handleSetGroupChannel api cfg g ks) s) := by
  rw [result_handleSetGroupChannel]
  apply Meets.any.bind
  intro group _
  exact .pure ⟨rfl, rfl⟩

theorem handleOpenSuccess_opens (m : OpenExtendedMiningChannelSuccess) :
    Meets (fun s' => SendsNothing s s' ∧ s.hasChannel m.channelId = false ∧
        ∀ j, s'.hasChannel j = (decide (j = m.channelId) || s.hasChannel j)) (fun _ => True)
      (handleOpenExtendedMiningChannelSuccess api cfg s m) := by
  simp only [handleOpenExtendedMiningChannelSuccess, hmode]
  apply Meets.any.bind
  intro pending _
  split
  · trivial
  next hcolliding =>
    have hnew : s.hasChannel m.channelId = false :=
      (collidingChannelId_none hmode hcolliding).2.2.2.1
    unfold joinGroup
    simp only [bind_assoc, pure_bind]
    apply Meets.any.bind
    intro group _
    refine Meets.bind ((openNonAggregated_opens m pending).mono_error fun _ _ => trivial) ?_
    rintro ⟨s₁, success⟩ ⟨⟨c, rfl⟩, hid⟩
    refine .pure ⟨rfl, hnew, ?_⟩
    intro j
    simp only [hasChannel, publishOpenSuccess, sendSv1, setChannel, KeyMap.lookup_insert_eq]
    by_cases hj : j = m.channelId <;> simp [hj]

theorem handleCloseChannel_closes (k : ChannelId) :
    Meets (fun s' => SendsNothing s s' ∧ ∀ j, s'.hasChannel j = true → s.hasChannel j = true)
      (fun _ => True) (handleCloseChannel api cfg s k) := by
  unfold handleCloseChannel
  rw [if_neg (by rw [hmode]; decide)]
  split
  next group hgroup =>
    refine ⟨forwardClose_sendsNothing _ _, ?_⟩
    intro j hj
    rw [hasChannel, (foldl_forwardClose _ _).1, lookup_foldl_erase] at hj
    split at hj
    · cases hj
    · exact hj
  next hgroup =>
    split
    · refine ⟨rfl, ?_⟩
      intro j hj
      simp only [hasChannel, forwardClose, sendSv1, leaveGroups, KeyMap.lookup_erase_eq] at hj
      split at hj
      · cases hj
      · exact hj
    · trivial

/-- A close of the `Sv1Server` is sent on, whether the channel is there or not. -/
theorem handleCloseDownstreamChannel_sends (k : ChannelId) :
    (handleCloseDownstreamChannel api cfg s k).toUpstream = s.toUpstream ++ [.closeChannel k] ∧
      ∀ j, (handleCloseDownstreamChannel api cfg s k).hasChannel j =
        (!decide (j = k) && s.hasChannel j) := by
  unfold handleCloseDownstreamChannel
  rw [if_neg (by rw [hmode]; simp), if_neg (by rw [hmode]; decide)]
  have hsent : (dropChannel api s k).toUpstream = s.toUpstream := by
    unfold dropChannel
    split <;> rfl
  refine ⟨?_, hasChannel_dropChannel k⟩
  simp only [sendUpstream, leaveGroups, hsent]

theorem handleSubmitSharesExtended_closesSent (m : SubmitSharesExtended) :
    Meets (fun s' => s'.closesSent = s.closesSent) (fun _ => True)
      (handleSubmitSharesExtended api cfg s m) := by
  simp only [handleSubmitSharesExtended, hmode]
  split
  · exact .pure rfl
  · split
    · apply Meets.any.bind
      intro extranonce _
      apply Meets.pure
      simp [closesSent, forwardShare, nextShareSequenceNumber, sendUpstream, setChannel]
    · exact .pure rfl

end NonAggregated

/-! ## What the upstream sees of it -/

theorem SendsNothing.closesSent_eq (h : SendsNothing s s') : s'.closesSent = s.closesSent := by
  unfold closesSent
  rw [h]

/-- The upstream sees nothing of a step that keeps the channels and sends no close. -/
theorem observeCloses_nil (hchannels : ∀ j, s'.hasChannel j = s.hasChannel j)
    (hsent : s'.closesSent = s.closesSent) (e : Event) : observeCloses s s' e = [] := by
  unfold observeCloses
  rw [hsent, List.drop_length, List.map_nil, List.append_nil]
  cases e with
  | openExtendedMiningChannelSuccess m =>
    dsimp only
    rw [if_neg]
    rintro ⟨hnew, hfound⟩
    rw [hchannels, hnew] at hfound
    cases hfound
  | closeChannel k =>
    dsimp only
    rw [List.map_eq_nil_iff, List.filter_eq_nil_iff]
    intro c hc
    have hfound : s.hasChannel c = true := AList.lookup_isSome.mpr hc
    rw [hchannels, hfound]
    decide
  | _ => rfl

/-- The channels after a step are those that its events leave open; a close is sent only for one
    of the `Sv1Server`. -/
theorem observeCloses_step (hapi : api.Lawful) (hmode : cfg.mode = .nonAggregated)
    (hinv : GroupsConsistent api s) (e : Event) (hs' : step api cfg s (.event e) = s') :
    (∀ j, s'.hasChannel j = ChannelEvent.openAfter (s.hasChannel j) (observeCloses s s' e) j) ∧
    ((∀ k, .closeSent k ∉ observeCloses s s' e) ∨
      ∃ k, e = .closeDownstreamChannel k ∧ s.stopped = none ∧
        observeCloses s s' e = [.closeSent k]) := by
  have hnothing : (∀ j, s'.hasChannel j = s.hasChannel j) → s'.closesSent = s.closesSent →
      (∀ j, s'.hasChannel j = ChannelEvent.openAfter (s.hasChannel j) (observeCloses s s' e) j) ∧
      ((∀ k, .closeSent k ∉ observeCloses s s' e) ∨
        ∃ k, e = .closeDownstreamChannel k ∧ s.stopped = none ∧
          observeCloses s s' e = [.closeSent k]) := by
    intro hchannels hsent
    rw [observeCloses_nil hchannels hsent]
    exact ⟨hchannels, Or.inl fun k hk => by cases hk⟩
  rw [step_event] at hs'
  split at hs'
  · subst hs'
    exact hnothing (fun _ => rfl) rfl
  next hrunning =>
  have hmeets := handle_consistent hmode hapi hinv e
  split at hs'
  next s₁ hok =>
    subst hs'
    cases e with
    | openExtendedMiningChannelSuccess m =>
      obtain ⟨hsent, hnew, hchannels⟩ := (handleOpenSuccess_opens hmode m).ok hok
      have hfound : s₁.hasChannel m.channelId = true := by simp [hchannels]
      have hevents : observeCloses s s₁ (.openExtendedMiningChannelSuccess m) =
          [.opened m.channelId] := by
        simp only [observeCloses, hsent.closesSent_eq, List.drop_length, List.map_nil,
          List.append_nil]
        exact if_pos ⟨hnew, hfound⟩
      rw [hevents]
      refine ⟨?_, Or.inl (by simp)⟩
      intro j
      rw [hchannels, ChannelEvent.openAfter_singleton]
      by_cases hj : j = m.channelId
      · simp [hj, ChannelEvent.channelId, ChannelEvent.opens]
      · have hj' : m.channelId ≠ j := fun h => hj h.symm
        simp [hj, hj', ChannelEvent.channelId]
    | closeChannel k =>
      obtain ⟨hsent, hchannels⟩ := (handleCloseChannel_closes hmode k).ok hok
      have hevents : observeCloses s s₁ (.closeChannel k) =
          (s.extendedChannels.keys.filter fun c => !s₁.hasChannel c).map .closedByUpstream := by
        simp only [observeCloses, hsent.closesSent_eq, List.drop_length, List.map_nil,
          List.append_nil]
      rw [hevents]
      refine ⟨?_, Or.inl (by simp)⟩
      intro j
      rw [ChannelEvent.openAfter_closedByUpstream]
      have hkeys : j ∈ s.extendedChannels.keys ↔ s.hasChannel j = true := AList.lookup_isSome.symm
      cases hj : s₁.hasChannel j with
      | true => simp [hj, hchannels j hj]
      | false =>
        cases hold : s.hasChannel j with
        | true => simp [hj, hkeys, hold]
        | false => simp
    | closeDownstreamChannel k =>
      cases hok
      obtain ⟨hsent, hchannels⟩ := @handleCloseDownstreamChannel_sends Ch Gr Al api cfg s hmode k
      have hevents : observeCloses s (handleCloseDownstreamChannel api cfg s k)
          (.closeDownstreamChannel k) = [.closeSent k] := by
        simp [observeCloses, closesSent, hsent]
      rw [hevents]
      refine ⟨?_, Or.inr ⟨k, rfl, by simpa using hrunning, rfl⟩⟩
      intro j
      rw [hchannels, ChannelEvent.openAfter_singleton]
      by_cases hj : j = k
      · simp [hj, ChannelEvent.channelId, ChannelEvent.opens]
      · have hj' : k ≠ j := fun h => hj h.symm
        simp [hj, hj', ChannelEvent.channelId]
    | openMiningChannelError => cases hok
    | setExtranoncePrefix k b =>
      exact hnothing ((handleSetExtranoncePrefix_kept hmode k b).ok hok).channels
        ((handleSetExtranoncePrefix_sendsNothing hmode k b).ok hok).closesSent_eq
    | newExtendedMiningJob m =>
      exact hnothing ((handleNewExtendedMiningJob_kept hmode hapi hinv m).ok hok).channels
        ((handleNewExtendedMiningJob_sendsNothing hmode m).ok hok).closesSent_eq
    | setNewPrevHash m =>
      exact hnothing ((handleSetNewPrevHash_kept hmode hapi hinv m).ok hok).channels
        ((handleSetNewPrevHash_sendsNothing hmode m).ok hok).closesSent_eq
    | setTarget k target =>
      exact hnothing ((handleSetTarget_kept hmode hinv k target).ok hok).channels
        ((handleSetTarget_sendsNothing hmode k target).ok hok).closesSent_eq
    | setGroupChannel g ks =>
      obtain ⟨hsent, hchannels⟩ := (handleSetGroupChannel_keepsChannels g ks).ok hok
      apply hnothing _ hsent.closesSent_eq
      intro j
      rw [hasChannel, hchannels]
      rfl
    | openExtendedMiningChannel m =>
      simp only [handle, handleOpenExtendedMiningChannel, hmode] at hok
      cases hok
      apply hnothing fun _ => rfl
      simp [closesSent, requestUpstreamChannel, sendUpstream]
    | submitSharesExtended m =>
      exact hnothing ((handleSubmitSharesExtended_kept hmode m).ok hok).channels
        ((handleSubmitSharesExtended_closesSent hmode m).ok hok)
  next err herr =>
    subst hs'
    unfold fail at hnothing ⊢
    split
    next hlog =>
      rw [if_pos hlog] at hnothing
      exact hnothing (fun _ => rfl) rfl
    next hlog =>
      rw [if_neg hlog] at hnothing
      exact hnothing (fun _ => rfl) rfl

end ChannelManager

/-! ## Runs -/

namespace Proxy

open ChannelEvent

variable {Ch Gr Al : Type} {api : ClientChannels Ch Gr Al} {cfg : Config} {sv1 : Sv1Config}
  {p : Proxy Ch Gr Al}

/-- The manager has the channels that are open for the upstream. -/
structure ClosesInv (api : ClientChannels Ch Gr Al) (p : Proxy Ch Gr Al) : Prop where
  groups : ChannelManager.GroupsConsistent api p.manager
  open_iff : ∀ c, isOpen p.history c = p.manager.hasChannel c

theorem closesInv_start : ClosesInv api (start : Proxy Ch Gr Al) :=
  ⟨ChannelManager.groupsConsistent_start, fun _ => rfl⟩

theorem ClosesInv.of_eq (h : ClosesInv api p) {q : Proxy Ch Gr Al} (hmanager : q.manager = p.manager)
    (hhistory : q.history = p.history) : ClosesInv api q := by
  constructor
  · rw [hmanager]
    exact h.groups
  · rw [hmanager, hhistory]
    exact h.open_iff

section NonAggregated

variable (hapi : api.Lawful) (hmode : cfg.mode = .nonAggregated)
include hapi hmode

theorem ClosesInv.managerHandles (h : ClosesInv api p) (e : ChannelManager.Event) :
    ClosesInv api (managerHandles api cfg p e) := by
  constructor
  · exact ChannelManager.step_consistent hmode hapi h.groups (.event e)
  · intro c
    rw [Proxy.managerHandles, isOpen, openAfter_append, ← isOpen, h.open_iff]
    exact ((ChannelManager.observeCloses_step hapi hmode h.groups e rfl).1 c).symm

theorem ClosesInv.step (h : ClosesInv api p) (a : Action) : ClosesInv api (step api cfg sv1 p a) := by
  cases a with
  | manager a =>
    cases a with
    | event e =>
      simp only [Proxy.step]
      split
      · exact h
      · exact h.managerHandles hapi hmode e
    | touchChannel k =>
      refine ⟨ChannelManager.step_consistent hmode hapi h.groups (.touchChannel k), ?_⟩
      intro c
      apply (h.open_iff c).trans
      simp only [Proxy.step, ChannelManager.step, ChannelManager.hasChannel, KeyMap.lookup_modify_id]
    | touchPending r =>
      exact ⟨ChannelManager.step_consistent hmode hapi h.groups (.touchPending r), h.open_iff⟩
    | touchGroup g =>
      exact ⟨ChannelManager.step_consistent hmode hapi h.groups (.touchGroup g), h.open_iff⟩
  | managerTakes =>
    simp only [Proxy.step]
    split
    · exact (h.managerHandles hapi hmode _).of_eq rfl rfl
    · exact h
  | server a =>
    simp only [Proxy.step]
    split
    · exact h
    · exact h.of_eq rfl rfl
  | serverTakes =>
    simp only [Proxy.step]
    split
    · exact h.of_eq rfl rfl
    · exact h

/-- The manager handles a message: the upstream sees no close in vain, unless a close of the
    `Sv1Server` finds no channel. -/
theorem closedOnce_managerHandles (h : ClosesInv api p) (hclosed : ClosedOnce p.history)
    (e : ChannelManager.Event) :
    ClosedOnce (managerHandles api cfg p e).history ↔
      ∀ c, e = .closeDownstreamChannel c → p.manager.stopped = none →
        p.manager.hasChannel c = true := by
  rcases (ChannelManager.observeCloses_step hapi hmode h.groups e rfl).2 with
    hnone | ⟨k, rfl, hrunning, hevents⟩
  · constructor
    · rintro - c rfl hrunning
      exfalso
      apply hnone c
      simp [ChannelManager.observeCloses, ChannelManager.step, hrunning, ChannelManager.handle,
        ChannelManager.closesSent,
        (@ChannelManager.handleCloseDownstreamChannel_sends Ch Gr Al api cfg p.manager hmode c).1]
    · intro _
      exact hclosed.append hnone
  · rw [Proxy.managerHandles, hevents, closedOnce_concat]
    constructor
    · rintro ⟨-, hlast⟩ c he -
      cases he
      rw [← h.open_iff]
      exact hlast k rfl
    · intro hfinds
      refine ⟨hclosed, ?_⟩
      rintro c hc
      cases hc
      rw [h.open_iff]
      exact hfinds k rfl hrunning

theorem closedOnce_step (h : ClosesInv api p) (hclosed : ClosedOnce p.history) (a : Action) :
    ClosedOnce (step api cfg sv1 p a).history ↔ closeFinds p a := by
  cases a with
  | manager a =>
    simp only [closeFinds, iff_true]
    cases a with
    | event e =>
      simp only [Proxy.step]
      split
      · exact hclosed
      next hqueued =>
        rw [closedOnce_managerHandles hapi hmode h hclosed]
        rintro c rfl
        exact absurd rfl hqueued
    | _ => exact hclosed
  | managerTakes =>
    simp only [Proxy.step, closeFinds]
    split
    next e he =>
      rw [show ∀ n, ({ managerHandles api cfg p e with takenByManager := n } :
        Proxy Ch Gr Al).history = (managerHandles api cfg p e).history from fun _ => rfl,
        closedOnce_managerHandles hapi hmode h hclosed]
      cases e with
      | closeDownstreamChannel c =>
        cases p.manager.stopped with
        | none => simp [he]
        | some err => simp [he]
      | _ => simp [he]
    next hnone => simp [hnone, hclosed]
  | server a =>
    simp only [Proxy.step, closeFinds, iff_true]
    split
    · exact hclosed
    · exact hclosed
  | serverTakes =>
    simp only [Proxy.step, closeFinds, iff_true]
    split
    · exact hclosed
    · exact hclosed

omit hapi hmode in
/-- The upstream forgets nothing. -/
theorem history_step (p : Proxy Ch Gr Al) (a : Action) :
    p.history <+: (step api cfg sv1 p a).history := by
  cases a with
  | manager a =>
    cases a with
    | event e =>
      simp only [Proxy.step]
      split
      · exact List.prefix_rfl
      · exact List.prefix_append _ _
    | _ => exact List.prefix_rfl
  | managerTakes =>
    simp only [Proxy.step]
    split
    · exact List.prefix_append _ _
    · exact List.prefix_rfl
  | server a =>
    simp only [Proxy.step]
    split <;> exact List.prefix_rfl
  | serverTakes =>
    simp only [Proxy.step]
    split <;> exact List.prefix_rfl

omit hapi hmode in
theorem history_run (p : Proxy Ch Gr Al) (as : List Action) :
    p.history <+: (Runs.run (step api cfg sv1) p as).history := by
  induction as generalizing p with
  | nil => exact List.prefix_rfl
  | cons a as ih => exact (history_step p a).trans (ih _)

theorem closedOnce_run (h : ClosesInv api p) (hclosed : ClosedOnce p.history) (as : List Action) :
    ClosedOnce (Runs.run (step api cfg sv1) p as).history ↔
      Runs.Guarded (step api cfg sv1) closeFinds p as := by
  induction as generalizing p with
  | nil => simpa [Runs.Guarded] using hclosed
  | cons a as ih =>
    rw [Runs.run_cons, Runs.Guarded, ← closedOnce_step hapi hmode h hclosed a]
    constructor
    · intro hrun
      obtain ⟨later, hlater⟩ := history_run (step api cfg sv1 p a) as
      have hstep : ClosedOnce (step api cfg sv1 p a).history := by
        rw [← hlater] at hrun
        exact hrun.of_append
      exact ⟨hstep, (ih (h.step hapi hmode a) hstep).mp hrun⟩
    · rintro ⟨hstep, hguarded⟩
      exact (ih (h.step hapi hmode a) hstep).mpr hguarded

/-- The upstream is sent at most one close for a channel that it has opened, and none after it has
    closed the channel, in exactly the runs in which every close of the `Sv1Server` that the
    manager takes finds its channel. -/
theorem closed_once_iff (as : List Action) :
    ClosedOnce (after api cfg sv1 as).history ↔
      Runs.Guarded (step api cfg sv1) closeFinds start as :=
  closedOnce_run hapi hmode closesInv_start closedOnce_nil as

end NonAggregated

/-! ## A miner that leaves -/

/-- The first miner connects, and the upstream opens channel 5 for it. -/
def connectedRun : List Action :=
  [.server .accept, .server (.setupMessage 1), .server .task, .server .task, .server .task,
   .server .task, .server .task, .managerTakes,
   .manager (ChannelManager.sampleGrant 1 5 7 ChannelManager.samplePrefix), .serverTakes, .server .task,
   .server .task, .server .task, .server .task, .server .task, .server .task]

/-- It leaves; the close of its channel waits in the queue of the manager. -/
def leftRun : List Action := connectedRun ++ Sv1Server.leavingRun.map .server

theorem closed_once_left :
    let p := after referenceChannels (ChannelManager.sampleConfig .nonAggregated)
      Sv1Server.sampleSv1Config (leftRun ++ [.managerTakes])
    p.history = [.opened 5, .closeSent 5] ∧ ClosedOnce p.history := by
  constructor
  · decide +kernel
  · apply (closed_once_iff referenceChannels_lawful rfl _).mpr
    decide +kernel

/-- The upstream closes the channel while the close of the `Sv1Server` waits. -/
theorem not_closedOnce : ¬ClosedOnce (after referenceChannels
    (ChannelManager.sampleConfig .nonAggregated) Sv1Server.sampleSv1Config
    (leftRun ++ [.manager (.event (.closeChannel 5)), .managerTakes])).history := by
  have hhistory : (after referenceChannels (ChannelManager.sampleConfig .nonAggregated)
      Sv1Server.sampleSv1Config
      (leftRun ++ [.manager (.event (.closeChannel 5)), .managerTakes])).history =
      [.opened 5, .closedByUpstream 5, .closeSent 5] := by
    decide +kernel
  rw [hhistory]
  intro h
  exact absurd (h [.opened 5, .closedByUpstream 5] 5 [] rfl) (by decide)

end Proxy

end Sv2Apps.Translator
