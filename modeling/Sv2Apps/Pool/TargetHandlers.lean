/-
  Pool/TargetHandlers.lean
  ========================
  **What a handler of the pool does to targets** — said in one relation (`Serves`): the open
  channels stay, and a channel whose target is new is told in the messages that the handler has
  collected.  Only opening (`Opening`) and closing a channel are something else.

  An `UpdateChannel` that is refused is answered with the target that the channel keeps; a vardiff
  update that is refused is not told, and leaves the target as it was.
-/
import Sv2Apps.Pool.Difficulty

namespace Sv2Apps.Pool.Difficulty

open Bitcoin SeriesTable
open ChannelManager (Downstream MiningMessage OpenMiningChannel AllocationAnswer
  ConstructionAnswer TemplateMessage Reply Fault OpenChannel)

variable {Ch V F32 : Type}

/-! ## What a miner has been told -/

/-- The target that was told last. -/
def lastTold (channelId : ChannelId) (log : List ToMiner) : Option Bytes :=
  lastOf (ToMiner.told channelId) log

theorem lastTold_append (channelId : ChannelId) (log new : List ToMiner) :
    lastTold channelId (log ++ new) = (lastTold channelId new).or (lastTold channelId log) :=
  lastOf_append _ _ _

/-- The channel is open, and this is its state. -/
def Holds (ds : Downstream Ch) (channelId : ChannelId) (c : Ch) : Prop :=
  ∃ kind oc, (channels ds kind).lookup channelId = some oc ∧ oc.channel = c

/-- The target of every open channel is the one that was told last. -/
def Agrees (api : Mining Ch V F32) (ds : Downstream Ch) (log : List ToMiner) : Prop :=
  ∀ channelId c, Holds ds channelId c →
    lastTold channelId log = some (api.getTarget c).toLeBytes

/-- A new target is told, and the others are as before. -/
def Follows (api : Mining Ch V F32) (ds ds' : Downstream Ch) (new : List ToMiner) : Prop :=
  ∀ channelId c', Holds ds' channelId c' →
    lastTold channelId new = some (api.getTarget c').toLeBytes ∨
    (lastTold channelId new = none ∧
      ∃ c, Holds ds channelId c ∧ api.getTarget c' = api.getTarget c)

/-- The channel ids of a connection, after at most `n` channels have been opened. -/
structure Numbered (n : Nat) (ds : Downstream Ch) : Prop where
  factory : ds.channelIdFactory.toNat ≤ n + 2
  below : ∀ kind channelId, ((channels ds kind).lookup channelId).isSome = true →
    channelId.toNat < ds.channelIdFactory.toNat
  apart : ∀ channelId, (ds.standardChannels.lookup channelId).isSome = true →
    ds.extendedChannels.lookup channelId = none

/-- What all handlers do but those that open or close a channel. -/
structure Serves (api : Mining Ch V F32) (ds ds' : Downstream Ch) (new : List ToMiner) : Prop where
  opened : ∀ kind channelId, ((channels ds' kind).lookup channelId).isSome =
    ((channels ds kind).lookup channelId).isSome
  factory : ds'.channelIdFactory = ds.channelIdFactory ∨
    ds'.channelIdFactory = ds.channelIdFactory + 1
  follows : Follows api ds ds' new

section Relations

variable {api : Mining Ch V F32} {ds ds' ds'' : Downstream Ch} {log new new' : List ToMiner}
  {n : Nat}

theorem Agrees.follow (h : Agrees api ds log) (hf : Follows api ds ds' new) :
    Agrees api ds' (log ++ new) := by
  intro channelId c' hc'
  rw [lastTold_append]
  rcases hf channelId c' hc' with htold | ⟨hnone, c, hc, heq⟩
  · rw [htold, Option.some_or]
  · rw [hnone, Option.none_or, h channelId c hc, heq]

theorem Follows.trans (h : Follows api ds ds' new) (h' : Follows api ds' ds'' new') :
    Follows api ds ds'' (new ++ new') := by
  intro channelId c'' hc''
  rw [lastTold_append]
  rcases h' channelId c'' hc'' with htold | ⟨hnone, c', hc', heq⟩
  · left
    rw [htold, Option.some_or]
  · rw [hnone, Option.none_or, heq]
    exact h channelId c' hc'

/-- Nothing changed, nothing told. -/
theorem Follows.refl (hnew : ∀ channelId, lastTold channelId new = none) :
    Follows api ds ds new :=
  fun channelId c hc => .inr ⟨hnew channelId, c, hc, rfl⟩

theorem Serves.refl (hnew : ∀ channelId, lastTold channelId new = none) : Serves api ds ds new :=
  ⟨fun _ _ => rfl, .inl rfl, .refl hnew⟩

theorem Serves.trans (h : Serves api ds ds' new) (h' : Serves api ds' ds'' new')
    (hfactory : ds''.channelIdFactory = ds'.channelIdFactory) :
    Serves api ds ds'' (new ++ new') := by
  refine ⟨?_, ?_, h.follows.trans h'.follows⟩
  · intro kind channelId
    rw [h'.opened, h.opened]
  · rw [hfactory]
    exact h.factory

/-- The number of the next channel. -/
theorem Numbered.succ (h : Numbered n ds) (hn : n + 3 < 2 ^ 32) :
    (ds.channelIdFactory + 1).toNat = ds.channelIdFactory.toNat + 1 := by
  have hle := h.factory
  rw [UInt32.toNat_add, UInt32.toNat_one, Nat.mod_eq_of_lt (by omega)]

theorem Numbered.mono (h : Numbered n ds) : Numbered (n + 1) ds :=
  ⟨Nat.le_trans h.factory (by omega), h.below, h.apart⟩

theorem Numbered.served (h : Numbered n ds) (hn : n + 3 < 2 ^ 32) (hs : Serves api ds ds' new) :
    Numbered (n + 1) ds' := by
  have hsucc := h.succ hn
  have hle := h.factory
  have hfactory : ds.channelIdFactory.toNat ≤ ds'.channelIdFactory.toNat ∧
      ds'.channelIdFactory.toNat ≤ ds.channelIdFactory.toNat + 1 := by
    rcases hs.factory with hsame | hnext
    · rw [hsame]
      omega
    · rw [hnext]
      omega
  refine ⟨by omega, ?_, ?_⟩
  · intro kind channelId hopen
    rw [hs.opened] at hopen
    have := h.below kind channelId hopen
    omega
  · intro channelId hstd
    have hstd' := hs.opened .standard channelId
    have hext := hs.opened .extended channelId
    simp only [channels] at hstd' hext
    rw [hstd'] at hstd
    rw [h.apart channelId hstd, Option.isSome_none, Option.isSome_eq_false_iff] at hext
    simpa using hext

theorem Numbered.sound (h : Numbered n ds) {kind kind' : ChannelKind} {channelId : ChannelId}
    (hk : ((channels ds kind).lookup channelId).isSome = true)
    (hk' : ((channels ds kind').lookup channelId).isSome = true) : kind = kind' := by
  cases kind <;> cases kind'
  · rfl
  · rw [channels, h.apart channelId hk] at hk'
    cases hk'
  · rw [channels, h.apart channelId hk'] at hk
    cases hk
  · rfl

end Relations

/-! ## A change of one channel -/

section OneChannel

variable {api : Mining Ch V F32} {ds : Downstream Ch} {kind : ChannelKind}
  {channelId : ChannelId} {oc : OpenChannel Ch} {c : Ch} {new : List ToMiner} {n : Nat}

theorem lookup_setChannel (ds : Downstream Ch) (kind : ChannelKind) (channelId : ChannelId) (c : Ch)
    (kind' : ChannelKind) (j : ChannelId) :
    (channels (setChannel ds kind channelId c) kind').lookup j =
      if kind' = kind ∧ j = channelId then
        ((channels ds kind).lookup channelId).map fun oc => { oc with channel := c }
      else (channels ds kind').lookup j := by
  cases kind <;> cases kind' <;> simp [channels, setChannel, KeyMap.lookup_modify]

@[simp] theorem setChannel_channelIdFactory (ds : Downstream Ch) (kind : ChannelKind)
    (channelId : ChannelId) (c : Ch) :
    (setChannel ds kind channelId c).channelIdFactory = ds.channelIdFactory := by
  cases kind <;> rfl

/-- A handler that works on one channel and tells nothing of the others. -/
theorem serves_setChannel (hn : Numbered n ds) (hoc : (channels ds kind).lookup channelId = some oc)
    (hothers : ∀ j, j ≠ channelId → lastTold j new = none)
    (htold : lastTold channelId new = some (api.getTarget c).toLeBytes ∨
      (lastTold channelId new = none ∧ api.getTarget c = api.getTarget oc.channel)) :
    Serves api ds (setChannel ds kind channelId c) new := by
  refine ⟨?_, .inl (by simp), ?_⟩
  · intro kind' j
    rw [lookup_setChannel]
    split
    next h => rw [h.1, h.2, hoc]; rfl
    · rfl
  · rintro j c' ⟨kind', oc', hoc', rfl⟩
    rw [lookup_setChannel] at hoc'
    split at hoc'
    next h =>
      obtain ⟨rfl, rfl⟩ := h
      rw [hoc] at hoc'
      obtain rfl := Option.some.inj hoc'
      rcases htold with htold | ⟨hnone, heq⟩
      · exact .inl htold
      · exact .inr ⟨hnone, oc.channel, ⟨kind', oc, hoc, rfl⟩, heq⟩
    next h =>
      have hj : j ≠ channelId := by
        rintro rfl
        exact h ⟨hn.sound (by rw [hoc']; rfl) (by rw [hoc]; rfl), rfl⟩
      exact .inr ⟨hothers j hj, oc'.channel, ⟨kind', oc', hoc', rfl⟩, rfl⟩

end OneChannel

/-! ## Template messages -/

section Templates

variable {env : ChannelManager.Env Ch} {api : Mining Ch V F32} {ds ds' : Downstream Ch}

/-- The same channels with the same targets. -/
def SameTargets (api : Mining Ch V F32) (m m' : KeyMap ChannelId (OpenChannel Ch)) : Prop :=
  ∀ channelId, Option.Rel (fun oc oc' => api.getTarget oc'.channel = api.getTarget oc.channel)
    (m.lookup channelId) (m'.lookup channelId)

theorem SameTargets.refl (m : KeyMap ChannelId (OpenChannel Ch)) : SameTargets api m m := by
  intro channelId
  cases m.lookup channelId with
  | none => exact .none
  | some oc => exact .some rfl

theorem sameTargets_tryMap {f : ChannelId → OpenChannel Ch → Except Fault (OpenChannel Ch)}
    (hf : ∀ {channelId oc oc'}, f channelId oc = .ok oc' →
      api.getTarget oc'.channel = api.getTarget oc.channel)
    {m m' : KeyMap ChannelId (OpenChannel Ch)} (h : KeyMap.tryMap f m = .ok m') :
    SameTargets api m m' := by
  intro channelId
  have hrel := KeyMap.rel_tryMap h channelId
  generalize m.lookup channelId = x at hrel ⊢
  generalize m'.lookup channelId = y at hrel ⊢
  cases hrel with
  | none => exact .none
  | some hok => exact .some (hf hok)

theorem serves_sameTargets (hfactory : ds'.channelIdFactory = ds.channelIdFactory)
    (h : ∀ kind, SameTargets api (channels ds kind) (channels ds' kind)) :
    Serves api ds ds' [] := by
  refine ⟨?_, .inl hfactory, ?_⟩
  · intro kind channelId
    have hrel := h kind channelId
    generalize (channels ds kind).lookup channelId = x at hrel ⊢
    generalize (channels ds' kind).lookup channelId = y at hrel ⊢
    cases hrel <;> rfl
  · rintro channelId c' ⟨kind, oc', hoc', rfl⟩
    have hrel := h kind channelId
    rw [hoc'] at hrel
    generalize hx : (channels ds kind).lookup channelId = x at hrel
    cases hrel with
    | some heq => exact .inr ⟨rfl, _, ⟨kind, _, hx, rfl⟩, heq⟩

variable (hl : api.Lawful env.channels)
include hl

theorem onGroupChannelJob_target {job : Job} {channelId : ChannelId} {oc oc' : OpenChannel Ch}
    (h : Downstream.onGroupChannelJob env job channelId oc = .ok oc') :
    api.getTarget oc'.channel = api.getTarget oc.channel := by
  unfold Downstream.onGroupChannelJob at h
  split at h
  · cases h
  next ch hch =>
    cases h
    exact hl.onGroupChannelJob hch

theorem onSetNewPrevHash_target {p : SetNewPrevHash} {channelId : ChannelId}
    {oc oc' : OpenChannel Ch} (h : Downstream.onSetNewPrevHash env p channelId oc = .ok oc') :
    api.getTarget oc'.channel = api.getTarget oc.channel := by
  unfold Downstream.onSetNewPrevHash at h
  split at h
  · cases h
  next ch hch =>
    cases h
    exact hl.onSetNewPrevHash hch

theorem onNewTemplate_target {t : NewTemplate} {outs : List TxOut} {channelId : ChannelId}
    {oc : OpenChannel Ch} {r : OpenChannel Ch × Job}
    (h : Downstream.onNewTemplate env t outs channelId oc = .ok r) :
    api.getTarget r.1.channel = api.getTarget oc.channel := by
  unfold Downstream.onNewTemplate at h
  split at h
  · cases h
  next ch hch =>
    split at h
    · cases h
    · cases h
      exact hl.onNewTemplate hch

theorem standardOnNewTemplate_targets {t : NewTemplate} {outs : List TxOut} {groupJob : Job}
    {std : KeyMap ChannelId (OpenChannel Ch)} {ms : List (List Identity × MiningMessage)}
    (h : ds.standardOnNewTemplate env t outs groupJob = .ok (std, ms)) :
    SameTargets api ds.standardChannels std := by
  unfold Downstream.standardOnNewTemplate at h
  split at h
  · split at h
    · cases h
    next hstd =>
      cases h
      exact sameTargets_tryMap (onGroupChannelJob_target hl) hstd
  · split at h
    · cases h
    next jobs hjobs =>
      cases h
      intro channelId
      rw [KeyMap.lookup_mapValues]
      have hrel := KeyMap.rel_tryMap hjobs channelId
      generalize ds.standardChannels.lookup channelId = x at hrel ⊢
      generalize jobs.lookup channelId = y at hrel ⊢
      cases hrel with
      | none => exact .none
      | some hok => exact .some (onNewTemplate_target hl hok)

/-- A template message tells no target and changes none. -/
theorem visit_serves {msg : TemplateMessage} {ms : List (List Identity × MiningMessage)}
    (h : ds.visit env msg = .ok (ds', ms)) : Serves api ds ds' [] := by
  cases msg with
  | newTemplate t =>
    simp only [Downstream.visit, Downstream.visitNewTemplate] at h
    split at h
    · cases h
      exact .refl fun _ => rfl
    split at h
    · cases h
    split at h
    · cases h
    split at h
    · cases h
    next std messages hstd =>
      split at h
      · cases h
      next ext hext =>
        cases h
        apply serves_sameTargets
        · rfl
        intro kind
        cases kind with
        | standard => exact standardOnNewTemplate_targets hl hstd
        | extended => exact sameTargets_tryMap (onGroupChannelJob_target hl) hext
  | setNewPrevHash p =>
    simp only [Downstream.visit, Downstream.visitSetNewPrevHash] at h
    split at h
    · cases h
      exact .refl fun _ => rfl
    split at h
    · cases h
    split at h
    · cases h
    split at h
    · cases h
    next ext hext =>
      split at h
      · cases h
      next std hstd =>
        split at h
        · cases h
        cases h
        apply serves_sameTargets
        · rfl
        intro kind
        cases kind with
        | standard => exact sameTargets_tryMap (onSetNewPrevHash_target hl) hstd
        | extended => exact sameTargets_tryMap (onSetNewPrevHash_target hl) hext

end Templates

/-! ## Opening a channel -/

/-- How the handler of an open request ends: the request is refused, the pool stops, or the next
    channel id is given to a channel with the target of the message. -/
inductive Opening (api : Mining Ch V F32) (kind : ChannelKind) (target : Bytes)
    (ds : Downstream Ch) : Downstream Ch × Reply → Prop
  | refused {ds' reply} (hchannels : ∀ kind, channels ds' kind = channels ds kind)
      (hfactory : ds'.channelIdFactory = ds.channelIdFactory ∨
        ds'.channelIdFactory = ds.channelIdFactory + 1)
      (hreply : reply = .disconnect ∨
        ∃ ms, reply = .messages ms ∧ ∀ m ∈ ms, openedChannel m.2 = none) :
      Opening api kind target ds (ds', reply)
  | stops {ds' reply} (hreply : reply = .shutdown ∨ reply = .panic) :
      Opening api kind target ds (ds', reply)
  | opened {ds'} (oc : OpenChannel Ch) (success : List Identity × MiningMessage)
      (rest : List (List Identity × MiningMessage))
      (hchannels : ∀ kind', channels ds' kind' =
        if kind' = kind then (channels ds kind').insert ds.channelIdFactory oc
        else channels ds kind')
      (hfactory : ds'.channelIdFactory = ds.channelIdFactory + 1)
      (htarget : (api.getTarget oc.channel).toLeBytes = target)
      (hsuccess : openedChannel success.2 = some ds.channelIdFactory)
      (hrest : ∀ m ∈ rest, openedChannel m.2 = none) :
      Opening api kind target ds (ds', .messages (success :: rest))

section Openings

variable {ctx : Context Ch V F32} {ds : Downstream Ch} {kind : ChannelKind} {target : Bytes}

theorem Opening.fault {ds' : Downstream Ch} (f : Fault) :
    Opening ctx.mining kind target ds (ds'.fault f) := by
  cases f with
  | shutdown => exact .stops (.inl rfl)
  | panic => exact .stops (.inr rfl)

theorem Opening.openError {ds' : Downstream Ch}
    (hchannels : ∀ kind, channels ds' kind = channels ds kind)
    (hfactory : ds'.channelIdFactory = ds.channelIdFactory ∨
      ds'.channelIdFactory = ds.channelIdFactory + 1)
    (msg : OpenMiningChannel) (code : ChannelManager.OpenMiningChannelErrorCode) :
    Opening ctx.mining kind target ds (ds'.openError msg code) := by
  refine .refused hchannels hfactory (.inr ⟨_, rfl, ?_⟩)
  simp [openedChannel]

/-- The rest of a handler runs with the next channel id. -/
theorem Opening.construct {msg : OpenMiningChannel} {allocation : AllocationAnswer}
    {construction : ConstructionAnswer}
    {rest : Downstream Ch → ChannelId → Nat → Downstream Ch × Reply}
    (hrest : ∀ length, allocation = .allocated length →
      Opening ctx.mining kind target ds
        (rest { ds with channelIdFactory := ds.channelIdFactory + 1 } ds.channelIdFactory length)) :
    Opening ctx.mining kind target ds (ds.construct msg allocation construction rest) := by
  unfold Downstream.construct
  split
  · exact .stops (.inl rfl)
  · exact .openError (fun _ => rfl) (.inl rfl) msg _
  next length =>
    dsimp only
    split
    · refine .openError ?_ (.inr rfl) msg _
      intro kind
      cases kind <;> rfl
    · refine .refused ?_ (.inr rfl) (.inl rfl)
      intro kind
      cases kind <;> rfl
    · exact hrest length rfl

theorem bootstrapChannel_target (hl : ctx.mining.Lawful ctx.env.channels) {msg : OpenRequest F32}
    {channel c : Ch} {t : NewTemplate} {outs : List TxOut} {p : SetNewPrevHash} {job : Job}
    (h : Downstream.bootstrapChannel (ctx.envFor msg) channel t outs p = .ok (c, job)) :
    ctx.mining.getTarget c = ctx.mining.getTarget channel := by
  unfold Downstream.bootstrapChannel at h
  split at h
  · cases h
  next hnew =>
    split at h
    · cases h
    · split at h
      · cases h
      next hprev =>
        cases h
        exact (hl.onSetNewPrevHash hprev).trans (hl.onNewTemplate hnew)

theorem openStandard_opening (hl : ctx.mining.Lawful ctx.env.channels)
    (t? : Option NewTemplate) (p? : Option SetNewPrevHash) (msg : OpenRequest F32)
    (allocation : AllocationAnswer) (construction : ConstructionAnswer) :
    Opening ctx.mining .standard (openingTarget ctx .standard ds.channelIdFactory msg allocation) ds
      (ds.handleOpenStandardMiningChannel (ctx.envFor msg) t? p? msg.toOpenMiningChannel allocation
        construction) := by
  unfold Downstream.handleOpenStandardMiningChannel
  split
  · exact .openError (fun _ => rfl) (.inl rfl) _ _
  split
  · exact .refused (fun _ => rfl) (.inl rfl) (.inl rfl)
  split
  · exact .refused (fun _ => rfl) (.inl rfl) (.inl rfl)
  split
  · exact .openError (fun _ => rfl) (.inl rfl) _ _
  split
  · exact .openError (fun _ => rfl) (.inl rfl) _ _
  apply Opening.construct
  rintro length rfl
  dsimp only
  split
  · exact .fault _
  next c job hboot =>
    have htarget := bootstrapChannel_target hl hboot
    split
    · refine .opened ⟨msg.userIdentity, c⟩ _ _ ?_ rfl ?_ rfl ?_
      · intro kind'
        cases kind' <;> rfl
      · rw [htarget]
        rfl
      · simp [openedChannel]
    · split
      · exact .stops (.inl rfl)
      next ds'' hgroup =>
        obtain ⟨g, -, rfl⟩ := Option.map_eq_some_iff.mp hgroup
        refine .opened ⟨msg.userIdentity, c⟩ _ _ ?_ rfl ?_ rfl ?_
        · intro kind'
          cases kind' <;> rfl
        · rw [htarget]
          rfl
        · simp [openedChannel]

theorem openExtended_opening (hl : ctx.mining.Lawful ctx.env.channels)
    (t? : Option NewTemplate) (p? : Option SetNewPrevHash) (msg : OpenRequest F32)
    (allocation : AllocationAnswer) (construction : ConstructionAnswer) :
    Opening ctx.mining .extended (openingTarget ctx .extended ds.channelIdFactory msg allocation) ds
      (ds.handleOpenExtendedMiningChannel (ctx.envFor msg) t? p? msg.toOpenMiningChannel allocation
        construction) := by
  unfold Downstream.handleOpenExtendedMiningChannel
  split
  · exact .openError (fun _ => rfl) (.inl rfl) _ _
  split
  · exact .openError (fun _ => rfl) (.inl rfl) _ _
  split
  · exact .openError (fun _ => rfl) (.inl rfl) _ _
  apply Opening.construct
  rintro length rfl
  have hsame : ∀ kind, channels
      { ds with channelIdFactory := ds.channelIdFactory + 1 } kind = channels ds kind := by
    intro kind
    cases kind <;> rfl
  dsimp only
  split
  · exact .refused hsame (.inr rfl) (.inl rfl)
  split
  · exact .refused hsame (.inr rfl) (.inl rfl)
  split
  · -- a connection that selects its own work gets no job
    split
    · exact .stops (.inl rfl)
    next c hprev =>
      refine .opened ⟨msg.userIdentity, c⟩ _ [] ?_ rfl ?_ rfl (by simp)
      · intro kind'
        cases kind' <;> rfl
      · rw [hl.onSetNewPrevHash hprev]
        rfl
  · split
    · exact .fault _
    next c job hboot =>
      have htarget := bootstrapChannel_target hl hboot
      split
      · exact .stops (.inl rfl)
      next ds'' hgroup =>
        obtain ⟨g, -, rfl⟩ := Option.map_eq_some_iff.mp hgroup
        refine .opened ⟨msg.userIdentity, c⟩ _ _ ?_ rfl ?_ rfl ?_
        · intro kind'
          cases kind' <;> rfl
        · rw [htarget]
          rfl
        · simp [openedChannel]

theorem handleOpenMiningChannel_opening (hl : ctx.mining.Lawful ctx.env.channels)
    (kind : ChannelKind) (t? : Option NewTemplate) (p? : Option SetNewPrevHash)
    (ds : Downstream Ch) (msg : OpenRequest F32) (allocation : AllocationAnswer)
    (construction : ConstructionAnswer) :
    Opening ctx.mining kind (openingTarget ctx kind ds.channelIdFactory msg allocation) ds
      (handleOpenMiningChannel ctx kind t? p? ds msg allocation construction) := by
  cases kind with
  | standard => exact openStandard_opening hl t? p? msg allocation construction
  | extended => exact openExtended_opening hl t? p? msg allocation construction

end Openings

/-! ## What the other handlers collect -/

/-- The part of a message that is for one miner. -/
def forMiner (d : DownstreamId) : RouteMessageTo → Option ToMiner
  | .templateProvider _ => none
  | .downstream d' m => if d' = d then some m else none

/-- Everything in it is for this miner, or for the template provider. -/
def Addressed (d : DownstreamId) (messages : List RouteMessageTo) : Prop :=
  ∀ d', d' ≠ d → messages.filterMap (forMiner d') = []

def ToMiner.closes : ToMiner → Bool
  | .closeChannel .. => true
  | _ => false

/-- No channel is closed. -/
def Keeping (messages : List ToMiner) : Prop := ∀ m ∈ messages, m.closes = false

section Collected

variable {api : Mining Ch V F32} {ds ds' : Downstream Ch} {d : DownstreamId} {n : Nat}

@[simp] theorem forMiner_self (d : DownstreamId) (m : ToMiner) :
    forMiner d (.downstream d m) = some m := by simp [forMiner]

theorem Addressed.nil : Addressed d [] := fun _ _ => rfl

theorem Addressed.cons {m : ToMiner} {messages : List RouteMessageTo}
    (h : Addressed d messages) : Addressed d (.downstream d m :: messages) := by
  intro d' hd'
  rw [List.filterMap_cons, h d' hd']
  simp [forMiner, hd'.symm]

theorem Addressed.consSolution {solution : SubmitSolution} {messages : List RouteMessageTo}
    (h : Addressed d messages) : Addressed d (.templateProvider solution :: messages) := by
  intro d' hd'
  rw [List.filterMap_cons, h d' hd']
  rfl

theorem Addressed.append {messages messages' : List RouteMessageTo} (h : Addressed d messages)
    (h' : Addressed d messages') : Addressed d (messages ++ messages') := by
  intro d' hd'
  rw [List.filterMap_append, h d' hd', h' d' hd']
  rfl

theorem Addressed.map (f : List Identity × MiningMessage → ToMiner)
    (ms : List (List Identity × MiningMessage)) :
    Addressed d (ms.map fun m => RouteMessageTo.downstream d (f m)) := by
  induction ms with
  | nil => exact .nil
  | cons m ms ih => exact .cons ih

theorem filterMap_forMiner_map (f : List Identity × MiningMessage → ToMiner)
    (ms : List (List Identity × MiningMessage)) :
    (ms.map fun m => RouteMessageTo.downstream d (f m)).filterMap (forMiner d) = ms.map f := by
  induction ms with
  | nil => rfl
  | cons m ms ih => rw [List.map_cons, List.filterMap_cons, ih]; simp

/-- A handler on connection `d` that opens and closes nothing. -/
structure Collects (api : Mining Ch V F32) (d : DownstreamId) (ds ds' : Downstream Ch)
    (messages : List RouteMessageTo) : Prop where
  serves : Serves api ds ds' (messages.filterMap (forMiner d))
  addressed : Addressed d messages
  keeping : Keeping (messages.filterMap (forMiner d))

theorem updateChannelIn_collects {kind : ChannelKind} {msg : UpdateChannel F32}
    {oc : OpenChannel Ch} (hn : Numbered n ds)
    (hoc : (channels ds kind).lookup msg.channelId = some oc) {c : Ch}
    {messages : List RouteMessageTo} (h : updateChannelIn api d msg oc.channel = some (c, messages)) :
    Collects api d ds (setChannel ds kind msg.channelId c) messages := by
  have hrefused : ∀ c code, Collects api d ds (setChannel ds kind msg.channelId c)
      [.downstream d (.updateChannelError msg.channelId code),
        .downstream d (.setTarget msg.channelId (api.getTarget c).toLeBytes)] := by
    intro c code
    refine ⟨serves_setChannel hn hoc ?_ (.inl ?_), Addressed.nil.cons.cons, ?_⟩
    · intro j hj
      simp [lastTold, lastOf, ToMiner.told, hj.symm]
    · simp [lastTold, lastOf, ToMiner.told]
    · simp [Keeping, ToMiner.closes]
  unfold updateChannelIn at h
  dsimp only at h
  split at h
  · cases h
    refine ⟨serves_setChannel hn hoc ?_ (.inl ?_), Addressed.nil.cons, ?_⟩
    · intro j hj
      simp [lastTold, lastOf, ToMiner.told, hj.symm]
    · simp [lastTold, lastOf, ToMiner.told]
    · simp [Keeping, ToMiner.closes]
  · cases h
    exact hrefused _ _
  · cases h
    exact hrefused _ _
  · cases h

/-- A miner that asks for another target is told the one it has then, even if it was refused. -/
theorem handleUpdateChannel_collects {msg : UpdateChannel F32} (hn : Numbered n ds)
    {messages : List RouteMessageTo} (h : handleUpdateChannel api d msg ds = some (ds', messages)) :
    Collects api d ds ds' messages := by
  unfold handleUpdateChannel at h
  split at h
  next oc hoc =>
    obtain ⟨⟨c, ms⟩, hc, hr⟩ := Option.map_eq_some_iff.mp h
    cases hr
    have hstd : (channels ds .standard).lookup msg.channelId = some oc := hoc
    exact updateChannelIn_collects hn hstd hc
  · split at h
    next oc hoc =>
      obtain ⟨⟨c, ms⟩, hc, hr⟩ := Option.map_eq_some_iff.mp h
      cases hr
      have hext : (channels ds .extended).lookup msg.channelId = some oc := hoc
      exact updateChannelIn_collects hn hext hc
    · cases h
      refine ⟨.refl ?_, Addressed.nil.cons, ?_⟩
      · intro channelId
        simp [lastTold, lastOf, ToMiner.told]
      · simp [Keeping, ToMiner.closes]

theorem runVardiffOnChannel_collects {jobs : ChannelsSv2 Ch} (hl : api.Lawful jobs)
    {kind : ChannelKind} {now : Nat} {channelId : ChannelId} {oc : OpenChannel Ch}
    (hn : Numbered n ds) (hoc : (channels ds kind).lookup channelId = some oc) {v v' : V} {c : Ch}
    {messages : List RouteMessageTo}
    (h : runVardiffOnChannel api now d channelId oc.channel v = (c, v', messages)) :
    Collects api d ds (setChannel ds kind channelId c) messages := by
  have hquiet : ∀ c, api.getTarget c = api.getTarget oc.channel →
      Collects api d ds (setChannel ds kind channelId c) [] := by
    intro c hc
    refine ⟨serves_setChannel hn hoc (fun _ _ => rfl) (.inr ⟨rfl, hc⟩), .nil, ?_⟩
    simp [Keeping]
  unfold runVardiffOnChannel at h
  split at h
  · cases h
    exact hquiet _ rfl
  · cases h
    exact hquiet _ (hl.setStableHashrate _ _)
  · split at h
    · cases h
      refine ⟨serves_setChannel hn hoc ?_ (.inl ?_), Addressed.nil.cons, ?_⟩
      · intro j hj
        simp [lastTold, lastOf, ToMiner.told, hj.symm]
      · simp [lastTold, lastOf, ToMiner.told]
      · simp [Keeping, ToMiner.closes]
    next hrefused =>
      cases h
      exact hquiet _ ((hl.updateChannel hrefused).trans (hl.setStableHashrate _ _))

theorem withChannel_collects {jobs : ChannelsSv2 Ch} (hl : api.Lawful jobs)
    (kind : ChannelKind) (now : Nat) (channelId : ChannelId) (hn : Numbered n ds) (v : V) :
    Collects api d ds (withChannel kind channelId (runVardiffOnChannel api now d channelId) ds v).1
      (withChannel kind channelId (runVardiffOnChannel api now d channelId) ds v).2.2 := by
  unfold withChannel
  split
  · refine ⟨.refl fun _ => rfl, .nil, ?_⟩
    simp [Keeping]
  next oc hoc => exact runVardiffOnChannel_collects hl hn hoc rfl

@[simp] theorem withChannel_channelIdFactory (kind : ChannelKind) (channelId : ChannelId)
    (run : Ch → V → Ch × V × List RouteMessageTo) (ds : Downstream Ch) (v : V) :
    (withChannel kind channelId run ds v).1.channelIdFactory = ds.channelIdFactory := by
  unfold withChannel
  split
  · rfl
  · simp

theorem Collects.trans {ds'' : Downstream Ch} {messages messages' : List RouteMessageTo}
    (h : Collects api d ds ds' messages) (h' : Collects api d ds' ds'' messages')
    (hfactory : ds''.channelIdFactory = ds'.channelIdFactory) :
    Collects api d ds ds'' (messages ++ messages') := by
  refine ⟨?_, h.addressed.append h'.addressed, ?_⟩
  · rw [List.filterMap_append]
    exact h.serves.trans h'.serves hfactory
  · rw [List.filterMap_append]
    intro m hm
    rcases List.mem_append.mp hm with hm | hm
    · exact h.keeping m hm
    · exact h'.keeping m hm

/-- A visit of `run_vardiff` tells the miner each target that it changes. -/
theorem runVardiffOn_collects {jobs : ChannelsSv2 Ch} (hl : api.Lawful jobs) (hn : Numbered n ds)
    (hbound : n + 3 < 2 ^ 32) (now : Nat) (channelId : ChannelId) (v : V) :
    Collects api d ds (runVardiffOn api now d channelId ds v).1
      (runVardiffOn api now d channelId ds v).2.2 := by
  have hstd := withChannel_collects (d := d) hl .standard now channelId hn v
  have hn' := hn.served hbound hstd.serves
  have hext := withChannel_collects (d := d) hl .extended now channelId hn'
    (withChannel .standard channelId (runVardiffOnChannel api now d channelId) ds v).2.1
  exact hstd.trans hext (withChannel_channelIdFactory .extended channelId
    (runVardiffOnChannel api now d channelId) _ _)

theorem shareOutcome_quiet {kind : ChannelKind} {share : SubmitShares}
    {accounting : ShareAccounting} {verdict : Except ShareValidationError ShareValidationResult}
    {messages : List RouteMessageTo}
    (h : shareOutcome kind d share accounting verdict = .messages messages) :
    Addressed d messages ∧ Keeping (messages.filterMap (forMiner d)) ∧
      ∀ channelId, lastTold channelId (messages.filterMap (forMiner d)) = none := by
  unfold shareOutcome at h
  split at h
  · cases h
    split
    · exact ⟨Addressed.nil.cons, by simp [Keeping, ToMiner.closes],
        by simp [lastTold, lastOf, ToMiner.told]⟩
    · exact ⟨.nil, by simp [Keeping], fun _ => rfl⟩
  · cases h
    exact ⟨Addressed.nil.cons, by simp [Keeping, ToMiner.closes],
      by simp [lastTold, lastOf, ToMiner.told]⟩
  · split at h
    · cases h
      refine ⟨Addressed.nil.cons.consSolution, by simp [Keeping, ToMiner.closes, forMiner], ?_⟩
      intro channelId
      rw [List.filterMap_cons_none rfl]
      simp [lastTold, lastOf, ToMiner.told]
    · cases h
  · split at h
    · cases h
      exact ⟨Addressed.nil.cons, by simp [Keeping, ToMiner.closes],
        by simp [lastTold, lastOf, ToMiner.told]⟩
    · cases h

/-- A share changes no target, and no channel that is watched is closed for it. -/
theorem handleSubmitShares_collects {jobs : ChannelsSv2 Ch} (hl : api.Lawful jobs)
    (hn : Numbered n ds) {kind : ChannelKind} {share : SubmitShares} {watched counted : Bool}
    (hwatched : ((channels ds kind).lookup share.channelId).isSome = true → watched = true)
    {outcome : ShareOutcome}
    (h : handleSubmitShares api kind d share watched ds = (ds', outcome, counted)) :
    Collects api d ds ds' [] ∧ ∀ messages, outcome = .messages messages →
      Collects api d ds ds' messages := by
  unfold handleSubmitShares at h
  split at h
  · cases h
    constructor
    · refine ⟨.refl fun _ => rfl, .nil, ?_⟩
      simp [Keeping]
    · rintro messages hms
      cases hms
      refine ⟨.refl ?_, Addressed.nil.cons, ?_⟩
      · simp [lastTold, lastOf, ToMiner.told]
      · simp [Keeping, ToMiner.closes]
  next oc hoc =>
    have hw : watched = true := hwatched (by rw [hoc]; rfl)
    rw [hw] at h
    cases h
    have htarget := hl.validateShare oc.channel share
    constructor
    · refine ⟨serves_setChannel hn hoc (fun _ _ => rfl) (.inr ⟨rfl, htarget⟩), .nil, ?_⟩
      simp [Keeping]
    · intro messages hms
      obtain ⟨haddressed, hkeeping, hquiet⟩ := shareOutcome_quiet hms
      refine ⟨serves_setChannel hn hoc (fun j _ => hquiet j) (.inr ⟨hquiet _, htarget⟩),
        haddressed, hkeeping⟩

end Collected

/-! ## The messages of an opening -/

section Announced

variable {api : Mining Ch V F32} {ds ds' : Downstream Ch} {kind : ChannelKind} {target : Bytes}
  {oc : OpenChannel Ch} {success : List Identity × MiningMessage}
  {rest : List (List Identity × MiningMessage)} {n : Nat}

theorem told_toMiner (channelId : ChannelId) (target : Bytes) (m : MiningMessage) :
    ToMiner.told channelId (toMiner target m) =
      if openedChannel m = some channelId then some target else none := by
  unfold toMiner
  split
  · rfl
  next h =>
    rw [Option.not_isSome_iff_eq_none] at h
    simp [ToMiner.told, h]

theorem lastTold_announced (hrest : ∀ m ∈ rest, openedChannel m.2 = none) (channelId : ChannelId) :
    lastTold channelId ((success :: rest).map fun m => toMiner target m.2) =
      if openedChannel success.2 = some channelId then some target else none := by
  have hnone : lastTold channelId (rest.map fun m => toMiner target m.2) = none := by
    rw [lastTold, lastOf_map, lastOf_eq_none]
    intro m hm
    rw [told_toMiner, hrest m hm]
    rfl
  rw [List.map_cons, lastTold, lastOf, ← lastTold, hnone, Option.none_or, told_toMiner]

/-- A request that is refused tells no target. -/
theorem lastTold_refused {ms : List (List Identity × MiningMessage)}
    (hms : ∀ m ∈ ms, openedChannel m.2 = none) (channelId : ChannelId) :
    lastTold channelId (ms.map fun m => toMiner target m.2) = none := by
  rw [lastTold, lastOf_map, lastOf_eq_none]
  intro m hm
  rw [told_toMiner, hms m hm]
  rfl

theorem keeping_toMiner (target : Bytes) (ms : List (List Identity × MiningMessage)) :
    Keeping (ms.map fun m => toMiner target m.2) := by
  intro m hm
  obtain ⟨m', -, rfl⟩ := List.mem_map.mp hm
  unfold toMiner
  split <;> rfl

variable (hn : Numbered n ds)
  (hchannels : ∀ kind', channels ds' kind' =
    if kind' = kind then (channels ds kind').insert ds.channelIdFactory oc else channels ds kind')
include hn hchannels

/-- The channels of a connection after an opening: the new one and the old ones. -/
theorem lookup_opened {kind' : ChannelKind} {channelId : ChannelId} {oc' : OpenChannel Ch}
    (h : (channels ds' kind').lookup channelId = some oc') :
    (kind' = kind ∧ channelId = ds.channelIdFactory ∧ oc' = oc) ∨
    (channelId ≠ ds.channelIdFactory ∧ (channels ds kind').lookup channelId = some oc') := by
  have hold : (channels ds kind').lookup channelId = some oc' →
      channelId ≠ ds.channelIdFactory := by
    rintro hoc rfl
    exact absurd (hn.below kind' _ (by rw [hoc]; rfl)) (Nat.lt_irrefl _)
  rw [hchannels] at h
  split at h
  next hkind =>
    rw [KeyMap.lookup_insert_eq] at h
    split at h
    next hid => exact .inl ⟨hkind, hid, (Option.some.inj h).symm⟩
    next hid => exact .inr ⟨hid, h⟩
  · exact .inr ⟨hold h, h⟩

theorem follows_opened (htarget : (api.getTarget oc.channel).toLeBytes = target)
    (hsuccess : openedChannel success.2 = some ds.channelIdFactory)
    (hrest : ∀ m ∈ rest, openedChannel m.2 = none) :
    Follows api ds ds' ((success :: rest).map fun m => toMiner target m.2) := by
  rintro channelId c' ⟨kind', oc', hoc', rfl⟩
  rw [lastTold_announced hrest, hsuccess]
  rcases lookup_opened hn hchannels hoc' with ⟨-, rfl, rfl⟩ | ⟨hne, hoc⟩
  · left
    rw [if_pos rfl, htarget]
  · right
    refine ⟨?_, oc'.channel, ⟨kind', oc', hoc, rfl⟩, rfl⟩
    simpa using hne.symm

theorem numbered_opened (hbound : n + 3 < 2 ^ 32)
    (hfactory : ds'.channelIdFactory = ds.channelIdFactory + 1) : Numbered (n + 1) ds' := by
  have hsucc := hn.succ hbound
  have hle := hn.factory
  refine ⟨by rw [hfactory]; omega, ?_, ?_⟩
  · intro kind' channelId hopen
    rw [hfactory, hsucc]
    obtain ⟨oc', hoc'⟩ := Option.isSome_iff_exists.mp hopen
    rcases lookup_opened hn hchannels hoc' with ⟨-, rfl, -⟩ | ⟨-, hoc⟩
    · exact Nat.lt_succ_self _
    · exact Nat.lt_succ_of_lt (hn.below kind' channelId (by rw [hoc]; rfl))
  · intro channelId hstd
    obtain ⟨oc₁, hoc₁⟩ := Option.isSome_iff_exists.mp hstd
    have hstd₁ : (channels ds' .standard).lookup channelId = some oc₁ := hoc₁
    cases hoc₂ : ds'.extendedChannels.lookup channelId with
    | none => rfl
    | some oc₂ =>
      have hext : (channels ds' .extended).lookup channelId = some oc₂ := hoc₂
      -- the id is old or new for both kinds
      rcases lookup_opened hn hchannels hstd₁ with ⟨hk, rfl, -⟩ | ⟨hne, hold⟩
      · rcases lookup_opened hn hchannels hext with ⟨hk', -, -⟩ | ⟨hne, -⟩
        · rw [← hk] at hk'
          cases hk'
        · exact absurd rfl hne
      · rcases lookup_opened hn hchannels hext with ⟨-, hid, -⟩ | ⟨-, hold'⟩
        · exact absurd hid hne
        · rw [channels, hn.apart channelId (by rw [← channels, hold]; rfl)] at hold'
          cases hold'

end Announced

/-! ## Closing a channel -/

theorem lookup_handleCloseChannel (env : ChannelManager.Env Ch) (ds : Downstream Ch)
    (channelId : ChannelId) (kind : ChannelKind) (j : ChannelId) :
    (channels (ds.handleCloseChannel env channelId) kind).lookup j =
      if j = channelId then none else (channels ds kind).lookup j := by
  unfold Downstream.handleCloseChannel
  dsimp only
  split <;> cases kind <;> exact KeyMap.lookup_erase_eq _ _ _

@[simp] theorem handleCloseChannel_channelIdFactory (env : ChannelManager.Env Ch) (ds : Downstream Ch)
    (channelId : ChannelId) :
    (ds.handleCloseChannel env channelId).channelIdFactory = ds.channelIdFactory := by
  unfold Downstream.handleCloseChannel
  dsimp only
  split <;> rfl

end Sv2Apps.Pool.Difficulty
