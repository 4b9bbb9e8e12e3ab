/-
  Translator/ShareReconstruction.lean
  ===================================
  **The extranonce of a forwarded share** — a job is mined with the prefix that was in force when
  it arrived, and the share goes to the upstream with the local part of the current prefix in
  front of what the miner rolled.  The upstream puts its own prefix for that job in front of it.

  `Upstream` is the other side of the connection: the prefixes that it has assigned, and for each
  job that it has sent the prefixes that were assigned then.  `Linked` says of a channel that its
  prefix is the assigned one and a local part, and that every job it holds has captured what the
  upstream had assigned when the job was sent, followed by the same local part.  Handlers other
  than those that open channels or replace prefixes only let channels grow (`Grown`).
-/
import Sv2Apps.Translator.SearchSpace

namespace Sv2Apps.Translator

open Bitcoin Fallible

namespace ChannelManager

variable {Ch Gr Al : Type} {api : ClientChannels Ch Gr Al} {cfg : Config}
  {s s' : ChannelManager Ch Gr Al}

/-! ## The upstream -/

/-- What the upstream has assigned, and the jobs that it has sent, with what was assigned then. -/
structure Upstream where
  assigned : KeyMap ChannelId Bytes
  jobs : List (JobId × KeyMap ChannelId Bytes)

namespace Upstream

def start : Upstream := ⟨∅, []⟩

/-- The prefix of a channel when a job was sent. -/
def captured (u : Upstream) (m : NewExtendedMiningJob) (channelId : ChannelId) : Option Bytes :=
  u.jobs[m.arrival]?.bind fun job => if job.1 = m.jobId then job.2.lookup channelId else none

def assign (u : Upstream) (channelId : ChannelId) (b : Bytes) : Upstream :=
  { u with assigned := u.assigned.insert channelId b }

def send (u : Upstream) (jobId : JobId) : Upstream :=
  { u with jobs := u.jobs ++ [(jobId, u.assigned)] }

/-- What a message of the upstream says about its side; a channel is opened by the answer to a
    request that waits for one. -/
def observe (u : Upstream) (s : ChannelManager Ch Gr Al) : Event → Upstream
  | .openExtendedMiningChannelSuccess m =>
    if (s.pendingDownstreamChannels.lookup m.requestId).isSome then
      u.assign m.channelId m.extranoncePrefix.1
    else u
  | .setExtranoncePrefix channelId b => u.assign channelId b.1
  | .newExtendedMiningJob m => u.send m.jobId
  | _ => u

/-- Jobs are numbered as they are sent. -/
def number (u : Upstream) : Event → Event
  | .newExtendedMiningJob m => .newExtendedMiningJob { m with arrival := u.jobs.length }
  | e => e

theorem captured_congr (u : Upstream) {m m' : NewExtendedMiningJob} (h : SameJob m m')
    (k : ChannelId) : u.captured m k = u.captured m' k := by
  unfold captured
  rw [h.1, h.2]

theorem captured_send {u : Upstream} {m : NewExtendedMiningJob} {k : ChannelId} {b : Bytes}
    (h : u.captured m k = some b) (jobId : JobId) : (u.send jobId).captured m k = some b := by
  obtain ⟨job, hjob, hb⟩ := Option.bind_eq_some_iff.mp h
  refine Option.bind_eq_some_iff.mpr ⟨job, ?_, hb⟩
  obtain ⟨hlt, -⟩ := List.getElem?_eq_some_iff.mp hjob
  rw [send, List.getElem?_append_left hlt]
  exact hjob

theorem captured_last (u : Upstream) {m : NewExtendedMiningJob} {jobId : JobId}
    (h : m.arrival = u.jobs.length) (hid : m.jobId = jobId) (k : ChannelId) :
    (u.send jobId).captured m k = u.assigned.lookup k := by
  simp [captured, send, h, hid]

end Upstream

/-- The manager and the upstream that it is connected to. -/
structure Link (Ch Gr Al : Type) where
  manager : ChannelManager Ch Gr Al
  upstream : Upstream

namespace Link

def start : Link Ch Gr Al := ⟨ChannelManager.start, .start⟩

def step (api : ClientChannels Ch Gr Al) (cfg : Config) (l : Link Ch Gr Al) : Action → Link Ch Gr Al
  | .event e => ⟨ChannelManager.step api cfg l.manager (.event (l.upstream.number e)),
      l.upstream.observe l.manager e⟩
  | act => ⟨ChannelManager.step api cfg l.manager act, l.upstream⟩

/-- Manager and upstream after a run. -/
def after (api : ClientChannels Ch Gr Al) (cfg : Config) (as : List Action) : Link Ch Gr Al :=
  Runs.run (step api cfg) start as

end Link

/-! ## The link -/

/-- The id by which the upstream knows the channel of a miner. -/
def upstreamChannelId (api : ClientChannels Ch Gr Al) (cfg : Config) (s : ChannelManager Ch Gr Al)
    (channelId : ChannelId) : Option ChannelId :=
  match cfg.mode with
  | .aggregated => (s.extendedChannels.lookup aggregatedChannelId).map api.getChannelId
  | .nonAggregated => some channelId

/-- A channel agrees with what the upstream has assigned to `w`. -/
structure Linked (api : ClientChannels Ch Gr Al) (u : Upstream) (w : ChannelId) (c : Ch) : Prop where
  current : ∃ b, u.assigned.lookup w = some b ∧ (api.getExtranoncePrefix c).bytes =
      b ++ (api.getExtranoncePrefix c).localPart ∧
    (api.getExtranoncePrefix c).upstreamPrefixLen = b.length
  jobs : ∀ j ∈ api.heldJobs c, ∃ b, u.captured j.message w = some b ∧
    j.extranoncePrefix = b ++ (api.getExtranoncePrefix c).localPart

def AllLinked (api : ClientChannels Ch Gr Al) (cfg : Config) (u : Upstream)
    (s : ChannelManager Ch Gr Al) : Prop :=
  ∀ k c w, s.extendedChannels.lookup k = some c → upstreamChannelId api cfg s k = some w →
    Linked api u w c

/-! ## Handlers under which channels only grow -/

/-- The channel may have been given jobs, with its current prefix. -/
structure Grown (api : ClientChannels Ch Gr Al) (sent : NewExtendedMiningJob → Prop) (c c' : Ch) : Prop where
  keeps : api.Keeps c c'
  jobs : ∀ j ∈ api.heldJobs c', ((∃ m, sent m ∧ SameJob m j.message) ∧
    j.extranoncePrefix = (api.getExtranoncePrefix c).bytes) ∨ api.IsFrom c j

/-- No job is given. -/
abbrev NoJob (_ : NewExtendedMiningJob) : Prop := False

namespace Grown

variable {sent : NewExtendedMiningJob → Prop}

theorem of_keeps {c c' : Ch} (h : api.Keeps c c' ∧ api.JobsFrom c c') : Grown api sent c c' :=
  ⟨h.1, fun j hj => Or.inr (h.2 j hj)⟩

theorem refl (c : Ch) : Grown api sent c c :=
  of_keeps ⟨Keeps.refl c, fun _ hj => ClientChannels.isFrom_of_mem hj⟩

theorem trans {c c' c'' : Ch} (h : Grown api sent c c') (h' : Grown api sent c' c'') :
    Grown api sent c c'' := by
  refine ⟨⟨h'.keeps.channelId.trans h.keeps.channelId,
    h'.keeps.extranoncePrefix.trans h.keeps.extranoncePrefix⟩, ?_⟩
  intro j hj
  rcases h'.jobs j hj with ⟨hsent, hbytes⟩ | ⟨i, hi, hmessage, hbytes⟩
  · rw [h.keeps.extranoncePrefix] at hbytes
    exact Or.inl ⟨hsent, hbytes⟩
  · rcases h.jobs i hi with ⟨⟨m, hsent, hsame⟩, hbytes'⟩ | ⟨i', hi', hmessage', hbytes'⟩
    · exact Or.inl ⟨⟨m, hsent, hsame.trans hmessage⟩, hbytes ▸ hbytes'⟩
    · exact Or.inr ⟨i', hi', hmessage'.trans hmessage, hbytes'.trans hbytes⟩

end Grown

/-- Every channel has grown from one that there was. -/
def ChannelsGrown (api : ClientChannels Ch Gr Al) (sent : NewExtendedMiningJob → Prop)
    (s s' : ChannelManager Ch Gr Al) : Prop :=
  ∀ k c', s'.extendedChannels.lookup k = some c' →
    ∃ c, s.extendedChannels.lookup k = some c ∧ Grown api sent c c'

namespace ChannelsGrown

variable {sent : NewExtendedMiningJob → Prop}

/-- Channels may be gone. -/
theorem of_sub (h : ∀ k c, s'.extendedChannels.lookup k = some c → s.extendedChannels.lookup k = some c) :
    ChannelsGrown api sent s s' :=
  fun k c hc => ⟨c, h k c hc, Grown.refl c⟩

theorem of_eq (h : s'.extendedChannels = s.extendedChannels) : ChannelsGrown api sent s s' := by
  refine of_sub ?_
  intro k c hc
  rw [h] at hc
  exact hc

theorem refl (s : ChannelManager Ch Gr Al) : ChannelsGrown api sent s s := of_eq rfl

theorem trans {s₁ s₂ s₃ : ChannelManager Ch Gr Al} (h : ChannelsGrown api sent s₁ s₂)
    (h' : ChannelsGrown api sent s₂ s₃) : ChannelsGrown api sent s₁ s₃ := by
  intro k c₃ hc₃
  obtain ⟨c₂, hc₂, hgrown'⟩ := h' k c₃ hc₃
  obtain ⟨c₁, hc₁, hgrown⟩ := h k c₂ hc₂
  exact ⟨c₁, hc₁, hgrown.trans hgrown'⟩

theorem setChannel {k : ChannelId} {c c' : Ch} (hc : s.extendedChannels.lookup k = some c)
    (hgrown : Grown api sent c c') : ChannelsGrown api sent s (s.setChannel k c') := by
  intro j d hd
  simp only [ChannelManager.setChannel, KeyMap.lookup_insert_eq] at hd
  split at hd
  next hj =>
    cases hd
    exact ⟨c, by rw [hj]; exact hc, hgrown⟩
  · exact ⟨d, hd, Grown.refl d⟩

/-- A pass over the channels. -/
theorem setChannels {ε : Type} {f : ChannelId → Ch → Except ε Ch} {channels : KeyMap ChannelId Ch}
    (h : s.extendedChannels.tryMap f = .ok channels)
    (hf : ∀ {k c c'}, f k c = .ok c' → Grown api sent c c') :
    ChannelsGrown api sent s { s with extendedChannels := channels } := by
  intro k c' hc'
  obtain ⟨c, hc, hgiven⟩ := exists_of_rel_right (KeyMap.rel_tryMap h k) hc'
  exact ⟨c, hc, hf hgiven⟩

end ChannelsGrown

theorem announcePrefix_channels (e : ChannelId × Bytes) :
    Meets (fun s' => s'.extendedChannels = s.extendedChannels) AnyError (announcePrefix s e) := by
  unfold announcePrefix
  refine Meets.any.bind ?_
  intro advertised _
  split
  · exact .pure rfl
  refine Meets.any.bind ?_
  intro b _
  exact .pure rfl

theorem forwardJob_channels (m : NewExtendedMiningJob) :
    Meets (fun s' => s'.extendedChannels = s.extendedChannels) AnyError
      (forwardJobToSv1Server api s m) := by
  unfold forwardJobToSv1Server
  refine Meets.any.bind ?_
  intro prefixes _
  refine (Meets.foldlM (fun s' : ChannelManager Ch Gr Al => s'.extendedChannels = s.extendedChannels) ?_ rfl).bind ?_
  · intro s₁ hs₁ e _
    exact (announcePrefix_channels e).mono fun s₂ hs₂ => hs₂.trans hs₁
  · intro s₁ hs₁
    exact .pure hs₁

theorem forwardJobs_channels (jobs : List NewExtendedMiningJob) :
    Meets (fun s' => s'.extendedChannels = s.extendedChannels) AnyError
      (jobs.foldlM (forwardJobToSv1Server api) s) := by
  refine Meets.foldlM (fun s' : ChannelManager Ch Gr Al => s'.extendedChannels = s.extendedChannels) ?_ rfl
  intro s₁ hs₁ m _
  exact (forwardJob_channels m).mono fun s₂ hs₂ => hs₂.trans hs₁

theorem foldl_sendSv1_channels {α : Type} (f : α → Sv1Message) (l : List α)
    (s : ChannelManager Ch Gr Al) :
    (l.foldl (fun s a => s.sendSv1 (f a)) s).extendedChannels = s.extendedChannels := by
  induction l generalizing s with
  | nil => rfl
  | cons a l ih => exact ih (s.sendSv1 (f a))

theorem forwardPrevHashes_channels (prevHashes : List SetNewPrevHash)
    (jobs : List NewExtendedMiningJob) :
    Meets (fun s' => s'.extendedChannels = s.extendedChannels) AnyError
      (forwardPrevHashes api s prevHashes jobs) := by
  refine (forwardJobs_channels jobs).mono ?_
  intro s' hs'
  rw [hs']
  exact foldl_sendSv1_channels _ _ s

section

variable {sent : NewExtendedMiningJob → Prop}

theorem ChannelsGrown.forwarded (h : ChannelsGrown api sent s s') {x : Except TproxyError
      (ChannelManager Ch Gr Al)}
    (hx : Meets (fun s'' => s''.extendedChannels = s'.extendedChannels) AnyError x) :
    Meets (ChannelsGrown api sent s) AnyError x :=
  hx.mono fun _ hs'' => h.trans (.of_eq hs'')

/-- The loop of a group message, by what a turn does to the channel that it comes to. -/
theorem membersGrown {α : Type} {f : ChannelManager Ch Gr Al × α → ChannelId →
      Except TproxyError (ChannelManager Ch Gr Al × α)}
    (hf : ∀ r k, Meets (fun r' => ChannelsGrown api sent r.1 r'.1) AnyError (f r k))
    (ks : List ChannelId) {r : ChannelManager Ch Gr Al × α} (hr : ChannelsGrown api sent s r.1) :
    Meets (fun r' : ChannelManager Ch Gr Al × α => ChannelsGrown api sent s r'.1) AnyError
      (ks.foldlM f r) := by
  refine Meets.foldlM (fun r' : ChannelManager Ch Gr Al × α => ChannelsGrown api sent s r'.1) ?_ hr
  intro r₁ hr₁ k _
  exact (hf r₁ k).mono fun r₂ hr₂ => hr₁.trans hr₂

theorem orThrow_ok {ε α : Type} {o : Option α} {e : ε} {a : α} (h : orThrow o e = .ok a) :
    o = some a :=
  (Meets.orThrow (E := fun _ => True) fun _ => trivial).ok h

theorem giveJob_grown (hapi : api.Lawful) {c c' : Ch} {m : NewExtendedMiningJob} (hm : sent m)
    (h : giveJob api c m = .ok c') : Grown api sent c c' := by
  have hgiven := orThrow_ok h
  refine ⟨hapi.job_keeps hgiven, ?_⟩
  intro j hj
  rcases hapi.job_captures hgiven j hj with ⟨hmessage, hbytes⟩ | hold
  · exact Or.inl ⟨⟨m, hm, by rw [hmessage]; exact .refl m⟩, hbytes⟩
  · exact Or.inr hold

theorem givePrevHash_grown (hapi : api.Lawful) {c c' : Ch} {m : SetNewPrevHash}
    (h : givePrevHash api c m = .ok c') : Grown api sent c c' :=
  .of_keeps (hapi.prevHash_keeps (orThrow_ok h))

theorem giveTarget_grown (hapi : api.Lawful) {c c' : Ch} {target : Target}
    (h : giveTarget api c target = .ok c') : Grown api sent c c' :=
  .of_keeps (hapi.target_keeps (orThrow_ok h))

theorem memberJob_grown (hapi : api.Lawful) {m : NewExtendedMiningJob}
    (hm : ∀ k, sent { m with channelId := k })
    (r : ChannelManager Ch Gr Al × List NewExtendedMiningJob) (k : ChannelId) :
    Meets (fun r' => ChannelsGrown api sent r.1 r'.1) AnyError (memberJob api m r k) := by
  unfold memberJob
  refine (Meets.orThrow fun _ => trivial).bind ?_
  intro c hc
  refine (Meets.eq fun _ _ => trivial).bind ?_
  intro c' hc'
  exact .pure (.setChannel hc (giveJob_grown hapi (hm k) hc'))

theorem memberPrevHash_grown (hapi : api.Lawful) (m : SetNewPrevHash)
    (r : ChannelManager Ch Gr Al × List SetNewPrevHash × List NewExtendedMiningJob)
    (k : ChannelId) :
    Meets (fun r' => ChannelsGrown api sent r.1 r'.1) AnyError (memberPrevHash api m r k) := by
  unfold memberPrevHash
  refine (Meets.orThrow fun _ => trivial).bind ?_
  intro c hc
  refine (Meets.eq fun _ _ => trivial).bind ?_
  intro c' hc'
  refine Meets.any.bind ?_
  intro _ _
  exact .pure (.setChannel hc (givePrevHash_grown hapi hc'))

theorem handleNewExtendedMiningJob_grown (hapi : api.Lawful) (m : NewExtendedMiningJob) :
    Meets (ChannelsGrown api (SameJob · m) s) AnyError
      (handleNewExtendedMiningJob api cfg s m) := by
  unfold handleNewExtendedMiningJob
  refine Meets.any.bind ?_
  intro _ _
  split
  · refine Meets.any.bind ?_
    intro aggregate _
    refine Meets.any.bind ?_
    intro _ _
    refine (Meets.eq fun _ _ => trivial).bind ?_
    intro channels hchannels
    have hgrown : ChannelsGrown api (SameJob · m) s { s with extendedChannels := channels } :=
      .setChannels hchannels fun hc' => giveJob_grown hapi ⟨rfl, rfl⟩ hc'
    split
    · exact .pure hgrown
    · exact hgrown.forwarded (forwardJob_channels _)
  · split
    · refine Meets.any.bind ?_
      intro size _
      refine Meets.any.bind ?_
      intro _ _
      refine Meets.bind (P := fun r => ChannelsGrown api (SameJob · m) s r.1)
        (membersGrown (memberJob_grown hapi fun k => ⟨rfl, rfl⟩) _ (.of_eq rfl)) ?_
      rintro ⟨s₁, messages⟩ hs₁
      exact hs₁.forwarded (forwardJobs_channels messages)
    · refine (Meets.orThrow fun _ => trivial).bind ?_
      intro c hc
      refine Meets.any.bind ?_
      intro _ _
      refine (Meets.eq fun _ _ => trivial).bind ?_
      intro c' hc'
      have hgrown : ChannelsGrown api (SameJob · m) s (s.setChannel m.channelId c') :=
        .setChannel hc (giveJob_grown hapi ⟨rfl, rfl⟩ hc')
      split
      · exact .pure hgrown
      · exact hgrown.forwarded (forwardJob_channels m)

theorem handleSetNewPrevHash_grown (hapi : api.Lawful) (m : SetNewPrevHash) :
    Meets (ChannelsGrown api sent s) AnyError (handleSetNewPrevHash api cfg s m) := by
  unfold handleSetNewPrevHash
  split
  · refine Meets.any.bind ?_
    intro aggregate _
    refine (Meets.eq fun _ _ => trivial).bind ?_
    intro channels hchannels
    have hgrown : ChannelsGrown api sent s { s with extendedChannels := channels } :=
      .setChannels hchannels fun hc' => givePrevHash_grown hapi hc'
    refine Meets.any.bind ?_
    intro _ _
    refine Meets.any.bind ?_
    intro _ _
    exact hgrown.forwarded (forwardPrevHashes_channels _ _)
  · split
    · refine Meets.any.bind ?_
      intro group _
      refine Meets.bind (P := fun r => ChannelsGrown api sent s r.1)
        (membersGrown (memberPrevHash_grown hapi m) _ (.of_eq rfl)) ?_
      rintro ⟨s₁, prevHashes, jobs⟩ hs₁
      exact hs₁.forwarded (forwardPrevHashes_channels prevHashes jobs)
    · refine (Meets.orThrow fun _ => trivial).bind ?_
      intro c hc
      refine (Meets.eq fun _ _ => trivial).bind ?_
      intro c' hc'
      refine Meets.any.bind ?_
      intro _ _
      have hgrown : ChannelsGrown api sent s (s.setChannel m.channelId c') :=
        .setChannel hc (givePrevHash_grown hapi hc')
      exact hgrown.forwarded (forwardPrevHashes_channels _ _)

theorem handleSetTarget_grown (hapi : api.Lawful) (channelId : ChannelId) (target : Target) :
    Meets (ChannelsGrown api sent s) AnyError (handleSetTarget api cfg s channelId target) := by
  unfold handleSetTarget
  split
  · refine Meets.any.bind ?_
    intro aggregate _
    refine (Meets.eq fun _ _ => trivial).bind ?_
    intro channels hchannels
    have hgrown : ChannelsGrown api sent s { s with extendedChannels := channels } :=
      .setChannels hchannels fun hc' => giveTarget_grown hapi hc'
    exact .pure (hgrown.trans (.of_eq rfl))
  · split
    · refine (Meets.foldlM (ChannelsGrown api sent s) ?_ (.refl s)).bind ?_
      · intro s₁ hs₁ k _
        unfold memberTarget
        refine (Meets.orThrow fun _ => trivial).bind ?_
        intro c hc
        refine (Meets.eq fun _ _ => trivial).bind ?_
        intro c' hc'
        exact .pure (hs₁.trans (.setChannel hc (giveTarget_grown hapi hc')))
      · intro s₁ hs₁
        exact .pure (hs₁.trans (.of_eq (foldl_sendSv1_channels _ _ s₁)))
    · refine (Meets.orThrow fun _ => trivial).bind ?_
      intro c hc
      refine (Meets.eq fun _ _ => trivial).bind ?_
      intro c' hc'
      exact .pure ((ChannelsGrown.setChannel hc (giveTarget_grown hapi hc')).trans (.of_eq rfl))

theorem handleSetGroupChannel_grown (groupChannelId : ChannelId) (channelIds : List ChannelId) :
    Meets (ChannelsGrown api sent s) AnyError
      (result (handleSetGroupChannel api cfg groupChannelId channelIds) s) := by
  rw [result_handleSetGroupChannel]
  refine Meets.any.bind ?_
  intro group _
  exact .pure (.of_eq rfl)

theorem handleSubmitSharesExtended_grown (hapi : api.Lawful) (m : SubmitSharesExtended) :
    Meets (ChannelsGrown api sent s) AnyError (handleSubmitSharesExtended api cfg s m) := by
  unfold handleSubmitSharesExtended
  split
  next aggregate _ haggregate =>
    refine Meets.any.bind ?_
    intro extranonce _
    have hchecked : ChannelsGrown api sent s (s.setChannel aggregatedChannelId
        (api.validateShare aggregate { m with
          extranonce := extranonce
          channelId := api.getChannelId aggregate }).2) :=
      .setChannel haggregate (.of_keeps (hapi.share_keeps _ _))
    dsimp only
    split
    · exact .pure (hchecked.trans (.of_eq rfl))
    · exact .pure hchecked
  · split
    · exact .pure (.refl s)
    next c hc =>
      have hchecked : ChannelsGrown api sent s (s.setChannel m.channelId (api.validateShare c m).2) :=
        .setChannel hc (.of_keeps (hapi.share_keeps c m))
      dsimp only
      split
      · refine Meets.any.bind ?_
        intro extranonce _
        exact .pure (hchecked.trans (.of_eq rfl))
      · exact .pure hchecked

theorem handleCloseChannel_grown (channelId : ChannelId) :
    Meets (ChannelsGrown api sent s) AnyError (handleCloseChannel api cfg s channelId) := by
  unfold handleCloseChannel
  split
  · exact .throw trivial
  split
  next group hgroup =>
    refine .pure (.of_sub ?_)
    intro k c hc
    rw [(foldl_forwardClose _ _).1] at hc
    dsimp only at hc
    rw [lookup_foldl_erase] at hc
    split at hc
    · cases hc
    · exact hc
  · split
    · refine .pure (.of_sub ?_)
      intro k c hc
      exact KeyMap.lookup_erase_some hc
    · exact .throw trivial

theorem handleCloseDownstreamChannel_grown (channelId : ChannelId) :
    ChannelsGrown api sent s (handleCloseDownstreamChannel api cfg s channelId) := by
  unfold handleCloseDownstreamChannel
  split
  · exact .refl s
  have hdropped : ChannelsGrown api sent s (dropChannel api s channelId) := by
    unfold dropChannel
    split
    · refine .of_sub ?_
      intro k c hc
      exact KeyMap.lookup_erase_some hc
    · exact .refl s
  dsimp only
  split
  · exact hdropped.trans (.of_eq rfl)
  · exact hdropped.trans (.of_eq rfl)

end

/-! ## Channels stay linked -/

variable {u u' : Upstream} {w : ChannelId}

theorem Linked.grown {sent : NewExtendedMiningJob → Prop} {c c' : Ch} (h : Linked api u w c)
    (hgrown : Grown api sent c c')
    (hassigned : ∀ b, u.assigned.lookup w = some b → u'.assigned.lookup w = some b)
    (hcaptured : ∀ m b, u.captured m w = some b → u'.captured m w = some b)
    (hsent : ∀ m b, sent m → u.assigned.lookup w = some b → u'.captured m w = some b) :
    Linked api u' w c' := by
  obtain ⟨b, hb, hbytes, hlen⟩ := h.current
  refine ⟨⟨b, hassigned b hb, ?_, ?_⟩, ?_⟩
  · rw [hgrown.keeps.extranoncePrefix]
    exact hbytes
  · rw [hgrown.keeps.extranoncePrefix]
    exact hlen
  · intro j hj
    rw [hgrown.keeps.extranoncePrefix]
    rcases hgrown.jobs j hj with ⟨⟨m, hnew, hsame⟩, hjob⟩ | ⟨i, hi, hmessage, hjob⟩
    · refine ⟨b, ?_, by rw [hjob]; exact hbytes⟩
      rw [← u'.captured_congr hsame]
      exact hsent m b hnew hb
    · obtain ⟨b', hb', hjob'⟩ := h.jobs i hi
      rw [u.captured_congr hmessage] at hb'
      exact ⟨b', hcaptured _ b' hb', by rw [← hjob]; exact hjob'⟩

theorem upstreamChannelId_grown {sent : NewExtendedMiningJob → Prop} {k : ChannelId}
    (hgrown : ChannelsGrown api sent s s') (h : upstreamChannelId api cfg s' k = some w) :
    upstreamChannelId api cfg s k = some w := by
  unfold upstreamChannelId at h ⊢
  split at h
  · obtain ⟨c', hc', hid⟩ := Option.map_eq_some_iff.mp h
    obtain ⟨c, hc, hgrown⟩ := hgrown _ c' hc'
    rw [hc, Option.map_some, ← hgrown.keeps.channelId, hid]
  · exact h

/-- What the upstream has done since then does not concern what it had done before. -/
theorem AllLinked.grown {sent : NewExtendedMiningJob → Prop} (h : AllLinked api cfg u s)
    (hgrown : ChannelsGrown api sent s s')
    (hassigned : ∀ w b, u.assigned.lookup w = some b → u'.assigned.lookup w = some b)
    (hcaptured : ∀ m w b, u.captured m w = some b → u'.captured m w = some b)
    (hsent : ∀ m w b, sent m → u.assigned.lookup w = some b → u'.captured m w = some b) :
    AllLinked api cfg u' s' := by
  intro k c' w hc' hw
  obtain ⟨c, hc, hchannel⟩ := hgrown k c' hc'
  exact (h k c w hc (upstreamChannelId_grown hgrown hw)).grown hchannel (hassigned w)
    (fun m => hcaptured m w) (fun m => hsent m w)

/-- Nothing new of the upstream, and no job. -/
theorem AllLinked.kept (h : AllLinked api cfg u s) (hgrown : ChannelsGrown api NoJob s s') :
    AllLinked api cfg u s' :=
  h.grown hgrown (fun _ _ hb => hb) (fun _ _ _ hb => hb) (fun _ _ _ hnone => hnone.elim)

theorem AllLinked.setChannel {k : ChannelId} {c : Ch} (h : AllLinked api cfg u s)
    (hk : cfg.mode = .aggregated → k ≠ aggregatedChannelId)
    (hc : ∀ w, upstreamChannelId api cfg s k = some w → Linked api u w c) :
    AllLinked api cfg u (s.setChannel k c) := by
  have hid : ∀ j, upstreamChannelId api cfg (s.setChannel k c) j = upstreamChannelId api cfg s j := by
    intro j
    unfold upstreamChannelId
    split
    next hmode =>
      simp only [ChannelManager.setChannel, KeyMap.lookup_insert_eq, if_neg (hk hmode).symm]
    · rfl
  intro j d w hd hw
  rw [hid] at hw
  simp only [ChannelManager.setChannel, KeyMap.lookup_insert_eq] at hd
  split at hd
  next hj =>
    cases hd
    rw [hj] at hw
    exact hc w hw
  · exact h j d w hd hw

/-! ## Channels of an aggregated link -/

/-- The jobs of a new channel are jobs of the shared one, with its own local part. -/
structure Inherited (api : ClientChannels Ch Gr Al) (aggregate c c' : Ch) : Prop where
  sameLocal : SameLocal api c c'
  jobs : ∀ j ∈ api.heldJobs c', ∃ i ∈ api.heldJobs aggregate,
    SameJob i.message j.message ∧
      j.extranoncePrefix = i.extranoncePrefix ++ (api.getExtranoncePrefix c).localPart

namespace Inherited

variable {aggregate c c₁ c₂ : Ch}

theorem step (h : Inherited api aggregate c c₁) (hlocal : SameLocal api c₁ c₂)
    (hjobs : api.JobsFrom c₁ c₂) : Inherited api aggregate c c₂ := by
  refine ⟨h.sameLocal.trans hlocal, ?_⟩
  intro j hj
  obtain ⟨k, hk, hmessage, hjob⟩ := hjobs j hj
  obtain ⟨i, hi, hsame, hjob'⟩ := h.jobs k hk
  exact ⟨i, hi, hsame.trans hmessage, by rw [← hjob, hjob']⟩

theorem initPrefix (hapi : api.Lawful) (h : Inherited api aggregate c c₁) (k : ChannelId) (b : Bytes) :
    Meets (fun c₂ => Inherited api aggregate c c₂ ∧ (api.getExtranoncePrefix c₂).bytes =
      b ++ (api.getExtranoncePrefix c).localPart) AnyError (initPrefix api k c₁ b) := by
  refine (Meets.orThrow fun _ => trivial).mono ?_
  intro c₂ hc₂
  have hbytes := hapi.upstream_prefix hc₂
  refine ⟨h.step ⟨?_, ?_⟩ (hapi.upstream_jobs hc₂), ?_⟩
  · rw [hbytes]
    exact List.drop_left
  · rw [hbytes]
  · rw [hbytes, h.sameLocal.1]

theorem inheritJob (hapi : api.Lawful) (h : Inherited api aggregate c c₁) (k : ChannelId)
    {job : ExtendedJob} (hjob : job ∈ api.heldJobs aggregate) :
    Meets (Inherited api aggregate c) AnyError (inheritJob api k c₁ job) := by
  unfold ChannelManager.inheritJob
  refine (h.initPrefix hapi k _).bind ?_
  rintro c₂ ⟨h₂, hbytes⟩
  refine (Meets.orThrow fun _ => trivial).bind ?_
  intro c₃ hc₃
  obtain ⟨hkeeps, hfrom⟩ := hapi.target_keeps hc₃
  have h₃ := h₂.step (.of_keeps hkeeps) hfrom
  refine (Meets.orThrow fun _ => trivial).mono ?_
  intro c₄ hc₄
  refine ⟨h₃.sameLocal.trans (.of_keeps (hapi.job_keeps hc₄)), ?_⟩
  intro j hj
  rcases hapi.job_captures hc₄ j hj with ⟨hmessage, hcaptured⟩ | ⟨i, hi, hmessage, hcaptured⟩
  · refine ⟨job, hjob, by rw [hmessage]; exact ⟨rfl, rfl⟩, ?_⟩
    rw [hcaptured, hkeeps.extranoncePrefix, hbytes]
  · obtain ⟨i', hi', hsame, hjob'⟩ := h₃.jobs i hi
    exact ⟨i', hi', hsame.trans hmessage, by rw [← hcaptured, hjob']⟩

end Inherited

theorem inheritWork_inherited (hapi : api.Lawful) (aggregate c : Ch) (k : ChannelId)
    (hnone : api.heldJobs c = []) :
    Meets (fun r => Inherited api aggregate c r.1) AnyError (inheritWork api aggregate c k) := by
  have hfresh : Inherited api aggregate c c := by
    refine ⟨⟨rfl, rfl⟩, ?_⟩
    rw [hnone]
    intro j hj
    cases hj
  unfold inheritWork
  dsimp only
  refine (hfresh.initPrefix hapi k _).bind ?_
  rintro c₁ ⟨h₁, -⟩
  refine (Meets.foldlM (Inherited api aggregate c) ?_ ?_).bind ?_
  · intro c₃ h₃ job hjob
    refine h₃.inheritJob hapi k ?_
    unfold ClientChannels.heldJobs
    exact List.mem_append_left _ hjob
  · split
    · exact h₁.step (.of_keeps (hapi.tip_keeps _ _).1) (hapi.tip_keeps _ _).2
    · exact h₁
  intro c₃ h₃
  refine (h₃.initPrefix hapi k _).bind ?_
  rintro c₄ ⟨h₄, -⟩
  refine (Meets.orThrow fun _ => trivial).bind ?_
  intro c₅ hc₅
  obtain ⟨hkeeps, hfrom⟩ := hapi.target_keeps hc₅
  exact .pure (h₄.step (.of_keeps hkeeps) hfrom)

/-- A channel with the work of the shared one is linked as the shared one is. -/
theorem Linked.inherited {aggregate c c' : Ch} (h : Linked api u w aggregate)
    (hlocal : (api.getExtranoncePrefix aggregate).localPart = [])
    (hinherited : Inherited api aggregate c c')
    (hcurrent : api.getExtranoncePrefix c' =
      ⟨(api.getExtranoncePrefix aggregate).bytes ++ (api.getExtranoncePrefix c).localPart,
        (api.getExtranoncePrefix aggregate).bytes.length, (api.getExtranoncePrefix c).localIndex⟩) :
    Linked api u w c' := by
  obtain ⟨b, hb, hbytes, -⟩ := h.current
  rw [hlocal, List.append_nil] at hbytes
  refine ⟨⟨b, hb, ?_, ?_⟩, ?_⟩
  · rw [hinherited.sameLocal.1, hcurrent, hbytes]
  · rw [hcurrent, hbytes]
  · intro j hj
    obtain ⟨i, hi, hsame, hjob⟩ := hinherited.jobs j hj
    obtain ⟨b', hb', hjob'⟩ := h.jobs i hi
    rw [hlocal, List.append_nil] at hjob'
    exact ⟨b', by rw [← u.captured_congr hsame]; exact hb', by rw [hjob, hjob', hinherited.sameLocal.1]⟩

theorem publishChannel_linked {aggregate c : Ch} {k : ChannelId} (h : AllLinked api cfg u s)
    (hk : k ≠ aggregatedChannelId)
    (hc : ∀ w, upstreamChannelId api cfg s k = some w → Linked api u w c) (successPrefix : Bytes)
    (requestId : RequestId) (n : Nat) :
    Meets (AllLinked api cfg u) AnyError
      (publishChannel api s aggregate c k successPrefix requestId n) := by
  have hset : AllLinked api cfg u (s.setChannel k c) := h.setChannel (fun _ => hk) hc
  unfold publishChannel
  refine (Meets.orThrow fun _ => trivial).bind ?_
  intro extranoncePrefix _
  dsimp only
  split
  · refine (forwardJob_channels _).mono ?_
    intro s' hs'
    exact hset.kept (.of_eq hs')
  · exact .pure (hset.kept (.of_eq rfl))

theorem Shared.localPart_nil {aggregate : Ch} {a : Al} (h : Shared api s aggregate a) :
    (api.getExtranoncePrefix aggregate).localPart = [] := by
  rw [h.upstreamPrefix]
  exact List.drop_length

section Aggregated

variable (hmode : cfg.mode = .aggregated)
include hmode

theorem upstreamChannelId_aggregated {aggregate : Ch}
    (h : s.extendedChannels.lookup aggregatedChannelId = some aggregate) (k : ChannelId) :
    upstreamChannelId api cfg s k = some (api.getChannelId aggregate) := by
  simp only [upstreamChannelId, hmode, h, Option.map_some]

theorem handleDownstreamChannelRequest_linked (hapi : api.Lawful) {aggregate : Ch} {a : Al}
    (hshared : Shared api s aggregate a) (h : AllLinked api cfg u s) (requestId : RequestId)
    (userIdentity : Identity) (n : Nat) :
    Meets (AllLinked api cfg u) AnyError
      (handleDownstreamChannelRequest api cfg s requestId userIdentity n) := by
  have hid : ∀ k, upstreamChannelId api cfg s k = some (api.getChannelId aggregate) :=
    upstreamChannelId_aggregated hmode hshared.found
  unfold handleDownstreamChannelRequest
  refine (Meets.orThrow fun _ => trivial).bind ?_
  intro aggregate' haggregate
  cases hshared.found.symm.trans haggregate
  refine (Meets.orThrow fun _ => trivial).bind ?_
  intro a₁ ha₁
  cases hshared.allocator.symm.trans ha₁
  dsimp only
  split
  · exact .pure (h.kept (.of_eq rfl))
  next a' p hallocated =>
    split
    · split
      · exact .pure (h.kept (.of_eq rfl))
      next k hk =>
        refine (Meets.orThrow fun _ => trivial).bind ?_
        intro c hc
        refine ((inheritWork_inherited hapi aggregate c k (hapi.new_jobs hc)).and
          (inheritWork_current hapi aggregate c k)).bind ?_
        rintro ⟨c', successPrefix⟩ ⟨hinherited, hcurrent⟩
        have hallocated : AllLinked api cfg u { s with aggregatedExtranonceAllocator := some a' } :=
          h.kept (.of_eq rfl)
        refine publishChannel_linked hallocated (nextChannelId_free hk).2.1 ?_ _ _ _
        intro w hw
        cases (hid k).symm.trans hw
        exact (h aggregatedChannelId aggregate _ hshared.found (hid _)).inherited
          hshared.localPart_nil hinherited hcurrent
    · exact .pure (h.kept (.of_eq rfl))

theorem openPending_linked (hapi : api.Lawful) {aggregate : Ch} {a : Al}
    (hshared : Shared api s aggregate a) (h : AllLinked api cfg u s) :
    Meets (AllLinked api cfg u) AnyError (openPendingAggregatedDownstreamChannels api cfg s) := by
  unfold openPendingAggregatedDownstreamChannels
  split
  · refine (Meets.foldlM (fun s' => (∃ aggregate a, Shared api s' aggregate a) ∧
      AllLinked api cfg u s') ?_ ?_).mono fun s' hs' => hs'.2
    · rintro s₁ ⟨⟨aggregate₁, a₁, hshared₁⟩, h₁⟩ e _
      refine ((handleDownstreamChannelRequest_joined hapi hshared₁ _ _ _).and
        (handleDownstreamChannelRequest_linked hmode hapi hshared₁ h₁ _ _ _)).mono ?_
      rintro s₂ ⟨hjoined, hlinked⟩
      exact ⟨hjoined.shared, hlinked⟩
    · exact ⟨⟨aggregate, a, hshared.of_eq rfl rfl⟩, h.kept (.of_eq rfl)⟩
  · exact .pure h

/-- The shared channel has the prefix that the upstream has just assigned, and the first miner
    a part of it; neither has a job. -/
theorem openAggregated_linked (hapi : api.Lawful) (m : OpenExtendedMiningChannelSuccess)
    (hempty : ∀ k, s.extendedChannels.lookup k = none)
    (hassigned : u.assigned.lookup m.channelId = some m.extranoncePrefix.1)
    (pending : PendingChannel) :
    Meets (fun r => AllLinked api cfg u r.1) AnyError (openAggregated api cfg s m pending) := by
  unfold openAggregated
  refine Meets.any.bind ?_
  intro _ _
  refine (buildAllocator_meets hapi m _ _).bind ?_
  rintro ⟨a', p⟩ ⟨a, hgranted, -, hlayout, i, -, hp⟩
  refine (Meets.orThrow fun _ => trivial).bind ?_
  intro upstreamPrefix hupstream
  refine (Meets.orThrow fun _ => trivial).bind ?_
  intro aggregate haggregate
  refine (Meets.orThrow fun _ => trivial).bind ?_
  intro c hc
  refine Meets.any.bind ?_
  intro extranoncePrefix _
  refine .pure ?_
  have hnoJob : ∀ {d : Ch}, api.heldJobs d = [] → ∀ j ∈ api.heldJobs d, ∃ b,
      u.captured j.message m.channelId = some b ∧
        j.extranoncePrefix = b ++ (api.getExtranoncePrefix d).localPart := by
    intro d hd j hj
    rw [hd] at hj
    cases hj
  have hshared : Linked api u m.channelId aggregate := by
    have hcurrent : api.getExtranoncePrefix aggregate =
        ⟨m.extranoncePrefix.1, m.extranoncePrefix.1.length, none⟩ := by
      rw [hapi.new_prefix haggregate, fromWire_eq hupstream, hlayout.upstreamPrefix, hgranted]
    refine ⟨⟨m.extranoncePrefix.1, hassigned, ?_, ?_⟩, hnoJob (hapi.new_jobs haggregate)⟩
    · rw [hcurrent]
      simp [ExtranoncePrefix.localPart]
    · rw [hcurrent]
  have hfirst : Linked api u m.channelId c := by
    have hcurrent : api.getExtranoncePrefix c = ownedPrefix api a i :=
      (hapi.new_prefix hc).trans hp
    refine ⟨⟨m.extranoncePrefix.1, hassigned, ?_, ?_⟩, hnoJob (hapi.new_jobs hc)⟩
    · rw [hcurrent, ownedPrefix_localPart, ownedPrefix, hgranted]
    · rw [hcurrent, ownedPrefix, hgranted]
  intro k d w hd hw
  dsimp only at hd hw
  simp only [setChannel, KeyMap.lookup_insert_eq] at hd
  simp only [upstreamChannelId, hmode, setChannel, KeyMap.lookup_insert_eq,
    if_neg (show aggregatedChannelId ≠ 1 by decide), if_true, Option.map_some,
    Option.some.injEq] at hw
  rw [← hw, hapi.new_id haggregate]
  split at hd
  · cases hd
    exact hfirst
  split at hd
  · cases hd
    exact hshared
  · rw [hempty] at hd
    cases hd

end Aggregated

/-! ## Prefixes that the upstream assigns -/

theorem Linked.assign {k : ChannelId} {c : Ch} (h : Linked api u w c) (hk : w ≠ k) (b : Bytes) :
    Linked api (u.assign k b) w c := by
  obtain ⟨b', hb', hbytes⟩ := h.current
  refine ⟨⟨b', ?_, hbytes⟩, h.jobs⟩
  simp only [Upstream.assign, KeyMap.lookup_insert_eq, if_neg hk]
  exact hb'

/-- No channel is known to the upstream by the id. -/
theorem AllLinked.assign (h : AllLinked api cfg u s) {k : ChannelId} (b : Bytes)
    (hk : ∀ j c, s.extendedChannels.lookup j = some c → upstreamChannelId api cfg s j ≠ some k) :
    AllLinked api cfg (u.assign k b) s := by
  intro j c w hc hw
  refine (h j c w hc hw).assign ?_ b
  rintro rfl
  exact hk j c hc hw

/-- The prefix of a channel is replaced; its jobs keep what they have captured. -/
theorem Linked.moved (hapi : api.Lawful) {c c' : Ch} {b : Bytes} (h : Linked api u w c)
    (hc' : api.setUpstreamExtranoncePrefix c b = some c') : Linked api (u.assign w b) w c' := by
  have hcurrent := hapi.upstream_prefix hc'
  have hlocal : (api.getExtranoncePrefix c').localPart = (api.getExtranoncePrefix c).localPart := by
    rw [hcurrent]
    exact List.drop_left
  refine ⟨⟨b, by simp [Upstream.assign], ?_, ?_⟩, ?_⟩
  · rw [hlocal, hcurrent]
  · rw [hcurrent]
  · intro j hj
    obtain ⟨i, hi, hmessage, hjob⟩ := hapi.upstream_jobs hc' j hj
    obtain ⟨b', hb', hjob'⟩ := h.jobs i hi
    rw [u.captured_congr hmessage] at hb'
    exact ⟨b', hb', by rw [hlocal, ← hjob, hjob']⟩

/-- A log-only error leaves the loop running, with the state that there was. -/
def StillLinked (api : ClientChannels Ch Gr Al) (cfg : Config) (u : Upstream)
    (s : ChannelManager Ch Gr Al) (err : TproxyError) : Prop :=
  err.action = .log → AllLinked api cfg u s

theorem stillLinked_shutdown (kind : ErrorKind) : StillLinked api cfg u s (.shutdown kind) := by
  intro hlogged
  cases hlogged

theorem stillLinked_fallback (kind : ErrorKind) : StillLinked api cfg u s (.fallback kind) := by
  intro hlogged
  cases hlogged

theorem meets_stillLinked {α : Type} {P : α → Prop} {x : Except TproxyError α}
    (hx : Meets P AnyError x) (h : AllLinked api cfg u s) :
    Meets P (StillLinked api cfg u s) x :=
  hx.mono_error fun _ _ _ => h

theorem nonAggregatedPrefix_meets (hapi : api.Lawful) (m : OpenExtendedMiningChannelSuccess)
    (n : Nat) :
    Meets (fun p => p.bytes = m.extranoncePrefix.1 ++ p.localPart ∧
        p.upstreamPrefixLen = m.extranoncePrefix.1.length) AnyError
      (nonAggregatedPrefix api m n) := by
  unfold nonAggregatedPrefix
  split
  · refine (Meets.orThrow fun _ => trivial).mono ?_
    intro p hp
    rw [fromWire_eq hp]
    simp [ExtranoncePrefix.localPart]
  · refine Meets.any.bind ?_
    intro _ _
    refine (buildAllocator_meets hapi m _ _).bind ?_
    rintro ⟨a', p⟩ ⟨a, hgranted, -, -, i, -, hp⟩
    refine .pure ?_
    dsimp only at hp
    rw [hp, ownedPrefix_localPart, ownedPrefix, hgranted]
    exact ⟨rfl, rfl⟩

theorem openNonAggregated_linked (hapi : api.Lawful) (hmode : cfg.mode = .nonAggregated)
    (h : AllLinked api cfg u s) (m : OpenExtendedMiningChannelSuccess)
    (hassigned : u.assigned.lookup m.channelId = some m.extranoncePrefix.1)
    (pending : PendingChannel) :
    Meets (fun r => AllLinked api cfg u r.1) AnyError (openNonAggregated api cfg s m pending) := by
  unfold openNonAggregated
  refine Meets.any.bind ?_
  intro _ _
  refine (nonAggregatedPrefix_meets hapi m _).bind ?_
  rintro p ⟨hbytes, hlen⟩
  refine (Meets.orThrow fun _ => trivial).bind ?_
  intro c hc
  refine Meets.any.bind ?_
  intro extranoncePrefix _
  refine .pure (h.setChannel (fun haggregated => ?_) ?_)
  · rw [hmode] at haggregated
    cases haggregated
  intro w hw
  simp only [upstreamChannelId, hmode, Option.some.injEq] at hw
  rw [← hw]
  refine ⟨⟨m.extranoncePrefix.1, hassigned, ?_, ?_⟩, ?_⟩
  · rw [hapi.new_prefix hc]
    exact hbytes
  · rw [hapi.new_prefix hc]
    exact hlen
  · rw [hapi.new_jobs hc]
    intro j hj
    cases hj

theorem handleOpenSuccess_linked (hapi : api.Lawful)
    (hspace : cfg.mode = .aggregated → SpaceInv api s) (h : AllLinked api cfg u s)
    (m : OpenExtendedMiningChannelSuccess) :
    let u' := u.observe s (.openExtendedMiningChannelSuccess m)
    Meets (AllLinked api cfg u') (StillLinked api cfg u' s)
      (handleOpenExtendedMiningChannelSuccess api cfg s m) := by
  unfold handleOpenExtendedMiningChannelSuccess
  refine (Meets.orThrow ?_).bind ?_
  · intro hnone _
    simp only [Upstream.observe, hnone, Option.isSome_none]
    exact h
  intro pending hpending
  simp only [Upstream.observe, hpending, Option.isSome_some, if_true]
  split
  · exact .throw nofun
  next hcolliding =>
    have hassigned : (u.assign m.channelId m.extranoncePrefix.1).assigned.lookup m.channelId =
        some m.extranoncePrefix.1 := by
      simp [Upstream.assign]
    cases hmode : cfg.mode with
    | aggregated =>
      -- there is no shared channel yet, and so there is none
      have hempty : ∀ k, s.extendedChannels.lookup k = none := by
        refine ((hspace hmode).unconnected ?_).1
        intro hconnected
        rw [((hspace hmode).connected hconnected).2] at hpending
        cases hpending
      have hlinked : AllLinked api cfg (u.assign m.channelId m.extranoncePrefix.1) s := by
        intro k c w hc
        rw [hempty] at hc
        cases hc
      refine meets_stillLinked ?_ hlinked
      unfold joinGroup
      simp only [bind_assoc, pure_bind]
      refine Meets.any.bind ?_
      intro group _
      refine Meets.bind ((openAggregated_linked hmode hapi m ?_ hassigned pending).and
        (openAggregated_shared hapi ?_ m pending)) ?_
      · exact hempty
      · exact hempty
      rintro ⟨s₁, success⟩ ⟨hlinked₁, ⟨aggregate, a, hshared⟩, -⟩
      have hpublished : Shared api (s₁.publishOpenSuccess success) aggregate a :=
        hshared.of_eq rfl rfl
      exact openPending_linked hmode hapi hpublished (hlinked₁.kept (.of_eq rfl))
    | nonAggregated =>
      have hlinked : AllLinked api cfg (u.assign m.channelId m.extranoncePrefix.1) s := by
        refine h.assign _ ?_
        intro j c hc hw
        simp only [upstreamChannelId, hmode, Option.some.injEq] at hw
        rw [hw] at hc
        have hnew := (collidingChannelId_none hmode hcolliding).2.2.2.1
        rw [show ∀ t : ChannelManager Ch Gr Al, t.hasChannel m.channelId =
          (t.extendedChannels.lookup m.channelId).isSome from fun _ => rfl, hc] at hnew
        cases hnew
      refine meets_stillLinked ?_ hlinked
      unfold joinGroup
      simp only [bind_assoc, pure_bind]
      refine Meets.any.bind ?_
      intro group _
      have hjoined : AllLinked api cfg (u.assign m.channelId m.extranoncePrefix.1) { s with
          pendingDownstreamChannels := s.pendingDownstreamChannels.erase m.requestId
          groupChannels := s.groupChannels.insert m.groupChannelId group } :=
        hlinked.kept (.of_eq rfl)
      refine (openNonAggregated_linked hapi hmode hjoined m hassigned pending).bind ?_
      rintro ⟨s₁, success⟩ hlinked₁
      exact .pure (hlinked₁.kept (.of_eq rfl))

theorem handleSetExtranoncePrefix_linked (hapi : api.Lawful) (h : AllLinked api cfg u s)
    (k : ChannelId) (b : B032) :
    let u' := u.observe s (.setExtranoncePrefix k b)
    Meets (AllLinked api cfg u') (StillLinked api cfg u' s)
      (handleSetExtranoncePrefix api cfg s k b) := by
  simp only [Upstream.observe]
  unfold handleSetExtranoncePrefix
  split
  next hmode =>
    refine (Meets.orThrow fun _ => stillLinked_shutdown _).bind ?_
    intro aggregate haggregate
    have hid : ∀ j, upstreamChannelId api cfg s j = some (api.getChannelId aggregate) :=
      upstreamChannelId_aggregated hmode haggregate
    refine (Meets.require ?_).bind ?_
    · intro hother _
      refine h.assign _ ?_
      intro j c _ hw
      rw [hid, Option.some.injEq] at hw
      simp [hw] at hother
    intro _ haddressed
    rw [decide_eq_true_eq] at haddressed
    subst haddressed
    refine (Meets.require fun _ => stillLinked_fallback _).bind ?_
    intro _ _
    refine (Meets.orThrow fun _ => stillLinked_shutdown _).bind ?_
    intro a _
    refine (Meets.orThrow fun _ => stillLinked_fallback _).bind ?_
    intro a' _
    refine (Meets.orThrow fun _ => stillLinked_fallback _).bind ?_
    intro aggregate' haggregate'
    unfold updateDownstreamPrefixes
    refine (Meets.eq ?_).bind ?_
    · intro err herr
      obtain ⟨j, c, hfail⟩ := KeyMap.tryMap_error herr
      split at hfail
      · cases hfail
      · refine Meets.error (P := fun _ => True) ?_ hfail
        exact (Meets.orThrow fun _ => nofun).mono fun _ _ => trivial
    intro channels htried
    refine .pure ?_
    -- every channel is the moved one of a channel that there was
    have hmoved : ∀ j c', channels.lookup j = some c' → ∃ c,
        s.extendedChannels.lookup j = some c ∧
          api.setUpstreamExtranoncePrefix c b.1 = some c' := by
      intro j c' hc'
      obtain ⟨c, hc, hset⟩ := exists_of_rel_right (KeyMap.rel_tryMap htried j) hc'
      simp only [setChannel, KeyMap.lookup_insert_eq] at hc
      by_cases hj : j = aggregatedChannelId
      · rw [if_pos hj] at hc hset
        cases hc
        cases hset
        exact ⟨aggregate, by rw [hj]; exact haggregate, haggregate'⟩
      · rw [if_neg hj] at hc hset
        exact ⟨c, hc, orThrow_ok hset⟩
    intro j c' w hc' hw
    obtain ⟨c, hc, hset⟩ := hmoved j c' hc'
    have hw' : w = api.getChannelId aggregate := by
      simp only [upstreamChannelId, hmode] at hw
      obtain ⟨aggregate'', hfound, rfl⟩ := Option.map_eq_some_iff.mp hw
      obtain ⟨d, hd, hset'⟩ := hmoved _ aggregate'' hfound
      cases haggregate.symm.trans hd
      exact hapi.upstream_id hset'
    rw [hw']
    exact (h j c _ hc (hid j)).moved hapi hset
  next hmode =>
    have hid : ∀ (t : ChannelManager Ch Gr Al) j, upstreamChannelId api cfg t j = some j := by
      intro t j
      simp only [upstreamChannelId, hmode]
    refine (Meets.orThrow ?_).bind ?_
    · intro hnone _
      refine h.assign _ ?_
      intro j c hc hw
      rw [hid, Option.some.injEq] at hw
      rw [hw, hnone] at hc
      cases hc
    intro c hc
    refine (Meets.orThrow fun _ => stillLinked_fallback _).bind ?_
    intro c' hc'
    refine .pure ?_
    intro j d w hd hw
    cases (hid _ j).symm.trans hw
    simp only [setChannel, KeyMap.lookup_insert_eq] at hd
    split at hd
    next hj =>
      cases hd
      rw [hj]
      exact (h k c k hc (hid s k)).moved hapi hc'
    next hj => exact (h j d j hd (hid s j)).assign hj b.1

theorem handleOpenRequest_linked (hapi : api.Lawful)
    (hspace : cfg.mode = .aggregated → SpaceInv api s) (h : AllLinked api cfg u s)
    (m : OpenExtendedMiningChannel) :
    Meets (AllLinked api cfg u) AnyError (handleOpenExtendedMiningChannel api cfg s m) := by
  unfold handleOpenExtendedMiningChannel
  dsimp only
  split
  next hmode hconnected =>
    obtain ⟨⟨aggregate, a, hshared⟩, -⟩ := (hspace hmode).connected hconnected
    exact handleDownstreamChannelRequest_linked hmode hapi hshared h _ _ _
  · exact .pure (h.kept (.of_eq rfl))
  · refine Meets.any.bind ?_
    intro _ _
    exact .pure (h.kept (.of_eq rfl))
  · exact .pure (h.kept (.of_eq rfl))

theorem handle_linked (hapi : api.Lawful) (hspace : cfg.mode = .aggregated → SpaceInv api s)
    (h : AllLinked api cfg u s) (e : Event) :
    Meets (AllLinked api cfg (u.observe s e)) (StillLinked api cfg (u.observe s e) s)
      (handle api cfg s (u.number e)) := by
  have hgrown : ∀ {x : Except TproxyError (ChannelManager Ch Gr Al)},
      Meets (ChannelsGrown api NoJob s) AnyError x →
      Meets (AllLinked api cfg u) (StillLinked api cfg u s) x :=
    fun hx => meets_stillLinked (hx.mono fun s' hs' => h.kept hs') h
  cases e with
  | openExtendedMiningChannelSuccess m => exact handleOpenSuccess_linked hapi hspace h m
  | openMiningChannelError => exact .throw nofun
  | closeChannel k => exact hgrown (handleCloseChannel_grown k)
  | setExtranoncePrefix k b => exact handleSetExtranoncePrefix_linked hapi h k b
  | newExtendedMiningJob m =>
    have hsame : ChannelsGrown api NoJob s s := .refl s
    have hsent : AllLinked api cfg (u.send m.jobId) s :=
      h.grown hsame (fun _ _ hb => hb) (fun _ _ _ hb => Upstream.captured_send hb _)
        fun _ _ _ hnone => hnone.elim
    refine meets_stillLinked ?_ hsent
    refine (handleNewExtendedMiningJob_grown hapi _).mono ?_
    intro s' hs'
    refine h.grown hs' (fun _ _ hb => hb) (fun _ _ _ hb => Upstream.captured_send hb _) ?_
    rintro m' w b ⟨harrival, hjobId⟩ hb
    exact (u.captured_last harrival hjobId w).trans hb
  | setNewPrevHash m => exact hgrown (handleSetNewPrevHash_grown hapi m)
  | setTarget k target => exact hgrown (handleSetTarget_grown hapi k target)
  | setGroupChannel g ks => exact hgrown (handleSetGroupChannel_grown g ks)
  | openExtendedMiningChannel m =>
    exact meets_stillLinked (handleOpenRequest_linked hapi hspace h m) h
  | submitSharesExtended m => exact hgrown (handleSubmitSharesExtended_grown hapi m)
  | closeDownstreamChannel k => exact .pure (h.kept (handleCloseDownstreamChannel_grown k))

/-- As long as the loop runs, every channel is linked. -/
structure LinkInv (api : ClientChannels Ch Gr Al) (cfg : Config) (l : Link Ch Gr Al) : Prop where
  space : cfg.mode = .aggregated → SpaceInv api l.manager
  linked : l.manager.stopped = none → AllLinked api cfg l.upstream l.manager

theorem linkInv_start : LinkInv api cfg (Link.start : Link Ch Gr Al) :=
  ⟨fun _ => spaceInv_start, fun _ => by rintro k c w ⟨⟩⟩

theorem step_linkInv (hapi : api.Lawful) {l : Link Ch Gr Al} (h : LinkInv api cfg l) (act : Action) :
    LinkInv api cfg (l.step api cfg act) := by
  have hkept : ∀ {s' : ChannelManager Ch Gr Al}, s'.stopped = l.manager.stopped →
      (∀ k, s'.extendedChannels.lookup k = l.manager.extendedChannels.lookup k) →
      s'.stopped = none → AllLinked api cfg l.upstream s' := by
    intro s' hstopped hchannels hrunning
    rw [hstopped] at hrunning
    refine (h.linked hrunning).kept (.of_sub ?_)
    intro k c hc
    rw [hchannels] at hc
    exact hc
  cases act with
  | event e =>
    refine ⟨fun hmode =>
      (step_space hmode hapi (h.space hmode) (.event (l.upstream.number e))).1, ?_⟩
    intro hrunning
    have hstopped : ¬l.manager.stopped.isSome = true := by
      intro hstopped
      simp only [Link.step, step_event, if_pos hstopped] at hrunning
      rw [hrunning] at hstopped
      cases hstopped
    have hlinked := handle_linked hapi h.space (h.linked (by simpa using hstopped)) e
    simp only [Link.step, step_event, if_neg hstopped] at hrunning ⊢
    generalize handle api cfg l.manager (l.upstream.number e) = x at hlinked hrunning ⊢
    cases x with
    | ok s' => exact hlinked
    | error err =>
      dsimp only [fail] at hrunning ⊢
      split at hrunning
      next hlog =>
        rw [if_pos hlog]
        exact hlinked hlog
      · cases hrunning
  | touchChannel k =>
    exact ⟨fun hmode => (step_space hmode hapi (h.space hmode) (.touchChannel k)).1,
      hkept rfl fun j => KeyMap.lookup_modify_id _ k j⟩
  | touchPending r =>
    exact ⟨fun hmode => (step_space hmode hapi (h.space hmode) (.touchPending r)).1,
      hkept rfl fun _ => rfl⟩
  | touchGroup g =>
    exact ⟨fun hmode => (step_space hmode hapi (h.space hmode) (.touchGroup g)).1,
      hkept rfl fun _ => rfl⟩

/-! ## Shares -/

/-- The same share, apart from channel, number and extranonce. -/
structure SameShare (m f : SubmitSharesExtended) : Prop where
  jobId : f.jobId = m.jobId
  nonce : f.nonce = m.nonce
  ntime : f.ntime = m.ntime
  version : f.version = m.version

/-- The slice does not panic: the prefix is cut where its local part begins. -/
theorem rewriteExtranonce_meets {l b : Bytes} {n : Nat} (hn : n = b.length) (extranonce : B032) :
    Meets (fun x => x.1 = l ++ extranonce.1) (· ≠ .panicked)
      (rewriteExtranonce (b ++ l) n extranonce) := by
  subst hn
  unfold rewriteExtranonce
  refine (Meets.require ?_).bind ?_
  · intro hshort
    simp at hshort
  intro _ _
  refine (Meets.orThrow fun _ => nofun).mono ?_
  intro x hx
  unfold B032.ofBytes at hx
  split at hx <;> cases hx
  exact congrArg (· ++ extranonce.1) List.drop_left

/-- Nothing is forwarded, or one share, with the local part of the prefix in front. -/
def Forwards (api : ClientChannels Ch Gr Al) (cfg : Config) (s : ChannelManager Ch Gr Al)
    (m : SubmitSharesExtended) (c : Ch) (s' : ChannelManager Ch Gr Al) : Prop :=
  s'.toUpstream = s.toUpstream ∨ ∃ f, s'.toUpstream = s.toUpstream ++ [.submitSharesExtended f] ∧
    upstreamChannelId api cfg s m.channelId = some f.channelId ∧ SameShare m f ∧
    f.extranonce.1 = (api.getExtranoncePrefix c).localPart ++ m.extranonce.1

theorem handleSubmitSharesExtended_forwards (hapi : api.Lawful)
    (hspace : cfg.mode = .aggregated → SpaceInv api s) (h : AllLinked api cfg u s)
    {m : SubmitSharesExtended} {c : Ch} (hc : s.extendedChannels.lookup m.channelId = some c)
    (hminer : cfg.mode = .aggregated → m.channelId ≠ aggregatedChannelId) :
    Meets (Forwards api cfg s m c) (· ≠ .panicked) (handleSubmitSharesExtended api cfg s m) := by
  unfold handleSubmitSharesExtended
  split
  next aggregate hmode haggregate =>
    have hconnected : s.aggregatedChannelState = .connected := by
      by_contra hunconnected
      rw [((hspace hmode).unconnected hunconnected).1] at hc
      cases hc
    obtain ⟨⟨aggregate', a, hshared⟩, -⟩ := (hspace hmode).connected hconnected
    obtain ⟨-, i, -, howned⟩ := hshared.owned m.channelId c (hminer hmode) hc
    simp only [aggregatedExtranonce, hc, hshared.allocator]
    have hlocal : (api.getExtranoncePrefix c).localPart = api.localPartOf a i := by
      rw [howned, ownedPrefix_localPart]
    rw [howned]
    refine Meets.bind (rewriteExtranonce_meets rfl m.extranonce) ?_
    intro extranonce hextranonce
    split
    · refine .pure (Or.inr ⟨_, rfl, ?_, ⟨rfl, rfl, rfl, rfl⟩, ?_⟩)
      · exact upstreamChannelId_aggregated hmode haggregate _
      · rw [hlocal]
        exact hextranonce
    · exact .pure (Or.inl rfl)
  next hother =>
    have hmode : cfg.mode = .nonAggregated := by
      cases hmode : cfg.mode with
      | nonAggregated => rfl
      | aggregated =>
        -- a channel of a miner comes with the shared one
        have hconnected : s.aggregatedChannelState = .connected := by
          by_contra hunconnected
          rw [((hspace hmode).unconnected hunconnected).1] at hc
          cases hc
        obtain ⟨⟨aggregate, a, hshared⟩, -⟩ := (hspace hmode).connected hconnected
        exact (hother aggregate hmode hshared.found).elim
    have hid : upstreamChannelId api cfg s m.channelId = some m.channelId := by
      simp only [upstreamChannelId, hmode]
    obtain ⟨b, -, hbytes, hlen⟩ := (h m.channelId c m.channelId hc hid).current
    have hkeeps := (hapi.share_keeps c m).1.extranoncePrefix
    rw [hc]
    dsimp only
    split
    · rw [hkeeps, hbytes]
      refine Meets.bind (rewriteExtranonce_meets hlen m.extranonce) ?_
      intro extranonce hextranonce
      exact .pure (Or.inr ⟨_, rfl, hid, ⟨rfl, rfl, rfl, rfl⟩, hextranonce⟩)
    · exact .pure (Or.inl rfl)

/-- The channel of a miner, with its id. -/
def IsMiner (cfg : Config) (s : ChannelManager Ch Gr Al) (k : ChannelId) (c : Ch) : Prop :=
  s.extendedChannels.lookup k = some c ∧ (cfg.mode = .aggregated → k ≠ aggregatedChannelId)

/-- What the upstream puts in front of the forwarded extranonce makes it the one that the miner
    has hashed; the shared channel of an aggregated link has captured the same. -/
structure Reconstructs (api : ClientChannels Ch Gr Al) (cfg : Config) (l : Link Ch Gr Al)
    (m : SubmitSharesExtended) (j : ExtendedJob) (f : SubmitSharesExtended) : Prop where
  sameShare : SameShare m f
  extranonce : ∃ b, l.upstream.captured j.message f.channelId = some b ∧
    b ++ f.extranonce.1 = j.extranoncePrefix ++ m.extranonce.1
  shared : cfg.mode = .aggregated → ∃ aggregate,
    l.manager.extendedChannels.lookup aggregatedChannelId = some aggregate ∧
    f.channelId = api.getChannelId aggregate ∧
    ∀ i ∈ api.heldJobs aggregate, SameJob i.message j.message →
      i.extranoncePrefix ++ f.extranonce.1 = j.extranoncePrefix ++ m.extranonce.1

theorem reconstructs_of_forwarded {l : Link Ch Gr Al} {m f : SubmitSharesExtended} {c : Ch}
    {j : ExtendedJob} (hspace : cfg.mode = .aggregated → SpaceInv api l.manager)
    (h : AllLinked api cfg l.upstream l.manager) (hminer : IsMiner cfg l.manager m.channelId c)
    (hj : j ∈ api.heldJobs c)
    (hid : upstreamChannelId api cfg l.manager m.channelId = some f.channelId)
    (hsame : SameShare m f)
    (hextranonce : f.extranonce.1 = (api.getExtranoncePrefix c).localPart ++ m.extranonce.1) :
    Reconstructs api cfg l m j f := by
  obtain ⟨b, hb, hjob⟩ := (h m.channelId c f.channelId hminer.1 hid).jobs j hj
  have hwhole : b ++ f.extranonce.1 = j.extranoncePrefix ++ m.extranonce.1 := by
    rw [hextranonce, hjob, List.append_assoc]
  refine ⟨hsame, ⟨b, hb, hwhole⟩, ?_⟩
  intro hmode
  have hconnected : l.manager.aggregatedChannelState = .connected := by
    by_contra hunconnected
    have hnone := ((hspace hmode).unconnected hunconnected).1 m.channelId
    rw [hminer.1] at hnone
    cases hnone
  obtain ⟨⟨aggregate, a, hshared⟩, -⟩ := (hspace hmode).connected hconnected
  have hid' : ∀ k, upstreamChannelId api cfg l.manager k = some (api.getChannelId aggregate) :=
    upstreamChannelId_aggregated hmode hshared.found
  refine ⟨aggregate, hshared.found, Option.some.inj (hid.symm.trans (hid' _)), ?_⟩
  intro i hi hsameJob
  obtain ⟨b', hb', hjob'⟩ := (h _ aggregate _ hshared.found (hid' _)).jobs i hi
  rw [l.upstream.captured_congr hsameJob, ← Option.some.inj (hid.symm.trans (hid' _)), hb] at hb'
  cases hb'
  rw [hjob', hshared.localPart_nil, List.append_nil]
  exact hwhole

/-- Whatever has happened: a share of a job that the miner's channel holds does not make the
    manager panic, and if it is forwarded, once, the upstream reconstructs what was hashed. -/
theorem share_reconstructed (hapi : api.Lawful) (as : List Action) (m : SubmitSharesExtended)
    (c : Ch) (j : ExtendedJob) :
    let l := Link.after api cfg as
    IsMiner cfg l.manager m.channelId c → j ∈ api.heldJobs c → j.message.jobId = m.jobId →
    (l.manager.stopped = none →
      handle api cfg l.manager (.submitSharesExtended m) ≠ .error .panicked) ∧
    ∀ forwarded, (step api cfg l.manager (.event (.submitSharesExtended m))).toUpstream =
        l.manager.toUpstream ++ forwarded →
      forwarded = [] ∨ ∃ f, forwarded = [.submitSharesExtended f] ∧
        Reconstructs api cfg l m j f := by
  intro l hminer hj _
  have hinv : LinkInv api cfg l := Runs.run_invariant (LinkInv api cfg)
    (fun l act h => step_linkInv hapi h act) linkInv_start as
  have hforwards : l.manager.stopped = none →
      Meets (Forwards api cfg l.manager m c) (· ≠ .panicked)
        (handle api cfg l.manager (.submitSharesExtended m)) := fun hrunning =>
    handleSubmitSharesExtended_forwards hapi hinv.space (hinv.linked hrunning) hminer.1 hminer.2
  refine ⟨fun hrunning herr => (hforwards hrunning).error herr rfl, ?_⟩
  intro forwarded hforwarded
  have hnothing : ∀ {sent : List UpstreamMessage}, sent = l.manager.toUpstream →
      sent = l.manager.toUpstream ++ forwarded → forwarded = [] := by
    rintro sent rfl heq
    exact List.self_eq_append_right.mp heq
  cases hstopped : l.manager.stopped with
  | some err =>
    refine Or.inl (hnothing ?_ hforwarded)
    simp [step_event, hstopped]
  | none =>
    have hmeets := hforwards hstopped
    simp only [step_event, hstopped, Option.isSome_none] at hforwarded
    generalize handle api cfg l.manager (.submitSharesExtended m) = x at hmeets hforwarded
    cases x with
    | error err =>
      refine Or.inl (hnothing ?_ hforwarded)
      simp only [Bool.false_eq_true, if_false, fail]
      split <;> rfl
    | ok s' =>
      rcases hmeets with hsame | ⟨f, hsent, hid, hsame, hextranonce⟩
      · exact Or.inl (hnothing hsame hforwarded)
      · right
        refine ⟨f, ?_, reconstructs_of_forwarded hinv.space (hinv.linked hstopped) hminer hj hid hsame
          hextranonce⟩
        exact (List.append_cancel_left (hsent.symm.trans hforwarded)).symm

/-- The prev-hash that activates job 3. -/
def lateTip : SetNewPrevHash := ⟨5, 3, Hash256.allZeros, 40, 0x207fffff⟩

/-- The prefix becomes longer after a future job has been activated, and a miner joins after that. -/
def lateShareRun : List Action :=
  [sampleRequest 1, sampleGrant 1 5 7 samplePrefix, sampleJob 5 3 none,
   .event (.setNewPrevHash lateTip), .event (.setExtranoncePrefix 5 ⟨[2, 2, 2], by decide⟩),
   sampleRequest 2]

/-- The job, as the miner's channel has inherited it: with the time of the prev-hash. -/
def lateJob : ExtendedJob := ⟨⟨2, 3, some 40, true, [], [], 0⟩, [1, 1, 0], 9⟩

def lateChannel : ReferenceChannel :=
  ⟨2, ⟨[2, 2, 2, 1, 0], 3, some 1⟩, 9, 4, some lateJob, [], [], some lateTip⟩

def lateShare : SubmitSharesExtended := ⟨2, 0, 3, 0, 0, 0, ⟨[9, 9, 9, 9], by decide⟩⟩

def forwardedLateShare : SubmitSharesExtended :=
  ⟨5, 1, 3, 0, 0, 0, ⟨[1, 0, 9, 9, 9, 9], by decide⟩⟩

theorem share_reconstructed_late :
    let l := Link.after referenceChannels (sampleConfig .aggregated) lateShareRun
    Reconstructs referenceChannels (sampleConfig .aggregated) l lateShare lateJob
      forwardedLateShare := by
  intro l
  have hminer : IsMiner (sampleConfig .aggregated) l.manager 2 lateChannel :=
    ⟨by decide +kernel, fun _ => by decide⟩
  have hjob : lateJob ∈ referenceChannels.heldJobs lateChannel := by decide +kernel
  have hforwarded : (step referenceChannels (sampleConfig .aggregated) l.manager
      (.event (.submitSharesExtended lateShare))).toUpstream =
        l.manager.toUpstream ++ [.submitSharesExtended forwardedLateShare] := by
    decide +kernel
  rcases (share_reconstructed referenceChannels_lawful lateShareRun lateShare lateChannel lateJob
    hminer hjob rfl).2 _ hforwarded with hnone | ⟨f, hf, hreconstructs⟩
  · cases hnone
  · cases hf
    exact hreconstructs

end ChannelManager

end Sv2Apps.Translator
