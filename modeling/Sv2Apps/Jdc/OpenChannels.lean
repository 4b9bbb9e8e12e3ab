/-
  Jdc/OpenChannels.lean
  =====================
  **The open channels of the miners** — what a step of the client can do to them, to their jobs
  and to the map from jobs to templates (`ChannelMove`), said once for every step.

  A step opens one channel, gives the channels of one connection their jobs of a template, makes
  all of them stale but those that a prev-hash has activated, gives the channels of one connection
  new prefixes, or at most takes channels away.
-/
import Sv2Apps.Jdc.PendingOpens

namespace Sv2Apps.Jdc

open Bitcoin

inductive ChannelKind where
  | standard
  | extended
deriving DecidableEq

namespace Downstream

def channels (ds : Downstream) : ChannelKind → KeyMap ChannelId Channel
  | .standard => ds.standardChannels
  | .extended => ds.extendedChannels

/-- The id of the job that a channel of the connection is given for a template. -/
def jobIdOf (ds : Downstream) (groupJob : JobId) (ans : TemplateAnswers) :
    ChannelKind → ChannelId → Option JobId
  | .standard, ch => if ds.requireStdJob then ans.standardJob ch else some groupJob
  | .extended, _ => some groupJob

/-- The id of the job that is written down for a channel of the connection with a prev-hash. -/
def activatedJobIdOf (ds : Downstream) (ans : PrevHashAnswers) :
    ChannelKind → ChannelId → Option JobId
  | .standard, ch =>
    if ds.requireStdJob then (ans.standardJob ch).activeJob
    else if ds.groupChannelIds.isEmpty then none else ans.groupJob.activeJob
  | .extended, _ =>
    if ds.requireStdJob || ds.groupChannelIds.isEmpty then none else ans.groupJob.activeJob

/-- The job of a channel that is active after a prev-hash. -/
def activeJobOf (ans : PrevHashAnswers) : ChannelKind → ChannelId → Option JobId
  | .standard, ch => (ans.standardJob ch).activeJob
  | .extended, ch => (ans.extendedJob ch).activeJob

theorem lookup_activate {ans : PrevHashAnswers} {ds : Downstream} {k : ChannelKind} {ch : ChannelId}
    {c' : Channel} (h : ((ds.activate ans).channels k).lookup ch = some c') :
    ∃ c, (ds.channels k).lookup ch = some c ∧ c' = c.activate (activeJobOf ans k ch) := by
  have hmap : ((ds.activate ans).channels k).lookup ch =
      ((ds.channels k).lookup ch).map fun c => c.activate (activeJobOf ans k ch) := by
    cases k with
    | standard =>
      simp only [activate, channels, KeyMap.lookup_mapValues]
      rfl
    | extended =>
      simp only [activate, channels, KeyMap.lookup_mapValues]
      rfl
  rw [hmap] at h
  obtain ⟨c, hc, rfl⟩ := Option.map_eq_some_iff.mp h
  exact ⟨c, hc, rfl⟩

end Downstream

namespace ChannelManager

variable {env : Env} {s s' : ChannelManager} {d : DownstreamId}

/-- The channel is open at a connection that is there. -/
def IsOpen (s : ChannelManager) (d : DownstreamId) (k : ChannelKind) (ch : ChannelId) (c : Channel) :
    Prop :=
  ∃ ds, s.downstream.lookup d = some ds ∧ (ds.channels k).lookup ch = some c

theorem isOpen_of_downstream (hs' : s'.downstream = s.downstream)
    {k : ChannelKind} {ch : ChannelId} {c : Channel} (h : s'.IsOpen d k ch c) : s.IsOpen d k ch c := by
  obtain ⟨ds, hds, hc⟩ := h
  rw [hs'] at hds
  exact ⟨ds, hds, hc⟩

/-! ## The jobs of a template at a connection -/

/-- A channel has got its job of a template. -/
def TakesJob (ds : Downstream) (t : NewTemplate) (outs : List TxOut) (groupJob : JobId)
    (ans : TemplateAnswers) (k : ChannelKind) (ch : ChannelId) (c c' : Channel) : Prop :=
  ∃ jobId size, ds.jobIdOf groupJob ans k ch = some jobId ∧
    (size = ds.groupFullExtranonceSize ∨ size = c.fullExtranonceSize) ∧
    c' = { c.addJob jobId t outs size with
      ownJobs := if k = .standard ∧ ds.requireStdJob = true then c.ownJobs + 1 else c.ownJobs }

/-- The connection with its channels after a template. -/
structure TakesTemplate (ds ds' : Downstream) (t : NewTemplate) (outs : List TxOut)
    (groupJob : JobId) (ans : TemplateAnswers) : Prop where
  size : ds'.groupFullExtranonceSize = ds.groupFullExtranonceSize
  groupJobs : ds'.groupJobs = ds.groupJobs + 1
  groupTemplates : ds'.groupTemplates = ds.groupTemplates.insert groupJob t.templateId
  factory : ds'.channelIdFactory = ds.channelIdFactory
  requireStdJob : ds'.requireStdJob = ds.requireStdJob
  setUp : ds'.setUp = ds.setUp
  channels : ∀ k ch, Option.Rel (TakesJob ds t outs groupJob ans k ch) ((ds.channels k).lookup ch)
    ((ds'.channels k).lookup ch)

/-- The map after the given jobs of a connection have been written down as jobs of a template. -/
def MapsJobs (s s' : ChannelManager) (d : DownstreamId) (t : TemplateId)
    (jobs : List (ChannelId × JobId)) : Prop :=
  ∀ d' ch jobId, s'.jobToTemplateId.lookup (d', ch, jobId) =
    if d' = d ∧ (ch, jobId) ∈ jobs then some t else s.jobToTemplateId.lookup (d', ch, jobId)

theorem mapsJobs_mapJobs (s : ChannelManager) (d : DownstreamId) (t : TemplateId)
    (jobs : List (ChannelId × JobId)) : MapsJobs s (s.mapJobs d t jobs) d t jobs := by
  intro d' ch jobId
  rw [mapJobs, KeyMap.lookup_foldl_insert]
  have hmem : (d', ch, jobId) ∈ jobs.map (fun e => (d, e.1, e.2)) ↔
      d' = d ∧ (ch, jobId) ∈ jobs := by
    constructor
    · intro h
      obtain ⟨e, he, heq⟩ := List.mem_map.mp h
      cases heq
      exact ⟨rfl, he⟩
    · rintro ⟨rfl, h⟩
      exact List.mem_map.mpr ⟨_, h, rfl⟩
  simp only [hmem]

theorem standardOnNewTemplate_takesJob {ds : Downstream} {t : NewTemplate} {outs : List TxOut}
    {groupJob jobId : JobId} {ans : TemplateAnswers} {ch : ChannelId} {c c' : Channel}
    (h : standardOnNewTemplate ds t outs groupJob ans ch c = .ok (c', jobId)) :
    TakesJob ds t outs groupJob ans .standard ch c c' ∧
      ds.jobIdOf groupJob ans .standard ch = some jobId := by
  unfold standardOnNewTemplate at h
  split at h
  next hstd =>
    have hstd : ds.requireStdJob = false := by simpa using hstd
    split at h
    · cases h
      have hid : ds.jobIdOf groupJob ans .standard ch = some groupJob := by
        simp [Downstream.jobIdOf, hstd]
      refine ⟨⟨groupJob, _, hid, Or.inl rfl, ?_⟩, hid⟩
      rw [if_neg (by simp [hstd])]
      rfl
    · cases h
  next hstd =>
    have hstd : ds.requireStdJob = true := by simpa using hstd
    split at h
    · cases h
    next hjob =>
      cases h
      have hid : ds.jobIdOf groupJob ans .standard ch = some jobId := by
        simp [Downstream.jobIdOf, hstd, hjob]
      refine ⟨⟨jobId, _, hid, Or.inr rfl, ?_⟩, hid⟩
      rw [if_pos ⟨rfl, hstd⟩]

theorem extendedOnNewTemplate_takesJob {ds : Downstream} {t : NewTemplate} {outs : List TxOut}
    {groupJob jobId : JobId} {ans : TemplateAnswers} {ch : ChannelId} {c c' : Channel}
    (h : extendedOnNewTemplate ds t outs groupJob ans ch c = .ok (c', jobId)) :
    TakesJob ds t outs groupJob ans .extended ch c c' ∧
      ds.jobIdOf groupJob ans .extended ch = some jobId := by
  unfold extendedOnNewTemplate at h
  split at h
  · cases h
    refine ⟨⟨groupJob, _, rfl, Or.inl rfl, ?_⟩, rfl⟩
    rw [if_neg (by simp)]
    rfl
  · cases h

/-- The channels after a fallible pass over them, and the ids that the pass gave. -/
theorem takesJob_of_tryMap {ds : Downstream} {t : NewTemplate} {outs : List TxOut} {groupJob : JobId}
    {ans : TemplateAnswers} {k : ChannelKind}
    {f : ChannelId → Channel → Except Fault (Channel × JobId)}
    (hf : ∀ {ch c c' jobId}, f ch c = .ok (c', jobId) →
      TakesJob ds t outs groupJob ans k ch c c' ∧ ds.jobIdOf groupJob ans k ch = some jobId)
    {m : KeyMap ChannelId Channel} {m' : KeyMap ChannelId (Channel × JobId)}
    (h : KeyMap.tryMap f m = .ok m') :
    (∀ ch, Option.Rel (TakesJob ds t outs groupJob ans k ch) (m.lookup ch)
      ((KeyMap.mapValues (fun _ c => c.1) m').lookup ch)) ∧
    ∀ ch jobId, (ch, jobId) ∈ m'.entries.map (fun e => (e.1, e.2.2)) ↔
      (∃ c, m.lookup ch = some c) ∧ ds.jobIdOf groupJob ans k ch = some jobId := by
  refine ⟨?_, ?_⟩
  · intro ch
    rw [KeyMap.lookup_mapValues]
    generalize hv : m.lookup ch = v, hw : m'.lookup ch = w
    have hrel := KeyMap.rel_tryMap h ch
    rw [hv, hw] at hrel
    cases hrel with
    | none => exact .none
    | some hfw => exact .some (hf hfw).1
  · intro ch jobId
    constructor
    · intro hmem
      obtain ⟨⟨ch', c', id⟩, he, heq⟩ := List.mem_map.mp hmem
      cases heq
      obtain ⟨c, hc, hfc⟩ := KeyMap.lookup_tryMap_some h ((KeyMap.mem_entries_iff _ _ _).mp he)
      exact ⟨⟨c, hc⟩, (hf hfc).2⟩
    · rintro ⟨⟨c, hc⟩, hid⟩
      obtain ⟨⟨c', id⟩, hfc, hlookup⟩ := (KeyMap.lookup_tryMap h ch).1 c hc
      have heq : id = jobId := by
        have hid' := (hf hfc).2
        rw [hid] at hid'
        exact (Option.some.inj hid').symm
      subst heq
      exact List.mem_map.mpr ⟨⟨ch, c', id⟩, (KeyMap.mem_entries_iff _ _ _).mpr hlookup, rfl⟩

theorem visitNewTemplate_takes {t : NewTemplate} {ctx : TemplateContext} {ds : Downstream}
    {ans : TemplateAnswers} {out : List Message}
    (h : s.visitNewTemplate t ctx d ds ans = .ok (s', out)) :
    ∃ ds' groupJob jobs, ans.groupJob = some groupJob ∧
      TakesTemplate ds ds' t ctx.outputs groupJob ans ∧
      s'.downstream = s.downstream.insert d ds' ∧
      MapsJobs s s' d t.templateId jobs ∧
      ∀ ch jobId, (ch, jobId) ∈ jobs ↔
        ∃ k c, (ds.channels k).lookup ch = some c ∧ ds.jobIdOf groupJob ans k ch = some jobId := by
  have hkeep : ∀ s₁, (s.templateCustomJob t ctx ans.customJobBuilt).1 = s₁ →
      s₁.downstream = s.downstream ∧ s₁.jobToTemplateId = s.jobToTemplateId := by
    rintro s₁ rfl
    obtain ⟨n, store, heq⟩ := templateCustomJob_frame s t ctx ans.customJobBuilt
    rw [heq]
    exact ⟨rfl, rfl⟩
  unfold visitNewTemplate at h
  split at h
  · cases h
  next groupJob hgroup =>
  dsimp only at h
  split at h
  · cases h
  next std hstd =>
  split at h
  · cases h
  next ext hext =>
  cases h
  obtain ⟨hdownstream, hmap⟩ := hkeep _ rfl
  obtain ⟨hstdRel, hstdIds⟩ := takesJob_of_tryMap standardOnNewTemplate_takesJob hstd
  obtain ⟨hextRel, hextIds⟩ := takesJob_of_tryMap extendedOnNewTemplate_takesJob hext
  refine ⟨{ ds with
      groupJobs := ds.groupJobs + 1
      groupTemplates := ds.groupTemplates.insert groupJob t.templateId
      standardChannels := KeyMap.mapValues (fun _ c => c.1) std
      extendedChannels := KeyMap.mapValues (fun _ c => c.1) ext }, groupJob, std.entries.map (fun e => (e.1, e.2.2)) ++
    ext.entries.map (fun e => (e.1, e.2.2)), hgroup, ⟨rfl, rfl, rfl, rfl, rfl, rfl, ?_⟩,
    by simp only [mapJobs, hdownstream], ?_, ?_⟩
  · intro k ch
    cases k with
    | standard => exact hstdRel ch
    | extended => exact hextRel ch
  · intro d' ch jobId
    have hmapped := mapsJobs_mapJobs
      { (s.templateCustomJob t ctx ans.customJobBuilt).1 with
        downstream := (s.templateCustomJob t ctx ans.customJobBuilt).1.downstream.insert d
          { ds with
            groupJobs := ds.groupJobs + 1
            groupTemplates := ds.groupTemplates.insert groupJob t.templateId
            standardChannels := KeyMap.mapValues (fun _ c => c.1) std
            extendedChannels := KeyMap.mapValues (fun _ c => c.1) ext } } d t.templateId
      (std.entries.map (fun e => (e.1, e.2.2)) ++ ext.entries.map (fun e => (e.1, e.2.2))) d' ch jobId
    rw [hmapped, hmap]
  · intro ch jobId
    rw [List.mem_append, hstdIds, hextIds]
    constructor
    · rintro (⟨⟨c, hc⟩, hid⟩ | ⟨⟨c, hc⟩, hid⟩)
      · exact ⟨.standard, c, hc, hid⟩
      · exact ⟨.extended, c, hc, hid⟩
    · rintro ⟨k, c, hc, hid⟩
      cases k with
      | standard => exact Or.inl ⟨⟨c, hc⟩, hid⟩
      | extended => exact Or.inr ⟨⟨c, hc⟩, hid⟩

theorem visitSetNewPrevHash_activates {p : SetNewPrevHash} {ds : Downstream} {ans : PrevHashAnswers}
    {out : List Message} (h : s.visitSetNewPrevHash p d ds ans = .ok (s', out)) :
    ∃ jobs, s'.downstream = s.downstream.insert d (ds.activate ans) ∧
      MapsJobs s s' d p.templateId jobs ∧
      ∀ ch jobId, (ch, jobId) ∈ jobs →
        ∃ k c, (ds.channels k).lookup ch = some c ∧ ds.activatedJobIdOf ans k ch = some jobId := by
  unfold visitSetNewPrevHash at h
  split at h
  · cases h
  · cases h
  next groupJob hgroup =>
  split at h
  · cases h
  next std hstd =>
  split at h
  · cases h
  next ext hext =>
  split at h
  next hrequire =>
    cases h
    refine ⟨_, rfl, mapsJobs_mapJobs _ d p.templateId _, ?_⟩
    intro ch jobId hmem
    obtain ⟨⟨ch', id⟩, he, heq⟩ := List.mem_filterMap.mp hmem
    obtain ⟨active, hactive, hpair⟩ := Option.map_eq_some_iff.mp heq
    cases hpair
    obtain ⟨c, hc, hjob⟩ := KeyMap.lookup_tryMap_some hstd ((KeyMap.mem_entries_iff _ _ _).mp he)
    refine ⟨.standard, c, hc, ?_⟩
    dsimp only at hactive
    rw [hactive] at hjob
    unfold standardOnSetNewPrevHash at hjob
    split at hjob
    · cases hjob
    · split at hjob <;> cases hjob
    next hactivated =>
      cases hjob
      simp [Downstream.activatedJobIdOf, hrequire, hactivated, PrevHashAnswer.activeJob]
  next hrequire =>
  have hrequire : ds.requireStdJob = false := by simpa using hrequire
  split at h
  · cases h
    refine ⟨[], rfl, ?_, by simp⟩
    intro d' ch jobId
    simp
  next hempty =>
    have hempty : ds.groupChannelIds.isEmpty = false := by simpa using hempty
    have hactivated : ans.groupJob.activeJob = some groupJob := by
      rw [hgroup]
      rfl
    cases h
    refine ⟨_, rfl, mapsJobs_mapJobs _ d p.templateId _, ?_⟩
    intro ch jobId hmem
    obtain ⟨ch', hch, heq⟩ := List.mem_map.mp hmem
    cases heq
    rcases List.mem_append.mp hch with hch | hch
    · obtain ⟨id, hid⟩ := Option.isSome_iff_exists.mp (AList.lookup_isSome.mpr hch)
      obtain ⟨c, hc, -⟩ := KeyMap.lookup_tryMap_some hstd hid
      exact ⟨.standard, c, hc, by simp [Downstream.activatedJobIdOf, hrequire, hempty, hactivated]⟩
    · obtain ⟨id, hid⟩ := Option.isSome_iff_exists.mp (AList.lookup_isSome.mpr hch)
      obtain ⟨c, hc, -⟩ := KeyMap.lookup_tryMap_some hext hid
      exact ⟨.extended, c, hc, by simp [Downstream.activatedJobIdOf, hrequire, hempty, hactivated]⟩

/-! ## What a step does -/

/-- Channels have at most been taken away from the connection. -/
structure DownstreamKept (ds ds' : Downstream) : Prop where
  channels : ∀ k ch c, (ds'.channels k).lookup ch = some c → (ds.channels k).lookup ch = some c
  groupJobs : ds'.groupJobs = ds.groupJobs
  groupTemplates : ds'.groupTemplates = ds.groupTemplates
  setUp : ds.setUp = true → ds'.requireStdJob = ds.requireStdJob ∧ ds'.setUp = true

theorem DownstreamKept.refl (ds : Downstream) : DownstreamKept ds ds :=
  ⟨fun _ _ _ h => h, rfl, rfl, fun h => ⟨rfl, h⟩⟩

/-- Connections and channels have at most gone away, or one connection without channels has come;
    the map has lost the entries of the connections that are gone. -/
structure ChannelsKept (s s' : ChannelManager) : Prop where
  connections : ∀ d ds', s'.downstream.lookup d = some ds' →
    (∃ ds, s.downstream.lookup d = some ds ∧ DownstreamKept ds ds') ∨
      ∃ size, ds' = .new size ∧ (s.accepting.lookup d).isSome = true ∧
        s'.accepting.lookup d = none
  map : ∀ key, s'.isRegistered key.1 = true →
    s'.jobToTemplateId.lookup key = s.jobToTemplateId.lookup key
  mapped : ∀ key, (s'.jobToTemplateId.lookup key).isSome = true →
    (s.jobToTemplateId.lookup key).isSome = true ∧
      (s.isRegistered key.1 = true → s'.isRegistered key.1 = true)

/-- A channel has been added to the connection. -/
structure OpensChannel (ds ds' : Downstream) (k : ChannelKind) (c : Channel) : Prop where
  opened : ds'.channels k = (ds.channels k).insert ds.channelIdFactory c
  others : ∀ k', k' ≠ k → ds'.channels k' = ds.channels k'
  factory : ds'.channelIdFactory = ds.channelIdFactory + 1
  size : ds'.groupFullExtranonceSize = ds.groupFullExtranonceSize
  groupJobs : ds'.groupJobs = ds.groupJobs
  groupTemplates : ds'.groupTemplates = ds.groupTemplates
  requireStdJob : ds'.requireStdJob = ds.requireStdJob
  setUp : ds'.setUp = ds.setUp

/-- The channels of a connection after one has been opened. -/
theorem lookup_opened {ds ds' : Downstream} {k : ChannelKind} {c : Channel}
    (hnew : OpensChannel ds ds' k c) {k₁ : ChannelKind} {ch : ChannelId} {c₁ : Channel}
    (h : (ds'.channels k₁).lookup ch = some c₁) :
    (k₁ = k ∧ ch = ds.channelIdFactory ∧ c₁ = c) ∨
      (¬(k₁ = k ∧ ch = ds.channelIdFactory) ∧ (ds.channels k₁).lookup ch = some c₁) := by
  by_cases hk : k₁ = k
  · subst hk
    rw [hnew.opened, KeyMap.lookup_insert_eq] at h
    split at h
    next heq =>
      cases h
      exact Or.inl ⟨rfl, heq, rfl⟩
    next hne => exact Or.inr ⟨fun heq => hne heq.2, h⟩
  · rw [hnew.others k₁ hk] at h
    exact Or.inr ⟨fun heq => hk heq.1, h⟩

/-- The open request that an action handles, with the crate's answers. -/
def openOf (s : ChannelManager) : Action → Option (PendingRequest × OpenAnswers)
  | .event (.openChannel r ans) => some (r, ans)
  | .handlePending ans => match s.loop with
    | .pending (r :: _) => some (r, ans)
    | _ => none
  | _ => none

/-- What a channel that is opened can roll. -/
def openedRollable (s : ChannelManager) (extranoncePrefix : Bytes) : ChannelKind → Nat
  | .standard => 0
  | .extended => (rollableSize s.fullExtranonceSize extranoncePrefix.length).toNat

/-- The connection with renewed prefixes. -/
def renewedDownstream (generation : Nat) (ans : PrefixAnswers) (ds : Downstream) : Downstream :=
  { ds with
    standardChannels := KeyMap.mapValues (renew generation ans) ds.standardChannels
    extendedChannels := KeyMap.mapValues (renew generation ans) ds.extendedChannels }

theorem lookup_renewed {generation : Nat} {ans : PrefixAnswers} {ds : Downstream} {k : ChannelKind}
    {ch : ChannelId} {c' : Channel}
    (h : ((renewedDownstream generation ans ds).channels k).lookup ch = some c') :
    ∃ c, (ds.channels k).lookup ch = some c ∧ c' = renew generation ans ch c := by
  have hmap : ((renewedDownstream generation ans ds).channels k).lookup ch =
      ((ds.channels k).lookup ch).map (renew generation ans ch) := by
    cases k <;> exact KeyMap.lookup_mapValues _ _ _
  rw [hmap] at h
  obtain ⟨c, hc, rfl⟩ := Option.map_eq_some_iff.mp h
  exact ⟨c, hc, rfl⟩

/-- New prefixes leave the jobs alone. -/
theorem renew_jobs (generation : Nat) (ans : PrefixAnswers) (ch : ChannelId) (c : Channel) :
    (renew generation ans ch c).jobs = c.jobs ∧ (renew generation ans ch c).ownJobs = c.ownJobs ∧
      (renew generation ans ch c).live = c.live := by
  unfold renew
  split
  · split <;> exact ⟨rfl, rfl, rfl⟩
  · exact ⟨rfl, rfl, rfl⟩

/-- The requests that waited are being handled, or the loop is free and requests do not wait. -/
def OpensNow (s : ChannelManager) : Prop :=
  s.loop.waiting ≠ [] ∨
    s.loop = .idle ∧ (s.upstreamState = .connected ∨ s.upstreamState = .soloMining)

/-- What a step can do to the channels, their jobs, and the map from jobs to templates. -/
inductive ChannelMove (s : ChannelManager) : Action → ChannelManager → Prop
  | kept {a : Action} {s' : ChannelManager} (h : ChannelsKept s s') : ChannelMove s a s'
  | opened {a : Action} {s' : ChannelManager} (r : PendingRequest) (ans : OpenAnswers)
      (ds ds' : Downstream) (k : ChannelKind) (extranoncePrefix : Bytes) (t : NewTemplate)
      (raw outs : List TxOut) (jobId : JobId) (ha : s.openOf a = some (r, ans))
      (hds : s.downstream.lookup r.downstreamId = some ds)
      (hs' : s'.downstream = s.downstream.insert r.downstreamId ds')
      (hnew : OpensChannel ds ds' k (s.openedChannel extranoncePrefix
        (s.openedRollable extranoncePrefix k) t outs jobId))
      (hallocation : ans.allocation = .allocated extranoncePrefix)
      (hjob : ans.templateJob = some jobId) (ht : s.lastFutureTemplate = some t)
      (hraw : s.coinbaseOutputs = some raw)
      (houts : withFirstValue t.coinbaseTxValueRemaining raw = some outs)
      (hmap : s'.jobToTemplateId = s.jobToTemplateId.insert
        (r.downstreamId, ds.channelIdFactory, jobId) t.templateId)
      (p : SetNewPrevHash) (hprevHash : s.lastNewPrevHash = some p)
      (haccepted : ans.prevHashAccepted = true)
      (hstd : k = .extended → ds.requireStdJob = false) (hready : s.OpensNow) :
      ChannelMove s a s'
  | gotTemplate {d : DownstreamId} {ans : VisitAnswers} {s' : ChannelManager} (t : NewTemplate)
      (ctx : TemplateContext) (present visited : List DownstreamId) (messages : List Message)
      (ds ds' : Downstream) (groupJob : JobId) (jobs : List (ChannelId × JobId))
      (hloop : s.loop = .newTemplate t ctx present visited messages) (hnew : d ∉ visited)
      (hds : s.downstream.lookup d = some ds) (hs' : s'.downstream = s.downstream.insert d ds')
      (hgroup : ans.template.groupJob = some groupJob)
      (htakes : TakesTemplate ds ds' t ctx.outputs groupJob ans.template)
      (hmap : MapsJobs s s' d t.templateId jobs)
      (hjobs : ∀ ch jobId, (ch, jobId) ∈ jobs ↔ ∃ k c, (ds.channels k).lookup ch = some c ∧
        ds.jobIdOf groupJob ans.template k ch = some jobId) :
      ChannelMove s (.visit d ans) s'
  | activated {d : DownstreamId} {ans : VisitAnswers} {s' : ChannelManager} (p : SetNewPrevHash)
      (tokenConsumed : Bool) (present visited : List DownstreamId) (messages : List Message)
      (ds : Downstream) (jobs : List (ChannelId × JobId))
      (hloop : s.loop = .setNewPrevHash p tokenConsumed present visited messages)
      (hnew : d ∉ visited) (hds : s.downstream.lookup d = some ds)
      (hs' : s'.downstream = s.downstream.insert d (ds.activate ans.prevHash))
      (hmap : MapsJobs s s' d p.templateId jobs)
      (hjobs : ∀ ch jobId, (ch, jobId) ∈ jobs → ∃ k c, (ds.channels k).lookup ch = some c ∧
        ds.activatedJobIdOf ans.prevHash k ch = some jobId) :
      ChannelMove s (.visit d ans) s'
  | renewed {d : DownstreamId} {ans : VisitAnswers} {s' : ChannelManager}
      (present visited : List DownstreamId) (renewals : List Renewal) (ds : Downstream)
      (hloop : s.loop = .setExtranoncePrefix present visited renewals) (hnew : d ∉ visited)
      (hds : s.downstream.lookup d = some ds)
      (hs' : s'.downstream = s.downstream.insert d
        (renewedDownstream s.extranonceAllocator.generation ans.extranoncePrefix ds))
      (hmap : s'.jobToTemplateId = s.jobToTemplateId) :
      ChannelMove s (.visit d ans) s'

namespace ChannelsKept

theorem of_eq (hs' : s'.downstream = s.downstream) (hmap : s'.jobToTemplateId = s.jobToTemplateId) :
    ChannelsKept s s' := by
  refine ⟨?_, ?_, ?_⟩
  · intro d ds hds
    rw [hs'] at hds
    exact Or.inl ⟨ds, hds, .refl ds⟩
  · intro key _
    rw [hmap]
  · intro key hkey
    rw [hmap] at hkey
    rw [isRegistered, isRegistered, hs']
    exact ⟨hkey, id⟩

/-- One connection has at most lost channels. -/
theorem of_insert {ds ds' : Downstream} (hds : s.downstream.lookup d = some ds)
    (hkept : DownstreamKept ds ds') (hs' : s'.downstream = s.downstream.insert d ds')
    (hmap : s'.jobToTemplateId = s.jobToTemplateId) : ChannelsKept s s' := by
  refine ⟨?_, ?_, ?_⟩
  · intro d₁ ds₁ hds₁
    rw [hs', KeyMap.lookup_insert_eq] at hds₁
    split at hds₁
    next heq =>
      cases hds₁
      rw [heq]
      exact Or.inl ⟨ds, hds, hkept⟩
    · exact Or.inl ⟨ds₁, hds₁, .refl ds₁⟩
  · intro key _
    rw [hmap]
  · intro key hkey
    rw [hmap] at hkey
    rw [isRegistered_insert hds hs']
    exact ⟨hkey, id⟩

theorem removeDownstream (s : ChannelManager) (d : DownstreamId) :
    ChannelsKept s (s.removeDownstream d) := by
  have hmap : ∀ key, (s.removeDownstream d).jobToTemplateId.lookup key =
      (s.jobToTemplateId.lookup key).filter (fun _ => decide (key.1 ≠ d)) := by
    intro key
    exact KeyMap.lookup_retain _ _ _
  refine ⟨?_, ?_, ?_⟩
  · intro d₁ ds₁ hds₁
    exact Or.inl ⟨ds₁, KeyMap.lookup_erase_some hds₁, .refl ds₁⟩
  · intro key hkey
    have hne := (isRegistered_removeDownstream hkey).1
    rw [hmap]
    cases s.jobToTemplateId.lookup key with
    | none => rfl
    | some t => simp [hne]
  · intro key hkey
    rw [hmap] at hkey
    obtain ⟨t, ht⟩ := Option.isSome_iff_exists.mp hkey
    obtain ⟨hlookup, hne⟩ := Option.filter_eq_some_iff.mp ht
    refine ⟨by rw [hlookup]; rfl, ?_⟩
    intro hreg
    have hkept : (s.removeDownstream d).downstream.lookup key.1 =
        if key.1 = d then none else s.downstream.lookup key.1 := KeyMap.lookup_erase_eq _ _ _
    rw [isRegistered, hkept, if_neg (by simpa using hne)]
    exact hreg

theorem fail (s : ChannelManager) (f : Fault) : ChannelsKept s (s.fail f) := by
  cases f with
  | disconnect d =>
    have h := removeDownstream s d
    exact ⟨h.connections, h.map, h.mapped⟩
  | _ => exact .of_eq rfl rfl

/-- An error at a state that has the same channels. -/
theorem fail_of_eq (hs' : s'.downstream = s.downstream)
    (hmap : s'.jobToTemplateId = s.jobToTemplateId) (f : Fault) : ChannelsKept s (s'.fail f) := by
  have h := fail s' f
  refine ⟨?_, ?_, ?_⟩
  · intro d ds hds
    have hlookup : s'.downstream.lookup d = some ds := by
      cases f with
      | disconnect d' => exact KeyMap.lookup_erase_some hds
      | _ => exact hds
    rw [hs'] at hlookup
    exact Or.inl ⟨ds, hlookup, .refl ds⟩
  · rw [← hmap]
    exact h.map
  · intro key hkey
    have hkept := h.mapped key hkey
    rw [isRegistered, hs', hmap] at hkept
    exact hkept

theorem conclude {r : Except Fault ChannelManager} (hr : ∀ s', r = .ok s' → ChannelsKept s s') :
    ChannelsKept s (s.conclude r) := by
  cases r with
  | error f => exact .fail s f
  | ok s' =>
    have h := hr s' rfl
    exact ⟨h.connections, h.map, h.mapped⟩

theorem of_calm (h : Calm s s') : ChannelsKept s s' := .of_eq h.downstream h.jobTemplates

end ChannelsKept

/-- An open request at a state that differs from `s` only in what is recorded about requests. -/
theorem opens_move {a : Action} {r : PendingRequest} {ans : OpenAnswers}
    (ha : s.openOf a = some (r, ans)) {requests : List PendingRequest} {wrapped : Bool}
    (h : Opens { s with openRequests := requests, sizeWrapped := wrapped } r ans s')
    (hready : s.OpensNow) (loop : LoopTask) : ChannelMove s a { s' with loop := loop } := by
  cases h with
  | refused ds factory code hds =>
    refine .kept (.of_insert hds ?_ rfl rfl)
    refine ⟨?_, rfl, rfl, fun h => ⟨rfl, h⟩⟩
    intro k ch c hc
    cases k <;> exact hc
  | standard ds extranoncePrefix t p raw outs jobId group hkind hds hallocation ht hp hraw houts
      hjob haccepted =>
    refine .opened r ans ds _ .standard extranoncePrefix t raw outs jobId ha hds rfl
      ⟨rfl, ?_, rfl, rfl, rfl, rfl, rfl, rfl⟩ hallocation hjob ht hraw houts rfl
      p hp haccepted (fun hk => nomatch hk) hready
    intro k hk
    cases k with
    | standard => exact absurd rfl hk
    | extended => rfl
  | extended ds extranoncePrefix m t p raw outs jobId group hkind hds hstd hallocation ht hp hraw
      houts hjob haccepted =>
    refine .opened r ans ds _ .extended extranoncePrefix t raw outs jobId ha hds rfl
      ⟨rfl, ?_, rfl, rfl, rfl, rfl, rfl, rfl⟩ hallocation hjob ht hraw houts rfl
      p hp haccepted (fun _ => hstd) hready
    intro k hk
    cases k with
    | standard => rfl
    | extended => exact absurd rfl hk

theorem handleOpenNow_move {a : Action} {r : PendingRequest} {ans : OpenAnswers}
    (ha : s.openOf a = some (r, ans)) (hready : s.OpensNow) {requests : List PendingRequest} :
    ChannelMove s a ({ s with openRequests := requests }.handleOpenNow r ans) := by
  unfold ChannelManager.handleOpenNow
  obtain ⟨wrapped, hrecord⟩ := recordRollableSize_calm { s with openRequests := requests } r ans
  rw [hrecord]
  dsimp only
  generalize hopen : handleOpen _ r ans = result
  cases result with
  | error f =>
    refine .kept (.fail_of_eq ?_ ?_ f)
    · rfl
    · rfl
  | ok s₁ => exact opens_move ha (handleOpen_opens hopen) hready .idle

theorem handle_move (hloop : s.loop = .idle) (e : Event) :
    ChannelMove s (.event e) (s.handle env e) := by
  by_cases hcalm : e.isCalm = true
  · exact .kept (.of_calm (@handle_calm env s e hcalm hloop).toCalm)
  cases e with
  | openExtendedMiningChannelSuccess msg ans =>
    have hcases := receiveOpenSuccess_cases env s msg ans
    simp only [ChannelManager.handle]
    generalize s.receiveOpenSuccess env msg ans = s' at hcases ⊢
    cases hcases with
    | failed f wrapped hf => rcases hf with rfl | rfl <;> exact .kept (.of_eq rfl rfl)
    | noRequest _ => exact .kept (.of_eq rfl rfl)
    | refused _ => exact .kept (.of_eq rfl rfl)
    | configured raw s₁ customJob hraw hsize hpending hallocator hjob =>
      obtain ⟨tokens, n, jobs, rfl⟩ := openCustomJob_frame hjob
      exact .kept (.of_eq rfl rfl)
  | setExtranoncePrefix extranoncePrefix accepts built =>
    simp only [ChannelManager.handle, ChannelManager.receiveSetExtranoncePrefix]
    split
    · exact .kept (.of_eq rfl rfl)
    split
    · exact .kept (.of_eq rfl rfl)
    split
    · exact .kept (.of_eq rfl rfl)
    split
    · exact .kept (.of_eq rfl rfl)
    · exact .kept (.of_eq rfl rfl)
  | closeUpstreamChannel => exact .kept (.of_eq rfl rfl)
  | openChannel r ans =>
    simp only [ChannelManager.handle, ChannelManager.handleDownstreamOpen]
    split
    · exact .kept (.of_eq rfl rfl)
    · exact .kept (.of_eq rfl rfl)
    next hstate => exact handleOpenNow_move rfl (Or.inr ⟨hloop, Or.inl hstate⟩)
    next hstate => exact handleOpenNow_move rfl (Or.inr ⟨hloop, Or.inr hstate⟩)
  | closeChannel d channelId =>
    refine .kept (.conclude ?_)
    intro s' hs'
    unfold handleCloseChannel at hs'
    split at hs'
    · cases hs'
    next ds hds =>
      cases hs'
      refine .of_insert hds ?_ rfl rfl
      refine ⟨?_, rfl, rfl, fun h => ⟨rfl, h⟩⟩
      intro k ch c hc
      cases k with
      | standard => exact KeyMap.lookup_erase_some hc
      | extended => exact KeyMap.lookup_erase_some hc
  | submitSharesStandard d channelId jobId ans upstream =>
    refine .kept (.conclude ?_)
    intro s' hs'
    exact .of_calm (.of_sharesMoved (handleSubmitShares_moves hs'))
  | submitSharesExtended d channelId jobId extranonce ans upstream =>
    refine .kept (.conclude ?_)
    intro s' hs'
    exact .of_calm (.of_sharesMoved (handleSubmitShares_moves hs'))
  | _ => exact absurd rfl hcalm

theorem visit_move (d : DownstreamId) (ans : VisitAnswers) :
    ChannelMove s (.visit d ans) (s.visit d ans) := by
  unfold ChannelManager.visit
  split
  · exact .kept (.of_eq rfl rfl)
  next ds hds =>
  split
  next t ctx present visited messages hloop =>
    split
    · exact .kept (.of_eq rfl rfl)
    next hnew =>
    split
    · exact .kept (.fail s _)
    next s₁ ms hs₁ =>
      obtain ⟨ds', groupJob, jobs, hgroup, htakes, hs', hmap, hjobs⟩ := visitNewTemplate_takes hs₁
      exact .gotTemplate t ctx present visited messages ds ds' groupJob jobs hloop hnew hds hs' hgroup
        htakes hmap hjobs
  next p tokenConsumed present visited messages hloop =>
    split
    · exact .kept (.of_eq rfl rfl)
    next hnew =>
    split
    · exact .kept (.fail s _)
    next s₁ ms hs₁ =>
      obtain ⟨jobs, hs', hmap, hjobs⟩ := visitSetNewPrevHash_activates hs₁
      exact .activated p tokenConsumed present visited messages ds jobs hloop hnew hds hs' hmap hjobs
  next size customJob present visited hloop =>
    split
    · exact .kept (.of_eq rfl rfl)
    split
    · refine .kept (.of_insert hds ?_ rfl rfl)
      refine ⟨?_, rfl, rfl, fun h => ⟨rfl, h⟩⟩
      intro k ch c hc
      cases k <;> exact hc
    · exact .kept (.fail s _)
  next present visited renewals hloop =>
    split
    · exact .kept (.of_eq rfl rfl)
    next hnew => exact .renewed present visited renewals ds hloop hnew hds rfl rfl
  · exact .kept (.of_eq rfl rfl)

theorem step_move (env : Env) (s : ChannelManager) (a : Action) :
    ChannelMove s a (s.step env a) := by
  cases a with
  | event e =>
    simp only [ChannelManager.step]
    split
    next htakes => exact handle_move (takes_idle htakes) e
    · exact .kept (.of_eq rfl rfl)
  | visit d ans => exact visit_move d ans
  | finish => exact .kept (.of_eq (finish_keeps s).1 (finish_keeps s).2)
  | handlePending ans =>
    simp only [ChannelManager.step, ChannelManager.handlePending]
    split
    next r rest hloop =>
      have ha : s.openOf (.handlePending ans) = some (r, ans) := by
        simp [openOf, hloop]
      obtain ⟨wrapped, hrecord⟩ := recordRollableSize_calm s r ans
      rw [hrecord]
      split
      next f hf =>
        refine .kept (.fail_of_eq ?_ ?_ f)
        · rfl
        · rfl
      next s₁ hs₁ =>
        refine opens_move ha (handleOpen_opens hs₁) (Or.inl ?_) _
        rw [hloop]
        exact List.cons_ne_nil r rest
    · exact .kept (.of_eq rfl rfl)
  | accept =>
    simp only [ChannelManager.step, ChannelManager.accept]
    split <;> exact .kept (.of_eq rfl rfl)
  | bootstrap d built =>
    simp only [ChannelManager.step, ChannelManager.bootstrap]
    split
    · split
      · split <;> exact .kept (.of_eq rfl rfl)
      · exact .kept (.of_eq rfl rfl)
      · exact .kept (.of_eq rfl rfl)
    · exact .kept (.of_eq rfl rfl)
  | register d =>
    simp only [ChannelManager.step, ChannelManager.register]
    split
    next size hsize =>
      refine .kept ⟨?_, fun _ _ => rfl, ?_⟩
      · intro d' ds' hds'
        dsimp only at hds'
        rw [KeyMap.lookup_insert_eq] at hds'
        split at hds'
        next heq =>
          cases hds'
          refine Or.inr ⟨size, rfl, by rw [heq, hsize]; rfl, ?_⟩
          dsimp only
          rw [KeyMap.lookup_erase_eq, if_pos heq]
        · exact Or.inl ⟨ds', hds', .refl ds'⟩
      · intro key hkey
        refine ⟨hkey, ?_⟩
        intro hreg
        rw [isRegistered]
        dsimp only
        rw [KeyMap.lookup_insert_eq]
        split
        · rfl
        · exact hreg
    · exact .kept (.of_eq rfl rfl)
  | setUpConnection d requireStdJob =>
    have hlookup : ∀ d', (s.setUpConnection d requireStdJob).downstream.lookup d' =
        if d' = d then (s.downstream.lookup d).map fun ds =>
          if ds.setUp then ds else { ds with requireStdJob := requireStdJob, setUp := true }
        else s.downstream.lookup d' := fun d' => KeyMap.lookup_modify _ _ _ _
    refine .kept ⟨?_, fun _ _ => rfl, ?_⟩
    · intro d' ds' hds'
      rw [ChannelManager.step, hlookup] at hds'
      split at hds'
      next heq =>
        obtain ⟨ds, hds, rfl⟩ := Option.map_eq_some_iff.mp hds'
        rw [heq]
        refine Or.inl ⟨ds, hds, ?_⟩
        split
        · exact .refl ds
        next hsetUp =>
          refine ⟨?_, rfl, rfl, fun h => absurd h hsetUp⟩
          intro k ch c hc
          cases k <;> exact hc
      · exact Or.inl ⟨ds', hds', .refl ds'⟩
    · intro key hkey
      refine ⟨hkey, ?_⟩
      intro hreg
      rw [ChannelManager.step, isRegistered, hlookup]
      split
      next heq =>
        rw [heq, isRegistered] at hreg
        obtain ⟨ds, hds⟩ := Option.isSome_iff_exists.mp hreg
        rw [hds]
        rfl
      · exact hreg
  | removeDownstream d => exact .kept (.removeDownstream s d)

/-! ## Connections are set up before they open channels -/

/-- Every request that waits. -/
def waitingRequests (s : ChannelManager) : List PendingRequest :=
  s.pendingDownstreamRequests ++ s.loop.waiting

/-- The tasks of new connections have not moved, and nobody has begun to wait. -/
structure NobodyNew (s s' : ChannelManager) : Prop where
  accepting : s'.accepting = s.accepting
  factory : s'.downstreamIdFactory = s.downstreamIdFactory
  waiting : ∀ r ∈ s'.waitingRequests, r ∈ s.waitingRequests

namespace NobodyNew

theorem of_eq (haccepting : s'.accepting = s.accepting)
    (hfactory : s'.downstreamIdFactory = s.downstreamIdFactory)
    (hpending : s'.pendingDownstreamRequests = s.pendingDownstreamRequests)
    (hloop : ∀ r ∈ s'.loop.waiting, r ∈ s.loop.waiting) : NobodyNew s s' := by
  refine ⟨haccepting, hfactory, ?_⟩
  intro r hr
  rw [waitingRequests, hpending] at hr
  rcases List.mem_append.mp hr with hr | hr
  · exact List.mem_append_left _ hr
  · exact List.mem_append_right _ (hloop r hr)

theorem refl (s : ChannelManager) : NobodyNew s s := .of_eq rfl rfl rfl fun _ h => h

theorem fail (s : ChannelManager) (f : Fault) : NobodyNew s (s.fail f) := by
  cases f <;> exact .of_eq rfl rfl rfl (by simp [ChannelManager.fail, LoopTask.waiting])

end NobodyNew

theorem handleOpenNow_nobodyNew {r : PendingRequest} {ans : OpenAnswers}
    {requests : List PendingRequest} :
    NobodyNew s ({ s with openRequests := requests }.handleOpenNow r ans) := by
  unfold ChannelManager.handleOpenNow
  obtain ⟨wrapped, hrecord⟩ := recordRollableSize_calm { s with openRequests := requests } r ans
  rw [hrecord]
  dsimp only
  generalize hopen : handleOpen _ r ans = result
  cases result with
  | error f =>
    have h := NobodyNew.fail { s with openRequests := requests, sizeWrapped := wrapped } f
    exact ⟨h.accepting, h.factory, h.waiting⟩
  | ok s₁ =>
    have hone := (handleOpen_opens hopen).answersOne
    refine .of_eq hone.accepting hone.factory hone.pending ?_
    intro q hq
    cases hq

theorem conclude_nobodyNew {r : Except Fault ChannelManager}
    (hr : ∀ s', r = .ok s' → NobodyNew s s') : NobodyNew s (s.conclude r) := by
  cases r with
  | error f => exact .fail s f
  | ok s' =>
    have h := hr s' rfl
    refine ⟨h.accepting, h.factory, ?_⟩
    intro q hq
    apply h.waiting
    rcases List.mem_append.mp hq with hq | hq
    · exact List.mem_append_left _ hq
    · cases hq

/-- A message adds at most its own request to those that wait. -/
theorem handle_nobodyNew (hloop : s.loop = .idle) (e : Event) :
    NobodyNew s (s.handle env e) ∨ ∃ r ans, e = .openChannel r ans ∧
      (s.handle env e).accepting = s.accepting ∧
      (s.handle env e).downstreamIdFactory = s.downstreamIdFactory ∧
      ∀ q ∈ (s.handle env e).waitingRequests, q = r ∨ q ∈ s.waitingRequests := by
  by_cases hcalm : e.isCalm = true
  · have h := @handle_calm env s e hcalm hloop
    refine Or.inl (.of_eq h.accepting h.factory h.pending ?_)
    rw [LoopTask.waiting_of_isCalm h.loop]
    simp
  cases e with
  | openExtendedMiningChannelSuccess msg ans =>
    left
    have hcases := receiveOpenSuccess_cases env s msg ans
    simp only [ChannelManager.handle]
    generalize s.receiveOpenSuccess env msg ans = s' at hcases ⊢
    cases hcases with
    | failed f wrapped hf =>
      have h := NobodyNew.fail { s with sizeWrapped := wrapped } f
      exact ⟨h.accepting, h.factory, h.waiting⟩
    | noRequest _ => exact .of_eq rfl rfl rfl fun _ h => h
    | refused _ => exact .of_eq rfl rfl rfl fun _ h => h
    | configured raw s₁ customJob hraw hsize hpending hallocator hjob =>
      obtain ⟨tokens, n, jobs, rfl⟩ := openCustomJob_frame hjob
      exact .of_eq rfl rfl rfl (by simp [LoopTask.waiting])
  | setExtranoncePrefix extranoncePrefix accepts built =>
    left
    simp only [ChannelManager.handle, ChannelManager.receiveSetExtranoncePrefix]
    split
    · exact .refl s
    split
    · exact .fail s _
    split
    · exact .of_eq rfl rfl rfl (by simp [ChannelManager.fail, LoopTask.waiting])
    split
    · exact .of_eq rfl rfl rfl (by simp [ChannelManager.fail, LoopTask.waiting])
    · exact .of_eq rfl rfl rfl (by simp [LoopTask.waiting])
  | closeUpstreamChannel =>
    exact Or.inl (.of_eq rfl rfl rfl (by simp [ChannelManager.handle, ChannelManager.fail,
      LoopTask.waiting]))
  | openChannel r ans =>
    simp only [ChannelManager.handle, ChannelManager.handleDownstreamOpen]
    split
    · refine Or.inr ⟨r, ans, rfl, rfl, rfl, ?_⟩
      intro q hq
      exact List.mem_cons.mp hq
    · refine Or.inr ⟨r, ans, rfl, rfl, rfl, ?_⟩
      intro q hq
      simp only [waitingRequests, List.append_assoc, List.mem_append, List.mem_singleton] at hq ⊢
      rcases hq with hq | hq | hq
      · exact Or.inr (Or.inl hq)
      · exact Or.inl hq
      · exact Or.inr (Or.inr hq)
    · exact Or.inl handleOpenNow_nobodyNew
    · exact Or.inl handleOpenNow_nobodyNew
  | closeChannel d channelId =>
    refine Or.inl (conclude_nobodyNew ?_)
    intro s' hs'
    unfold handleCloseChannel at hs'
    split at hs' <;> cases hs'
    exact .of_eq rfl rfl rfl fun _ h => h
  | submitSharesStandard d channelId jobId ans upstream =>
    refine Or.inl (conclude_nobodyNew ?_)
    intro s' hs'
    have h := handleSubmitShares_moves hs'
    have hcalm := Calm.of_sharesMoved h
    exact .of_eq hcalm.accepting hcalm.factory hcalm.pending (by rw [h.loop]; exact fun _ h => h)
  | submitSharesExtended d channelId jobId extranonce ans upstream =>
    refine Or.inl (conclude_nobodyNew ?_)
    intro s' hs'
    have h := handleSubmitShares_moves hs'
    have hcalm := Calm.of_sharesMoved h
    exact .of_eq hcalm.accepting hcalm.factory hcalm.pending (by rw [h.loop]; exact fun _ h => h)
  | _ => exact absurd rfl hcalm

theorem visit_nobodyNew (d : DownstreamId) (ans : VisitAnswers) : NobodyNew s (s.visit d ans) := by
  unfold ChannelManager.visit
  split
  · exact .refl s
  next ds hds =>
  split
  · split
    · exact .refl s
    split
    · exact .fail s _
    next s₁ ms hs₁ =>
      obtain ⟨same, -⟩ := visitNewTemplate_requests hds hs₁
      exact .of_eq same.accepting same.factory same.pending (by simp [LoopTask.waiting])
  · split
    · exact .refl s
    split
    · exact .fail s _
    next s₁ ms hs₁ =>
      obtain ⟨jobs, rfl, -⟩ := visitSetNewPrevHash_ok hs₁
      exact .of_eq rfl rfl rfl (by simp [LoopTask.waiting])
  · split
    · exact .refl s
    split
    · exact .of_eq rfl rfl rfl (by simp [LoopTask.waiting])
    · exact .fail s _
  · split
    · exact .refl s
    · exact .of_eq rfl rfl rfl (by simp [LoopTask.waiting])
  · exact .refl s

theorem finish_nobodyNew (env : Env) (s : ChannelManager) : NobodyNew s (s.finish env) := by
  have htoken := Calm.replaceToken s
  unfold ChannelManager.finish
  split
  · split
    · exact .of_eq (htoken _).accepting (htoken _).factory (htoken _).pending
        (by simp [LoopTask.waiting])
    · exact .refl s
  · split
    · exact .of_eq (htoken _).accepting (htoken _).factory (htoken _).pending
        (by simp [LoopTask.waiting])
    · exact .refl s
  · split
    · unfold finishOpenSuccess
      generalize hs₁ : sendOpenCustomJob env (s.requestFutureTemplate env) _ = s₁
      have hsame : s₁.accepting = s.accepting ∧ s₁.downstreamIdFactory = s.downstreamIdFactory ∧
          s₁.pendingDownstreamRequests = s.pendingDownstreamRequests := by
        rw [← hs₁]
        unfold sendOpenCustomJob requestFutureTemplate
        split <;> split <;> exact ⟨rfl, rfl, rfl⟩
      refine ⟨hsame.1, hsame.2.1, ?_⟩
      intro r hr
      apply List.mem_append_left
      rw [← hsame.2.2]
      simp only [waitingRequests, takePending, List.nil_append] at hr
      split at hr
      · cases hr
      · exact hr
    · exact .refl s
  · split
    · exact .of_eq rfl rfl rfl (by simp [LoopTask.waiting])
    · exact .refl s
  · exact .refl s

theorem handlePending_nobodyNew (ans : OpenAnswers) : NobodyNew s (s.handlePending ans) := by
  unfold ChannelManager.handlePending
  split
  next r rest hloop =>
    obtain ⟨wrapped, hrecord⟩ := recordRollableSize_calm s r ans
    rw [hrecord]
    dsimp only
    split
    next f hf =>
      have h := NobodyNew.fail { s with sizeWrapped := wrapped } f
      exact ⟨h.accepting, h.factory, h.waiting⟩
    next s₁ hs₁ =>
      have hone := (handleOpen_opens hs₁).answersOne
      refine .of_eq hone.accepting hone.factory hone.pending ?_
      intro q hq
      rw [hloop]
      dsimp only at hq
      split at hq
      · cases hq
      · exact List.mem_cons_of_mem _ hq
  · exact .refl s

/-- Connections that have been heard of stay so; whoever waits or has a channel is set up. -/
structure ConnectionInv (s : ChannelManager) : Prop where
  registered : ∀ d, s.isRegistered d = true → ¬ s.Unspoken d
  accepting : ∀ d, (s.accepting.lookup d).isSome = true → d < s.downstreamIdFactory
  waiting : ∀ r ∈ s.waitingRequests, ¬ s.Unspoken r.downstreamId ∧
    ∀ ds, s.downstream.lookup r.downstreamId = some ds → ds.setUp = true
  opened : ∀ d ds k ch c, s.downstream.lookup d = some ds → (ds.channels k).lookup ch = some c →
    ds.setUp = true

theorem connectionInv_start (outs : Option (List TxOut)) : ConnectionInv (start outs) := by
  refine ⟨?_, ?_, ?_, ?_⟩
  · intro d hd
    cases hd
  · intro d hd
    cases hd
  · intro r hr
    cases hr
  · intro d ds k ch c hds
    cases hds

/-- The connections that a step leaves, with what was there before. -/
theorem step_connection (env : Env) (s : ChannelManager) (a : Action) {ds' : Downstream}
    (h : (s.step env a).downstream.lookup d = some ds') :
    (∃ ds, s.downstream.lookup d = some ds ∧ (ds.setUp = true → ds'.setUp = true)) ∨
      ((∃ size, ds' = .new size) ∧ (s.accepting.lookup d).isSome = true ∧
        (s.step env a).accepting.lookup d = none) := by
  have hmove := step_move env s a
  generalize s.step env a = s' at hmove h ⊢
  have hinsert : ∀ {d' : DownstreamId} {ds₀ ds₁ : Downstream}, s.downstream.lookup d' = some ds₀ →
      s'.downstream = s.downstream.insert d' ds₁ → ds₁.setUp = ds₀.setUp →
      ∃ ds, s.downstream.lookup d = some ds ∧ (ds.setUp = true → ds'.setUp = true) := by
    intro d' ds₀ ds₁ hds₀ hs' hsetUp
    rw [hs', KeyMap.lookup_insert_eq] at h
    split at h
    next heq =>
      cases h
      rw [heq, hsetUp]
      exact ⟨ds₀, hds₀, id⟩
    · exact ⟨ds', h, id⟩
  cases hmove with
  | kept hkept =>
    rcases hkept.connections d ds' h with ⟨ds, hds, hkept⟩ | ⟨size, hnew, hacc⟩
    · exact Or.inl ⟨ds, hds, fun hsetUp => (hkept.setUp hsetUp).2⟩
    · exact Or.inr ⟨⟨size, hnew⟩, hacc⟩
  | opened r ans ds ds₁ k extranoncePrefix t raw outs jobId ha hds hs' hnew =>
    exact Or.inl (hinsert hds hs' hnew.setUp)
  | gotTemplate t ctx present visited messages ds ds₁ groupJob jobs hloop hnew hds hs' hgroup htakes =>
    exact Or.inl (hinsert hds hs' htakes.setUp)
  | activated p tokenConsumed present visited messages ds jobs hloop hnew hds hs' =>
    exact Or.inl (hinsert hds hs' rfl)
  | renewed present visited renewals ds hloop hnew hds hs' => exact Or.inl (hinsert hds hs' rfl)

/-- Nobody who has been heard of is forgotten, and whoever begins to wait has spoken. -/
structure SpokenKept (s s' : ChannelManager) : Prop where
  unspoken : ∀ d, s'.Unspoken d → s.Unspoken d
  factory : s.downstreamIdFactory ≤ s'.downstreamIdFactory
  accepting : ∀ d, (s'.accepting.lookup d).isSome = true → d < s'.downstreamIdFactory
  waiting : ∀ r ∈ s'.waitingRequests, r ∈ s.waitingRequests ∨
    ¬ s.Unspoken r.downstreamId ∧ ∀ ds, s.downstream.lookup r.downstreamId = some ds →
      ds.setUp = true

theorem hasSpoken_setUp (h : ConnectionInv s) (hd : s.hasSpoken d = true) :
    ¬ s.Unspoken d ∧ ∀ ds, s.downstream.lookup d = some ds → ds.setUp = true := by
  unfold hasSpoken at hd
  split at hd
  next ds hds =>
    refine ⟨h.registered d (by rw [isRegistered, hds]; rfl), ?_⟩
    intro ds' hds'
    rw [hds] at hds'
    cases hds'
    exact hd
  next hds =>
    simp only [Bool.and_eq_true, decide_eq_true_eq, Option.isNone_iff_eq_none] at hd
    refine ⟨?_, ?_⟩
    · rintro (hlt | hsome)
      · exact absurd hd.1 (Nat.not_lt.mpr hlt)
      · rw [hd.2] at hsome
        cases hsome
    · intro ds hds'
      rw [hds] at hds'
      cases hds'

theorem NobodyNew.spokenKept (h : ConnectionInv s) (hnew : NobodyNew s s') : SpokenKept s s' := by
  refine ⟨?_, ?_, ?_, fun r hr => Or.inl (hnew.waiting r hr)⟩
  · intro d hd
    rw [Unspoken, hnew.factory, hnew.accepting] at hd
    exact hd
  · rw [hnew.factory]
  · intro d hd
    rw [hnew.accepting] at hd
    rw [hnew.factory]
    exact h.accepting d hd

theorem handle_spokenKept (h : ConnectionInv s) {e : Event} (htakes : s.takes e = true) :
    SpokenKept s (s.handle env e) := by
  rcases @handle_nobodyNew env s (takes_idle htakes) e with
    hnew | ⟨r, ans, rfl, haccepting, hfactory, hwaiting⟩
  · exact hnew.spokenKept h
  · have hspoken : s.hasSpoken r.downstreamId = true := by
      simp only [takes, Event.sender, Option.all_some, Bool.and_eq_true] at htakes
      exact htakes.2
    refine ⟨?_, Nat.le_of_eq hfactory.symm, ?_, ?_⟩
    · intro d hd
      rw [Unspoken, hfactory, haccepting] at hd
      exact hd
    · intro d hd
      rw [haccepting] at hd
      rw [hfactory]
      exact h.accepting d hd
    · intro q hq
      rcases hwaiting q hq with rfl | hq
      · exact Or.inr (hasSpoken_setUp h hspoken)
      · exact Or.inl hq

/-- The tasks of new connections: whom they forget has not been heard of. -/
theorem accepting_spokenKept (h : ConnectionInv s)
    (hfactory : s'.downstreamIdFactory = s.downstreamIdFactory)
    (haccepting : ∀ d, (s'.accepting.lookup d).isSome = true → (s.accepting.lookup d).isSome = true)
    (hwaiting : s'.waitingRequests = s.waitingRequests) : SpokenKept s s' := by
  refine ⟨?_, Nat.le_of_eq hfactory.symm, ?_, ?_⟩
  · intro d hd
    rw [Unspoken, hfactory] at hd
    exact hd.imp_right (haccepting d)
  · intro d hd
    rw [hfactory]
    exact h.accepting d (haccepting d hd)
  · intro r hr
    rw [hwaiting] at hr
    exact Or.inl hr

theorem step_spokenKept (h : ConnectionInv s) (a : Action) : SpokenKept s (s.step env a) := by
  have hgone : ∀ d d', (AList.lookup d' (s.accepting.erase d)).isSome = true →
      (s.accepting.lookup d').isSome = true := by
    intro d d' hd'
    obtain ⟨task, htask⟩ := Option.isSome_iff_exists.mp hd'
    rw [KeyMap.lookup_erase_some htask]
    rfl
  cases a with
  | event e =>
    simp only [ChannelManager.step]
    split
    next htakes => exact handle_spokenKept h htakes
    · exact (NobodyNew.refl s).spokenKept h
  | visit d ans => exact (visit_nobodyNew d ans).spokenKept h
  | finish => exact (finish_nobodyNew env s).spokenKept h
  | handlePending ans => exact (handlePending_nobodyNew ans).spokenKept h
  | accept =>
    simp only [ChannelManager.step, ChannelManager.accept]
    split
    · refine ⟨?_, Nat.le_succ _, ?_, fun r hr => Or.inl hr⟩
      · intro d hd
        rcases hd with hd | hd
        · exact Or.inl (Nat.le_of_succ_le hd)
        · rcases KeyMap.isSome_lookup_insert hd with rfl | hd
          · exact Or.inl (Nat.le_refl _)
          · exact Or.inr hd
      · intro d hd
        rcases KeyMap.isSome_lookup_insert hd with rfl | hd
        · exact Nat.lt_succ_self _
        · exact Nat.lt_succ_of_lt (h.accepting d hd)
    · exact (NobodyNew.refl s).spokenKept h
  | bootstrap d built =>
    simp only [ChannelManager.step, ChannelManager.bootstrap]
    split
    next size hsize =>
      split
      · split
        · refine accepting_spokenKept h rfl ?_ rfl
          intro d' hd'
          dsimp only at hd'
          rw [KeyMap.lookup_insert_eq] at hd'
          split at hd'
          next heq =>
            rw [heq, hsize]
            rfl
          · exact hd'
        · exact accepting_spokenKept h rfl (hgone d) rfl
      · exact accepting_spokenKept h rfl (hgone d) rfl
      · exact accepting_spokenKept h rfl (hgone d) rfl
    · exact (NobodyNew.refl s).spokenKept h
  | register d =>
    simp only [ChannelManager.step, ChannelManager.register]
    split
    · exact accepting_spokenKept h rfl (hgone d) rfl
    · exact (NobodyNew.refl s).spokenKept h
  | setUpConnection d requireStdJob => exact accepting_spokenKept h rfl (fun _ h => h) rfl
  | removeDownstream d => exact accepting_spokenKept h rfl (fun _ h => h) rfl

theorem rel_some_right {α β : Type} {R : α → β → Prop} {o : Option α} {b : β}
    (h : Option.Rel R o (some b)) : ∃ a, o = some a ∧ R a b := by
  cases h with
  | some hR => exact ⟨_, rfl, hR⟩

/-- A message that is not taken does nothing. -/
theorem step_taken (env : Env) (s : ChannelManager) (a : Action) :
    s.step env a = s ∨ ∀ e, a = .event e → s.takes e = true := by
  cases a with
  | event e =>
    by_cases htakes : s.takes e = true
    · right
      intro e' he'
      cases he'
      exact htakes
    · left
      rw [step, if_neg htakes]
  | _ =>
    right
    intro e he
    cases he

/-- A channel is opened only at a connection that is set up. -/
theorem opened_setUp (h : ConnectionInv s) {a : Action} {r : PendingRequest} {ans : OpenAnswers}
    (ha : s.openOf a = some (r, ans)) (htakes : ∀ e, a = .event e → s.takes e = true)
    {ds : Downstream} (hds : s.downstream.lookup r.downstreamId = some ds) : ds.setUp = true := by
  cases a with
  | event e =>
    have htakes := htakes e rfl
    cases e <;> cases ha
    simp only [takes, Event.sender, Option.all_some, Bool.and_eq_true] at htakes
    exact (hasSpoken_setUp h htakes.2).2 ds hds
  | handlePending ans' =>
    simp only [openOf] at ha
    split at ha
    next r' rest hloop =>
      cases ha
      refine (h.waiting r (List.mem_append_right _ ?_)).2 ds hds
      rw [hloop]
      exact List.mem_cons_self
    · cases ha
  | _ => cases ha

theorem ConnectionInv.opened_step (h : ConnectionInv s) (a : Action) :
    ∀ d ds k ch c, (s.step env a).downstream.lookup d = some ds →
      (ds.channels k).lookup ch = some c → ds.setUp = true := by
  intro d ds' k ch c hds' hc
  rcases step_taken env s a with heq | htaken
  · rw [heq] at hds'
    exact h.opened d ds' k ch c hds' hc
  have hmove := step_move env s a
  generalize s.step env a = s' at hmove hds'
  -- the connection that a step has changed, and the others
  have hinsert : ∀ {d₀ : DownstreamId} {ds₁ : Downstream}, s'.downstream = s.downstream.insert d₀ ds₁ →
      (ds₁ = ds' → d₀ = d → ds'.setUp = true) → ds'.setUp = true := by
    intro d₀ ds₁ hs' hown
    rw [hs', KeyMap.lookup_insert_eq] at hds'
    split at hds'
    next heq =>
      cases hds'
      exact hown rfl heq.symm
    · exact h.opened d ds' k ch c hds' hc
  cases hmove with
  | kept hkept =>
    rcases hkept.connections d ds' hds' with ⟨ds, hds, hkept⟩ | ⟨size, rfl, -⟩
    · exact (hkept.setUp (h.opened d ds k ch c hds (hkept.channels k ch c hc))).2
    · cases k <;> cases hc
  | opened r ans ds ds₁ k₁ extranoncePrefix t raw outs jobId ha hds hs' hnew =>
    refine hinsert hs' ?_
    rintro rfl -
    rw [hnew.setUp]
    exact opened_setUp h ha htaken hds
  | gotTemplate t ctx present visited messages ds ds₁ groupJob jobs hloop hnew hds hs' hgroup htakes =>
    refine hinsert hs' ?_
    rintro rfl -
    have hrel := htakes.channels k ch
    rw [hc] at hrel
    obtain ⟨c₀, hc₀, -⟩ := rel_some_right hrel
    rw [htakes.setUp]
    exact h.opened _ ds k ch c₀ hds hc₀
  | activated p tokenConsumed present visited messages ds jobs hloop hnew hds hs' =>
    refine hinsert hs' ?_
    rintro rfl -
    obtain ⟨c₀, hc₀, -⟩ := Downstream.lookup_activate hc
    exact h.opened _ ds k ch c₀ hds hc₀
  | renewed present visited renewals ds hloop hnew hds hs' =>
    refine hinsert hs' ?_
    rintro rfl -
    obtain ⟨c₀, hc₀, -⟩ := lookup_renewed hc
    exact h.opened _ ds k ch c₀ hds hc₀

theorem ConnectionInv.step (h : ConnectionInv s) (a : Action) : ConnectionInv (s.step env a) := by
  have hkept := @step_spokenKept env s h a
  have hnew : ∀ d, (s.accepting.lookup d).isSome = true →
      (s.step env a).accepting.lookup d = none → ¬ (s.step env a).Unspoken d := by
    intro d hacc hnone
    rintro (hle | hsome)
    · exact absurd (h.accepting d hacc) (Nat.not_lt.mpr (Nat.le_trans hkept.factory hle))
    · rw [hnone] at hsome
      cases hsome
  refine ⟨?_, hkept.accepting, ?_, ?_⟩
  · intro d hd
    obtain ⟨ds', hds'⟩ := Option.isSome_iff_exists.mp hd
    rcases step_connection env s a hds' with ⟨ds, hds, -⟩ | ⟨-, hacc, hnone⟩
    · intro hu
      exact h.registered d (by rw [isRegistered, hds]; rfl) (hkept.unspoken d hu)
    · exact hnew d hacc hnone
  · intro r hr
    obtain ⟨hspoken, hsetUp⟩ : ¬ s.Unspoken r.downstreamId ∧
        ∀ ds, s.downstream.lookup r.downstreamId = some ds → ds.setUp = true := by
      rcases hkept.waiting r hr with hr | hr
      · exact h.waiting r hr
      · exact hr
    refine ⟨fun hu => hspoken (hkept.unspoken _ hu), ?_⟩
    intro ds' hds'
    rcases step_connection env s a hds' with ⟨ds, hds, hkeeps⟩ | ⟨-, hacc, -⟩
    · exact hkeeps (hsetUp ds hds)
    · exact absurd (Or.inr hacc) hspoken
  · exact h.opened_step a

end ChannelManager

end Sv2Apps.Jdc
