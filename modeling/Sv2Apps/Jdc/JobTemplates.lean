/-
  Jdc/JobTemplates.lean
  =====================
  **From jobs to templates** — a share names a job of its channel, and the pool knows templates;
  `downstream_channel_id_and_job_id_to_template_id` leads from one to the other.

  A prev-hash writes its template down for the job that is active afterwards, which is the one
  that was made of that template (`activatesNamed`).  A channel that is opened writes its first job
  down.  When the channel ids of a connection have come round, another channel of the same id may
  have a first job too; but that one is stale, unless it is of the same template
  (`FirstJobInv`): a channel is opened with the template of the last prev-hash (`opensNamed`), and
  a prev-hash makes every other job stale.
-/
import Sv2Apps.Jdc.JobNumbers

namespace Sv2Apps.Jdc

open Bitcoin

namespace ChannelManager

variable {env : Env} {s s' : ChannelManager} {d : DownstreamId}

/-! ## The answers of the crate -/

/-- The job of the channel was made of the template. -/
def isJobOf (c : Channel) (t : TemplateId) (jobId : JobId) : Bool :=
  (c.jobs.lookup jobId).any fun job => decide (job.template.templateId = t)

/-- What a prev-hash activates was made of the template that the prev-hash names. -/
def activatesNamed (s : ChannelManager) (a : Action) : Bool :=
  match a, s.loop with
  | .visit d ans, .setNewPrevHash p _ _ _ _ => match s.downstream.lookup d with
    | none => true
    | some ds =>
      (ans.prevHash.groupJob.activeJob.all fun jobId =>
        decide (ds.groupTemplates.lookup jobId = some p.templateId)) &&
      (ds.standardChannels.entries.all fun e =>
        (ans.prevHash.standardJob e.1).activeJob.all (isJobOf e.2 p.templateId)) &&
      ds.extendedChannels.entries.all fun e =>
        (ans.prevHash.extendedJob e.1).activeJob.all (isJobOf e.2 p.templateId)
  | _, _ => true

/-- A fresh channel, which has been given one future template, takes no prev-hash that names
    another. -/
def opensNamed (s : ChannelManager) (a : Action) : Bool :=
  match s.openOf a with
  | some (_, ans) => match s.lastFutureTemplate, s.lastNewPrevHash with
    | some t, some p => !ans.prevHashAccepted || decide (t.templateId = p.templateId)
    | _, _ => true
  | none => true

/-- The group's job. -/
theorem activatesNamed_group {ans : VisitAnswers} {p : SetNewPrevHash} {tokenConsumed : Bool}
    {present visited : List DownstreamId} {messages : List Message} {ds : Downstream} {jobId : JobId}
    (hloop : s.loop = .setNewPrevHash p tokenConsumed present visited messages)
    (hds : s.downstream.lookup d = some ds) (hlaw : s.activatesNamed (.visit d ans) = true)
    (hactive : ans.prevHash.groupJob.activeJob = some jobId) :
    ds.groupTemplates.lookup jobId = some p.templateId := by
  simp only [activatesNamed, hloop, hds, Bool.and_eq_true, hactive, Option.all_some,
    decide_eq_true_eq] at hlaw
  exact hlaw.1.1

/-- The active job of a channel. -/
theorem activatesNamed_channel {ans : VisitAnswers} {p : SetNewPrevHash} {tokenConsumed : Bool}
    {present visited : List DownstreamId} {messages : List Message} {ds : Downstream}
    {k : ChannelKind} {ch : ChannelId} {c : Channel} {jobId : JobId} {job : ChannelJob}
    (hloop : s.loop = .setNewPrevHash p tokenConsumed present visited messages)
    (hds : s.downstream.lookup d = some ds) (hlaw : s.activatesNamed (.visit d ans) = true)
    (hc : (ds.channels k).lookup ch = some c)
    (hactive : Downstream.activeJobOf ans.prevHash k ch = some jobId)
    (hjob : c.jobs.lookup jobId = some job) : job.template.templateId = p.templateId := by
  simp only [activatesNamed, hloop, hds, Bool.and_eq_true, List.all_eq_true] at hlaw
  obtain ⟨⟨-, hstandard⟩, hextended⟩ := hlaw
  have hnamed : isJobOf c p.templateId jobId = true := by
    cases k with
    | standard =>
      have hall := hstandard ⟨ch, c⟩ ((KeyMap.mem_entries_iff _ _ _).mpr hc)
      rwa [show (ans.prevHash.standardJob ch).activeJob = some jobId from hactive,
        Option.all_some] at hall
    | extended =>
      have hall := hextended ⟨ch, c⟩ ((KeyMap.mem_entries_iff _ _ _).mpr hc)
      rwa [show (ans.prevHash.extendedJob ch).activeJob = some jobId from hactive,
        Option.all_some] at hall
  rw [isJobOf, hjob, Option.any_some] at hnamed
  exact of_decide_eq_true hnamed

/-! ## Jobs that are not stale -/

/-- After a prev-hash only the active job is not stale. -/
theorem liveJob_activate {c : Channel} {active : Option JobId} {jobId : JobId} {job : ChannelJob}
    (h : (c.activate active).liveJob jobId = some job) :
    c.liveJob jobId = some job ∧ active = some jobId := by
  obtain ⟨hlive, hjob⟩ := Channel.liveJob_eq_some.mp h
  obtain ⟨hlive, hactive⟩ := List.mem_filter.mp hlive
  exact ⟨Channel.liveJob_eq_some.mpr ⟨hlive, hjob⟩, of_decide_eq_true hactive⟩

theorem liveJob_jobs {c : Channel} {jobId : JobId} {job : ChannelJob}
    (h : c.liveJob jobId = some job) : c.jobs.lookup jobId = some job :=
  (Channel.liveJob_eq_some.mp h).2

/-- A channel that has got a job. -/
theorem liveJob_addJob {c : Channel} {jobId id : JobId} {t : NewTemplate} {outs : List TxOut}
    {size : Nat} {job : ChannelJob} (h : (c.addJob jobId t outs size).liveJob id = some job) :
    (id = jobId ∧ job.template = t) ∨ (id ≠ jobId ∧ c.liveJob id = some job) := by
  obtain ⟨hlive, hjob⟩ := Channel.liveJob_eq_some.mp h
  rcases lookup_addJob hjob with hnew | ⟨hne, hjob⟩
  · exact Or.inl hnew
  · refine Or.inr ⟨hne, Channel.liveJob_eq_some.mpr ⟨?_, hjob⟩⟩
    exact (List.mem_cons.mp hlive).resolve_left hne

theorem liveJob_renew {generation : Nat} {ans : PrefixAnswers} {ch : ChannelId} {c : Channel}
    (jobId : JobId) : (renew generation ans ch c).liveJob jobId = c.liveJob jobId := by
  obtain ⟨hjobs, -, hlive⟩ := renew_jobs generation ans ch c
  rw [Channel.liveJob, Channel.liveJob, hjobs, hlive]

/-! ## First jobs -/

/-- The first job of a channel is of the template of the last prev-hash or stale, unless the
    channel is still to be told the prev-hash. -/
structure FirstJobInv (s : ChannelManager) : Prop where
  announced : ∀ p tokenConsumed present visited messages,
    s.loop = .setNewPrevHash p tokenConsumed present visited messages → s.lastNewPrevHash = some p
  first : ∀ d k ch c, s.IsOpen d k ch c → ¬ s.Awaits d → ∀ jobId job, jobId.toNat = 1 →
    c.liveJob jobId = some job → ∀ p, s.lastNewPrevHash = some p →
      job.template.templateId = p.templateId

/-- Once the loop has come to its end, no channel is opened any more. -/
def FirstJobsHold (s : ChannelManager) : Prop := s.loop.isStopped = false → FirstJobInv s

theorem firstJobsHold_start (outs : Option (List TxOut)) : FirstJobsHold (start outs) := by
  intro _
  constructor
  · intro p tokenConsumed present visited messages hloop
    cases hloop
  · rintro d k ch c ⟨ds, hds, -⟩
    cases hds

/-- The channels after a step that has not told anyone of a prev-hash: their first jobs, unless
    they are stale now, were there before, or the channel has been opened. -/
theorem first_of_move {a : Action} (h : FirstJobInv s) (hnumbers : NumbersInv s)
    (hmove : ChannelMove s a s') (hlast : s'.lastNewPrevHash = s.lastNewPrevHash)
    (hlaw : s.numbersJobs a = true) (hnamed : s.opensNamed a = true) {k : ChannelKind}
    {ch : ChannelId} {c' : Channel} (hc' : s'.IsOpen d k ch c') (hawaits : ¬ s.Awaits d)
    {jobId : JobId} {job : ChannelJob} (hfirst : jobId.toNat = 1)
    (hjob : c'.liveJob jobId = some job) {p : SetNewPrevHash} (hp : s'.lastNewPrevHash = some p) :
    job.template.templateId = p.templateId := by
  rw [hlast] at hp
  obtain ⟨ds', hds', hc'⟩ := hc'
  cases hmove with
  | kept hkept =>
    rcases hkept.connections d ds' hds' with ⟨ds, hds, hk⟩ | ⟨size, rfl, -⟩
    · exact h.first d k ch c' ⟨ds, hds, hk.channels k ch c' hc'⟩ hawaits jobId job hfirst hjob p hp
    · cases k <;> cases hc'
  | opened r ans ds ds₁ k₁ extranoncePrefix t raw outs id ha hds hs' hnew hallocation hid ht hraw
      houts hmap p' hp' haccepted =>
    rcases lookup_of_insert hs' hds' with ⟨rfl, rfl⟩ | ⟨-, hds'⟩
    · rcases lookup_opened hnew hc' with ⟨-, -, rfl⟩ | ⟨-, hc⟩
      · obtain ⟨-, rfl⟩ := lookup_openedChannel (liveJob_jobs hjob)
        rw [hp] at hp'
        cases hp'
        simpa [opensNamed, ha, ht, hp, haccepted] using hnamed
      · exact h.first _ k ch c' ⟨ds, hds, hc⟩ hawaits jobId job hfirst hjob p hp
    · exact h.first d k ch c' ⟨ds', hds', hc'⟩ hawaits jobId job hfirst hjob p hp
  | gotTemplate t ctx present visited messages ds ds₁ groupJob jobs hloop hnew hds hs' hgroup htakes =>
    rcases lookup_of_insert hs' hds' with ⟨rfl, rfl⟩ | ⟨-, hds'⟩
    · obtain ⟨c, hc, id, size, hid, -, rfl⟩ := htakes.channel hc'
      rcases liveJob_addJob hjob with ⟨rfl, -⟩ | ⟨-, hjob⟩
      · -- the new job is not the first one
        have hnext := jobIdOf_toNat hloop hds hgroup hc hid hlaw
        have hpos := hnumbers.made_pos hds hc
        omega
      · exact h.first _ k ch c ⟨ds, hds, hc⟩ hawaits jobId job hfirst hjob p hp
    · exact h.first d k ch c' ⟨ds', hds', hc'⟩ hawaits jobId job hfirst hjob p hp
  | activated p' consumed present visited messages ds jobs hloop hnew hds hs' =>
    rcases lookup_of_insert hs' hds' with ⟨rfl, rfl⟩ | ⟨-, hds'⟩
    · obtain ⟨c, hc, rfl⟩ := Downstream.lookup_activate hc'
      exact h.first _ k ch c ⟨ds, hds, hc⟩ hawaits jobId job hfirst (liveJob_activate hjob).1 p hp
    · exact h.first d k ch c' ⟨ds', hds', hc'⟩ hawaits jobId job hfirst hjob p hp
  | renewed present visited renewals ds hloop hnew hds hs' =>
    rcases lookup_of_insert hs' hds' with ⟨rfl, rfl⟩ | ⟨-, hds'⟩
    · obtain ⟨c, hc, rfl⟩ := lookup_renewed hc'
      rw [liveJob_renew] at hjob
      exact h.first _ k ch c ⟨ds, hds, hc⟩ hawaits jobId job hfirst hjob p hp
    · exact h.first d k ch c' ⟨ds', hds', hc'⟩ hawaits jobId job hfirst hjob p hp

theorem FirstJobInv.step (h : FirstJobInv s) (hnumbers : NumbersInv s) {a : Action}
    (hlaw : s.numbersJobs a = true) (hactivates : s.activatesNamed a = true)
    (hopens : s.opensNamed a = true) : FirstJobsHold (s.step env a) := by
  have hmove := step_move env s a
  have hprevHash := step_prevHash env s a
  generalize s.step env a = s' at hmove hprevHash ⊢
  intro hrunning
  cases hprevHash with
  | stopped hstopped =>
    rw [hstopped] at hrunning
    cases hrunning
  | announced p tokenConsumed messages hloop hlast =>
    constructor
    · intro p' tokenConsumed' present visited messages' hloop'
      rw [hloop] at hloop'
      cases hloop'
      exact hlast
    · -- every connection is still to be told
      rintro d k ch c ⟨ds, hds, -⟩ hawaits
      refine absurd ?_ hawaits
      rw [Awaits, hloop]
      refine List.mem_filter.mpr ⟨AList.lookup_isSome.mp (Option.isSome_of_eq_some hds), ?_⟩
      simp
  | @activated d₀ ans _ p tokenConsumed present visited messages messages' ds hloop hds hs' hloop'
      hlast =>
    have hlastP := h.announced p tokenConsumed present visited messages hloop
    constructor
    · intro p' tokenConsumed' present' visited' messages'' hloop''
      rw [hloop'] at hloop''
      cases hloop''
      exact hlast.trans hlastP
    · rintro d k ch c' ⟨ds', hds', hc'⟩ hawaits jobId job hfirst hjob p' hp'
      rw [hlast, hlastP] at hp'
      cases hp'
      rcases lookup_of_insert hs' hds' with ⟨rfl, rfl⟩ | ⟨hne, hds'⟩
      · obtain ⟨c, hc, rfl⟩ := Downstream.lookup_activate hc'
        obtain ⟨hlive, hactive⟩ := liveJob_activate hjob
        exact activatesNamed_channel hloop hds hactivates hc hactive (liveJob_jobs hlive)
      · refine h.first d k ch c' ⟨ds', hds', hc'⟩ ?_ jobId job hfirst hjob p hlastP
        intro hawaited
        apply hawaits
        rw [Awaits, hloop] at hawaited
        rw [Awaits, hloop']
        obtain ⟨hpresent, hunvisited⟩ := List.mem_filter.mp hawaited
        refine List.mem_filter.mpr ⟨hpresent, ?_⟩
        simpa [hne] using hunvisited
  | kept hlast hawaits hloop =>
    constructor
    · intro p tokenConsumed present visited messages hloop'
      rw [hlast]
      exact h.announced p tokenConsumed present visited messages
        ((hloop (by rw [hloop']; rfl)).symm.trans hloop')
    · intro d k ch c' hc' hawaits' jobId job hfirst hjob p hp
      refine first_of_move h hnumbers hmove hlast hlaw hopens hc' ?_ hfirst hjob hp
      intro hawaited
      obtain ⟨ds', hds', -⟩ := hc'
      exact hawaits' (hawaits d (Option.isSome_of_eq_some hds') hawaited)

/-! ## The invariant -/

/-- The map leads from every job of an open channel that is not stale to its template, and has no
    entries of connections that are gone. -/
structure JobMapInv (s : ChannelManager) : Prop where
  exact : ∀ d k ch c, s.IsOpen d k ch c → ∀ jobId job, c.liveJob jobId = some job →
    s.jobToTemplateId.lookup (d, ch, jobId) = some job.template.templateId
  registered : ∀ key, (s.jobToTemplateId.lookup key).isSome = true → s.isRegistered key.1 = true

theorem jobMapInv_start (outs : Option (List TxOut)) : JobMapInv (start outs) := by
  constructor
  · rintro d k ch c ⟨ds, hds, -⟩
    cases hds
  · intro key hkey
    cases hkey

/-- What a prev-hash writes down at a connection is right for every channel with the job. -/
theorem activated_named (hgroups : GroupTemplatesInv s) (hnumbers : NumbersInv s)
    {ans : VisitAnswers} {p : SetNewPrevHash} {tokenConsumed : Bool}
    {present visited : List DownstreamId} {messages : List Message} {ds : Downstream}
    {k k' : ChannelKind} {ch : ChannelId} {c' : Channel} {jobId : JobId} {job : ChannelJob}
    (hloop : s.loop = .setNewPrevHash p tokenConsumed present visited messages)
    (hds : s.downstream.lookup d = some ds) (hlaw : s.activatesNamed (.visit d ans) = true)
    (hid : ds.activatedJobIdOf ans.prevHash k ch = some jobId)
    (hc' : (ds.channels k').lookup ch = some c') (hjob : c'.jobs.lookup jobId = some job) :
    job.template.templateId = p.templateId := by
  by_cases hrequire : ds.requireStdJob = true
  · -- such a connection has standard channels only
    have hstandard : k' = .standard := by
      cases k' with
      | standard => rfl
      | extended =>
        rw [hnumbers.grouped d ds ch c' hds hc'] at hrequire
        cases hrequire
    subst hstandard
    cases k with
    | standard =>
      rw [Downstream.activatedJobIdOf, if_pos hrequire] at hid
      exact activatesNamed_channel hloop hds hlaw hc' hid hjob
    | extended => simp [Downstream.activatedJobIdOf, hrequire] at hid
  · have hactive : ans.prevHash.groupJob.activeJob = some jobId := by
      cases k with
      | standard =>
        rw [Downstream.activatedJobIdOf, if_neg hrequire] at hid
        split at hid
        · cases hid
        · exact hid
      | extended =>
        rw [Downstream.activatedJobIdOf] at hid
        split at hid
        · cases hid
        · exact hid
    exact hgroups.shared d ds k' ch c' hds hc' (fun hmode => hrequire hmode.2) jobId job _ hjob
      (activatesNamed_group hloop hds hlaw hactive)

namespace JobMapInv

theorem of_kept (h : JobMapInv s) (hkept : ChannelsKept s s') : JobMapInv s' := by
  constructor
  · rintro d k ch c ⟨ds', hds', hc⟩ jobId job hjob
    rw [hkept.map (d, ch, jobId) (by rw [isRegistered, hds']; rfl)]
    rcases hkept.connections d ds' hds' with ⟨ds, hds, hk⟩ | ⟨size, rfl, -⟩
    · exact h.exact d k ch c ⟨ds, hds, hk.channels k ch c hc⟩ jobId job hjob
    · cases k <;> cases hc
  · intro key hkey
    obtain ⟨hold, hreg⟩ := hkept.mapped key hkey
    exact hreg (h.registered key hold)

/-- A channel is opened with its first job; another channel with its id has no first job any more,
    or one of the same template. -/
theorem of_opened (h : JobMapInv s) {r : PendingRequest} {ds ds' : Downstream} {k : ChannelKind}
    {extranoncePrefix : Bytes} {rollable : Nat} {t : NewTemplate} {outs : List TxOut} {jobId : JobId}
    (hds : s.downstream.lookup r.downstreamId = some ds)
    (hs' : s'.downstream = s.downstream.insert r.downstreamId ds')
    (hnew : OpensChannel ds ds' k (s.openedChannel extranoncePrefix rollable t outs jobId))
    (hmap : s'.jobToTemplateId = s.jobToTemplateId.insert
      (r.downstreamId, ds.channelIdFactory, jobId) t.templateId)
    (hfirst : ∀ k ch c job, (ds.channels k).lookup ch = some c → c.liveJob jobId = some job →
      job.template.templateId = t.templateId) : JobMapInv s' := by
  constructor
  · rintro d k₁ ch c ⟨ds₁, hds₁, hc⟩ id job hjob
    rw [hmap, KeyMap.lookup_insert_eq]
    rcases lookup_of_insert hs' hds₁ with ⟨rfl, rfl⟩ | ⟨hne, hds₁⟩
    · rcases lookup_opened hnew hc with ⟨-, rfl, rfl⟩ | ⟨-, hc⟩
      · obtain ⟨rfl, htemplate⟩ := lookup_openedChannel (liveJob_jobs hjob)
        rw [if_pos rfl, htemplate]
      · split
        next heq =>
          cases heq
          rw [hfirst k₁ _ c job hc hjob]
        · exact h.exact _ k₁ ch c ⟨ds, hds, hc⟩ id job hjob
    · rw [if_neg (fun heq => hne (congrArg Prod.fst heq))]
      exact h.exact d k₁ ch c ⟨ds₁, hds₁, hc⟩ id job hjob
  · intro key hkey
    rw [isRegistered_insert hds hs']
    rw [hmap, KeyMap.lookup_insert_eq] at hkey
    split at hkey
    next heq =>
      rw [heq, isRegistered, hds]
      rfl
    · exact h.registered key hkey

/-- The channels of a connection get their jobs of a template. -/
theorem of_gotTemplate (h : JobMapInv s) (hnumbers : NumbersInv s) {t : NewTemplate}
    {outs : List TxOut} {ds ds' : Downstream} {groupJob : JobId} {ans : TemplateAnswers}
    {jobs : List (ChannelId × JobId)} (hds : s.downstream.lookup d = some ds)
    (hs' : s'.downstream = s.downstream.insert d ds')
    (htakes : TakesTemplate ds ds' t outs groupJob ans) (hmap : MapsJobs s s' d t.templateId jobs)
    (hjobs : ∀ ch jobId, (ch, jobId) ∈ jobs ↔ ∃ k c, (ds.channels k).lookup ch = some c ∧
      ds.jobIdOf groupJob ans k ch = some jobId) : JobMapInv s' := by
  -- channels of one id get jobs of one id
  have hone : ∀ {k k' ch c c' id id'}, (ds.channels k).lookup ch = some c →
      (ds.channels k').lookup ch = some c' → ds.jobIdOf groupJob ans k ch = some id →
      ds.jobIdOf groupJob ans k' ch = some id' → id = id' := by
    intro k k' ch c c' id id' hc hc' hid hid'
    by_cases hrequire : ds.requireStdJob = true
    · have hstandard : ∀ {k c}, (ds.channels k).lookup ch = some c → k = .standard := by
        intro k c hc
        cases k with
        | standard => rfl
        | extended =>
          rw [hnumbers.grouped d ds ch c hds hc] at hrequire
          cases hrequire
      rw [hstandard hc] at hid
      rw [hstandard hc', hid] at hid'
      exact Option.some.inj hid'
    · have hgroup : ∀ {k id}, ds.jobIdOf groupJob ans k ch = some id → groupJob = id := by
        intro k id hid
        cases k with
        | standard =>
          rw [Downstream.jobIdOf, if_neg hrequire] at hid
          exact Option.some.inj hid
        | extended => exact Option.some.inj hid
      rw [← hgroup hid, hgroup hid']
  constructor
  · rintro d₁ k ch c' ⟨ds₁, hds₁, hc'⟩ id job hjob
    rw [hmap]
    rcases lookup_of_insert hs' hds₁ with ⟨rfl, rfl⟩ | ⟨hne, hds₁⟩
    · obtain ⟨c, hc, jobId, size, hid, -, rfl⟩ := htakes.channel hc'
      rcases liveJob_addJob hjob with ⟨rfl, htemplate⟩ | ⟨hne, hjob⟩
      · rw [if_pos ⟨rfl, (hjobs ch id).mpr ⟨k, c, hc, hid⟩⟩, htemplate]
      · rw [if_neg]
        · exact h.exact _ k ch c ⟨ds, hds, hc⟩ id job hjob
        · rintro ⟨-, hmem⟩
          obtain ⟨k₂, c₂, hc₂, hid₂⟩ := (hjobs ch id).mp hmem
          exact hne (hone hc₂ hc hid₂ hid)
    · rw [if_neg (fun heq => hne heq.1)]
      exact h.exact d₁ k ch c' ⟨ds₁, hds₁, hc'⟩ id job hjob
  · rintro ⟨d₁, ch, id⟩ hkey
    rw [isRegistered_insert hds hs']
    rw [hmap] at hkey
    split at hkey
    next heq =>
      rw [heq.1, isRegistered, hds]
      rfl
    · exact h.registered _ hkey

/-- A prev-hash has activated jobs of its own template. -/
theorem of_activated (h : JobMapInv s) {p : SetNewPrevHash} {ds : Downstream} {ans : PrevHashAnswers}
    {jobs : List (ChannelId × JobId)} (hds : s.downstream.lookup d = some ds)
    (hs' : s'.downstream = s.downstream.insert d (ds.activate ans))
    (hmap : MapsJobs s s' d p.templateId jobs)
    (hnamed : ∀ k ch c id job, (ch, id) ∈ jobs → (ds.channels k).lookup ch = some c →
      c.jobs.lookup id = some job → job.template.templateId = p.templateId) : JobMapInv s' := by
  constructor
  · rintro d₁ k ch c' ⟨ds₁, hds₁, hc'⟩ id job hjob
    rw [hmap]
    rcases lookup_of_insert hs' hds₁ with ⟨rfl, rfl⟩ | ⟨hne, hds₁⟩
    · obtain ⟨c, hc, rfl⟩ := Downstream.lookup_activate hc'
      obtain ⟨hjob, -⟩ := liveJob_activate hjob
      split
      next heq => rw [hnamed k ch c id job heq.2 hc (liveJob_jobs hjob)]
      · exact h.exact _ k ch c ⟨ds, hds, hc⟩ id job hjob
    · rw [if_neg (fun heq => hne heq.1)]
      exact h.exact d₁ k ch c' ⟨ds₁, hds₁, hc'⟩ id job hjob
  · rintro ⟨d₁, ch, id⟩ hkey
    rw [isRegistered_insert hds hs']
    rw [hmap] at hkey
    split at hkey
    next heq =>
      rw [heq.1, isRegistered, hds]
      rfl
    · exact h.registered _ hkey

/-- New prefixes do not concern jobs. -/
theorem of_renewed (h : JobMapInv s) {generation : Nat} {ans : PrefixAnswers} {ds : Downstream}
    (hds : s.downstream.lookup d = some ds)
    (hs' : s'.downstream = s.downstream.insert d (renewedDownstream generation ans ds))
    (hmap : s'.jobToTemplateId = s.jobToTemplateId) : JobMapInv s' := by
  constructor
  · rintro d₁ k ch c' ⟨ds₁, hds₁, hc'⟩ id job hjob
    rw [hmap]
    rcases lookup_of_insert hs' hds₁ with ⟨rfl, rfl⟩ | ⟨-, hds₁⟩
    · obtain ⟨c, hc, rfl⟩ := lookup_renewed hc'
      rw [liveJob_renew] at hjob
      exact h.exact _ k ch c ⟨ds, hds, hc⟩ id job hjob
    · exact h.exact d₁ k ch c' ⟨ds₁, hds₁, hc'⟩ id job hjob
  · intro key hkey
    rw [hmap] at hkey
    rw [isRegistered_insert hds hs']
    exact h.registered key hkey

end JobMapInv

/-- Whoever is opening a channel is not awaiting a prev-hash. -/
theorem OpensNow.quiet (h : s.OpensNow) : s.loop.isPrevHash = false ∧ s.loop.isStopped = false := by
  rcases h with hwaiting | ⟨hidle, -⟩
  · cases hloop : s.loop with
    | pending => exact ⟨rfl, rfl⟩
    | _ => exact absurd (by rw [hloop]; rfl) hwaiting
  · rw [hidle]
    exact ⟨rfl, rfl⟩

/-- What holds of jobs in every state. -/
structure JobsInv (s : ChannelManager) : Prop where
  connections : ConnectionInv s
  numbers : NumbersInv s
  groups : GroupTemplatesInv s
  first : FirstJobsHold s
  map : JobMapInv s

theorem jobsInv_start (outs : Option (List TxOut)) : JobsInv (start outs) :=
  ⟨connectionInv_start outs, numbersInv_start outs, groupTemplatesInv_start outs,
    firstJobsHold_start outs, jobMapInv_start outs⟩

theorem JobsInv.map_step (h : JobsInv s) {a : Action} (hlaw : s.numbersJobs a = true)
    (hactivates : s.activatesNamed a = true) (hopens : s.opensNamed a = true) :
    JobMapInv (s.step env a) := by
  have hmove := step_move env s a
  generalize s.step env a = s' at hmove ⊢
  cases hmove with
  | kept hkept => exact h.map.of_kept hkept
  | opened r ans ds ds' k extranoncePrefix t raw outs jobId ha hds hs' hnew hallocation hjob ht hraw
      houts hmap p hp haccepted hstd hready =>
    refine h.map.of_opened hds hs' hnew hmap ?_
    intro k₁ ch c job hc hlive
    obtain ⟨hquiet, hrunning⟩ := hready.quiet
    have hfirst := (h.first hrunning).first r.downstreamId k₁ ch c ⟨ds, hds, hc⟩
      (not_awaits hquiet) jobId job (openOf_first ha hjob hlaw) hlive p hp
    have hnamed : t.templateId = p.templateId := by
      simpa [opensNamed, ha, ht, hp, haccepted] using hopens
    rw [hfirst, hnamed]
  | gotTemplate t ctx present visited messages ds ds' groupJob jobs hloop hnew hds hs' hmade htakes
      hmap hjobs => exact h.map.of_gotTemplate h.numbers hds hs' htakes hmap hjobs
  | activated p consumed present visited messages ds jobs hloop hnew hds hs' hmap hjobs =>
    refine h.map.of_activated hds hs' hmap ?_
    intro k ch c id job hmem hc hjob
    obtain ⟨k', c', -, hid⟩ := hjobs ch id hmem
    exact activated_named h.groups h.numbers hloop hds hactivates hid hc hjob
  | renewed present visited renewals ds hloop hnew hds hs' hmap => exact h.map.of_renewed hds hs' hmap

theorem JobsInv.step (h : JobsInv s) {a : Action} (hlaw : s.numbersJobs a = true)
    (hactivates : s.activatesNamed a = true) (hopens : s.opensNamed a = true) :
    JobsInv (s.step env a) := by
  refine ⟨h.connections.step a, h.numbers.step h.connections hlaw,
    h.groups.step h.numbers h.connections hlaw, ?_, h.map_step hlaw hactivates hopens⟩
  by_cases hrunning : s.loop.isStopped = false
  · exact (h.first hrunning).step h.numbers hlaw hactivates hopens
  · intro hrunning'
    rw [stopped_step (by simpa using hrunning) a] at hrunning'
    cases hrunning'

/-! ## Runs -/

/-- The job that shares of an open channel with the id are validated for. -/
def liveJobOf (s : ChannelManager) (d : DownstreamId) (k : ChannelKind) (ch : ChannelId)
    (jobId : JobId) : Option ChannelJob :=
  (s.downstream.lookup d).bind fun ds => ((ds.channels k).lookup ch).bind fun c => c.liveJob jobId

theorem liveJobOf_isOpen {k : ChannelKind} {ch : ChannelId} {jobId : JobId} {job : ChannelJob}
    (h : s.liveJobOf d k ch jobId = some job) :
    ∃ c, s.IsOpen d k ch c ∧ c.liveJob jobId = some job := by
  obtain ⟨ds, hds, h⟩ := Option.bind_eq_some_iff.mp h
  obtain ⟨c, hc, hjob⟩ := Option.bind_eq_some_iff.mp h
  exact ⟨c, ⟨ds, hds, hc⟩, hjob⟩

/-- In every run with a crate that keeps to its rules the map leads from every job for which a
    channel can still validate a share to the template of the job, so that such a share is never
    without one; and it has no entries of connections that are gone. -/
theorem job_template_map_exact (env : Env) (outs : Option (List TxOut)) (as : List Action)
    (hcrate : Runs.Guarded (ChannelManager.step env) (fun s a => s.numbersJobs a = true ∧
      s.activatesNamed a = true ∧ s.opensNamed a = true) (start outs) as) :
    let s := after env outs as
    (∀ d k ch jobId job, s.liveJobOf d k ch jobId = some job →
      s.jobToTemplateId.lookup (d, ch, jobId) = some job.template.templateId) ∧
    ∀ key t, s.jobToTemplateId.lookup key = some t → s.isRegistered key.1 = true := by
  have hinv : JobsInv (after env outs as) :=
    Runs.run_invariant_of_guarded JobsInv (fun s a h hok => h.step hok.1 hok.2.1 hok.2.2)
      (jobsInv_start outs) as hcrate
  constructor
  · intro d k ch jobId job h
    obtain ⟨c, hc, hjob⟩ := liveJobOf_isOpen h
    exact hinv.map.exact d k ch c hc jobId job hjob
  · intro key t ht
    exact hinv.map.registered key (by rw [ht]; rfl)

/-- A miner has an extended channel, and a template that is not a future one has arrived. -/
def secondTemplateRun : List Action :=
  sampleConnections 1 ++ sampleUpstream 0 ++
  [.visit 0 (sampleVisit 1 []), .finish, .handlePending (sampleOpen [0xaa, 0, 0]),
   .event (.newTemplate ⟨2, false, 5000⟩), .visit 0 (sampleVisit 2 []), .finish]

/-- The template after it is a future one and is activated. -/
def thirdTemplateRun : List Action :=
  secondTemplateRun ++
  [.event (.newTemplate ⟨3, true, 6000⟩), .visit 0 (sampleVisit 3 []), .finish,
   .event (.setNewPrevHash (samplePrevHash 3) 0 true), .visit 0 (sampleVisit 3 []), .finish]

theorem job_template_map_exact_thirdTemplate :
    let s := after (sampleEnv .fullTemplate) (some [⟨0, [0x51]⟩]) thirdTemplateRun
    (s.liveJobOf 0 .extended 2 2).isNone = true ∧ (s.liveJobOf 0 .extended 2 3).isSome = true ∧
    ∀ d k ch jobId job, s.liveJobOf d k ch jobId = some job →
      s.jobToTemplateId.lookup (d, ch, jobId) = some job.template.templateId :=
  ⟨by decide +kernel, by decide +kernel,
    (job_template_map_exact (sampleEnv .fullTemplate) (some [⟨0, [0x51]⟩]) thirdTemplateRun
      (by decide +kernel)).1⟩

end ChannelManager

end Sv2Apps.Jdc
