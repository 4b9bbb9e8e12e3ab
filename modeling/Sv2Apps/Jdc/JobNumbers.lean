/-
  Jdc/JobNumbers.lean
  ===================
  **The numbers of jobs** — a job of a channel comes from the channel's own factory or from the one
  of its group.

  Both count from 1 (`numbersJobs` is the numbering of the crate).  The group's factory has made a
  job before any channel is there, so that its later jobs never have the id of the one that a
  channel was opened with; and a channel that has one of the group's jobs has it for the template
  that the group made it of (`GroupTemplatesInv`).
-/
import Sv2Apps.Jdc.PrevHashVisits

namespace Sv2Apps.Jdc

open Bitcoin

namespace ChannelManager

variable {env : Env} {s s' : ChannelManager} {d : DownstreamId}

/-! ## The answers of the crate -/

/-- A job that a factory makes gets the number after those it has made. -/
def isNext (made : Nat) : Option JobId → Bool
  | none => true
  | some jobId => decide (jobId.toNat = made + 1)

/-- The crate numbers the jobs of each factory from 1. -/
def numbersJobs (s : ChannelManager) (a : Action) : Bool :=
  match s.openOf a with
  | some (_, ans) => isNext 0 ans.templateJob
  | none => match a, s.loop with
    | .visit d ans, .newTemplate _ _ _ _ _ => match s.downstream.lookup d with
      | none => true
      | some ds => isNext ds.groupJobs ans.template.groupJob &&
        (!ds.requireStdJob || ds.standardChannels.entries.all fun e =>
          isNext e.2.ownJobs (ans.template.standardJob e.1))
    | _, _ => true

/-- The first job of a channel. -/
theorem openOf_first {a : Action} {r : PendingRequest} {ans : OpenAnswers} {jobId : JobId}
    (ha : s.openOf a = some (r, ans)) (hjob : ans.templateJob = some jobId)
    (hlaw : s.numbersJobs a = true) : jobId.toNat = 1 := by
  simp only [numbersJobs, ha, hjob, isNext, decide_eq_true_eq] at hlaw
  simpa using hlaw

/-- The number of the job that a group makes of a template. -/
theorem groupJob_toNat {ans : VisitAnswers} {t : NewTemplate} {ctx : TemplateContext}
    {present visited : List DownstreamId} {messages : List Message} {ds : Downstream} {groupJob : JobId}
    (hloop : s.loop = .newTemplate t ctx present visited messages)
    (hds : s.downstream.lookup d = some ds) (hgroup : ans.template.groupJob = some groupJob)
    (hlaw : s.numbersJobs (.visit d ans) = true) : groupJob.toNat = ds.groupJobs + 1 := by
  simp only [numbersJobs, openOf, hloop, hds, hgroup, isNext, Bool.and_eq_true,
    decide_eq_true_eq] at hlaw
  exact hlaw.1

/-- The jobs that the factory of a channel's jobs has made. -/
def made (ds : Downstream) (k : ChannelKind) (c : Channel) : Nat :=
  if k = .standard ∧ ds.requireStdJob = true then c.ownJobs else ds.groupJobs

/-- The numbers of the jobs that a template leads to. -/
theorem jobIdOf_toNat {ans : VisitAnswers} {t : NewTemplate} {ctx : TemplateContext}
    {present visited : List DownstreamId} {messages : List Message} {ds : Downstream}
    {groupJob jobId : JobId} {k : ChannelKind} {ch : ChannelId} {c : Channel}
    (hloop : s.loop = .newTemplate t ctx present visited messages)
    (hds : s.downstream.lookup d = some ds) (hgroup : ans.template.groupJob = some groupJob)
    (hc : (ds.channels k).lookup ch = some c)
    (hid : ds.jobIdOf groupJob ans.template k ch = some jobId)
    (hlaw : s.numbersJobs (.visit d ans) = true) : jobId.toNat = made ds k c + 1 := by
  have hgroupNext := groupJob_toNat hloop hds hgroup hlaw
  simp only [numbersJobs, openOf, hloop, hds, Bool.and_eq_true, Bool.or_eq_true, Bool.not_eq_true',
    List.all_eq_true] at hlaw
  unfold made
  cases k with
  | extended =>
    cases hid
    simpa using hgroupNext
  | standard =>
    by_cases hrequire : ds.requireStdJob = true
    · have hown := (hlaw.2.resolve_left (by simp [hrequire])) ⟨ch, c⟩
        ((KeyMap.mem_entries_iff _ _ _).mpr hc)
      rw [Downstream.jobIdOf, if_pos hrequire] at hid
      rw [hid] at hown
      rw [if_pos ⟨rfl, hrequire⟩]
      simpa [isNext] using hown
    · rw [Downstream.jobIdOf, if_neg hrequire] at hid
      cases hid
      rw [if_neg (fun h => hrequire h.2)]
      exact hgroupNext

/-! ## Connections after a step -/

/-- A connection with its channels in a state that changes one connection. -/
theorem lookup_of_insert {ds₀ ds : Downstream} {d₀ : DownstreamId}
    (hs' : s'.downstream = s.downstream.insert d₀ ds₀) (h : s'.downstream.lookup d = some ds) :
    (d = d₀ ∧ ds = ds₀) ∨ (d ≠ d₀ ∧ s.downstream.lookup d = some ds) := by
  rw [hs', KeyMap.lookup_insert_eq] at h
  split at h
  next heq =>
    cases h
    exact Or.inl ⟨heq, rfl⟩
  next hne => exact Or.inr ⟨hne, h⟩

/-- The only job of a channel that has been opened. -/
theorem lookup_openedChannel {extranoncePrefix : Bytes} {rollable : Nat} {t : NewTemplate}
    {outs : List TxOut} {jobId id : JobId} {job : ChannelJob}
    (h : (s.openedChannel extranoncePrefix rollable t outs jobId).jobs.lookup id = some job) :
    id = jobId ∧ job.template = t := by
  simp only [openedChannel, Channel.addJob] at h
  rw [KeyMap.lookup_insert_eq] at h
  split at h
  next heq =>
    cases h
    exact ⟨heq, rfl⟩
  · cases h

/-- The jobs of a channel that has got one. -/
theorem lookup_addJob {c : Channel} {jobId id : JobId} {t : NewTemplate} {outs : List TxOut}
    {size : Nat} {job : ChannelJob} (h : (c.addJob jobId t outs size).jobs.lookup id = some job) :
    (id = jobId ∧ job.template = t) ∨ (id ≠ jobId ∧ c.jobs.lookup id = some job) := by
  simp only [Channel.addJob] at h
  rw [KeyMap.lookup_insert_eq] at h
  split at h
  next heq =>
    cases h
    exact Or.inl ⟨heq, rfl⟩
  next hne => exact Or.inr ⟨hne, h⟩

/-- The channels of a connection that has got a template had been there. -/
theorem TakesTemplate.channel {t : NewTemplate} {outs : List TxOut} {ds ds' : Downstream}
    {groupJob : JobId} {ans : TemplateAnswers} (h : TakesTemplate ds ds' t outs groupJob ans)
    {k : ChannelKind} {ch : ChannelId} {c' : Channel} (hc' : (ds'.channels k).lookup ch = some c') :
    ∃ c, (ds.channels k).lookup ch = some c ∧ TakesJob ds t outs groupJob ans k ch c c' := by
  have hrel := h.channels k ch
  rw [hc'] at hrel
  exact rel_some_right hrel

/-! ## The numbers -/

/-- No channel has a job with a number that is still to come, the group's factory and those of the
    channels have each made a job, and extended channels are for connections that take the jobs of
    the group. -/
structure NumbersInv (s : ChannelManager) : Prop where
  groups : ∀ d ds, s.downstream.lookup d = some ds → 1 ≤ ds.groupJobs
  own : ∀ d k ch c, s.IsOpen d k ch c → 1 ≤ c.ownJobs
  numbered : ∀ d ds k ch c, s.downstream.lookup d = some ds → (ds.channels k).lookup ch = some c →
    ∀ jobId job, c.jobs.lookup jobId = some job → jobId.toNat ≤ made ds k c
  grouped : ∀ d ds ch c, s.downstream.lookup d = some ds →
    (ds.channels .extended).lookup ch = some c → ds.requireStdJob = false

theorem numbersInv_start (outs : Option (List TxOut)) : NumbersInv (start outs) := by
  refine ⟨?_, ?_, ?_, ?_⟩
  · intro d ds hds
    cases hds
  · rintro d k ch c ⟨ds, hds, -⟩
    cases hds
  · intro d ds k ch c hds
    cases hds
  · intro d ds ch c hds
    cases hds

namespace NumbersInv

theorem made_pos (h : NumbersInv s) {ds : Downstream} {k : ChannelKind} {ch : ChannelId} {c : Channel}
    (hds : s.downstream.lookup d = some ds) (hc : (ds.channels k).lookup ch = some c) :
    1 ≤ made ds k c := by
  unfold made
  split
  · exact h.own d k ch c ⟨ds, hds, hc⟩
  · exact h.groups d ds hds

theorem of_kept (h : NumbersInv s) (hconn : ConnectionInv s) (hkept : ChannelsKept s s') :
    NumbersInv s' := by
  refine ⟨?_, ?_, ?_, ?_⟩
  · intro d ds' hds'
    rcases hkept.connections d ds' hds' with ⟨ds, hds, hk⟩ | ⟨size, rfl, -⟩
    · rw [hk.groupJobs]
      exact h.groups d ds hds
    · exact Nat.le_refl 1
  · rintro d k ch c ⟨ds', hds', hc⟩
    rcases hkept.connections d ds' hds' with ⟨ds, hds, hk⟩ | ⟨size, rfl, -⟩
    · exact h.own d k ch c ⟨ds, hds, hk.channels k ch c hc⟩
    · cases k <;> cases hc
  · intro d ds' k ch c hds' hc jobId job hjob
    rcases hkept.connections d ds' hds' with ⟨ds, hds, hk⟩ | ⟨size, rfl, -⟩
    · have hc₀ := hk.channels k ch c hc
      have hsame := hk.setUp (hconn.opened d ds k ch c hds hc₀)
      have hmade : made ds' k c = made ds k c := by rw [made, made, hsame.1, hk.groupJobs]
      rw [hmade]
      exact h.numbered d ds k ch c hds hc₀ jobId job hjob
    · cases k <;> cases hc
  · intro d ds' ch c hds' hc
    rcases hkept.connections d ds' hds' with ⟨ds, hds, hk⟩ | ⟨size, rfl, -⟩
    · have hc₀ := hk.channels .extended ch c hc
      rw [(hk.setUp (hconn.opened d ds .extended ch c hds hc₀)).1]
      exact h.grouped d ds ch c hds hc₀
    · cases hc

/-- A channel is opened with its first job. -/
theorem of_opened (h : NumbersInv s) {r : PendingRequest} {ds ds' : Downstream} {k : ChannelKind}
    {extranoncePrefix : Bytes} {rollable : Nat} {t : NewTemplate} {outs : List TxOut} {jobId : JobId}
    (hds : s.downstream.lookup r.downstreamId = some ds)
    (hs' : s'.downstream = s.downstream.insert r.downstreamId ds')
    (hnew : OpensChannel ds ds' k (s.openedChannel extranoncePrefix rollable t outs jobId))
    (hfirst : jobId.toNat = 1) (hstd : k = .extended → ds.requireStdJob = false) :
    NumbersInv s' := by
  refine ⟨?_, ?_, ?_, ?_⟩
  · intro d ds₁ hds₁
    rcases lookup_of_insert hs' hds₁ with ⟨rfl, rfl⟩ | ⟨-, hds₁⟩
    · rw [hnew.groupJobs]
      exact h.groups _ ds hds
    · exact h.groups d ds₁ hds₁
  · rintro d k₁ ch c ⟨ds₁, hds₁, hc⟩
    rcases lookup_of_insert hs' hds₁ with ⟨rfl, rfl⟩ | ⟨-, hds₁⟩
    · rcases lookup_opened hnew hc with ⟨-, -, rfl⟩ | ⟨-, hc⟩
      · exact Nat.le_refl 1
      · exact h.own _ k₁ ch c ⟨ds, hds, hc⟩
    · exact h.own d k₁ ch c ⟨ds₁, hds₁, hc⟩
  · intro d ds₁ k₁ ch c hds₁ hc id job hjob
    rcases lookup_of_insert hs' hds₁ with ⟨rfl, rfl⟩ | ⟨-, hds₁⟩
    · have hmade : made ds₁ k₁ c = made ds k₁ c := by
        rw [made, made, hnew.requireStdJob, hnew.groupJobs]
      rw [hmade]
      rcases lookup_opened hnew hc with ⟨rfl, -, rfl⟩ | ⟨-, hc⟩
      · obtain ⟨rfl, -⟩ := lookup_openedChannel hjob
        rw [hfirst, made]
        split
        · exact Nat.le_refl 1
        · exact h.groups _ ds hds
      · exact h.numbered _ ds k₁ ch c hds hc id job hjob
    · exact h.numbered d ds₁ k₁ ch c hds₁ hc id job hjob
  · intro d ds₁ ch c hds₁ hc
    rcases lookup_of_insert hs' hds₁ with ⟨rfl, rfl⟩ | ⟨-, hds₁⟩
    · rw [hnew.requireStdJob]
      rcases lookup_opened hnew hc with ⟨hk, -, -⟩ | ⟨-, hc⟩
      · exact hstd hk.symm
      · exact h.grouped _ ds ch c hds hc
    · exact h.grouped d ds₁ ch c hds₁ hc

/-- The channels of a connection get their jobs of a template. -/
theorem of_gotTemplate (h : NumbersInv s) {t : NewTemplate} {outs : List TxOut} {ds ds' : Downstream}
    {groupJob : JobId} {ans : TemplateAnswers} (hds : s.downstream.lookup d = some ds)
    (hs' : s'.downstream = s.downstream.insert d ds')
    (htakes : TakesTemplate ds ds' t outs groupJob ans)
    (hnext : ∀ {k ch c jobId}, (ds.channels k).lookup ch = some c →
      ds.jobIdOf groupJob ans k ch = some jobId → jobId.toNat = made ds k c + 1) :
    NumbersInv s' := by
  refine ⟨?_, ?_, ?_, ?_⟩
  · intro d₁ ds₁ hds₁
    rcases lookup_of_insert hs' hds₁ with ⟨rfl, rfl⟩ | ⟨-, hds₁⟩
    · rw [htakes.groupJobs]
      exact Nat.le_add_left 1 _
    · exact h.groups d₁ ds₁ hds₁
  · rintro d₁ k ch c' ⟨ds₁, hds₁, hc'⟩
    rcases lookup_of_insert hs' hds₁ with ⟨rfl, rfl⟩ | ⟨-, hds₁⟩
    · obtain ⟨c, hc, jobId, size, -, -, rfl⟩ := htakes.channel hc'
      have hown := h.own _ k ch c ⟨ds, hds, hc⟩
      dsimp only
      split
      · exact Nat.le_add_left 1 _
      · exact hown
    · exact h.own d₁ k ch c' ⟨ds₁, hds₁, hc'⟩
  · intro d₁ ds₁ k ch c' hds₁ hc' id job hjob
    rcases lookup_of_insert hs' hds₁ with ⟨rfl, rfl⟩ | ⟨-, hds₁⟩
    · obtain ⟨c, hc, jobId, size, hid, -, rfl⟩ := htakes.channel hc'
      have hmade : made ds₁ k { c.addJob jobId t outs size with
          ownJobs := if k = .standard ∧ ds.requireStdJob = true then c.ownJobs + 1 else c.ownJobs } =
            made ds k c + 1 := by
        rw [made, made, htakes.requireStdJob, htakes.groupJobs]
        split
        · rfl
        · rfl
      rw [hmade]
      rcases lookup_addJob hjob with ⟨rfl, -⟩ | ⟨-, hjob⟩
      · rw [hnext hc hid]
      · exact Nat.le_succ_of_le (h.numbered _ ds k ch c hds hc id job hjob)
    · exact h.numbered d₁ ds₁ k ch c' hds₁ hc' id job hjob
  · intro d₁ ds₁ ch c' hds₁ hc'
    rcases lookup_of_insert hs' hds₁ with ⟨rfl, rfl⟩ | ⟨-, hds₁⟩
    · obtain ⟨c, hc, -⟩ := htakes.channel hc'
      rw [htakes.requireStdJob]
      exact h.grouped _ ds ch c hds hc
    · exact h.grouped d₁ ds₁ ch c' hds₁ hc'

/-- A step that changes neither the jobs of the channels of one connection nor the numbers. -/
theorem of_insert (h : NumbersInv s) {ds ds' : Downstream} (hds : s.downstream.lookup d = some ds)
    (hs' : s'.downstream = s.downstream.insert d ds') (hgroupJobs : ds'.groupJobs = ds.groupJobs)
    (hrequire : ds'.requireStdJob = ds.requireStdJob)
    (hchannels : ∀ k ch c', (ds'.channels k).lookup ch = some c' → ∃ c,
      (ds.channels k).lookup ch = some c ∧ c'.jobs = c.jobs ∧ c'.ownJobs = c.ownJobs) :
    NumbersInv s' := by
  refine ⟨?_, ?_, ?_, ?_⟩
  · intro d₁ ds₁ hds₁
    rcases lookup_of_insert hs' hds₁ with ⟨rfl, rfl⟩ | ⟨-, hds₁⟩
    · rw [hgroupJobs]
      exact h.groups _ ds hds
    · exact h.groups d₁ ds₁ hds₁
  · rintro d₁ k ch c' ⟨ds₁, hds₁, hc'⟩
    rcases lookup_of_insert hs' hds₁ with ⟨rfl, rfl⟩ | ⟨-, hds₁⟩
    · obtain ⟨c, hc, -, hown⟩ := hchannels k ch c' hc'
      rw [hown]
      exact h.own _ k ch c ⟨ds, hds, hc⟩
    · exact h.own d₁ k ch c' ⟨ds₁, hds₁, hc'⟩
  · intro d₁ ds₁ k ch c' hds₁ hc' id job hjob
    rcases lookup_of_insert hs' hds₁ with ⟨rfl, rfl⟩ | ⟨-, hds₁⟩
    · obtain ⟨c, hc, hjobs, hown⟩ := hchannels k ch c' hc'
      have hmade : made ds₁ k c' = made ds k c := by rw [made, made, hown, hrequire, hgroupJobs]
      rw [hmade]
      rw [hjobs] at hjob
      exact h.numbered _ ds k ch c hds hc id job hjob
    · exact h.numbered d₁ ds₁ k ch c' hds₁ hc' id job hjob
  · intro d₁ ds₁ ch c' hds₁ hc'
    rcases lookup_of_insert hs' hds₁ with ⟨rfl, rfl⟩ | ⟨-, hds₁⟩
    · obtain ⟨c, hc, -⟩ := hchannels .extended ch c' hc'
      rw [hrequire]
      exact h.grouped _ ds ch c hds hc
    · exact h.grouped d₁ ds₁ ch c' hds₁ hc'

theorem step (h : NumbersInv s) (hconn : ConnectionInv s) {a : Action}
    (hlaw : s.numbersJobs a = true) : NumbersInv (s.step env a) := by
  have hmove := step_move env s a
  generalize s.step env a = s' at hmove ⊢
  cases hmove with
  | kept hkept => exact h.of_kept hconn hkept
  | opened r ans ds ds' k extranoncePrefix t raw outs jobId ha hds hs' hnew hallocation hjob ht hraw
      houts hmap p hp haccepted hstd =>
    exact h.of_opened hds hs' hnew (openOf_first ha hjob hlaw) hstd
  | gotTemplate t ctx present visited messages ds ds' groupJob jobs hloop hnew hds hs' hmade htakes =>
    exact h.of_gotTemplate hds hs' htakes fun hc hid => jobIdOf_toNat hloop hds hmade hc hid hlaw
  | activated p consumed present visited messages ds jobs hloop hnew hds hs' =>
    refine h.of_insert hds hs' rfl rfl ?_
    intro k ch c' hc'
    obtain ⟨c, hc, rfl⟩ := Downstream.lookup_activate hc'
    exact ⟨c, hc, rfl, rfl⟩
  | renewed present visited renewals ds hloop hnew hds hs' =>
    refine h.of_insert hds hs' rfl rfl ?_
    intro k ch c' hc'
    obtain ⟨c, hc, rfl⟩ := lookup_renewed hc'
    obtain ⟨hjobs, hown, -⟩ := renew_jobs s.extranonceAllocator.generation _ ch c
    exact ⟨c, hc, hjobs, hown⟩

end NumbersInv

/-! ## The jobs of a group -/

/-- The jobs that the group channel has made since a connection came are not the first one, and a
    channel that has one of them has it for the group's template. -/
structure GroupTemplatesInv (s : ChannelManager) : Prop where
  later : ∀ d ds, s.downstream.lookup d = some ds → ∀ jobId t,
    ds.groupTemplates.lookup jobId = some t → 2 ≤ jobId.toNat
  shared : ∀ d ds k ch c, s.downstream.lookup d = some ds → (ds.channels k).lookup ch = some c →
    ¬(k = .standard ∧ ds.requireStdJob = true) → ∀ jobId job t, c.jobs.lookup jobId = some job →
      ds.groupTemplates.lookup jobId = some t → job.template.templateId = t

theorem groupTemplatesInv_start (outs : Option (List TxOut)) : GroupTemplatesInv (start outs) := by
  constructor
  · intro d ds hds
    cases hds
  · intro d ds k ch c hds
    cases hds

namespace GroupTemplatesInv

theorem of_kept (h : GroupTemplatesInv s) (hconn : ConnectionInv s) (hkept : ChannelsKept s s') :
    GroupTemplatesInv s' := by
  constructor
  · intro d ds' hds' jobId t ht
    rcases hkept.connections d ds' hds' with ⟨ds, hds, hk⟩ | ⟨size, rfl, -⟩
    · rw [hk.groupTemplates] at ht
      exact h.later d ds hds jobId t ht
    · cases ht
  · intro d ds' k ch c hds' hc hgroup jobId job t hjob ht
    rcases hkept.connections d ds' hds' with ⟨ds, hds, hk⟩ | ⟨size, rfl, -⟩
    · have hc₀ := hk.channels k ch c hc
      rw [(hk.setUp (hconn.opened d ds k ch c hds hc₀)).1] at hgroup
      rw [hk.groupTemplates] at ht
      exact h.shared d ds k ch c hds hc₀ hgroup jobId job t hjob ht
    · cases ht

theorem of_opened (h : GroupTemplatesInv s) {r : PendingRequest} {ds ds' : Downstream}
    {k : ChannelKind} {extranoncePrefix : Bytes} {rollable : Nat} {t : NewTemplate}
    {outs : List TxOut} {jobId : JobId} (hds : s.downstream.lookup r.downstreamId = some ds)
    (hs' : s'.downstream = s.downstream.insert r.downstreamId ds')
    (hnew : OpensChannel ds ds' k (s.openedChannel extranoncePrefix rollable t outs jobId))
    (hfirst : jobId.toNat = 1) : GroupTemplatesInv s' := by
  constructor
  · intro d ds₁ hds₁ id t₁ ht₁
    rcases lookup_of_insert hs' hds₁ with ⟨rfl, rfl⟩ | ⟨-, hds₁⟩
    · rw [hnew.groupTemplates] at ht₁
      exact h.later _ ds hds id t₁ ht₁
    · exact h.later d ds₁ hds₁ id t₁ ht₁
  · intro d ds₁ k₁ ch c hds₁ hc hgroup id job t₁ hjob ht₁
    rcases lookup_of_insert hs' hds₁ with ⟨rfl, rfl⟩ | ⟨-, hds₁⟩
    · rw [hnew.groupTemplates] at ht₁
      rw [hnew.requireStdJob] at hgroup
      rcases lookup_opened hnew hc with ⟨-, -, rfl⟩ | ⟨-, hc⟩
      · -- the new channel has its first job only
        have hlater := h.later _ ds hds id t₁ ht₁
        obtain ⟨rfl, -⟩ := lookup_openedChannel hjob
        omega
      · exact h.shared _ ds k₁ ch c hds hc hgroup id job t₁ hjob ht₁
    · exact h.shared d ds₁ k₁ ch c hds₁ hc hgroup id job t₁ hjob ht₁

theorem of_gotTemplate (h : GroupTemplatesInv s) {t : NewTemplate} {outs : List TxOut}
    {ds ds' : Downstream} {groupJob : JobId} {ans : TemplateAnswers}
    (hds : s.downstream.lookup d = some ds) (hs' : s'.downstream = s.downstream.insert d ds')
    (htakes : TakesTemplate ds ds' t outs groupJob ans) (hnext : 2 ≤ groupJob.toNat) :
    GroupTemplatesInv s' := by
  constructor
  · intro d₁ ds₁ hds₁ id t₁ ht₁
    rcases lookup_of_insert hs' hds₁ with ⟨rfl, rfl⟩ | ⟨-, hds₁⟩
    · rw [htakes.groupTemplates, KeyMap.lookup_insert_eq] at ht₁
      split at ht₁
      next heq =>
        rw [heq]
        exact hnext
      · exact h.later _ ds hds id t₁ ht₁
    · exact h.later d₁ ds₁ hds₁ id t₁ ht₁
  · intro d₁ ds₁ k ch c' hds₁ hc' hgroup id job t₁ hjob ht₁
    rcases lookup_of_insert hs' hds₁ with ⟨rfl, rfl⟩ | ⟨-, hds₁⟩
    · rw [htakes.requireStdJob] at hgroup
      obtain ⟨c, hc, jobId, size, hid, -, rfl⟩ := htakes.channel hc'
      have hid : jobId = groupJob := by
        cases k with
        | extended => exact (Option.some.inj hid).symm
        | standard =>
          rw [Downstream.jobIdOf, if_neg (fun hrequire => hgroup ⟨rfl, hrequire⟩)] at hid
          exact (Option.some.inj hid).symm
      subst hid
      rw [htakes.groupTemplates, KeyMap.lookup_insert_eq] at ht₁
      rcases lookup_addJob hjob with ⟨rfl, htemplate⟩ | ⟨hne, hjob⟩
      · rw [if_pos rfl] at ht₁
        cases ht₁
        rw [htemplate]
      · rw [if_neg hne] at ht₁
        exact h.shared _ ds k ch c hds hc hgroup id job t₁ hjob ht₁
    · exact h.shared d₁ ds₁ k ch c' hds₁ hc' hgroup id job t₁ hjob ht₁

/-- A step that does not change the jobs of the channels of one connection. -/
theorem of_insert (h : GroupTemplatesInv s) {ds ds' : Downstream}
    (hds : s.downstream.lookup d = some ds) (hs' : s'.downstream = s.downstream.insert d ds')
    (hgroup : ds'.groupTemplates = ds.groupTemplates)
    (hrequire : ds'.requireStdJob = ds.requireStdJob)
    (hchannels : ∀ k ch c', (ds'.channels k).lookup ch = some c' → ∃ c,
      (ds.channels k).lookup ch = some c ∧ c'.jobs = c.jobs) : GroupTemplatesInv s' := by
  constructor
  · intro d₁ ds₁ hds₁ id t ht
    rcases lookup_of_insert hs' hds₁ with ⟨rfl, rfl⟩ | ⟨-, hds₁⟩
    · rw [hgroup] at ht
      exact h.later _ ds hds id t ht
    · exact h.later d₁ ds₁ hds₁ id t ht
  · intro d₁ ds₁ k ch c' hds₁ hc' hmode id job t hjob ht
    rcases lookup_of_insert hs' hds₁ with ⟨rfl, rfl⟩ | ⟨-, hds₁⟩
    · obtain ⟨c, hc, hjobs⟩ := hchannels k ch c' hc'
      rw [hjobs] at hjob
      rw [hgroup] at ht
      rw [hrequire] at hmode
      exact h.shared _ ds k ch c hds hc hmode id job t hjob ht
    · exact h.shared d₁ ds₁ k ch c' hds₁ hc' hmode id job t hjob ht

theorem step (h : GroupTemplatesInv s) (hnumbers : NumbersInv s) (hconn : ConnectionInv s)
    {a : Action} (hlaw : s.numbersJobs a = true) : GroupTemplatesInv (s.step env a) := by
  have hmove := step_move env s a
  generalize s.step env a = s' at hmove ⊢
  cases hmove with
  | kept hkept => exact h.of_kept hconn hkept
  | opened r ans ds ds' k extranoncePrefix t raw outs jobId ha hds hs' hnew hallocation hjob =>
    exact h.of_opened hds hs' hnew (openOf_first ha hjob hlaw)
  | gotTemplate t ctx present visited messages ds ds' groupJob jobs hloop hnew hds hs' hgroup htakes =>
    have hmade := groupJob_toNat hloop hds hgroup hlaw
    have hsome := hnumbers.groups _ ds hds
    exact h.of_gotTemplate hds hs' htakes (by omega)
  | activated p consumed present visited messages ds jobs hloop hnew hds hs' =>
    refine h.of_insert hds hs' rfl rfl ?_
    intro k ch c' hc'
    obtain ⟨c, hc, rfl⟩ := Downstream.lookup_activate hc'
    exact ⟨c, hc, rfl⟩
  | renewed present visited renewals ds hloop hnew hds hs' =>
    refine h.of_insert hds hs' rfl rfl ?_
    intro k ch c' hc'
    obtain ⟨c, hc, rfl⟩ := lookup_renewed hc'
    exact ⟨c, hc, (renew_jobs s.extranonceAllocator.generation _ ch c).1⟩

end GroupTemplatesInv

end ChannelManager

end Sv2Apps.Jdc
