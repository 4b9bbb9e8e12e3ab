/-
  Pool/TemplatePairing.lean
  =========================
  **Templates and prev-hashes stay paired** — in which runs the pool's channel manager
  survives the two cells `last_future_template` and `last_new_prev_hash`.

  Between a future template and the prev-hash that activates it the two cells do not belong
  together.  A channel that is opened then, or a group channel that is bootstrapped then,
  gets the new template and the old prev-hash, which is an error, and the error stops the
  pool (`opening_in_window_stops_pool`).  A connection that reads the cells before a
  template message and is registered after it misses the message.

  When no open and no accept falls into these windows (`Timely`) the pool does not stop, and
  every registered group channel has the current tip and the current template's job
  (`pairing_survives`).  The invariant compares each channel with a `View` of the cells: a
  connection that the message at work has visited has the new view, the others the old one.
-/
import Sv2Apps.Pool.ChannelManager

namespace Sv2Apps.Pool.ChannelManager

open Bitcoin

variable {Ch : Type}

/-! ## Views of the template provider -/

/-- What the template provider has said last. -/
structure View where
  prev : Option SetNewPrevHash
  future : Option NewTemplate
  current : Option NewTemplate

namespace View

/-- The future template that waits for its prev-hash. -/
def pending (v : View) : Option NewTemplate :=
  match v.future, v.prev with
  | some t, some p => if p.templateId = t.templateId then none else some t
  | some t, none => some t
  | none, _ => none

def next (v : View) : TemplateMessage → View
  | .newTemplate t =>
    if t.futureTemplate then { v with future := some t } else { v with current := some t }
  | .setNewPrevHash p => { v with prev := some p, current := v.future }

/-- One future template at a time, with an id of its own, and then its prev-hash. -/
def Admits (v : View) : TemplateMessage → Prop
  | .newTemplate t => t.futureTemplate = true →
      v.pending = none ∧ ∀ p ∈ v.prev, p.templateId ≠ t.templateId
  | .setNewPrevHash p => ∃ t ∈ v.pending, p.templateId = t.templateId

instance (v : View) (msg : TemplateMessage) : Decidable (v.Admits msg) :=
  match msg with
  | .newTemplate _ => inferInstanceAs (Decidable (_ → _ ∧ ∀ p ∈ v.prev, p.templateId ≠ _))
  | .setNewPrevHash p => inferInstanceAs (Decidable (∃ t ∈ v.pending, p.templateId = _))

theorem pending_eq_some {v : View} {t : NewTemplate} (h : v.pending = some t) :
    v.future = some t := by
  unfold pending at h
  split at h
  next t' p hf hp =>
    split at h <;> cases h
    exact hf
  next t' hf hp =>
    cases h
    exact hf
  next => cases h

theorem pending_next_future {v : View} {t : NewTemplate} (hf : t.futureTemplate = true)
    (ha : v.Admits (.newTemplate t)) : (v.next (.newTemplate t)).pending = some t := by
  have hids := (ha hf).2
  simp only [next, hf, if_true, pending]
  split
  next t' p ht hp =>
    cases ht
    rw [if_neg (hids p hp)]
  next t' ht hp => exact ht.symm ▸ rfl
  next ht => cases ht

theorem pending_next_now {v : View} {t : NewTemplate} (hf : t.futureTemplate = false) :
    (v.next (.newTemplate t)).pending = v.pending := by
  simp only [next, hf, Bool.false_eq_true, if_false, pending]

theorem pending_next_prevHash {v : View} {p : SetNewPrevHash}
    (ha : v.Admits (.setNewPrevHash p)) : (v.next (.setNewPrevHash p)).pending = none := by
  obtain ⟨t, ht, hid⟩ := ha
  have hfut := pending_eq_some ht
  simp only [next, pending, hfut, if_pos hid]

end View

def view (s : ChannelManager Ch) : View := ⟨s.lastNewPrevHash, s.lastFutureTemplate, s.current⟩

section

variable (env : Env Ch)

/-! ## Channels that follow a view -/

structure ChannelSynced (v : View) (c : Ch) : Prop where
  tip : ∃ p, v.prev = some p ∧ env.channels.getChainTip c = some p
  pending : ∀ t, v.pending = some t →
    ∃ j, env.channels.getFutureJob c t.templateId = some j ∧ j.template = t

structure GroupSynced (v : View) (g : Ch) : Prop extends ChannelSynced env v g where
  size : env.channels.getFullExtranonceSize g = env.fullExtranonceSize
  active : ∃ j, env.channels.getActiveJob g = some j ∧ v.current = some j.template

structure Synced (v : View) (ds : Downstream Ch) : Prop where
  payout : ∀ mode, ds.payoutMode = some mode → mode.Valid
  group : GroupSynced env v ds.groupChannel
  standard : ∀ ch c, ds.standardChannels.lookup ch = some c → ChannelSynced env v c.channel
  extended : ∀ ch c, ds.extendedChannels.lookup ch = some c → ChannelSynced env v c.channel

end

variable {env : Env Ch}

/-- The outputs that a mode asks for share out the template's value. -/
theorem affords_coinbaseOutputs {mode : PayoutMode} (hm : mode.Valid) (t : NewTemplate)
    (poolScript : Bytes) :
    t.Affords (mode.coinbaseOutputs t.coinbaseTxValueRemaining poolScript) :=
  (PayoutMode.total_coinbaseOutputs hm _ _).le

theorem affords_pool (t : NewTemplate) (poolScript : Bytes) :
    t.Affords [⟨t.coinbaseTxValueRemaining, poolScript⟩] := by
  have hm : PayoutMode.fullDonation.Valid := trivial
  exact affords_coinbaseOutputs hm t poolScript

theorem Synced.affords {v : View} {ds : Downstream Ch} (h : Synced env v ds) (t : NewTemplate) :
    t.Affords (ds.coinbaseOutputs env t) := by
  unfold Downstream.coinbaseOutputs
  split
  next mode hmode => exact affords_coinbaseOutputs (h.payout mode hmode) t env.poolScript
  next => exact affords_pool t env.poolScript

/-- A fresh channel that gets the template and the prev-hash of a view without a pending
    template. -/
theorem bootstrap_synced (hl : env.channels.Lawful) {v : View} {t : NewTemplate}
    {p : SetNewPrevHash} (hfuture : v.future = some t) (hprev : v.prev = some p)
    (hpaired : v.pending = none) (hf : t.futureTemplate = true) (ch : ChannelId) (n : Nat)
    {outs : List TxOut} (houts : t.Affords outs) :
    ∃ c c' j, env.channels.onNewTemplate (env.channels.newChannel ch n) t outs = some c ∧
      env.channels.getFutureJob c t.templateId = some j ∧ j.template = t ∧
      env.channels.onSetNewPrevHash c p = some c' ∧ ChannelSynced env v c' ∧
      env.channels.getFullExtranonceSize c' = n ∧ env.channels.getActiveJob c' = some j ∧
      p.templateId = t.templateId := by
  have hid : p.templateId = t.templateId := by
    by_contra hne
    simp [View.pending, hfuture, hprev, hne] at hpaired
  obtain ⟨c, hc⟩ := Option.isSome_iff_exists.mp
    (hl.newTemplate_ok (env.channels.newChannel ch n) t outs houts (.inl hf))
  obtain ⟨j, hj, ht, -⟩ := hl.newTemplate_job _ _ _ _ hc
  simp only [ChannelsSv2.templateJob, hf, if_true] at hj
  have hj' : env.channels.getFutureJob c p.templateId = some j := by
    rw [hid]
    exact hj
  obtain ⟨c', hc'⟩ := Option.isSome_iff_exists.mp
    (hl.setNewPrevHash_ok c p (.inl (Option.isSome_of_eq_some hj')))
  obtain ⟨htip, hsize⟩ := hl.setNewPrevHash_tip _ _ _ hc'
  refine ⟨c, c', j, hc, hj, ht, hc', ⟨⟨p, hprev, htip⟩, ?_⟩, ?_, ?_, hid⟩
  · intro t' ht'
    rw [hpaired] at ht'
    cases ht'
  · rw [hsize, (hl.newTemplate_tip _ _ _ _ hc).2, hl.newChannel_size]
  · exact hl.setNewPrevHash_active _ _ _ _ hc' hj'

/-- A future template on a channel that follows the view. -/
theorem ChannelSynced.onNewTemplate (hl : env.channels.Lawful) {v : View} {c : Ch}
    (h : ChannelSynced env v c) {t : NewTemplate} (ha : v.Admits (.newTemplate t))
    {outs : List TxOut} (houts : t.Affords outs) :
    ∃ c' j, env.channels.onNewTemplate c t outs = some c' ∧
      env.channels.templateJob c' t = some j ∧ j.template = t ∧
      ChannelSynced env (v.next (.newTemplate t)) c' := by
  obtain ⟨p, hp, htip⟩ := h.tip
  have hok : t.futureTemplate = true ∨ (env.channels.getChainTip c).isSome := by
    right
    rw [htip]
    rfl
  obtain ⟨c', hc'⟩ := Option.isSome_iff_exists.mp (hl.newTemplate_ok c t outs houts hok)
  obtain ⟨j, hj, ht, -⟩ := hl.newTemplate_job _ _ _ _ hc'
  have htip' : env.channels.getChainTip c' = some p := by
    rw [(hl.newTemplate_tip _ _ _ _ hc').1, htip]
  refine ⟨c', j, hc', hj, ht, ?_⟩
  by_cases hf : t.futureTemplate = true
  · refine ⟨⟨p, ?_, htip'⟩, ?_⟩
    · simp only [View.next, hf, if_true]
      exact hp
    · intro t' ht'
      rw [View.pending_next_future hf ha] at ht'
      cases ht'
      simp only [ChannelsSv2.templateJob, hf, if_true] at hj
      exact ⟨j, hj, ht⟩
  · have hf' : t.futureTemplate = false := by simpa using hf
    refine ⟨⟨p, ?_, htip'⟩, ?_⟩
    · simp only [View.next, hf', Bool.false_eq_true, if_false]
      exact hp
    · intro t' ht'
      rw [View.pending_next_now hf'] at ht'
      rw [hl.newTemplate_future _ _ _ _ hc' hf']
      exact h.pending t' ht'

theorem GroupSynced.onNewTemplate (hl : env.channels.Lawful) {v : View} {g : Ch}
    (h : GroupSynced env v g) {t : NewTemplate} (ha : v.Admits (.newTemplate t))
    {outs : List TxOut} (houts : t.Affords outs) :
    ∃ g' j, env.channels.onNewTemplate g t outs = some g' ∧
      env.channels.templateJob g' t = some j ∧ j.template = t ∧
      GroupSynced env (v.next (.newTemplate t)) g' := by
  obtain ⟨g', j, hg', hj, ht, hsync⟩ := h.toChannelSynced.onNewTemplate hl ha houts
  refine ⟨g', j, hg', hj, ht, hsync, ?_, ?_⟩
  · rw [(hl.newTemplate_tip _ _ _ _ hg').2, h.size]
  · by_cases hf : t.futureTemplate = true
    · obtain ⟨k, hk, hcur⟩ := h.active
      refine ⟨k, ?_, ?_⟩
      · rw [hl.newTemplate_active _ _ _ _ hg' hf, hk]
      · simp only [View.next, hf, if_true]
        exact hcur
    · have hf' : t.futureTemplate = false := by simpa using hf
      simp only [ChannelsSv2.templateJob, hf', Bool.false_eq_true, if_false] at hj
      refine ⟨j, hj, ?_⟩
      simp only [View.next, hf', Bool.false_eq_true, if_false, ht]

theorem ChannelSynced.onGroupChannelJob (hl : env.channels.Lawful) {v : View} {c : Ch}
    (h : ChannelSynced env v c) {job : Job} (ha : v.Admits (.newTemplate job.template)) :
    ∃ c', env.channels.onGroupChannelJob c job = some c' ∧
      ChannelSynced env (v.next (.newTemplate job.template)) c' := by
  obtain ⟨p, hp, htip⟩ := h.tip
  have hok : job.template.futureTemplate = true ∨ (env.channels.getChainTip c).isSome := by
    right
    rw [htip]
    rfl
  obtain ⟨c', hc'⟩ := Option.isSome_iff_exists.mp (hl.groupJob_ok c job hok)
  have htip' : env.channels.getChainTip c' = some p := by
    rw [hl.groupJob_tip _ _ _ hc', htip]
  have hfut := hl.groupJob_future _ _ _ hc'
  refine ⟨c', hc', ?_⟩
  by_cases hf : job.template.futureTemplate = true
  · rw [if_pos hf] at hfut
    refine ⟨⟨p, ?_, htip'⟩, ?_⟩
    · simp only [View.next, hf, if_true]
      exact hp
    · intro t' ht'
      rw [View.pending_next_future hf ha] at ht'
      cases ht'
      exact hfut
  · rw [if_neg hf] at hfut
    have hf' : job.template.futureTemplate = false := by simpa using hf
    refine ⟨⟨p, ?_, htip'⟩, ?_⟩
    · simp only [View.next, hf', Bool.false_eq_true, if_false]
      exact hp
    · intro t' ht'
      rw [View.pending_next_now hf'] at ht'
      rw [hfut]
      exact h.pending t' ht'

/-- The prev-hash that a channel with its pending template waits for. -/
theorem ChannelSynced.onSetNewPrevHash (hl : env.channels.Lawful) {v : View} {c : Ch}
    (h : ChannelSynced env v c) {p : SetNewPrevHash} (ha : v.Admits (.setNewPrevHash p)) :
    ∃ c' j, env.channels.onSetNewPrevHash c p = some c' ∧
      ChannelSynced env (v.next (.setNewPrevHash p)) c' ∧
      env.channels.getActiveJob c' = some j ∧ v.future = some j.template := by
  obtain ⟨t, ht, hid⟩ := id ha
  obtain ⟨j, hj, hjt⟩ := h.pending t ht
  rw [← hid] at hj
  obtain ⟨c', hc'⟩ := Option.isSome_iff_exists.mp
    (hl.setNewPrevHash_ok c p (.inl (Option.isSome_of_eq_some hj)))
  refine ⟨c', j, hc', ⟨⟨p, rfl, (hl.setNewPrevHash_tip _ _ _ hc').1⟩, ?_⟩, ?_, ?_⟩
  · intro t' ht'
    rw [View.pending_next_prevHash ha] at ht'
    cases ht'
  · exact hl.setNewPrevHash_active _ _ _ _ hc' hj
  · rw [View.pending_eq_some ht, hjt]

/-! ## Visiting a connection -/

/-- A pass that keeps every channel on the next view. -/
theorem tryMap_synced {v v' : View} {m : KeyMap ChannelId (OpenChannel Ch)}
    (hm : ∀ ch c, m.lookup ch = some c → ChannelSynced env v c.channel) {W : Type}
    {f : ChannelId → OpenChannel Ch → Except Fault W} {channel : W → Ch}
    (hf : ∀ ch c, ChannelSynced env v c.channel →
      ∃ w, f ch c = .ok w ∧ ChannelSynced env v' (channel w)) :
    ∃ m', KeyMap.tryMap f m = .ok m' ∧
      ∀ ch w, m'.lookup ch = some w → ChannelSynced env v' (channel w) := by
  have hall : ∀ ch c, m.lookup ch = some c → ∃ w, f ch c = .ok w := by
    intro ch c hc
    obtain ⟨w, hw, -⟩ := hf ch c (hm ch c hc)
    exact ⟨w, hw⟩
  obtain ⟨m', hm'⟩ := KeyMap.tryMap_ok hall
  refine ⟨m', hm', ?_⟩
  intro ch w hw
  obtain ⟨c, hc, hfc⟩ := KeyMap.lookup_tryMap_some hm' hw
  obtain ⟨w', hw', hsync⟩ := hf ch c (hm ch c hc)
  rw [hfc] at hw'
  cases hw'
  exact hsync

theorem onGroupChannelJob_synced (hl : env.channels.Lawful) {v : View} {job : Job}
    (ha : v.Admits (.newTemplate job.template)) (ch : ChannelId) (c : OpenChannel Ch)
    (h : ChannelSynced env v c.channel) :
    ∃ w, Downstream.onGroupChannelJob env job ch c = .ok w ∧
      ChannelSynced env (v.next (.newTemplate job.template)) w.channel := by
  obtain ⟨c', hc', hsync⟩ := h.onGroupChannelJob hl ha
  exact ⟨{ c with channel := c' }, by simp only [Downstream.onGroupChannelJob, hc'], hsync⟩

theorem standardOnNewTemplate_synced (hl : env.channels.Lawful) {v : View} {ds : Downstream Ch}
    (h : Synced env v ds) {t : NewTemplate} {outs : List TxOut} (houts : t.Affords outs) {job : Job}
    (hjob : job.template = t) (ha : v.Admits (.newTemplate t)) :
    ∃ std ms, ds.standardOnNewTemplate env t outs job = .ok (std, ms) ∧
      ∀ ch c, std.lookup ch = some c → ChannelSynced env (v.next (.newTemplate t)) c.channel := by
  subst hjob
  unfold Downstream.standardOnNewTemplate
  by_cases hstd : ds.requiresStandardJobs = true
  · have hf : ∀ (ch : ChannelId) (c : OpenChannel Ch), ChannelSynced env v c.channel →
        ∃ w, Downstream.onNewTemplate env job.template outs ch c = .ok w ∧
          ChannelSynced env (v.next (.newTemplate job.template)) w.1.channel := by
      intro ch c hc
      obtain ⟨c', j, hc', hj, -, hsync⟩ := hc.onNewTemplate hl ha houts
      refine ⟨({ c with channel := c' }, j), ?_, hsync⟩
      simp only [Downstream.onNewTemplate, hc', hj]
    obtain ⟨pairs, hpairs, hsync⟩ := tryMap_synced h.standard hf
    simp only [hstd, Bool.not_true, Bool.false_eq_true, if_false, hpairs]
    refine ⟨_, _, rfl, ?_⟩
    intro ch c hc
    rw [KeyMap.lookup_mapValues] at hc
    obtain ⟨w, hw, rfl⟩ := Option.map_eq_some_iff.mp hc
    exact hsync ch w hw
  · obtain ⟨std, hmap, hsync⟩ := tryMap_synced h.standard (onGroupChannelJob_synced hl ha)
    have hstd' : ds.requiresStandardJobs = false := by simpa using hstd
    simp only [hstd', Bool.not_false, if_true, hmap]
    exact ⟨std, [], rfl, hsync⟩

theorem visitNewTemplate_synced (hl : env.channels.Lawful) {v : View} {ds : Downstream Ch}
    (hcustom : ds.requiresCustomWork = false) (h : Synced env v ds) {t : NewTemplate}
    (ha : v.Admits (.newTemplate t)) :
    ∃ ds' ms, ds.visitNewTemplate env t = .ok (ds', ms) ∧
      Synced env (v.next (.newTemplate t)) ds' ∧ ds'.requiresCustomWork = false := by
  obtain ⟨g, job, hg, hjob, htpl, hsync⟩ := h.group.onNewTemplate hl ha (h.affords t)
  obtain ⟨std, ms, hstd, hstdSync⟩ := standardOnNewTemplate_synced hl h (h.affords t) htpl ha
  have ha' : v.Admits (.newTemplate job.template) := htpl ▸ ha
  obtain ⟨ext, hext, hextSync⟩ := tryMap_synced h.extended (onGroupChannelJob_synced hl ha')
  rw [htpl] at hextSync
  unfold Downstream.visitNewTemplate
  simp only [hcustom, Bool.false_eq_true, if_false, hg, hjob, hstd, hext]
  exact ⟨_, _, rfl, ⟨h.payout, hsync, hstdSync, hextSync⟩, rfl⟩

theorem visitSetNewPrevHash_synced (hl : env.channels.Lawful) {v : View} {ds : Downstream Ch}
    (hcustom : ds.requiresCustomWork = false) (h : Synced env v ds) {p : SetNewPrevHash}
    (ha : v.Admits (.setNewPrevHash p)) :
    ∃ ds' ms, ds.visitSetNewPrevHash env p = .ok (ds', ms) ∧
      Synced env (v.next (.setNewPrevHash p)) ds' ∧ ds'.requiresCustomWork = false := by
  obtain ⟨g, job, hg, hsync, hactive, hfut⟩ :=
    h.group.toChannelSynced.onSetNewPrevHash hl ha
  have hgroup : GroupSynced env (v.next (.setNewPrevHash p)) g := by
    refine ⟨hsync, ?_, ⟨job, hactive, hfut⟩⟩
    rw [(hl.setNewPrevHash_tip _ _ _ hg).2, h.group.size]
  have hchan : ∀ (ch : ChannelId) (c : OpenChannel Ch), ChannelSynced env v c.channel →
      ∃ w, Downstream.onSetNewPrevHash env p ch c = .ok w ∧
        ChannelSynced env (v.next (.setNewPrevHash p)) w.channel := by
    intro ch c hc
    obtain ⟨c', j, hc', hsync', -, -⟩ := hc.onSetNewPrevHash hl ha
    exact ⟨{ c with channel := c' }, by simp only [Downstream.onSetNewPrevHash, hc'], hsync'⟩
  obtain ⟨ext, hext, hextSync⟩ := tryMap_synced h.extended hchan
  obtain ⟨std, hstd, hstdSync⟩ := tryMap_synced h.standard hchan
  -- every standard channel has an active job now
  have hactives : ∀ e ∈ std.entries, (env.channels.getActiveJob e.2.channel).isSome := by
    intro e he
    obtain ⟨c, hc, hfc⟩ := KeyMap.lookup_tryMap_some hstd ((KeyMap.mem_entries_iff _ _ _).mp he)
    obtain ⟨c', j, hc', -, hj, -⟩ := (h.standard e.1 c hc).onSetNewPrevHash hl ha
    simp only [Downstream.onSetNewPrevHash, hc'] at hfc
    rw [← Except.ok.inj hfc]
    exact Option.isSome_of_eq_some hj
  have hnone : ((std.entries.map fun e => (e.1, e.2.userIdentity,
      (env.channels.getActiveJob e.2.channel).map Job.jobId)).any fun e => e.2.2.isNone) =
      false := by
    rw [List.any_eq_false]
    intro e he
    obtain ⟨e', he', rfl⟩ := List.mem_map.mp he
    have := hactives e' he'
    simpa [Option.isNone_iff_eq_none, ← Option.isSome_iff_ne_none] using this
  unfold Downstream.visitSetNewPrevHash
  simp only [hcustom, Bool.false_eq_true, if_false, hg, hactive, Option.map_some,
    Option.isNone_some, Bool.and_false, hext, hstd, hnone]
  exact ⟨_, _, rfl, ⟨h.payout, hgroup, hstdSync, hextSync⟩, rfl⟩

theorem visit_synced (hl : env.channels.Lawful) {v : View} {ds : Downstream Ch}
    (hcustom : ds.requiresCustomWork = false) (h : Synced env v ds) {msg : TemplateMessage}
    (ha : v.Admits msg) :
    ∃ ds' ms, ds.visit env msg = .ok (ds', ms) ∧ Synced env (v.next msg) ds' ∧
      ds'.requiresCustomWork = false := by
  cases msg with
  | newTemplate t => exact visitNewTemplate_synced hl hcustom h ha
  | setNewPrevHash p => exact visitSetNewPrevHash_synced hl hcustom h ha

theorem visit_customWork {ds : Downstream Ch} (hcustom : ds.requiresCustomWork = true)
    (msg : TemplateMessage) : ds.visit env msg = .ok (ds, []) := by
  cases msg with
  | newTemplate t => simp [Downstream.visit, Downstream.visitNewTemplate, hcustom]
  | setNewPrevHash p => simp [Downstream.visit, Downstream.visitSetNewPrevHash, hcustom]

/-! ## Opening a channel -/

section

variable (env)

/-- Unless the connection has said that it selects its own work, its channels follow the
    view. -/
structure Followed (v : View) (ds : Downstream Ch) : Prop where
  setUp : ds.requiresCustomWork = true → ds.setUp = true
  synced : ds.requiresCustomWork = false → Synced env v ds

/-- A prev-hash in the batch activates the jobs in the batch. -/
def BatchPaired (ms : List (List Identity × MiningMessage)) : Prop :=
  ∀ m ∈ ms, ∀ m' ∈ ms, ∀ job ch jobId p, m.2.job = some job →
    m'.2 = .setNewPrevHash ch jobId p →
      job.template.templateId = p.templateId ∧ job.jobId = jobId

/-- An open that goes well. -/
structure OpensPaired (v : View) (r : Downstream Ch × Reply) : Prop where
  noShutdown : r.2 ≠ .shutdown
  noPanic : r.2 ≠ .panic
  followed : Followed env v r.1
  paired : ∀ ms, r.2 = .messages ms → BatchPaired ms

/-- What the allocator promises: prefixes of the configured length, and no errors but those
    that have an error code. -/
def Action.AllocatorSound : Action → Prop
  | .openStandard _ _ (.allocated length) _ => length = env.fullExtranonceSize
  | .openStandard _ _ .fault _ => False
  | .openExtended _ _ (.allocated length) _ =>
    length + Downstream.clientSearchSpaceBytes = env.fullExtranonceSize
  | .openExtended _ _ .fault _ => False
  | _ => True

end

theorem OpensPaired.refused {v : View} {ds : Downstream Ch} (h : Followed env v ds)
    (msg : OpenMiningChannel) (code : OpenMiningChannelErrorCode) :
    OpensPaired env v (ds.openError msg code) := by
  refine ⟨by simp [Downstream.openError], by simp [Downstream.openError], h, ?_⟩
  intro ms hms m hm m' hm' job ch jobId p hjob
  cases hms
  rcases List.mem_singleton.mp hm with rfl
  cases hjob

theorem OpensPaired.disconnect {v : View} {ds : Downstream Ch} (h : Followed env v ds) :
    OpensPaired env v (ds, .disconnect) := by
  refine ⟨by simp, by simp, h, ?_⟩
  intro ms hms
  cases hms

theorem OpensPaired.construct {v : View} {ds : Downstream Ch} (h : Followed env v ds)
    {msg : OpenMiningChannel} {allocation : AllocationAnswer} (hne : allocation ≠ .fault)
    {construction : ConstructionAnswer}
    {rest : Downstream Ch → ChannelId → Nat → Downstream Ch × Reply}
    (hrest : ∀ length, allocation = .allocated length →
      OpensPaired env v (rest { ds with channelIdFactory := ds.channelIdFactory + 1 }
        ds.channelIdFactory length)) :
    OpensPaired env v (ds.construct msg allocation construction rest) := by
  have hcount : Followed env v { ds with channelIdFactory := ds.channelIdFactory + 1 } := by
    refine ⟨h.setUp, ?_⟩
    intro hc
    obtain ⟨hm, hg, hs, he⟩ := h.synced hc
    exact ⟨hm, hg, hs, he⟩
  unfold Downstream.construct
  split
  · exact absurd rfl hne
  · exact .refused h msg _
  next length =>
    dsimp only
    split
    · exact .refused hcount msg _
    · exact .disconnect hcount
    · exact hrest length rfl

/-- A channel can be added to a group channel of the configured size. -/
theorem addToGroup_synced (hl : env.channels.Lawful) {v : View} {ds : Downstream Ch}
    (h : Synced env v ds) (ch : ChannelId) :
    ∃ g, ds.addToGroup env ch env.fullExtranonceSize = some { ds with groupChannel := g } ∧
      Synced env v { ds with groupChannel := g } := by
  obtain ⟨g, hg⟩ := Option.isSome_iff_exists.mp (hl.addChannelId_ok ds.groupChannel ch)
  rw [h.group.size] at hg
  obtain ⟨hfut, hact, htip, hsize⟩ := hl.addChannelId_jobs _ _ _ _ hg
  refine ⟨g, by simp only [Downstream.addToGroup, hg, Option.map_some], h.payout, ?_, h.standard,
    h.extended⟩
  refine ⟨⟨?_, ?_⟩, ?_, ?_⟩
  · rw [htip]
    exact h.group.tip
  · rw [hfut]
    exact h.group.pending
  · rw [hsize]
    exact h.group.size
  · rw [hact]
    exact h.group.active

theorem lookup_insert_synced {v : View} {m : KeyMap ChannelId (OpenChannel Ch)}
    (hm : ∀ ch c, m.lookup ch = some c → ChannelSynced env v c.channel) {c : OpenChannel Ch}
    (hc : ChannelSynced env v c.channel) (channelId : ChannelId) :
    ∀ ch c', (m.insert channelId c).lookup ch = some c' → ChannelSynced env v c'.channel := by
  intro ch c' hlook
  rw [KeyMap.lookup_insert_eq] at hlook
  split at hlook
  · cases hlook
    exact hc
  · exact hm ch c' hlook

theorem announce_paired {u : Identity} {success message : MiningMessage} {job : Job}
    (hsuccess : success.job = none) (hmessage : message.job = some job) {channelId : ChannelId}
    {p : SetNewPrevHash} (hid : job.template.templateId = p.templateId)
    (hnot : ∀ ch jobId q, success ≠ .setNewPrevHash ch jobId q ∧ message ≠ .setNewPrevHash ch jobId q)
    {ms : List (List Identity × MiningMessage)}
    (hms : Downstream.announce u success message channelId job.jobId p = .messages ms) :
    BatchPaired ms := by
  unfold Downstream.announce at hms
  cases hms
  intro m hm m' hm' job' ch jobId q hjob hq
  simp only [List.mem_cons, List.not_mem_nil, or_false] at hm hm'
  have hjob' : job' = job := by
    rcases hm with rfl | rfl | rfl
    · rw [hsuccess] at hjob
      cases hjob
    · rw [hmessage] at hjob
      exact (Option.some.inj hjob).symm
    · cases hjob
  subst hjob'
  rcases hm' with rfl | rfl | rfl
  · exact absurd hq (hnot ch jobId q).1
  · exact absurd hq (hnot ch jobId q).2
  · cases hq
    exact ⟨hid, rfl⟩

theorem bootstrapChannel_synced (hl : env.channels.Lawful) {v : View} {t : NewTemplate}
    {p : SetNewPrevHash} (hfuture : v.future = some t) (hprev : v.prev = some p)
    (hpaired : v.pending = none) (hf : t.futureTemplate = true) (ch : ChannelId) (n : Nat)
    {outs : List TxOut} (houts : t.Affords outs) :
    ∃ c job, Downstream.bootstrapChannel env (env.channels.newChannel ch n) t outs p =
        .ok (c, job) ∧ ChannelSynced env v c ∧ job.template.templateId = p.templateId := by
  obtain ⟨c, c', j, hc, hj, htpl, hc', hsync, -, -, hid⟩ :=
    bootstrap_synced hl hfuture hprev hpaired hf ch n houts
  refine ⟨c', j, ?_, hsync, by rw [htpl, hid]⟩
  simp only [Downstream.bootstrapChannel, hc, hj, hc']

theorem handleOpenStandardMiningChannel_paired (hl : env.channels.Lawful) {v : View}
    {ds : Downstream Ch} (h : Followed env v ds)
    (hpaired : ds.requiresCustomWork = true ∨ v.pending = none)
    (hfuture : ∀ t, v.future = some t → t.futureTemplate = true) (d : DownstreamId)
    (msg : OpenMiningChannel) (allocation : AllocationAnswer) (construction : ConstructionAnswer)
    (hsound : (Action.openStandard d msg allocation construction).AllocatorSound env) :
    OpensPaired env v (ds.handleOpenStandardMiningChannel env v.future v.prev msg allocation
      construction) := by
  unfold Downstream.handleOpenStandardMiningChannel
  split
  · exact .refused h msg _
  next hcustom =>
    have hcustom' : ds.requiresCustomWork = false := by simpa using hcustom
    have hnone : v.pending = none := by
      rcases hpaired with hc | hp
      · exact absurd hc hcustom
      · exact hp
    split
    · exact .disconnect h
    next t ht =>
      split
      · exact .disconnect h
      next p hp =>
        split
        · exact .refused h msg _
        next mode hmode =>
          have hvalid := PayoutMode.ofIdentity_valid hmode
          have hpayout : ∀ mode', some mode = some mode' → mode'.Valid := by
            rintro mode' ⟨⟩
            exact hvalid
          split
          · exact .refused h msg _
          · refine .construct h ?_ ?_
            · rintro rfl
              exact hsound
            · rintro length rfl
              have hlen : length = env.fullExtranonceSize := hsound
              subst hlen
              obtain ⟨c, job, hboot, hsync, hid⟩ := bootstrapChannel_synced hl ht hp hnone
                (hfuture t ht) ds.channelIdFactory env.fullExtranonceSize
                (affords_coinbaseOutputs hvalid t env.poolScript)
              obtain ⟨-, hgroup, hstd, hext⟩ := h.synced hcustom'
              let ds' : Downstream Ch := { ds with
                channelIdFactory := ds.channelIdFactory + 1
                standardChannels :=
                  ds.standardChannels.insert ds.channelIdFactory ⟨msg.userIdentity, c⟩
                payoutMode := some mode }
              have hds' : Synced env v ds' :=
                ⟨hpayout, hgroup, lookup_insert_synced hstd hsync _, hext⟩
              have hsent : ∀ ms, Downstream.announce msg.userIdentity
                  (.openStandardMiningChannelSuccess msg.requestId ds.channelIdFactory
                    ds.groupChannelId)
                  (.newMiningJob ds.channelIdFactory job) ds.channelIdFactory job.jobId p =
                    .messages ms → BatchPaired ms := by
                intro ms hms
                exact announce_paired rfl rfl hid (fun _ _ _ => ⟨by simp, by simp⟩) hms
              dsimp only
              rw [hboot]
              dsimp only
              split
              · exact ⟨by simp [Downstream.announce], by simp [Downstream.announce],
                  ⟨h.setUp, fun _ => hds'⟩, hsent⟩
              · obtain ⟨g, hadd, hg⟩ := addToGroup_synced hl hds' ds.channelIdFactory
                have hadd' : Downstream.addToGroup env ds' ds.channelIdFactory
                    env.fullExtranonceSize = _ := hadd
                rw [hadd']
                exact ⟨by simp [Downstream.announce], by simp [Downstream.announce],
                  ⟨h.setUp, fun _ => hg⟩, hsent⟩

theorem handleOpenExtendedMiningChannel_paired (hl : env.channels.Lawful) {v : View}
    {ds : Downstream Ch} (h : Followed env v ds)
    (hpaired : ds.requiresCustomWork = true ∨ v.pending = none)
    (hfuture : ∀ t, v.future = some t → t.futureTemplate = true) (d : DownstreamId)
    (msg : OpenMiningChannel) (allocation : AllocationAnswer) (construction : ConstructionAnswer)
    (hsound : (Action.openExtended d msg allocation construction).AllocatorSound env) :
    OpensPaired env v (ds.handleOpenExtendedMiningChannel env v.future v.prev msg allocation
      construction) := by
  have hcount : Followed env v { ds with channelIdFactory := ds.channelIdFactory + 1 } := by
    refine ⟨h.setUp, ?_⟩
    intro hc
    obtain ⟨hm, hg, hs, he⟩ := h.synced hc
    exact ⟨hm, hg, hs, he⟩
  unfold Downstream.handleOpenExtendedMiningChannel
  split
  · exact .refused h msg _
  split
  · exact .refused h msg _
  next mode hmode =>
    have hvalid := PayoutMode.ofIdentity_valid hmode
    have hpayout : ∀ mode', some mode = some mode' → mode'.Valid := by
      rintro mode' ⟨⟩
      exact hvalid
    split
    · exact .refused h msg _
    · refine .construct h ?_ ?_
      · rintro rfl
        exact hsound
      · rintro length rfl
        have hlen : length + Downstream.clientSearchSpaceBytes = env.fullExtranonceSize := hsound
        dsimp only
        rw [hlen]
        split
        · exact .disconnect hcount
        next p hp =>
          split
          · exact .disconnect hcount
          next t ht =>
            split
            next hcustom =>
              -- a channel without jobs takes any prev-hash
              obtain ⟨c, hc⟩ := Option.isSome_iff_exists.mp (hl.setNewPrevHash_ok
                (env.channels.newChannel ds.channelIdFactory env.fullExtranonceSize) p
                (.inr (hl.newChannel_future ds.channelIdFactory env.fullExtranonceSize)))
              rw [hc]
              refine ⟨by simp, by simp, ⟨h.setUp, ?_⟩, ?_⟩
              · intro hno
                exact absurd (hcustom.symm.trans hno) (by simp)
              · intro ms hms m hm m' hm' job ch jobId q hjob
                cases hms
                rcases List.mem_singleton.mp hm with rfl
                cases hjob
            next hcustom =>
              have hcustom' : ds.requiresCustomWork = false := by simpa using hcustom
              have hnone : v.pending = none := by
                rcases hpaired with hc | hp
                · exact absurd hc hcustom
                · exact hp
              obtain ⟨c, job, hboot, hsync, hid⟩ := bootstrapChannel_synced hl ht hp hnone
                (hfuture t ht) ds.channelIdFactory env.fullExtranonceSize
                (affords_coinbaseOutputs hvalid t env.poolScript)
              obtain ⟨g, hadd, hg⟩ := addToGroup_synced hl (hcount.synced hcustom') ds.channelIdFactory
              rw [hboot]
              dsimp only
              rw [hadd]
              refine ⟨by simp [Downstream.announce], by simp [Downstream.announce],
                ⟨h.setUp, ?_⟩, ?_⟩
              · intro _
                exact ⟨hpayout, hg.group, hg.standard, lookup_insert_synced hg.extended hsync _⟩
              · intro ms hms
                exact announce_paired rfl rfl hid (fun _ _ _ => ⟨by simp, by simp⟩) hms

theorem handleCloseChannel_followed (hl : env.channels.Lawful) {v : View} {ds : Downstream Ch}
    (h : Followed env v ds) (ch : ChannelId) : Followed env v (ds.handleCloseChannel env ch) := by
  have hclose : Synced env v ds → Synced env v { ds with
      groupChannel := env.channels.removeChannelId ds.groupChannel ch
      standardChannels := ds.standardChannels.erase ch
      extendedChannels := ds.extendedChannels.erase ch } := by
    rintro ⟨hm, hg, hs, he⟩
    obtain ⟨hfut, hact, htip, hsize⟩ := hl.removeChannelId_jobs ds.groupChannel ch
    refine ⟨hm, ⟨⟨?_, ?_⟩, ?_, ?_⟩, ?_, ?_⟩
    · rw [htip]
      exact hg.tip
    · rw [hfut]
      exact hg.pending
    · rw [hsize]
      exact hg.size
    · rw [hact]
      exact hg.active
    · intro k c hk
      exact hs k c (KeyMap.lookup_erase_some hk)
    · intro k c hk
      exact he k c (KeyMap.lookup_erase_some hk)
  unfold Downstream.handleCloseChannel
  dsimp only
  split
  · refine ⟨h.setUp, ?_⟩
    intro hcustom
    obtain ⟨-, hg, hs, he⟩ := hclose (h.synced hcustom)
    refine ⟨?_, hg, hs, he⟩
    intro mode hmode
    cases hmode
  · exact ⟨h.setUp, fun hcustom => hclose (h.synced hcustom)⟩

/-! ## The system -/

section

variable (env)

/-- Which view a connection follows: the new one once the message at work has visited it. -/
def viewOf (s : ChannelManager Ch) (before : View) (d : DownstreamId) : View :=
  match s.loop with
  | .visiting _ _ visited _ => if d ∈ visited then view s else before
  | _ => view s

structure PairingInv (s : ChannelManager Ch) : Prop where
  running : s.cancelled = false
  alive : s.loop ≠ .stopped
  future : ∀ t, s.lastFutureTemplate = some t → t.futureTemplate = true
  openings : ∀ b ∈ s.sent, b.opening = true → BatchPaired b.messages
  queued : ∀ msg present visited batches, s.loop = .visiting msg present visited batches →
    ∀ b ∈ batches, b.opening = false
  followed : ∃ before, (∀ d ds, s.downstreams.lookup d = some ds →
      Followed env (viewOf s before d) ds) ∧
    ∀ msg present visited batches, s.loop = .visiting msg present visited batches →
      view s = before.next msg ∧ before.Admits msg
  present : ∀ msg present visited batches, s.loop = .visiting msg present visited batches →
    (∀ d ds, s.downstreams.lookup d = some ds → d ∈ present) ∧ s.accepting.keys = []
  reading : ∀ d t, s.accepting.lookup d = some (.readTemplate t) →
    s.lastFutureTemplate = some t ∧ s.current = some t ∧ (view s).pending = none
  building : ∀ d g, s.accepting.lookup d = some (.bootstrapped g) → GroupSynced env (view s) g

/-- The condition on a step.  A template message comes when no connection is between its
    first read and its registration, one future template at a time; a connection starts to
    read when the loop is idle and the template that is mined is the last future one; a
    channel is opened when no future template waits for its prev-hash. -/
def Timely (s : ChannelManager Ch) : Action → Prop
  | .templateMessage msg => s.accepting.keys = [] ∧ (view s).Admits msg
  | .accept => s.loop = .idle ∧ (view s).pending = none ∧ s.current = s.lastFutureTemplate
  | .openStandard d _ _ _ => ∀ ds ∈ s.downstreams.lookup d,
      ds.requiresCustomWork = true ∨ (view s).pending = none
  | .openExtended d _ _ _ => ∀ ds ∈ s.downstreams.lookup d,
      ds.requiresCustomWork = true ∨ (view s).pending = none
  | _ => True

instance (s : ChannelManager Ch) (a : Action) : Decidable (Timely s a) :=
  match a with
  | .templateMessage msg => inferInstanceAs (Decidable (_ ∧ (view s).Admits msg))
  | .accept => inferInstanceAs (Decidable (s.loop = _ ∧ (view s).pending = none ∧ s.current = _))
  | .openStandard d _ _ _ => inferInstanceAs (Decidable (∀ ds ∈ s.downstreams.lookup d,
      ds.requiresCustomWork = true ∨ (view s).pending = none))
  | .openExtended d _ _ _ => inferInstanceAs (Decidable (∀ ds ∈ s.downstreams.lookup d,
      ds.requiresCustomWork = true ∨ (view s).pending = none))
  | .visit _ | .finish | .closeChannel _ _ | .bootstrap _ | .register _
  | .setUpConnection _ _ _ | .removeDownstream _ => inferInstanceAs (Decidable True)

end

theorem pairingInv_new : PairingInv env (ChannelManager.new : ChannelManager Ch) := by
  refine ⟨rfl, ?_, ?_, ?_, ?_, ⟨⟨none, none, none⟩, ?_, ?_⟩, ?_, ?_, ?_⟩
  · intro h
    cases h
  · intro t h
    cases h
  · intro b hb
    cases hb
  · intro msg present visited batches h
    cases h
  · intro d ds h
    cases h
  · intro msg present visited batches h
    cases h
  · intro msg present visited batches h
    cases h
  · intro d t h
    cases h
  · intro d g h
    cases h

theorem PairingInv.followed_idle {s : ChannelManager Ch} (h : PairingInv env s)
    (hidle : s.loop = .idle) (d : DownstreamId) (ds : Downstream Ch)
    (hds : s.downstreams.lookup d = some ds) : Followed env (view s) ds := by
  obtain ⟨before, hf, -⟩ := h.followed
  have := hf d ds hds
  simpa only [viewOf, hidle] using this

/-- The loop is idle and one connection changes. -/
theorem PairingInv.connection {s : ChannelManager Ch} (h : PairingInv env s)
    (hidle : s.loop = .idle) {downstreams : KeyMap DownstreamId (Downstream Ch)}
    (hds : ∀ d ds, downstreams.lookup d = some ds → Followed env (view s) ds) {sent : List Batch}
    (hsent : ∀ b ∈ sent, b.opening = true → BatchPaired b.messages) :
    PairingInv env { s with downstreams := downstreams, sent := sent } := by
  refine ⟨h.running, h.alive, h.future, hsent, h.queued, ⟨view s, ?_, ?_⟩, ?_, h.reading,
    h.building⟩
  · intro d ds hlook
    have := hds d ds hlook
    simp only [viewOf, hidle]
    exact this
  · intro msg present visited batches hloop
    rw [hidle] at hloop
    cases hloop
  · intro msg present visited batches hloop
    rw [hidle] at hloop
    cases hloop

theorem reply_pairingInv {s : ChannelManager Ch} (h : PairingInv env s) (hidle : s.loop = .idle)
    (d : DownstreamId) {r : Downstream Ch × Reply} (hr : OpensPaired env (view s) r) :
    PairingInv env (s.reply d r) := by
  have hins : ∀ d' ds, (s.downstreams.insert d r.1).lookup d' = some ds →
      Followed env (view s) ds := by
    intro d' ds hlook
    rw [KeyMap.lookup_insert_eq] at hlook
    split at hlook
    · cases hlook
      exact hr.followed
    · exact h.followed_idle hidle d' ds hlook
  unfold ChannelManager.reply
  dsimp only
  split
  next ms hms =>
    refine h.connection hidle hins ?_
    intro b hb hopen
    rcases List.mem_cons.mp hb with rfl | hb
    · exact hr.paired ms hms
    · exact h.openings b hb hopen
  next =>
    refine h.connection hidle ?_ h.openings
    intro d' ds hlook
    exact hins d' ds (KeyMap.lookup_erase_some hlook)
  next hshut => exact absurd hshut hr.noShutdown
  next hpanic => exact absurd hpanic hr.noPanic

theorem onMiningMessage_pairingInv {s : ChannelManager Ch} (h : PairingInv env s)
    {d : DownstreamId} {handler : Downstream Ch → ChannelManager Ch}
    (hh : s.loop = .idle → ∀ ds, s.downstreams.lookup d = some ds → Followed env (view s) ds →
      PairingInv env (handler ds)) : PairingInv env (s.onMiningMessage d handler) := by
  unfold ChannelManager.onMiningMessage
  split
  next hidle =>
    split
    · exact h
    next ds hds =>
      split
      · exact hh hidle ds hds (h.followed_idle hidle d ds hds)
      · exact h
  · exact h

theorem receiveTemplateMessage_pairingInv {s : ChannelManager Ch} (h : PairingInv env s)
    (hidle : s.loop = .idle) {msg : TemplateMessage} (hacc : s.accepting.keys = [])
    (ha : (view s).Admits msg) : PairingInv env (s.receiveTemplateMessage msg) := by
  have hnone : ∀ d task, s.accepting.lookup d = some task → False := by
    intro d task hd
    have hkey := AList.mem_keys.mp (AList.lookup_isSome.mp (Option.isSome_of_eq_some hd))
    rw [hacc] at hkey
    cases hkey
  have hmem : ∀ d ds, s.downstreams.lookup d = some ds → d ∈ s.downstreams.keys := by
    intro d ds hd
    exact AList.mem_keys.mp (AList.lookup_isSome.mp (Option.isSome_of_eq_some hd))
  -- nothing but the cells and the loop changes
  have hbuild : ∀ s' : ChannelManager Ch, s'.downstreams = s.downstreams →
      s'.cancelled = s.cancelled → s'.accepting = s.accepting → s'.sent = s.sent →
      s'.loop = .visiting msg s.downstreams.keys [] [] → view s' = (view s).next msg →
      (∀ t, s'.lastFutureTemplate = some t → t.futureTemplate = true) → PairingInv env s' := by
    intro s' hds hcan hac hse hloop hview hfut
    refine ⟨by rw [hcan]; exact h.running, by simp [hloop], hfut, by rw [hse]; exact h.openings,
      ?_, ⟨view s, ?_, ?_⟩, ?_, ?_, ?_⟩
    · intro msg' present visited batches heq b hb
      rw [hloop] at heq
      cases heq
      cases hb
    · intro d ds hlook
      rw [hds] at hlook
      simp only [viewOf, hloop, List.not_mem_nil, if_false]
      exact h.followed_idle hidle d ds hlook
    · intro msg' present visited batches heq
      rw [hloop] at heq
      cases heq
      exact ⟨hview, ha⟩
    · intro msg' present visited batches heq
      rw [hloop] at heq
      cases heq
      rw [hds, hac]
      exact ⟨hmem, hacc⟩
    · intro d t hd
      rw [hac] at hd
      exact absurd hd (hnone d _)
    · intro d g hd
      rw [hac] at hd
      exact absurd hd (hnone d _)
  unfold ChannelManager.receiveTemplateMessage
  cases msg with
  | newTemplate t =>
    dsimp only
    split
    next hf =>
      refine hbuild _ rfl rfl rfl rfl rfl ?_ ?_
      · simp only [view, View.next, hf, if_true]
      · intro t' ht'
        cases ht'
        exact hf
    next hf =>
      refine hbuild _ rfl rfl rfl rfl rfl ?_ h.future
      simp only [view, View.next, hf, Bool.false_eq_true, if_false]
  | setNewPrevHash p => exact hbuild _ rfl rfl rfl rfl rfl rfl h.future

theorem visit_pairingInv (hl : env.channels.Lawful) {s : ChannelManager Ch}
    (h : PairingInv env s) (d : DownstreamId) : PairingInv env (s.visit env d) := by
  unfold ChannelManager.visit
  split
  next msg present visited batches hloop =>
    split
    · exact h
    next hnew =>
      split
      · exact h
      next ds hds =>
        obtain ⟨before, hf, hv⟩ := h.followed
        obtain ⟨hview, ha⟩ := hv msg present visited batches hloop
        obtain ⟨hpres, hacc⟩ := h.present msg present visited batches hloop
        have hold : Followed env before ds := by
          have := hf d ds hds
          simpa only [viewOf, hloop, if_neg hnew] using this
        have hok : ∃ ds' ms, ds.visit env msg = .ok (ds', ms) ∧ Followed env (view s) ds' := by
          by_cases hcustom : ds.requiresCustomWork = true
          · refine ⟨ds, [], visit_customWork hcustom msg, hold.setUp, ?_⟩
            intro hno
            exact absurd (hcustom.symm.trans hno) (by simp)
          · have hcustom' : ds.requiresCustomWork = false := by simpa using hcustom
            obtain ⟨ds', ms, hds', hsync, hkept⟩ :=
              visit_synced hl hcustom' (hold.synced hcustom') ha
            rw [← hview] at hsync
            refine ⟨ds', ms, hds', ?_, fun _ => hsync⟩
            intro hc
            exact absurd (hc.symm.trans hkept) (by simp)
        obtain ⟨ds', ms, hvisit, hfollow⟩ := hok
        rw [hvisit]
        refine ⟨h.running, by simp, h.future, h.openings, ?_, ⟨before, ?_, ?_⟩, ?_, h.reading,
          h.building⟩
        · intro msg' present' visited' batches' heq b hb
          cases heq
          rcases List.mem_cons.mp hb with rfl | hb
          · rfl
          · exact h.queued msg present visited batches hloop b hb
        · intro d' ds'' hlook
          dsimp only at hlook
          rw [KeyMap.lookup_insert_eq] at hlook
          simp only [viewOf, List.mem_cons]
          split at hlook
          next heq =>
            cases hlook
            rw [if_pos (.inl heq)]
            exact hfollow
          next hne =>
            have := hf d' ds'' hlook
            simp only [viewOf, hloop] at this
            simp only [hne, false_or]
            exact this
        · intro msg' present' visited' batches' heq
          cases heq
          exact ⟨hview, ha⟩
        · intro msg' present' visited' batches' heq
          cases heq
          refine ⟨?_, hacc⟩
          intro d' ds'' hlook
          dsimp only at hlook
          rw [KeyMap.lookup_insert_eq] at hlook
          split at hlook
          next heq => exact heq ▸ hpres d ds hds
          next => exact hpres d' ds'' hlook
  next => exact h

theorem finish_pairingInv {s : ChannelManager Ch} (h : PairingInv env s) :
    PairingInv env s.finish := by
  unfold ChannelManager.finish
  split
  next msg present visited batches hloop =>
    split
    next hall =>
      obtain ⟨before, hf, -⟩ := h.followed
      obtain ⟨hpres, -⟩ := h.present msg present visited batches hloop
      refine ⟨h.running, by simp, h.future, ?_, ?_, ⟨before, ?_, ?_⟩, ?_, h.reading, h.building⟩
      · intro b hb hopen
        rcases List.mem_append.mp hb with hb | hb
        · rw [h.queued msg present visited batches hloop b hb] at hopen
          cases hopen
        · exact h.openings b hb hopen
      · intro msg' present' visited' batches' heq
        cases heq
      · intro d ds hlook
        have hvisited : d ∈ visited := by
          have := List.all_eq_true.mp hall d (hpres d ds hlook)
          simpa [hlook] using this
        have := hf d ds hlook
        simp only [viewOf, hloop, if_pos hvisited] at this
        exact this
      · intro msg' present' visited' batches' heq
        cases heq
      · intro msg' present' visited' batches' heq
        cases heq
    next => exact h
  next => exact h

theorem loopStep_pairingInv (hl : env.channels.Lawful) {s : ChannelManager Ch}
    (h : PairingInv env s) {a : Action} (hsound : a.AllocatorSound env) (ht : Timely s a) :
    PairingInv env (s.loopStep env a) := by
  cases a with
  | templateMessage msg =>
    simp only [ChannelManager.loopStep]
    split
    next hidle => exact receiveTemplateMessage_pairingInv h hidle ht.1 ht.2
    next => exact h
  | visit d => exact visit_pairingInv hl h d
  | finish => exact finish_pairingInv h
  | openStandard d msg allocation construction =>
    refine onMiningMessage_pairingInv h fun hidle ds hds hf => reply_pairingInv h hidle d ?_
    exact handleOpenStandardMiningChannel_paired hl hf (ht ds hds) h.future d msg allocation
      construction hsound
  | openExtended d msg allocation construction =>
    refine onMiningMessage_pairingInv h fun hidle ds hds hf => reply_pairingInv h hidle d ?_
    exact handleOpenExtendedMiningChannel_paired hl hf (ht ds hds) h.future d msg allocation
      construction hsound
  | closeChannel d channelId =>
    refine onMiningMessage_pairingInv h fun hidle ds hds hf => ?_
    refine h.connection hidle ?_ h.openings
    intro d' ds' hlook
    rw [KeyMap.lookup_insert_eq] at hlook
    split at hlook
    · cases hlook
      exact handleCloseChannel_followed hl hf channelId
    · exact h.followed_idle hidle d' ds' hlook
  | _ => exact h

/-- While a connection is being accepted the loop does not visit. -/
theorem PairingInv.idle_of_accepting {s : ChannelManager Ch} (h : PairingInv env s)
    {d : DownstreamId} {task : AcceptTask Ch} (hd : s.accepting.lookup d = some task) :
    s.loop = .idle := by
  cases hloop : s.loop with
  | idle => rfl
  | stopped => exact absurd hloop h.alive
  | visiting msg present visited batches =>
    have hnone := (h.present msg present visited batches hloop).2
    have hkey := AList.mem_keys.mp (AList.lookup_isSome.mp (Option.isSome_of_eq_some hd))
    rw [hnone] at hkey
    cases hkey

/-- The loop is idle and the accept tasks change. -/
theorem PairingInv.acceptTasks {s : ChannelManager Ch} (h : PairingInv env s)
    (hidle : s.loop = .idle) {accepting : KeyMap DownstreamId (AcceptTask Ch)}
    (factory : DownstreamId)
    (hread : ∀ d t, accepting.lookup d = some (.readTemplate t) →
      s.lastFutureTemplate = some t ∧ s.current = some t ∧ (view s).pending = none)
    (hbuild : ∀ d g, accepting.lookup d = some (.bootstrapped g) → GroupSynced env (view s) g) :
    PairingInv env { s with accepting := accepting, downstreamIdFactory := factory } := by
  refine ⟨h.running, h.alive, h.future, h.openings, h.queued, h.followed, ?_, hread, hbuild⟩
  intro msg present visited batches hloop
  rw [hidle] at hloop
  cases hloop

theorem accept_pairingInv {s : ChannelManager Ch} (h : PairingInv env s)
    (ht : s.loop = .idle ∧ (view s).pending = none ∧ s.current = s.lastFutureTemplate) :
    PairingInv env s.accept := by
  obtain ⟨hidle, hpaired, hcur⟩ := ht
  unfold ChannelManager.accept
  split
  next t p hfut hprev =>
    refine h.acceptTasks hidle _ ?_ ?_
    · intro d t' hlook
      rw [KeyMap.lookup_insert_eq] at hlook
      split at hlook
      · cases hlook
        exact ⟨hfut, hcur.trans hfut, hpaired⟩
      · exact h.reading d t' hlook
    · intro d g hlook
      rw [KeyMap.lookup_insert_eq] at hlook
      split at hlook
      · cases hlook
      · exact h.building d g hlook
  next => exact h

theorem bootstrap_pairingInv (hl : env.channels.Lawful) {s : ChannelManager Ch}
    (h : PairingInv env s) (d : DownstreamId) : PairingInv env (s.bootstrap env d) := by
  unfold ChannelManager.bootstrap
  split
  next t p hd hprev =>
    have hidle := h.idle_of_accepting hd
    obtain ⟨hfut, hcur, hpaired⟩ := h.reading d t hd
    have hfut' : (view s).future = some t := hfut
    have hprev' : (view s).prev = some p := hprev
    have houts : t.Affords [⟨t.coinbaseTxValueRemaining, env.poolScript⟩] :=
      affords_pool t env.poolScript
    obtain ⟨c, g, j, hc, -, htpl, hg, hsync, hsize, hact, -⟩ := bootstrap_synced hl
      hfut' hprev' hpaired (h.future t hfut) 1 env.fullExtranonceSize houts
    have hboot : bootstrapGroupChannel env t p = some g := by
      simp only [bootstrapGroupChannel, hc, Option.bind_some, hg]
    rw [hboot]
    refine h.acceptTasks hidle _ ?_ ?_
    · intro d' t' hlook
      rw [KeyMap.lookup_insert_eq] at hlook
      split at hlook
      · cases hlook
      · exact h.reading d' t' hlook
    · intro d' g' hlook
      rw [KeyMap.lookup_insert_eq] at hlook
      split at hlook
      · cases hlook
        exact ⟨hsync, hsize, j, hact, by rw [htpl]; exact hcur⟩
      · exact h.building d' g' hlook
  next => exact h

theorem register_pairingInv {s : ChannelManager Ch} (h : PairingInv env s) (d : DownstreamId) :
    PairingInv env (s.register d) := by
  unfold ChannelManager.register
  split
  next g hd =>
    have hidle := h.idle_of_accepting hd
    have hnew : Followed env (view s) (Downstream.new g) := by
      constructor
      · intro hc
        cases hc
      · intro _
        refine ⟨?_, h.building d g hd, ?_, ?_⟩
        · intro mode hmode
          cases hmode
        · intro ch c hlook
          cases hlook
        · intro ch c hlook
          cases hlook
    have hacc : PairingInv env { s with accepting := s.accepting.erase d } :=
      h.acceptTasks hidle s.downstreamIdFactory
        (fun d' t hlook => h.reading d' t (KeyMap.lookup_erase_some hlook))
        (fun d' g' hlook => h.building d' g' (KeyMap.lookup_erase_some hlook))
    refine hacc.connection hidle ?_ h.openings
    intro d' ds hlook
    rw [KeyMap.lookup_insert_eq] at hlook
    split at hlook
    · cases hlook
      exact hnew
    · exact h.followed_idle hidle d' ds hlook
  next => exact h

/-- Connections that follow their view, with the loop anywhere. -/
theorem PairingInv.restrict {s : ChannelManager Ch} (h : PairingInv env s)
    {downstreams : KeyMap DownstreamId (Downstream Ch)}
    (hds : ∀ d ds', downstreams.lookup d = some ds' → ∃ ds, s.downstreams.lookup d = some ds ∧
      ∀ v, Followed env v ds → Followed env v ds') :
    PairingInv env { s with downstreams := downstreams } := by
  obtain ⟨before, hf, hv⟩ := h.followed
  refine ⟨h.running, h.alive, h.future, h.openings, h.queued, ⟨before, ?_, hv⟩, ?_, h.reading,
    h.building⟩
  · intro d ds' hlook
    obtain ⟨ds, hds', hup⟩ := hds d ds' hlook
    exact hup _ (hf d ds hds')
  · intro msg present visited batches hloop
    obtain ⟨hpres, hacc⟩ := h.present msg present visited batches hloop
    refine ⟨?_, hacc⟩
    intro d ds' hlook
    obtain ⟨ds, hds', -⟩ := hds d ds' hlook
    exact hpres d ds hds'

theorem setUpConnection_pairingInv {s : ChannelManager Ch} (h : PairingInv env s)
    (d : DownstreamId) (std custom : Bool) :
    PairingInv env (s.setUpConnection d std custom) := by
  refine h.restrict ?_
  intro d' ds' hlook
  rw [KeyMap.lookup_modify] at hlook
  split at hlook
  next heq =>
    subst heq
    obtain ⟨ds, hds, rfl⟩ := Option.map_eq_some_iff.mp hlook
    refine ⟨ds, hds, ?_⟩
    intro v hf
    split
    · exact hf
    next hfresh =>
      -- before its setup a connection has no flag set
      have hcustom : ds.requiresCustomWork = false := by
        by_contra hc
        exact hfresh (hf.setUp (by simpa using hc))
      obtain ⟨hm, hg, hs, he⟩ := hf.synced hcustom
      exact ⟨fun _ => rfl, fun _ => ⟨hm, hg, hs, he⟩⟩
  next => exact ⟨ds', hlook, fun v hf => hf⟩

theorem pairingInv_step (hl : env.channels.Lawful) {s : ChannelManager Ch}
    (h : PairingInv env s) {a : Action} (hsound : a.AllocatorSound env) (ht : Timely s a) :
    PairingInv env (s.step env a) := by
  have hloop : PairingInv env (if s.cancelled then s else s.loopStep env a) := by
    rw [h.running]
    exact loopStep_pairingInv hl h hsound ht
  cases a with
  | accept => exact accept_pairingInv h ht
  | bootstrap d => exact bootstrap_pairingInv hl h d
  | register d => exact register_pairingInv h d
  | setUpConnection d std custom => exact setUpConnection_pairingInv h d std custom
  | removeDownstream d =>
    refine h.restrict ?_
    intro d' ds hlook
    exact ⟨ds, KeyMap.lookup_erase_some hlook, fun v hf => hf⟩
  | _ => exact hloop

/-- **Pairing survives** every run in which no open and no accept falls into the window between
    a future template and its prev-hash, and no template message between the first read and the
    registration of a connection.  The pool does not stop; every job announced by an opening
    is built from the template that the announced prev-hash activates; and whenever the loop is
    idle, the group channel of every connection that has not asked for custom work has the
    last prev-hash as its tip, the current template's job as its active job and the pending
    template's job, if there is one, as a future job. -/
theorem pairing_survives (env : Env Ch) (hl : env.channels.Lawful) (as : List Action)
    (hsound : ∀ a ∈ as, a.AllocatorSound env) (hg : Runs.Guarded (step env) Timely new as) :
    (after env as).cancelled = false ∧
    (∀ b ∈ (after env as).sent, b.opening = true → ∀ m ∈ b.messages, ∀ m' ∈ b.messages,
      ∀ job ch jobId p, m.2.job = some job → m'.2 = .setNewPrevHash ch jobId p →
        job.template.templateId = p.templateId ∧ job.jobId = jobId) ∧
    ((after env as).loop = .idle → ∀ d ds, (after env as).downstreams.lookup d = some ds →
      ds.requiresCustomWork = false →
        (∃ p, (after env as).lastNewPrevHash = some p ∧
          env.channels.getChainTip ds.groupChannel = some p) ∧
        (∃ j, env.channels.getActiveJob ds.groupChannel = some j ∧
          (after env as).current = some j.template) ∧
        ∀ t, (view (after env as)).pending = some t →
          ∃ j, env.channels.getFutureJob ds.groupChannel t.templateId = some j ∧
            j.template = t) := by
  have hinv : PairingInv env (after env as) :=
    Runs.run_invariant_of_guarded (PairingInv env)
      (fun s a h hok => pairingInv_step hl h hok.1 hok.2) pairingInv_new as (hg.and_forall hsound)
  refine ⟨hinv.running, hinv.openings, ?_⟩
  intro hidle d ds hds hcustom
  have hsync := (hinv.followed_idle hidle d ds hds).synced hcustom
  exact ⟨hsync.group.tip, hsync.group.active, hsync.group.pending⟩

/-- Two channels are opened, and the next block arrives. -/
def sampleTimelyRun : List Action :=
  sampleConnection ++
  [.openExtended 1 ⟨1, "farm_01"⟩ (.allocated 4) .built,
   .openStandard 1 ⟨2, "farm_01"⟩ (.allocated 20) .built,
   .templateMessage (.newTemplate ⟨2, true, 5000⟩), .visit 1, .finish,
   .templateMessage (.setNewPrevHash ⟨2, Hash256.allZeros, 1, 0x207fffff⟩), .visit 1, .finish]

theorem sampleTimelyRun_sound : ∀ a ∈ sampleTimelyRun, a.AllocatorSound sampleEnv := by
  simp [sampleTimelyRun, sampleConnection, Action.AllocatorSound, sampleEnv,
    Downstream.clientSearchSpaceBytes]

theorem pairing_survives_sample :
    Runs.Guarded (step sampleEnv) Timely new sampleTimelyRun ∧
    (after sampleEnv sampleTimelyRun).cancelled = false ∧
    (after sampleEnv sampleTimelyRun).downstreams.keys = [1] ∧
    ∀ d ds, (after sampleEnv sampleTimelyRun).downstreams.lookup d = some ds →
      ds.requiresCustomWork = false →
        ∃ j, sampleEnv.channels.getActiveJob ds.groupChannel = some j ∧
          (after sampleEnv sampleTimelyRun).current = some j.template := by
  have hg : Runs.Guarded (step sampleEnv) Timely new sampleTimelyRun := by decide +kernel
  obtain ⟨hrun, -, hsync⟩ := pairing_survives sampleEnv referenceChannels_lawful sampleTimelyRun
    sampleTimelyRun_sound hg
  refine ⟨hg, hrun, by decide +kernel, ?_⟩
  intro d ds hds hcustom
  exact (hsync (by decide +kernel) d ds hds hcustom).2.1

/-- A miner opens a channel between a future template and its prev-hash. -/
def windowRun : List Action :=
  sampleConnection ++
  [.templateMessage (.newTemplate ⟨2, true, 5000⟩), .visit 1, .finish,
   .openStandard 1 ⟨1, "farm_01"⟩ (.allocated 20) .built,
   .templateMessage (.setNewPrevHash ⟨2, Hash256.allZeros, 1, 0x207fffff⟩), .visit 1, .finish]

theorem opening_in_window_stops_pool :
    (windowRun.filterMap fun | .templateMessage msg => some msg | _ => none) =
      [.newTemplate ⟨1, true, 4000⟩, .setNewPrevHash ⟨1, Hash256.allZeros, 0, 0x207fffff⟩,
       .newTemplate ⟨2, true, 5000⟩, .setNewPrevHash ⟨2, Hash256.allZeros, 1, 0x207fffff⟩] ∧
    ¬ (after sampleEnv windowRun).cancelled = false :=
  ⟨by decide +kernel, by decide +kernel⟩

end Sv2Apps.Pool.ChannelManager
