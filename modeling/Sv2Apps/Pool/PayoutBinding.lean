/-
  Pool/PayoutBinding.lean
  =======================
  **One payout per connection** — over every run of the pool's channel manager.

  The group job is shared by all channels of a connection, so a connection is bound to the
  payout of its first channel.  The binding (`PayoutInv`) is set by every successful open,
  compared by every further open, and dropped with the last channel; a compatible open may
  replace the mode by another one with the same outputs.  Template messages change neither
  the identities nor the binding, so every job that is sent carries the outputs that the
  identity of each channel it is for prescribes (`jobs_follow_identity`).
-/
import Sv2Apps.Pool.ChannelManager

namespace Sv2Apps.Pool.ChannelManager

open Bitcoin

variable {Ch : Type}

section

variable (env : Env Ch)

/-- The identity encodes a mode (an identity without one pays the pool) with these outputs. -/
def Prescribes (identity : Identity) (outs : UInt64 → List TxOut) : Prop :=
  ∃ mode, PayoutMode.ofIdentity env.scriptFromAddress identity = .ok mode ∧
    ∀ v, mode.coinbaseOutputs v env.poolScript = outs v

/-- The connection has an open channel of this identity. -/
def Downstream.Opened (ds : Downstream Ch) (identity : Identity) : Prop :=
  ∃ channelId c, (ds.standardChannels.lookup channelId = some c ∨
    ds.extendedChannels.lookup channelId = some c) ∧ c.userIdentity = identity

/-- The binding of a connection. -/
structure PayoutInv (ds : Downstream Ch) : Prop where
  bound : ds.payoutMode = none ↔ ∀ u, ¬ ds.Opened u
  valid : ∀ mode, ds.payoutMode = some mode → mode.Valid
  prescribed : ∀ mode u, ds.payoutMode = some mode → ds.Opened u →
    Prescribes env u fun v => mode.coinbaseOutputs v env.poolScript

/-- The job carries the outputs that each of the identities prescribes for the value of its
    template. -/
def FollowsIdentities (message : List Identity × MiningMessage) : Prop :=
  ∀ job u, message.2.job = some job → u ∈ message.1 →
    ∃ mode, PayoutMode.ofIdentity env.scriptFromAddress u = .ok mode ∧
      job.coinbaseOutputs =
        mode.coinbaseOutputs job.template.coinbaseTxValueRemaining env.poolScript

end

variable {env : Env Ch}

theorem Downstream.mem_identities {ds : Downstream Ch} {u : Identity} :
    u ∈ ds.identities ↔ ds.Opened u := by
  unfold Downstream.identities Downstream.Opened
  rw [List.mem_append, List.mem_map, List.mem_map]
  constructor
  · rintro (⟨e, he, rfl⟩ | ⟨e, he, rfl⟩)
    · exact ⟨e.1, e.2, .inl ((KeyMap.mem_entries_iff _ _ _).mp he), rfl⟩
    · exact ⟨e.1, e.2, .inr ((KeyMap.mem_entries_iff _ _ _).mp he), rfl⟩
  · rintro ⟨channelId, c, hc | hc, rfl⟩
    · exact .inl ⟨⟨channelId, c⟩, (KeyMap.mem_entries_iff _ _ _).mpr hc, rfl⟩
    · exact .inr ⟨⟨channelId, c⟩, (KeyMap.mem_entries_iff _ _ _).mpr hc, rfl⟩

/-! ## The binding under one handler -/

theorem payoutInv_new (g : Ch) : PayoutInv env (Downstream.new g) := by
  refine ⟨⟨fun _ => ?_, fun _ => rfl⟩, ?_, ?_⟩
  · rintro u ⟨channelId, c, hc | hc, -⟩ <;> cases hc
  · intro mode h
    cases h
  · intro mode u h
    cases h

/-- The same channels under the same mode. -/
theorem PayoutInv.keep {ds ds' : Downstream Ch} (h : PayoutInv env ds)
    (hmode : ds'.payoutMode = ds.payoutMode) (hopen : ∀ u, ds'.Opened u ↔ ds.Opened u) :
    PayoutInv env ds' := by
  refine ⟨?_, ?_, ?_⟩
  · rw [hmode, h.bound]
    simp only [hopen]
  · rw [hmode]
    exact h.valid
  · intro mode u hm hu
    rw [hmode] at hm
    exact h.prescribed mode u hm ((hopen u).mp hu)

/-- A further channel of a compatible mode, which becomes the mode of the connection. -/
theorem PayoutInv.opened {ds ds' : Downstream Ch} (h : PayoutInv env ds) {u : Identity}
    {mode : PayoutMode} (hmode : PayoutMode.ofIdentity env.scriptFromAddress u = .ok mode)
    (hcompat : ds.payoutIsCompatible env mode = true) (hset : ds'.payoutMode = some mode)
    (hnew : ds'.Opened u) (hold : ∀ u', ds'.Opened u' → u' = u ∨ ds.Opened u') :
    PayoutInv env ds' := by
  refine ⟨?_, ?_, ?_⟩
  · rw [hset]
    constructor
    · intro hnone
      cases hnone
    · intro hnobody
      exact absurd hnew (hnobody u)
  · intro m hm
    rw [hset] at hm
    cases hm
    exact PayoutMode.ofIdentity_valid hmode
  · intro m u' hm hu'
    rw [hset] at hm
    cases hm
    rcases hold u' hu' with rfl | hopen
    · exact ⟨mode, hmode, fun v => rfl⟩
    · -- the connection was bound, and the sample of the two modes agreed
      cases hcur : ds.payoutMode with
      | none => exact absurd hopen (h.bound.mp hcur u')
      | some current =>
        obtain ⟨m', hm', heq⟩ := h.prescribed current u' hcur hopen
        simp only [Downstream.payoutIsCompatible, hcur] at hcompat
        have hsame := (PayoutMode.sameOutputs_iff (h.valid current hcur)
          (PayoutMode.ofIdentity_valid hmode) env.poolScript).mp hcompat
        exact ⟨m', hm', fun v => (heq v).trans (hsame v)⟩

theorem handleCloseChannel_payoutInv {ds : Downstream Ch} (h : PayoutInv env ds)
    (channelId : ChannelId) : PayoutInv env (ds.handleCloseChannel env channelId) := by
  have hless : ∀ u, (ds.handleCloseChannel env channelId).Opened u → ds.Opened u := by
    rintro u ⟨ch, c, hc, hu⟩
    refine ⟨ch, c, ?_, hu⟩
    unfold Downstream.handleCloseChannel at hc
    dsimp only at hc
    split at hc <;> rcases hc with hc | hc
    · exact .inl (KeyMap.lookup_erase_some hc)
    · exact .inr (KeyMap.lookup_erase_some hc)
    · exact .inl (KeyMap.lookup_erase_some hc)
    · exact .inr (KeyMap.lookup_erase_some hc)
  by_cases hempty : (ds.standardChannels.erase channelId).keys = [] ∧
      (ds.extendedChannels.erase channelId).keys = []
  · have hclosed : ds.handleCloseChannel env channelId =
        { ds with
          groupChannel := env.channels.removeChannelId ds.groupChannel channelId
          standardChannels := ds.standardChannels.erase channelId
          extendedChannels := ds.extendedChannels.erase channelId
          payoutMode := none } := by
      simp only [Downstream.handleCloseChannel]
      rw [if_pos hempty]
    rw [hclosed]
    refine ⟨⟨fun _ => ?_, fun _ => rfl⟩, ?_, ?_⟩
    · rintro u ⟨ch, c, hc | hc, -⟩
      · have hkey := AList.mem_keys.mp (AList.lookup_isSome.mp (Option.isSome_of_eq_some hc))
        rw [hempty.1] at hkey
        cases hkey
      · have hkey := AList.mem_keys.mp (AList.lookup_isSome.mp (Option.isSome_of_eq_some hc))
        rw [hempty.2] at hkey
        cases hkey
    · intro mode hm
      cases hm
    · intro mode u hm
      cases hm
  · have hkept : (ds.handleCloseChannel env channelId).payoutMode = ds.payoutMode := by
      simp only [Downstream.handleCloseChannel]
      rw [if_neg hempty]
    -- a channel is left, so the connection was and stays bound
    have hleft : ∃ u, (ds.handleCloseChannel env channelId).Opened u := by
      have hchan : (ds.handleCloseChannel env channelId).standardChannels =
            ds.standardChannels.erase channelId ∧
          (ds.handleCloseChannel env channelId).extendedChannels =
            ds.extendedChannels.erase channelId := by
        simp only [Downstream.handleCloseChannel]
        rw [if_neg hempty]
        exact ⟨rfl, rfl⟩
      unfold Downstream.Opened
      rw [hchan.1, hchan.2]
      by_cases hstd : (ds.standardChannels.erase channelId).keys = []
      · obtain ⟨k, hk⟩ := List.exists_mem_of_ne_nil _ (fun hext => hempty ⟨hstd, hext⟩)
        obtain ⟨c, hc⟩ := Option.isSome_iff_exists.mp (AList.lookup_isSome.mpr (AList.mem_keys.mpr hk))
        exact ⟨c.userIdentity, k, c, .inr hc, rfl⟩
      · obtain ⟨k, hk⟩ := List.exists_mem_of_ne_nil _ hstd
        obtain ⟨c, hc⟩ := Option.isSome_iff_exists.mp (AList.lookup_isSome.mpr (AList.mem_keys.mpr hk))
        exact ⟨c.userIdentity, k, c, .inl hc, rfl⟩
    obtain ⟨u, hu⟩ := hleft
    refine ⟨?_, ?_, ?_⟩
    · rw [hkept]
      constructor
      · intro hnone
        exact absurd (hless u hu) (h.bound.mp hnone u)
      · intro hnobody
        exact absurd hu (hnobody u)
    · rw [hkept]
      exact h.valid
    · intro mode u' hm hu'
      rw [hkept] at hm
      exact h.prescribed mode u' hm (hless u' hu')

/-! ## Opening a channel -/

/-- No message of the reply carries a job. -/
def Reply.Jobless (r : Reply) : Prop :=
  ∀ ms, r = .messages ms → ∀ m ∈ ms, m.2.job = none

/-- What an open does to the binding, and what it sends. -/
def OpensFairly (env : Env Ch) (r : Downstream Ch × Reply) : Prop :=
  PayoutInv env r.1 ∧ ∀ ms, r.2 = .messages ms → ∀ m ∈ ms, FollowsIdentities env m

/-- An open that ends early changes at most the counter of channel ids. -/
theorem OpensFairly.refused {ds ds' : Downstream Ch} (h : PayoutInv env ds) {r : Reply}
    (hds : ds' = { ds with channelIdFactory := ds'.channelIdFactory }) (hr : r.Jobless) :
    OpensFairly env (ds', r) := by
  constructor
  · rw [hds]
    exact h.keep rfl fun u => Iff.rfl
  · intro ms hms m hm job u hjob
    rw [hr ms hms m hm] at hjob
    cases hjob

theorem jobless_error (msg : OpenMiningChannel) (code : OpenMiningChannelErrorCode) :
    (Reply.messages [([], .openMiningChannelError msg.requestId code)]).Jobless := by
  intro ms hms m hm
  cases hms
  rcases List.mem_singleton.mp hm with rfl
  rfl

theorem jobless_disconnect : Reply.disconnect.Jobless := by
  intro ms hms
  cases hms

theorem jobless_shutdown : Reply.shutdown.Jobless := by
  intro ms hms
  cases hms

theorem jobless_panic : Reply.panic.Jobless := by
  intro ms hms
  cases hms

theorem OpensFairly.fault {ds ds' : Downstream Ch} (h : PayoutInv env ds)
    (hds : ds' = { ds with channelIdFactory := ds'.channelIdFactory }) (f : Fault) :
    OpensFairly env (ds'.fault f) := by
  cases f with
  | shutdown => exact .refused h hds jobless_shutdown
  | panic => exact .refused h hds jobless_panic

theorem OpensFairly.construct {ds : Downstream Ch} (h : PayoutInv env ds)
    {msg : OpenMiningChannel} {allocation : AllocationAnswer} {construction : ConstructionAnswer}
    {rest : Downstream Ch → ChannelId → Nat → Downstream Ch × Reply}
    (hrest : ∀ ds' channelId length, ds' = { ds with channelIdFactory := ds'.channelIdFactory } →
      OpensFairly env (rest ds' channelId length)) :
    OpensFairly env (ds.construct msg allocation construction rest) := by
  unfold Downstream.construct
  split
  · exact .refused h rfl jobless_shutdown
  · exact .refused h rfl (jobless_error msg _)
  · dsimp only
    split
    · exact .refused h rfl (jobless_error msg _)
    · exact .refused h rfl jobless_disconnect
    · exact hrest _ _ _ rfl

/-- The job that announces a channel is built with the outputs of the channel's mode. -/
theorem bootstrapChannel_job (hl : env.channels.Lawful) {channel c : Ch} {t : NewTemplate}
    {outs : List TxOut} {p : SetNewPrevHash} {job : Job} (hf : t.futureTemplate = true)
    (h : Downstream.bootstrapChannel env channel t outs p = .ok (c, job)) :
    job.template = t ∧ job.coinbaseOutputs = outs := by
  unfold Downstream.bootstrapChannel at h
  split at h
  · cases h
  next c₁ hc₁ =>
    split at h
    · cases h
    next j hj =>
      split at h
      · cases h
      · cases h
        obtain ⟨k, hk, ht, ho⟩ := hl.newTemplate_job _ _ _ _ hc₁
        simp only [ChannelsSv2.templateJob, hf, if_true] at hk
        rw [hj] at hk
        cases hk
        exact ⟨ht, ho⟩

theorem announce_followsIdentities {u : Identity} {mode : PayoutMode}
    (hmode : PayoutMode.ofIdentity env.scriptFromAddress u = .ok mode) {job : Job}
    (houts : job.coinbaseOutputs =
      mode.coinbaseOutputs job.template.coinbaseTxValueRemaining env.poolScript)
    {success message : MiningMessage} (hsuccess : success.job = none)
    (hmessage : message.job = some job) {channelId : ChannelId} {jobId : JobId}
    {p : SetNewPrevHash} {ms : List (List Identity × MiningMessage)}
    (hms : Downstream.announce u success message channelId jobId p = .messages ms) :
    ∀ m ∈ ms, FollowsIdentities env m := by
  unfold Downstream.announce at hms
  cases hms
  intro m hm job' u' hjob hu'
  simp only [List.mem_cons, List.not_mem_nil, or_false] at hm
  rcases hm with rfl | rfl | rfl
  · rw [hsuccess] at hjob
    cases hjob
  · rw [hmessage] at hjob
    cases hjob
    rcases List.mem_singleton.mp hu' with rfl
    exact ⟨mode, hmode, houts⟩
  · cases hjob

theorem handleOpenStandardMiningChannel_fair (hl : env.channels.Lawful) {ds : Downstream Ch}
    (h : PayoutInv env ds) {t? : Option NewTemplate} {p? : Option SetNewPrevHash}
    (hfuture : ∀ t, t? = some t → t.futureTemplate = true) (msg : OpenMiningChannel)
    (allocation : AllocationAnswer) (construction : ConstructionAnswer) :
    OpensFairly env (ds.handleOpenStandardMiningChannel env t? p? msg allocation construction) := by
  unfold Downstream.handleOpenStandardMiningChannel
  split
  · exact .refused h rfl (jobless_error msg _)
  split
  · exact .refused h rfl jobless_disconnect
  next t =>
    split
    · exact .refused h rfl jobless_disconnect
    next p =>
      split
      · exact .refused h rfl (jobless_error msg _)
      next mode hmode =>
        split
        · exact .refused h rfl (jobless_error msg _)
        next hcompat =>
          refine .construct h ?_
          intro ds' channelId length hds
          dsimp only
          split
          next f _ => exact .fault h hds f
          next c job hboot =>
            have hcompat' : ds.payoutIsCompatible env mode = true := by
              simpa using hcompat
            obtain ⟨ht, houts⟩ := bootstrapChannel_job hl (hfuture t rfl) hboot
            have hopened : ∀ g, PayoutInv env
                { ds' with
                  groupChannel := g
                  standardChannels := ds'.standardChannels.insert channelId ⟨msg.userIdentity, c⟩
                  payoutMode := some mode } := by
              intro g
              rw [hds]
              refine h.opened hmode hcompat' rfl ?_ ?_
              · exact ⟨channelId, _, .inl (AList.lookup_insert _), rfl⟩
              · rintro u' ⟨ch, c', hc' | hc', rfl⟩
                · dsimp only at hc'
                  rw [KeyMap.lookup_insert_eq] at hc'
                  split at hc'
                  · cases hc'
                    exact .inl rfl
                  · exact .inr ⟨ch, c', .inl hc', rfl⟩
                · exact .inr ⟨ch, c', .inr hc', rfl⟩
            have hsent : ∀ ms, Downstream.announce msg.userIdentity
                (.openStandardMiningChannelSuccess msg.requestId channelId ds'.groupChannelId)
                (.newMiningJob channelId job) channelId job.jobId p = .messages ms →
                ∀ m ∈ ms, FollowsIdentities env m := by
              intro ms hms
              exact announce_followsIdentities hmode (by rw [houts, ht]) rfl rfl hms
            split
            · exact ⟨hopened ds'.groupChannel, hsent⟩
            · split
              · refine ⟨hopened ds'.groupChannel, ?_⟩
                intro ms hms
                cases hms
              next ds'' hgroup =>
                obtain ⟨g, -, rfl⟩ := Option.map_eq_some_iff.mp hgroup
                exact ⟨hopened g, hsent⟩

theorem handleOpenExtendedMiningChannel_fair (hl : env.channels.Lawful) {ds : Downstream Ch}
    (h : PayoutInv env ds) {t? : Option NewTemplate} {p? : Option SetNewPrevHash}
    (hfuture : ∀ t, t? = some t → t.futureTemplate = true) (msg : OpenMiningChannel)
    (allocation : AllocationAnswer) (construction : ConstructionAnswer) :
    OpensFairly env (ds.handleOpenExtendedMiningChannel env t? p? msg allocation construction) := by
  unfold Downstream.handleOpenExtendedMiningChannel
  split
  · exact .refused h rfl (jobless_error msg _)
  split
  · exact .refused h rfl (jobless_error msg _)
  next mode hmode =>
    split
    · exact .refused h rfl (jobless_error msg _)
    next hcompat =>
      have hcompat' : ds.payoutIsCompatible env mode = true := by
        simpa using hcompat
      refine .construct h ?_
      intro ds' channelId length hds
      have hopened : ∀ g c, PayoutInv env
          { ds' with
            groupChannel := g
            extendedChannels := ds'.extendedChannels.insert channelId ⟨msg.userIdentity, c⟩
            payoutMode := some mode } := by
        intro g c
        rw [hds]
        refine h.opened hmode hcompat' rfl ?_ ?_
        · exact ⟨channelId, _, .inr (AList.lookup_insert _), rfl⟩
        · rintro u' ⟨ch, c', hc' | hc', rfl⟩
          · exact .inr ⟨ch, c', .inl hc', rfl⟩
          · dsimp only at hc'
            rw [KeyMap.lookup_insert_eq] at hc'
            split at hc'
            · cases hc'
              exact .inl rfl
            · exact .inr ⟨ch, c', .inr hc', rfl⟩
      dsimp only
      split
      · exact .refused h hds jobless_disconnect
      next p =>
        split
        · exact .refused h hds jobless_disconnect
        next t =>
          split
          · split
            · exact .refused h hds jobless_shutdown
            next c _ =>
              refine ⟨hopened ds'.groupChannel c, ?_⟩
              intro ms hms m hm job u hjob
              cases hms
              rcases List.mem_singleton.mp hm with rfl
              cases hjob
          · split
            next f _ => exact .fault h hds f
            next c job hboot =>
              obtain ⟨ht, houts⟩ := bootstrapChannel_job hl (hfuture t rfl) hboot
              split
              · exact .refused h hds jobless_shutdown
              next ds'' hgroup =>
                obtain ⟨g, -, rfl⟩ := Option.map_eq_some_iff.mp hgroup
                refine ⟨hopened g c, ?_⟩
                intro ms hms
                exact announce_followsIdentities hmode (by rw [houts, ht]) rfl rfl hms

/-! ## Template messages -/

/-- A pass over the channels keeps the identities. -/
theorem opened_of_passes {ds ds' : Downstream Ch}
    (hstd : ∀ ch, (ds'.standardChannels.lookup ch).map OpenChannel.userIdentity =
      (ds.standardChannels.lookup ch).map OpenChannel.userIdentity)
    (hext : ∀ ch, (ds'.extendedChannels.lookup ch).map OpenChannel.userIdentity =
      (ds.extendedChannels.lookup ch).map OpenChannel.userIdentity) (u : Identity) :
    ds'.Opened u ↔ ds.Opened u := by
  have hmove : ∀ {a b : Downstream Ch},
      (∀ ch, (a.standardChannels.lookup ch).map OpenChannel.userIdentity =
        (b.standardChannels.lookup ch).map OpenChannel.userIdentity) →
      (∀ ch, (a.extendedChannels.lookup ch).map OpenChannel.userIdentity =
        (b.extendedChannels.lookup ch).map OpenChannel.userIdentity) →
      a.Opened u → b.Opened u := by
    rintro a b h₁ h₂ ⟨ch, c, hc | hc, rfl⟩
    · have h := h₁ ch
      rw [hc] at h
      obtain ⟨c', hc', hu⟩ := Option.map_eq_some_iff.mp h.symm
      exact ⟨ch, c', .inl hc', hu⟩
    · have h := h₂ ch
      rw [hc] at h
      obtain ⟨c', hc', hu⟩ := Option.map_eq_some_iff.mp h.symm
      exact ⟨ch, c', .inr hc', hu⟩
  exact ⟨hmove hstd hext, hmove (fun ch => (hstd ch).symm) fun ch => (hext ch).symm⟩

theorem lookup_identity_of_tryMap {f : ChannelId → OpenChannel Ch → Except Fault (OpenChannel Ch)}
    (hf : ∀ ch c c', f ch c = .ok c' → c'.userIdentity = c.userIdentity)
    {m m' : KeyMap ChannelId (OpenChannel Ch)} (h : KeyMap.tryMap f m = .ok m') (ch : ChannelId) :
    (m'.lookup ch).map OpenChannel.userIdentity = (m.lookup ch).map OpenChannel.userIdentity := by
  obtain ⟨hsome, hnone⟩ := KeyMap.lookup_tryMap h ch
  cases hc : m.lookup ch with
  | none => rw [hnone hc]
  | some c =>
    obtain ⟨c', hc', hlook⟩ := hsome c hc
    rw [hlook]
    exact congrArg some (hf ch c c' hc')

theorem onGroupChannelJob_identity {job : Job} {ch : ChannelId} {c c' : OpenChannel Ch}
    (h : Downstream.onGroupChannelJob env job ch c = .ok c') :
    c'.userIdentity = c.userIdentity := by
  unfold Downstream.onGroupChannelJob at h
  split at h <;> cases h
  rfl

theorem onSetNewPrevHash_identity {p : SetNewPrevHash} {ch : ChannelId} {c c' : OpenChannel Ch}
    (h : Downstream.onSetNewPrevHash env p ch c = .ok c') : c'.userIdentity = c.userIdentity := by
  unfold Downstream.onSetNewPrevHash at h
  split at h <;> cases h
  rfl

/-- A standard channel's own job has the outputs it was given. -/
theorem onNewTemplate_job (hl : env.channels.Lawful) {t : NewTemplate} {outs : List TxOut}
    {ch : ChannelId} {c : OpenChannel Ch} {r : OpenChannel Ch × Job}
    (h : Downstream.onNewTemplate env t outs ch c = .ok r) :
    r.1.userIdentity = c.userIdentity ∧ r.2.template = t ∧ r.2.coinbaseOutputs = outs := by
  unfold Downstream.onNewTemplate at h
  split at h
  · cases h
  next c₁ hc₁ =>
    split at h
    · cases h
    next j hj =>
      cases h
      obtain ⟨k, hk, ht, ho⟩ := hl.newTemplate_job _ _ _ _ hc₁
      rw [hj] at hk
      cases hk
      exact ⟨rfl, ht, ho⟩

/-- The standard channels keep their identities, and their messages carry the job with the
    given outputs for the identity of the channel. -/
theorem standardOnNewTemplate_spec (hl : env.channels.Lawful) {ds : Downstream Ch}
    {t : NewTemplate} {outs : List TxOut} {groupJob : Job}
    {std : KeyMap ChannelId (OpenChannel Ch)} {ms : List (List Identity × MiningMessage)}
    (h : ds.standardOnNewTemplate env t outs groupJob = .ok (std, ms)) :
    (∀ ch, (std.lookup ch).map OpenChannel.userIdentity =
      (ds.standardChannels.lookup ch).map OpenChannel.userIdentity) ∧
    ∀ m ∈ ms, ∃ u job, m.1 = [u] ∧ m.2.job = some job ∧ ds.Opened u ∧
      job.template = t ∧ job.coinbaseOutputs = outs := by
  unfold Downstream.standardOnNewTemplate at h
  split at h
  · split at h
    · cases h
    next std' hstd =>
      cases h
      refine ⟨lookup_identity_of_tryMap (fun _ _ _ => onGroupChannelJob_identity) hstd, ?_⟩
      intro m hm
      cases hm
  · split at h
    · cases h
    next pairs hpairs =>
      cases h
      constructor
      · intro ch
        rw [KeyMap.lookup_mapValues]
        obtain ⟨hsome, hnone⟩ := KeyMap.lookup_tryMap hpairs ch
        cases hc : ds.standardChannels.lookup ch with
        | none => rw [hnone hc]; rfl
        | some c =>
          obtain ⟨r, hr, hlook⟩ := hsome c hc
          rw [hlook]
          exact congrArg some (onNewTemplate_job hl hr).1
      · intro m hm
        obtain ⟨e, he, rfl⟩ := List.mem_map.mp hm
        obtain ⟨c, hc, hr⟩ :=
          KeyMap.lookup_tryMap_some hpairs ((KeyMap.mem_entries_iff _ _ _).mp he)
        obtain ⟨hu, ht, ho⟩ := onNewTemplate_job hl hr
        refine ⟨e.2.1.userIdentity, e.2.2, rfl, rfl, ?_, ht, ho⟩
        exact ⟨e.1, c, .inl hc, hu.symm⟩

/-- The outputs of a connection are those that its open channels prescribe. -/
theorem PayoutInv.coinbaseOutputs {ds : Downstream Ch} (h : PayoutInv env ds) {u : Identity}
    (hu : ds.Opened u) (t : NewTemplate) :
    ∃ mode, PayoutMode.ofIdentity env.scriptFromAddress u = .ok mode ∧
      ds.coinbaseOutputs env t =
        mode.coinbaseOutputs t.coinbaseTxValueRemaining env.poolScript := by
  cases hcur : ds.payoutMode with
  | none => exact absurd hu (h.bound.mp hcur u)
  | some current =>
    obtain ⟨mode, hmode, heq⟩ := h.prescribed current u hcur hu
    refine ⟨mode, hmode, ?_⟩
    simp only [Downstream.coinbaseOutputs, hcur]
    exact (heq _).symm

theorem visitNewTemplate_fair (hl : env.channels.Lawful) {ds ds' : Downstream Ch}
    (h : PayoutInv env ds) {t : NewTemplate} {ms : List (List Identity × MiningMessage)}
    (hv : ds.visitNewTemplate env t = .ok (ds', ms)) :
    PayoutInv env ds' ∧ ∀ m ∈ ms, FollowsIdentities env m := by
  unfold Downstream.visitNewTemplate at hv
  split at hv
  · cases hv
    refine ⟨h, ?_⟩
    intro m hm
    cases hm
  dsimp only at hv
  split at hv
  · cases hv
  next g hg =>
    split at hv
    · cases hv
    next groupJob hjob =>
      split at hv
      · cases hv
      next std messages hstd =>
        split at hv
        · cases hv
        next ext hext =>
          cases hv
          obtain ⟨hkeep, hmess⟩ := standardOnNewTemplate_spec hl hstd
          have hext' := lookup_identity_of_tryMap
            (fun _ _ _ => onGroupChannelJob_identity) hext
          refine ⟨h.keep rfl (opened_of_passes hkeep hext'), ?_⟩
          intro m hm job u hm' hu
          rcases List.mem_append.mp hm with hgroup | hown
          · -- the group's job, for all open channels
            split at hgroup
            · rcases List.mem_singleton.mp hgroup with rfl
              cases hm'
              obtain ⟨k, hk, ht, ho⟩ := hl.newTemplate_job _ _ _ _ hg
              rw [hjob] at hk
              cases hk
              obtain ⟨mode, hmode, heq⟩ := h.coinbaseOutputs (Downstream.mem_identities.mp hu) t
              exact ⟨mode, hmode, by rw [ho, heq, ht]⟩
            · cases hgroup
          · obtain ⟨u', job', hids, hj, hopen, ht, ho⟩ := hmess m hown
            rw [hj] at hm'
            cases hm'
            rw [hids] at hu
            rcases List.mem_singleton.mp hu with rfl
            obtain ⟨mode, hmode, heq⟩ := h.coinbaseOutputs hopen t
            exact ⟨mode, hmode, by rw [ho, heq, ht]⟩

theorem visitSetNewPrevHash_fair {ds ds' : Downstream Ch} (h : PayoutInv env ds)
    {p : SetNewPrevHash} {ms : List (List Identity × MiningMessage)}
    (hv : ds.visitSetNewPrevHash env p = .ok (ds', ms)) :
    PayoutInv env ds' ∧ ∀ m ∈ ms, FollowsIdentities env m := by
  unfold Downstream.visitSetNewPrevHash at hv
  split at hv
  · cases hv
    refine ⟨h, ?_⟩
    intro m hm
    cases hm
  split at hv
  · cases hv
  next g hg =>
    dsimp only at hv
    split at hv
    · cases hv
    split at hv
    · cases hv
    next ext hext =>
      split at hv
      · cases hv
      next std hstd =>
        split at hv
        · cases hv
        cases hv
        constructor
        · exact h.keep rfl (opened_of_passes
            (lookup_identity_of_tryMap (fun _ _ _ => onSetNewPrevHash_identity) hstd)
            (lookup_identity_of_tryMap (fun _ _ _ => onSetNewPrevHash_identity) hext))
        · -- a prev-hash carries no job
          intro m hm job u hjob
          rcases List.mem_append.mp hm with hgroup | hown
          · split at hgroup
            · obtain ⟨id, -, rfl⟩ := List.mem_map.mp hgroup
              cases hjob
            · cases hgroup
          · split at hown
            · obtain ⟨e, -, he⟩ := List.mem_flatMap.mp hown
              obtain ⟨id, -, rfl⟩ := List.mem_map.mp he
              cases hjob
            · cases hown

/-! ## Every run -/

section

variable (env)

def BatchFair (b : Batch) : Prop := ∀ m ∈ b.messages, FollowsIdentities env m

structure BindingInv (s : ChannelManager Ch) : Prop where
  future : ∀ t, s.lastFutureTemplate = some t → t.futureTemplate = true
  bindings : ∀ d ds, s.downstreams.lookup d = some ds → PayoutInv env ds
  queued : ∀ msg present visited batches, s.loop = .visiting msg present visited batches →
    ∀ b ∈ batches, BatchFair env b
  sent : ∀ b ∈ s.sent, BatchFair env b

end

theorem bindingInv_new : BindingInv env (ChannelManager.new : ChannelManager Ch) := by
  refine ⟨?_, ?_, ?_, ?_⟩
  · intro t h
    cases h
  · intro d ds h
    cases h
  · intro msg present visited batches h
    cases h
  · intro b hb
    cases hb

/-- A step that touches at most one connection, and not the loop's queue. -/
theorem BindingInv.connections {s : ChannelManager Ch} (h : BindingInv env s)
    {downstreams : KeyMap DownstreamId (Downstream Ch)}
    (hds : ∀ d ds, downstreams.lookup d = some ds → PayoutInv env ds) :
    BindingInv env { s with downstreams := downstreams } :=
  ⟨h.future, hds, h.queued, h.sent⟩

theorem BindingInv.insert {s : ChannelManager Ch} (h : BindingInv env s) (d : DownstreamId)
    {ds : Downstream Ch} (hds : PayoutInv env ds) :
    BindingInv env { s with downstreams := s.downstreams.insert d ds } := by
  refine h.connections ?_
  intro d' ds' hlook
  rw [KeyMap.lookup_insert_eq] at hlook
  split at hlook
  · cases hlook
    exact hds
  · exact h.bindings d' ds' hlook

theorem BindingInv.erase {s : ChannelManager Ch} (h : BindingInv env s) (d : DownstreamId) :
    BindingInv env { s with downstreams := s.downstreams.erase d } := by
  refine h.connections ?_
  intro d' ds' hlook
  exact h.bindings d' ds' (KeyMap.lookup_erase_some hlook)

theorem reply_bindingInv {s : ChannelManager Ch} (h : BindingInv env s) (d : DownstreamId)
    {r : Downstream Ch × Reply} (hr : OpensFairly env r) : BindingInv env (s.reply d r) := by
  have hins := h.insert d hr.1
  unfold ChannelManager.reply
  dsimp only
  split
  next ms hms =>
    refine ⟨hins.future, hins.bindings, hins.queued, ?_⟩
    intro b hb
    rcases List.mem_cons.mp hb with rfl | hb
    · exact hr.2 ms hms
    · exact h.sent b hb
  next => exact hins.erase d
  next => exact ⟨hins.future, hins.bindings, hins.queued, hins.sent⟩
  next =>
    refine ⟨hins.future, hins.bindings, ?_, hins.sent⟩
    intro msg present visited batches hl
    cases hl

theorem onMiningMessage_bindingInv {s : ChannelManager Ch} (h : BindingInv env s)
    {d : DownstreamId} {handler : Downstream Ch → ChannelManager Ch}
    (hh : ∀ ds, PayoutInv env ds → BindingInv env (handler ds)) :
    BindingInv env (s.onMiningMessage d handler) := by
  unfold ChannelManager.onMiningMessage
  split
  · split
    · exact h
    next ds hds =>
      split
      · exact hh ds (h.bindings d ds hds)
      · exact h
  · exact h

theorem visit_bindingInv (hl : env.channels.Lawful) {s : ChannelManager Ch}
    (h : BindingInv env s) (d : DownstreamId) : BindingInv env (s.visit env d) := by
  have hstop : ∀ loop, (∀ msg present visited batches,
      loop ≠ LoopTask.visiting msg present visited batches) → ∀ cancelled,
      BindingInv env { s with cancelled := cancelled, loop := loop } := by
    intro loop hloop cancelled
    refine ⟨h.future, h.bindings, ?_, h.sent⟩
    intro msg present visited batches heq
    exact absurd heq (hloop msg present visited batches)
  unfold ChannelManager.visit
  split
  next msg present visited batches hloop =>
    split
    · exact h
    · split
      · exact h
      next ds hds =>
        split
        · exact hstop .idle (by simp) true
        · exact hstop .stopped (by simp) s.cancelled
        next ds' messages hvisit =>
          have hfair : PayoutInv env ds' ∧ ∀ m ∈ messages, FollowsIdentities env m := by
            cases msg with
            | newTemplate t => exact visitNewTemplate_fair hl (h.bindings d ds hds) hvisit
            | setNewPrevHash p => exact visitSetNewPrevHash_fair (h.bindings d ds hds) hvisit
          have hins := h.insert d hfair.1
          refine ⟨h.future, hins.bindings, ?_, h.sent⟩
          intro msg' present' visited' batches' heq b hb
          cases heq
          rcases List.mem_cons.mp hb with rfl | hb
          · exact hfair.2
          · exact h.queued msg present visited batches hloop b hb
  next => exact h

theorem finish_bindingInv {s : ChannelManager Ch} (h : BindingInv env s) :
    BindingInv env s.finish := by
  unfold ChannelManager.finish
  split
  next msg present visited batches hloop =>
    split
    · refine ⟨h.future, h.bindings, ?_, ?_⟩
      · intro msg' present' visited' batches' heq
        cases heq
      · intro b hb
        rcases List.mem_append.mp hb with hb | hb
        · exact h.queued msg present visited batches hloop b hb
        · exact h.sent b hb
    · exact h
  next => exact h

theorem receiveTemplateMessage_bindingInv {s : ChannelManager Ch} (h : BindingInv env s)
    (msg : TemplateMessage) : BindingInv env (s.receiveTemplateMessage msg) := by
  have hqueue : ∀ msg' present visited batches,
      LoopTask.visiting msg s.downstreams.keys [] [] = .visiting msg' present visited batches →
      ∀ b ∈ batches, BatchFair env b := by
    intro msg' present visited batches heq b hb
    cases heq
    cases hb
  unfold ChannelManager.receiveTemplateMessage
  cases msg with
  | newTemplate t =>
    dsimp only
    split
    next hf =>
      refine ⟨?_, h.bindings, hqueue, h.sent⟩
      intro t' ht'
      cases ht'
      exact hf
    next => exact ⟨h.future, h.bindings, hqueue, h.sent⟩
  | setNewPrevHash p => exact ⟨h.future, h.bindings, hqueue, h.sent⟩

theorem loopStep_bindingInv (hl : env.channels.Lawful) {s : ChannelManager Ch}
    (h : BindingInv env s) (a : Action) : BindingInv env (s.loopStep env a) := by
  cases a with
  | templateMessage msg =>
    simp only [ChannelManager.loopStep]
    split
    · exact receiveTemplateMessage_bindingInv h msg
    · exact h
  | visit d => exact visit_bindingInv hl h d
  | finish => exact finish_bindingInv h
  | openStandard d msg allocation construction =>
    refine onMiningMessage_bindingInv h fun ds hds => reply_bindingInv h d ?_
    exact handleOpenStandardMiningChannel_fair hl hds h.future msg allocation construction
  | openExtended d msg allocation construction =>
    refine onMiningMessage_bindingInv h fun ds hds => reply_bindingInv h d ?_
    exact handleOpenExtendedMiningChannel_fair hl hds h.future msg allocation construction
  | closeChannel d channelId =>
    refine onMiningMessage_bindingInv h fun ds hds => ?_
    exact h.insert d (handleCloseChannel_payoutInv hds channelId)
  | _ => exact h

theorem setUpConnection_bindingInv {s : ChannelManager Ch} (h : BindingInv env s)
    (d : DownstreamId) (std custom : Bool) :
    BindingInv env (s.setUpConnection d std custom) := by
  refine h.connections ?_
  intro d' ds' hlook
  rw [KeyMap.lookup_modify] at hlook
  split at hlook
  next heq =>
    obtain ⟨ds, hds, rfl⟩ := Option.map_eq_some_iff.mp hlook
    have hinv := h.bindings d ds hds
    split
    · exact hinv
    · exact hinv.keep rfl fun u => Iff.rfl
  next => exact h.bindings d' ds' hlook

theorem bindingInv_step (hl : env.channels.Lawful) {s : ChannelManager Ch}
    (h : BindingInv env s) (a : Action) : BindingInv env (s.step env a) := by
  have hloop : ∀ b, BindingInv env (if s.cancelled then s else s.loopStep env b) := by
    intro b
    split
    · exact h
    · exact loopStep_bindingInv hl h b
  cases a with
  | accept =>
    simp only [ChannelManager.step, ChannelManager.accept]
    split
    · exact ⟨h.future, h.bindings, h.queued, h.sent⟩
    · exact h
  | bootstrap d =>
    simp only [ChannelManager.step, ChannelManager.bootstrap]
    split
    · split <;> exact ⟨h.future, h.bindings, h.queued, h.sent⟩
    · exact h
  | register d =>
    simp only [ChannelManager.step, ChannelManager.register]
    split
    next g _ =>
      have hnew : PayoutInv env (Downstream.new g) := payoutInv_new g
      have hins := h.insert d hnew
      exact ⟨hins.future, hins.bindings, hins.queued, hins.sent⟩
    next => exact h
  | setUpConnection d std custom => exact setUpConnection_bindingInv h d std custom
  | removeDownstream d => exact h.erase d
  | _ => exact hloop _

/-- **One payout per connection.** In every state that a run of the channel manager reaches,
    a connection has a payout mode exactly when it has an open channel, its outputs are those
    of the identity of each open channel for every reward, and every job that was sent carries
    the outputs that the identity of each channel it was for prescribes. -/
theorem jobs_follow_identity (env : Env Ch) (hl : env.channels.Lawful) (as : List Action) :
    (∀ d ds, (after env as).downstreams.lookup d = some ds →
      (ds.payoutMode = none ↔ ∀ u, ¬ ds.Opened u) ∧
      ∀ mode u, ds.payoutMode = some mode → ds.Opened u →
        ∃ mode', PayoutMode.ofIdentity env.scriptFromAddress u = .ok mode' ∧
          ∀ v, mode'.coinbaseOutputs v env.poolScript =
            mode.coinbaseOutputs v env.poolScript) ∧
    ∀ b ∈ (after env as).sent, ∀ m ∈ b.messages, ∀ job u, m.2.job = some job → u ∈ m.1 →
      ∃ mode, PayoutMode.ofIdentity env.scriptFromAddress u = .ok mode ∧
        job.coinbaseOutputs =
          mode.coinbaseOutputs job.template.coinbaseTxValueRemaining env.poolScript := by
  have hinv : BindingInv env (after env as) :=
    Runs.run_invariant (BindingInv env) (fun s a h => bindingInv_step hl h a) bindingInv_new as
  constructor
  · intro d ds hds
    have hb := hinv.bindings d ds hds
    exact ⟨hb.bound, hb.prescribed⟩
  · exact hinv.sent

/-- A miner connects, opens two channels, and a second template is distributed. -/
def samplePayoutRun : List Action :=
  sampleConnection ++
  [.openExtended 1 ⟨1, "farm_01"⟩ (.allocated 4) .built,
   .openStandard 1 ⟨2, "sri/donate/rig"⟩ (.allocated 20) .built,
   .templateMessage (.newTemplate ⟨2, false, 5000⟩), .visit 1, .finish, .closeChannel 1 2]

theorem jobs_follow_identity_sample :
    ((after sampleEnv samplePayoutRun).sent.flatMap fun b =>
      b.messages.filterMap fun m => m.2.job.map fun job => (m.1, job.coinbaseOutputs)) =
      [(["sri/donate/rig", "farm_01"], [⟨5000, [0x51]⟩]),
       (["sri/donate/rig"], [⟨4000, [0x51]⟩]), (["farm_01"], [⟨4000, [0x51]⟩])] ∧
    ∀ b ∈ (after sampleEnv samplePayoutRun).sent, ∀ m ∈ b.messages, ∀ job u,
      m.2.job = some job → u ∈ m.1 →
        ∃ mode, PayoutMode.ofIdentity sampleEnv.scriptFromAddress u = .ok mode ∧
          job.coinbaseOutputs =
            mode.coinbaseOutputs job.template.coinbaseTxValueRemaining sampleEnv.poolScript :=
  ⟨by decide +kernel,
    (jobs_follow_identity sampleEnv referenceChannels_lawful samplePayoutRun).2⟩

end Sv2Apps.Pool.ChannelManager
