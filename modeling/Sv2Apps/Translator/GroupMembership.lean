/-
  Translator/GroupMembership.lean
  ===============================
  **Channels and groups without aggregation** — channel ids, group ids and the reserved id are
  different ids, a member of a group is a channel, a channel is in one group at most, and the
  channels are those whose miner has been told a prefix.

  Most handlers only change channels that exist (`KeysKept`); channels come with
  `handleOpenExtendedMiningChannelSuccess` and go with the two handlers of `CloseChannel`, and
  `handleSetGroupChannel` moves them between groups.  With the invariant no handler comes to a
  member that is not a channel, or to a channel whose miner has been told nothing.
-/
import Sv2Apps.Translator.ChannelManager
import Sv2Apps.Translator.ReferenceChannels

namespace Sv2Apps.Translator

open Bitcoin Fallible

namespace ChannelManager

variable {Ch Gr Al : Type} {api : ClientChannels Ch Gr Al} {cfg : Config}
  {s s' : ChannelManager Ch Gr Al}

/-- The members of a group, `none` if there is no such group. -/
def groupMembers (api : ClientChannels Ch Gr Al) (s : ChannelManager Ch Gr Al)
    (groupChannelId : ChannelId) : Option (List ChannelId) :=
  (s.groupChannels.lookup groupChannelId).map api.getChannelIds

def hasChannel (s : ChannelManager Ch Gr Al) (channelId : ChannelId) : Bool :=
  (s.extendedChannels.lookup channelId).isSome

def hasAdvertised (s : ChannelManager Ch Gr Al) (channelId : ChannelId) : Bool :=
  (s.sv1AdvertisedExtranoncePrefixes.lookup channelId).isSome

structure GroupsConsistent (api : ClientChannels Ch Gr Al) (s : ChannelManager Ch Gr Al) : Prop where
  channelReserved : s.hasChannel aggregatedChannelId = false
  groupReserved : groupMembers api s aggregatedChannelId = none
  disjoint : ∀ k, s.hasChannel k = true → groupMembers api s k = none
  members : ∀ g ks, groupMembers api s g = some ks → ∀ k ∈ ks, s.hasChannel k = true
  oneGroup : ∀ g g' ks ks', groupMembers api s g = some ks → groupMembers api s g' = some ks' →
    ∀ k, k ∈ ks → k ∈ ks' → g = g'
  advertised : ∀ k, s.hasAdvertised k = s.hasChannel k

/-- No member of a group was looked for in vain, and no prefix that a miner was told. -/
def NothingMissing (e : TproxyError) : Prop :=
  e.kind ≠ .channelNotFound .member ∧ e.kind ≠ .channelNotFound .advertisedPrefix

theorem groupsConsistent_start : GroupsConsistent api (start : ChannelManager Ch Gr Al) := by
  refine ⟨rfl, rfl, fun k h => ?_, fun g ks h => ?_, fun g g' ks ks' h => ?_, fun k => rfl⟩
  · cases h
  · cases h
  · cases h

/-! ## Handlers that keep the keys -/

/-- The same channels, groups and members. -/
structure KeysKept (api : ClientChannels Ch Gr Al) (s s' : ChannelManager Ch Gr Al) : Prop where
  channels : ∀ k, s'.hasChannel k = s.hasChannel k
  groups : ∀ g, groupMembers api s' g = groupMembers api s g
  advertised : ∀ k, s'.hasAdvertised k = s.hasAdvertised k

namespace KeysKept

theorem refl (s : ChannelManager Ch Gr Al) : KeysKept api s s :=
  ⟨fun _ => rfl, fun _ => rfl, fun _ => rfl⟩

theorem trans {s₁ s₂ s₃ : ChannelManager Ch Gr Al} (h : KeysKept api s₁ s₂)
    (h' : KeysKept api s₂ s₃) : KeysKept api s₁ s₃ :=
  ⟨fun k => (h'.channels k).trans (h.channels k), fun g => (h'.groups g).trans (h.groups g),
    fun k => (h'.advertised k).trans (h.advertised k)⟩

theorem setChannel {k : ChannelId} (h : s.hasChannel k = true) (c : Ch) :
    KeysKept api s (s.setChannel k c) := by
  refine ⟨fun j => ?_, fun _ => rfl, fun _ => rfl⟩
  simp only [hasChannel, ChannelManager.setChannel, KeyMap.lookup_insert_eq]
  split
  next hj =>
    rw [hj]
    exact h.symm
  · rfl

/-- A group that has the same members. -/
theorem setGroup {k : ChannelId} {group : Gr} (h : groupMembers api s k = some (api.getChannelIds group)) :
    KeysKept api s { s with groupChannels := s.groupChannels.insert k group } := by
  refine ⟨fun _ => rfl, fun j => ?_, fun _ => rfl⟩
  simp only [groupMembers, KeyMap.lookup_insert_eq]
  split
  next hj =>
    rw [hj]
    exact h.symm
  · rfl

theorem sendSv1 (s : ChannelManager Ch Gr Al) (m : Sv1Message) : KeysKept api s (s.sendSv1 m) :=
  ⟨fun _ => rfl, fun _ => rfl, fun _ => rfl⟩

theorem sendAll {α : Type} (f : α → Sv1Message) (l : List α) (s : ChannelManager Ch Gr Al) :
    KeysKept api s (l.foldl (fun s a => s.sendSv1 (f a)) s) := by
  induction l generalizing s with
  | nil => exact .refl s
  | cons a l ih => exact (sendSv1 s (f a)).trans (ih (s.sendSv1 (f a)))

end KeysKept

theorem GroupsConsistent.of_kept (h : GroupsConsistent api s) (hkept : KeysKept api s s') :
    GroupsConsistent api s' := by
  refine ⟨?_, ?_, ?_, ?_, ?_, ?_⟩
  · rw [hkept.channels]
    exact h.channelReserved
  · rw [hkept.groups]
    exact h.groupReserved
  · intro k
    rw [hkept.channels, hkept.groups]
    exact h.disjoint k
  · intro g ks hg k hk
    rw [hkept.groups] at hg
    rw [hkept.channels]
    exact h.members g ks hg k hk
  · intro g g' ks ks' hg hg'
    rw [hkept.groups] at hg hg'
    exact h.oneGroup g g' ks ks' hg hg'
  · intro k
    rw [hkept.advertised, hkept.channels]
    exact h.advertised k

/-! ## Jobs -/

/-- A prefix is announced for a channel whose miner has been told one. -/
theorem announcePrefix_kept {e : ChannelId × Bytes} (h : s.hasAdvertised e.1 = true) :
    Meets (KeysKept api s) NothingMissing (announcePrefix s e) := by
  unfold announcePrefix
  refine (Meets.orThrow ?_).bind ?_
  · intro hnone
    rw [hasAdvertised, hnone] at h
    cases h
  intro advertised hadvertised
  split
  · exact .pure (.refl s)
  refine (Meets.orThrow fun _ => ⟨nofun, nofun⟩).bind ?_
  intro b _
  refine .pure ⟨fun _ => rfl, fun _ => rfl, fun k => ?_⟩
  simp only [hasAdvertised, KeyMap.lookup_insert_eq]
  split
  next hk =>
    rw [hk]
    exact h.symm
  · rfl

/-- A collected prefix is the one that its channel captured. -/
theorem collectPrefixes_mem {m : NewExtendedMiningJob} {es : List (Σ _ : ChannelId, Ch)}
    {prefixes : List (ChannelId × Bytes)} (h : collectPrefixes api m es = some prefixes) :
    ∀ e ∈ prefixes, ∃ c, (⟨e.1, c⟩ : Σ _ : ChannelId, Ch) ∈ es ∧
      activeJobPrefix api c m = some e.2 := by
  induction es generalizing prefixes with
  | nil =>
    cases h
    intro e he
    cases he
  | cons entry es ih =>
    have hlater : ∀ {ps}, collectPrefixes api m es = some ps → ∀ e ∈ ps, ∃ c,
        (⟨e.1, c⟩ : Σ _ : ChannelId, Ch) ∈ entry :: es ∧ activeJobPrefix api c m = some e.2 := by
      intro ps hps e he
      obtain ⟨c, hc, hprefix⟩ := ih hps e he
      exact ⟨c, List.mem_cons_of_mem _ hc, hprefix⟩
    unfold collectPrefixes at h
    split at h
    · exact hlater h
    · rw [Option.bind_eq_some_iff] at h
      obtain ⟨b, hb, h⟩ := h
      obtain ⟨ps, hps, rfl⟩ := Option.map_eq_some_iff.mp h
      intro e he
      rcases List.mem_cons.mp he with rfl | he
      · exact ⟨entry.2, List.mem_cons_self, hb⟩
      · exact hlater hps e he

theorem activeJobExtranoncePrefixes_mem {m : NewExtendedMiningJob}
    {prefixes : List (ChannelId × Bytes)}
    (h : activeJobExtranoncePrefixes api s m = some prefixes) :
    ∀ e ∈ prefixes, ∃ c, s.extendedChannels.lookup e.1 = some c ∧
      activeJobPrefix api c m = some e.2 := by
  unfold activeJobExtranoncePrefixes at h
  split at h
  · intro e he
    obtain ⟨c, hc, hprefix⟩ := collectPrefixes_mem h e he
    exact ⟨c, (KeyMap.mem_entries_iff _ _ _).mp hc, hprefix⟩
  · obtain ⟨c, hc, h⟩ := Option.bind_eq_some_iff.mp h
    obtain ⟨b, hb, rfl⟩ := Option.map_eq_some_iff.mp h
    intro e he
    cases List.mem_singleton.mp he
    exact ⟨c, hc, hb⟩

theorem forwardJob_kept (h : GroupsConsistent api s) (m : NewExtendedMiningJob) :
    Meets (KeysKept api s) NothingMissing (forwardJobToSv1Server api s m) := by
  unfold forwardJobToSv1Server
  refine (Meets.orThrow fun _ => ⟨nofun, nofun⟩).bind ?_
  intro prefixes hprefixes
  refine (Meets.foldlM (KeysKept api s) ?_ (.refl s)).bind ?_
  · intro s₁ hs₁ e he
    obtain ⟨c, hc, -⟩ := activeJobExtranoncePrefixes_mem hprefixes e he
    have hadvertised : s₁.hasAdvertised e.1 = true := by
      rw [hs₁.advertised, h.advertised, hasChannel, hc]
      rfl
    exact (announcePrefix_kept hadvertised).mono fun s₂ hs₂ => hs₁.trans hs₂
  · intro s₁ hs₁
    exact .pure (hs₁.trans (.sendSv1 s₁ _))

theorem forwardJobs_kept (h : GroupsConsistent api s) (jobs : List NewExtendedMiningJob) :
    Meets (KeysKept api s) NothingMissing (jobs.foldlM (forwardJobToSv1Server api) s) := by
  refine Meets.foldlM (KeysKept api s) ?_ (.refl s)
  intro s₁ hs₁ m _
  exact (forwardJob_kept (h.of_kept hs₁) m).mono fun s₂ hs₂ => hs₁.trans hs₂

theorem forwardPrevHashes_kept (h : GroupsConsistent api s) (prevHashes : List SetNewPrevHash)
    (jobs : List NewExtendedMiningJob) :
    Meets (KeysKept api s) NothingMissing (forwardPrevHashes api s prevHashes jobs) := by
  have hsent : KeysKept api s (prevHashes.foldl (fun s p => s.sendSv1 (.setNewPrevHash p)) s) :=
    .sendAll _ _ s
  exact (forwardJobs_kept (h.of_kept hsent) jobs).mono fun s₂ hs₂ => hsent.trans hs₂

/-! ## Messages for a channel or a group -/

theorem member_meets {k : ChannelId} (h : s.hasChannel k = true) :
    Meets (fun c => s.extendedChannels.lookup k = some c) NothingMissing (s.member k) := by
  refine .orThrow ?_
  intro hnone
  rw [hasChannel, hnone] at h
  cases h

theorem hasChannel_of_lookup {k : ChannelId} {c : Ch} (h : s.extendedChannels.lookup k = some c) :
    s.hasChannel k = true := by
  rw [hasChannel, h]
  rfl

/-- The loop of a group message: every member is found and only its own channel changes. -/
theorem members_kept {α : Type} {f : ChannelManager Ch Gr Al × α → ChannelId →
      Except TproxyError (ChannelManager Ch Gr Al × α)} {ks : List ChannelId}
    (hmembers : ∀ k ∈ ks, s.hasChannel k = true)
    (hf : ∀ r k, r.1.hasChannel k = true →
      Meets (fun r' => KeysKept api r.1 r'.1) NothingMissing (f r k)) (a : α) :
    Meets (fun r : ChannelManager Ch Gr Al × α => KeysKept api s r.1) NothingMissing
      (ks.foldlM f (s, a)) := by
  refine Meets.foldlM (fun r : ChannelManager Ch Gr Al × α => KeysKept api s r.1) ?_ (.refl s)
  intro r hr k hk
  have hfound : r.1.hasChannel k = true := by
    rw [hr.channels]
    exact hmembers k hk
  exact (hf r k hfound).mono fun r' hr' => hr.trans hr'

theorem memberJob_kept (m : NewExtendedMiningJob)
    (r : ChannelManager Ch Gr Al × List NewExtendedMiningJob) (k : ChannelId)
    (h : r.1.hasChannel k = true) :
    Meets (fun r' => KeysKept api r.1 r'.1) NothingMissing (memberJob api m r k) := by
  unfold memberJob
  refine (member_meets h).bind ?_
  intro c hc
  refine (Meets.orThrow fun _ => ⟨nofun, nofun⟩).bind ?_
  intro c' _
  exact .pure (.setChannel h c')

theorem memberPrevHash_kept (m : SetNewPrevHash)
    (r : ChannelManager Ch Gr Al × List SetNewPrevHash × List NewExtendedMiningJob) (k : ChannelId)
    (h : r.1.hasChannel k = true) :
    Meets (fun r' => KeysKept api r.1 r'.1) NothingMissing (memberPrevHash api m r k) := by
  unfold memberPrevHash
  refine (member_meets h).bind ?_
  intro c hc
  refine (Meets.orThrow fun _ => ⟨nofun, nofun⟩).bind ?_
  intro c' _
  refine (Meets.orThrow fun _ => ⟨nofun, nofun⟩).bind ?_
  intro job _
  exact .pure (.setChannel h c')

theorem memberTarget_kept (target : Target) {k : ChannelId} (h : s.hasChannel k = true) :
    Meets (KeysKept api s) NothingMissing (memberTarget api target s k) := by
  unfold memberTarget
  refine (member_meets h).bind ?_
  intro c hc
  refine (Meets.orThrow fun _ => ⟨nofun, nofun⟩).bind ?_
  intro c' _
  exact .pure (.setChannel h c')

/-! ## Channels that come and go -/

/-- A new channel joins a group. -/
theorem GroupsConsistent.opened (h : GroupsConsistent api s) {k g : ChannelId}
    (ks : List ChannelId) (hk : k ≠ aggregatedChannelId) (hg : g ≠ aggregatedChannelId)
    (hkg : k ≠ g) (hnew : s.hasChannel k = false) (hgroup : s.hasChannel g = false)
    (hnoGroup : groupMembers api s k = none)
    (hks : ∀ j, j ∈ ks ↔ j = k ∨ ∃ js, groupMembers api s g = some js ∧ j ∈ js)
    (hchannels : ∀ j, s'.hasChannel j = (decide (j = k) || s.hasChannel j))
    (hgroups : ∀ j, groupMembers api s' j = if j = g then some ks else groupMembers api s j)
    (hadvertised : ∀ j, s'.hasAdvertised j = (decide (j = k) || s.hasAdvertised j)) :
    GroupsConsistent api s' := by
  -- the members of a group of the new state are old ones, apart from the new channel
  have hold : ∀ j js, groupMembers api s' j = some js → ∀ i ∈ js, (j = g ∧ i = k) ∨
      ∃ is, groupMembers api s j = some is ∧ i ∈ is := by
    intro j js hj i hi
    rw [hgroups] at hj
    split at hj
    next hjg =>
      cases hj
      rcases (hks i).mp hi with rfl | ⟨is, his, hmem⟩
      · exact Or.inl ⟨hjg, rfl⟩
      · exact Or.inr ⟨is, by rw [hjg]; exact his, hmem⟩
    · exact Or.inr ⟨js, hj, hi⟩
  have hnotMember : ∀ j js, groupMembers api s j = some js → k ∉ js := by
    intro j js hj hmem
    rw [h.members j js hj k hmem] at hnew
    cases hnew
  refine ⟨?_, ?_, ?_, ?_, ?_, ?_⟩
  · rw [hchannels, h.channelReserved]
    simpa using hk.symm
  · rw [hgroups, if_neg hg.symm]
    exact h.groupReserved
  · intro j hj
    rw [hchannels, Bool.or_eq_true, decide_eq_true_eq] at hj
    rw [hgroups, if_neg]
    · rcases hj with rfl | hj
      · exact hnoGroup
      · exact h.disjoint j hj
    · rintro rfl
      rcases hj with hj | hj
      · exact hkg hj.symm
      · rw [hgroup] at hj
        cases hj
  · intro j js hj i hi
    rw [hchannels, Bool.or_eq_true, decide_eq_true_eq]
    rcases hold j js hj i hi with ⟨-, hik⟩ | ⟨is, his, hmem⟩
    · exact Or.inl hik
    · exact Or.inr (h.members j is his i hmem)
  · intro j j' js js' hj hj' i hi hi'
    rcases hold j js hj i hi with ⟨hjg, hik⟩ | ⟨is, his, hmem⟩
    · rcases hold j' js' hj' i hi' with ⟨hjg', -⟩ | ⟨is', his', hmem'⟩
      · rw [hjg, hjg']
      · rw [hik] at hmem'
        exact absurd hmem' (hnotMember j' is' his')
    · rcases hold j' js' hj' i hi' with ⟨-, hik⟩ | ⟨is', his', hmem'⟩
      · rw [hik] at hmem
        exact absurd hmem (hnotMember j is his)
      · exact h.oneGroup j j' is is' his his' i hmem hmem'
  · intro j
    rw [hadvertised, hchannels, h.advertised]

/-- Channels are gone, and so are they from every group that is left. -/
theorem GroupsConsistent.closed (h : GroupsConsistent api s) (gone : ChannelId → Bool)
    (hchannels : ∀ j, s'.hasChannel j = (!gone j && s.hasChannel j))
    (hgroups : ∀ j js, groupMembers api s' j = some js → ∃ is, groupMembers api s j = some is ∧
      ∀ i ∈ js, gone i = false ∧ i ∈ is)
    (hadvertised : ∀ j, s'.hasAdvertised j = (!gone j && s.hasAdvertised j)) :
    GroupsConsistent api s' := by
  have hnone : ∀ j, groupMembers api s j = none → groupMembers api s' j = none := by
    intro j hj
    cases hj' : groupMembers api s' j with
    | none => rfl
    | some js =>
      obtain ⟨is, his, -⟩ := hgroups j js hj'
      rw [hj] at his
      cases his
  refine ⟨?_, hnone _ h.groupReserved, ?_, ?_, ?_, ?_⟩
  · rw [hchannels, h.channelReserved, Bool.and_false]
  · intro k hk
    rw [hchannels, Bool.and_eq_true] at hk
    exact hnone k (h.disjoint k hk.2)
  · intro j js hj i hi
    obtain ⟨is, his, hmem⟩ := hgroups j js hj
    rw [hchannels, (hmem i hi).1, h.members j is his i (hmem i hi).2]
    rfl
  · intro j j' js js' hj hj' i hi hi'
    obtain ⟨is, his, hmem⟩ := hgroups j js hj
    obtain ⟨is', his', hmem'⟩ := hgroups j' js' hj'
    exact h.oneGroup j j' is is' his his' i (hmem i hi).2 (hmem' i hi').2
  · intro k
    rw [hadvertised, hchannels, h.advertised]

theorem groupMembers_leaveGroups (hapi : api.Lawful) (k : ChannelId) {j : ChannelId}
    {js : List ChannelId} (h : groupMembers api (leaveGroups api s k) j = some js) :
    ∃ is, groupMembers api s j = some is ∧ ∀ i ∈ js, i ≠ k ∧ i ∈ is := by
  simp only [groupMembers, leaveGroups, KeyMap.lookup_mapValues, Option.map_map,
    Option.map_eq_some_iff] at h
  obtain ⟨group, hgroup, rfl⟩ := h
  refine ⟨api.getChannelIds group, by rw [groupMembers, hgroup]; rfl, ?_⟩
  intro i hi
  simp only [Function.comp_apply] at hi
  split at hi
  · exact (hapi.removeChannelId_ids group k i).mp hi
  next hk =>
    refine ⟨?_, hi⟩
    rintro rfl
    exact hk hi

theorem lookup_foldl_erase {V : Type} (ks : List ChannelId) (m : KeyMap ChannelId V)
    (j : ChannelId) :
    (ks.foldl (fun m k => m.erase k) m).lookup j = if j ∈ ks then none else m.lookup j := by
  induction ks generalizing m with
  | nil => simp
  | cons k ks ih =>
    rw [List.foldl_cons, ih, KeyMap.lookup_erase_eq]
    by_cases hj : j ∈ ks
    · simp [hj]
    · by_cases hk : j = k
      · simp [hk]
      · simp [hj, hk]

theorem hasChannel_dropChannel (k j : ChannelId) :
    (dropChannel api s k).hasChannel j = (!decide (j = k) && s.hasChannel j) := by
  unfold dropChannel
  split
  · simp only [hasChannel, KeyMap.lookup_erase_eq]
    by_cases hj : j = k <;> simp [hj]
  next hnone =>
    by_cases hj : j = k
    · subst hj
      simp [hasChannel, hnone]
    · simp [hj]

/-- Closing several channels towards the `Sv1Server` only forgets what their miners were told. -/
theorem foldl_forwardClose (ks : List ChannelId) (s : ChannelManager Ch Gr Al) :
    (ks.foldl forwardClose s).extendedChannels = s.extendedChannels ∧
    (ks.foldl forwardClose s).groupChannels = s.groupChannels ∧
    (ks.foldl forwardClose s).sv1AdvertisedExtranoncePrefixes =
      ks.foldl (fun m k => m.erase k) s.sv1AdvertisedExtranoncePrefixes := by
  induction ks generalizing s with
  | nil => exact ⟨rfl, rfl, rfl⟩
  | cons k ks ih => exact ih (s.forwardClose k)

theorem groupMembers_regroup (hapi : api.Lawful) (ks : List ChannelId) {g : ChannelId}
    {group : Gr} (h : (regroup api s ks).lookup g = some group) :
    ∃ is, groupMembers api s g = some is ∧
      ∀ i ∈ api.getChannelIds group, i ∉ ks ∧ i ∈ is := by
  have hremoved : ∀ (ks : List ChannelId) (group : Gr) (i : ChannelId),
      i ∈ api.getChannelIds (ks.foldl api.removeChannelId group) → i ∉ ks ∧
        i ∈ api.getChannelIds group := by
    intro ks
    induction ks with
    | nil =>
      intro group i hi
      exact ⟨by simp, hi⟩
    | cons k ks ih =>
      intro group i hi
      obtain ⟨hks, hmem⟩ := ih _ i hi
      obtain ⟨hk, hmem⟩ := (hapi.removeChannelId_ids group k i).mp hmem
      exact ⟨by simp [hk, hks], hmem⟩
  have hlookup := KeyMap.lookup_retain_some h
  rw [KeyMap.lookup_mapValues, Option.map_eq_some_iff] at hlookup
  obtain ⟨old, hold, rfl⟩ := hlookup
  refine ⟨api.getChannelIds old, by rw [groupMembers, hold]; rfl, ?_⟩
  intro i hi
  exact hremoved ks old i hi

/-- The members of the group that replaces the old one are checked to be channels. -/
theorem addMember_meets (hapi : api.Lawful) (done : List ChannelId) {ks : List ChannelId} {group : Gr}
    (hgroup : ∀ j, j ∈ api.getChannelIds group ↔ j ∈ done)
    (hdone : ∀ j ∈ done, s.hasChannel j = true) :
    Meets (fun group' => (∀ j, j ∈ api.getChannelIds group' ↔ j ∈ done ∨ j ∈ ks) ∧
        ∀ j, j ∈ done ∨ j ∈ ks → s.hasChannel j = true) NothingMissing
      (ks.foldlM (addMember api s none) group) := by
  induction ks generalizing done group with
  | nil =>
    refine .pure ⟨?_, ?_⟩
    · intro j
      simpa using hgroup j
    · intro j hj
      exact hdone j (by simpa using hj)
  | cons k ks ih =>
    rw [List.foldlM_cons]
    have hstep : Meets (fun group' => (∀ j, j ∈ api.getChannelIds group' ↔ j ∈ k :: done) ∧
        s.hasChannel k = true) NothingMissing (addMember api s none group k) := by
      unfold addMember memberSize
      refine (Meets.require fun _ => ⟨nofun, nofun⟩).bind ?_
      intro _ _
      refine (Meets.orThrow fun _ => ⟨nofun, nofun⟩).bind ?_
      intro size hsize
      refine (Meets.orThrow fun _ => ⟨nofun, nofun⟩).mono ?_
      intro group' hadded
      obtain ⟨c, hc, -⟩ := Option.map_eq_some_iff.mp hsize
      refine ⟨?_, hasChannel_of_lookup hc⟩
      intro j
      rw [hapi.addChannelId_ids hadded, hgroup, List.mem_cons]
    refine hstep.bind ?_
    rintro group' ⟨hgroup', hk⟩
    refine (ih (k :: done) hgroup' ?_).mono ?_
    · intro j hj
      rcases List.mem_cons.mp hj with rfl | hj
      · exact hk
      · exact hdone j hj
    · rintro group'' ⟨hmem, hfound⟩
      have hswap : ∀ j, (j ∈ k :: done ∨ j ∈ ks) ↔ (j ∈ done ∨ j ∈ k :: ks) := by
        intro j
        simp only [List.mem_cons]
        tauto
      refine ⟨?_, ?_⟩
      · intro j
        rw [hmem, hswap]
      · intro j hj
        exact hfound j ((hswap j).mpr hj)

theorem openNonAggregated_opens (m : OpenExtendedMiningChannelSuccess) (pending : PendingChannel) :
    Meets (fun r => (∃ c, r.1 = s.setChannel m.channelId c) ∧ r.2.channelId = m.channelId)
      NothingMissing (openNonAggregated api cfg s m pending) := by
  unfold openNonAggregated
  refine (Meets.require fun _ => ⟨nofun, nofun⟩).bind ?_
  intro _ _
  refine Meets.bind (P := fun _ => True) ?_ ?_
  · unfold nonAggregatedPrefix buildAllocator
    split
    · exact (Meets.orThrow fun _ => ⟨nofun, nofun⟩).mono fun _ _ => trivial
    · refine (Meets.require fun _ => ⟨nofun, nofun⟩).bind ?_
      intro _ _
      refine Meets.bind (P := fun _ => True) ?_ ?_
      · refine (Meets.orThrow fun _ => ⟨nofun, nofun⟩).bind ?_
        intro _ _
        exact (Meets.orThrow fun _ => ⟨nofun, nofun⟩).mono fun _ _ => trivial
      · rintro ⟨allocator, extranoncePrefix⟩ _
        exact .pure trivial
  intro downstreamPrefix _
  refine (Meets.orThrow fun _ => ⟨nofun, nofun⟩).bind ?_
  intro c _
  refine (Meets.orThrow fun _ => ⟨nofun, nofun⟩).bind ?_
  intro extranoncePrefix _
  exact .pure ⟨⟨c, rfl⟩, rfl⟩

section NonAggregated

variable (hmode : cfg.mode = .nonAggregated)
include hmode

theorem handleSetExtranoncePrefix_kept (channelId : ChannelId) (b : B032) :
    Meets (KeysKept api s) NothingMissing (handleSetExtranoncePrefix api cfg s channelId b) := by
  simp only [handleSetExtranoncePrefix, hmode]
  refine (Meets.orThrow fun _ => ⟨nofun, nofun⟩).bind ?_
  intro c hc
  refine (Meets.orThrow fun _ => ⟨nofun, nofun⟩).bind ?_
  intro c' _
  exact .pure (.setChannel (hasChannel_of_lookup hc) c')

theorem handleNewExtendedMiningJob_kept (hapi : api.Lawful) (h : GroupsConsistent api s)
    (m : NewExtendedMiningJob) :
    Meets (KeysKept api s) NothingMissing (handleNewExtendedMiningJob api cfg s m) := by
  simp only [handleNewExtendedMiningJob, hmode]
  refine (Meets.require fun _ => ⟨nofun, nofun⟩).bind ?_
  intro _ _
  split
  next group hgroup =>
    have hmembers : groupMembers api s m.channelId = some (api.getChannelIds group) := by
      rw [groupMembers, hgroup]
      rfl
    refine (Meets.orThrow fun _ => ⟨nofun, nofun⟩).bind ?_
    intro size _
    refine (Meets.require fun _ => ⟨nofun, nofun⟩).bind ?_
    intro _ _
    have hgroups : KeysKept api s { s with
        groupChannels := s.groupChannels.insert m.channelId (api.onGroupJob group m) } :=
      .setGroup (by rw [hapi.groupJob_ids]; exact hmembers)
    refine (members_kept ?_ (memberJob_kept m) []).bind ?_
    · intro k hk
      rw [hapi.groupJob_ids] at hk
      exact h.members _ _ hmembers k hk
    · rintro ⟨s₁, messages⟩ hs₁
      have hkept := hgroups.trans hs₁
      exact (forwardJobs_kept (h.of_kept hkept) messages).mono fun s₂ hs₂ => hkept.trans hs₂
  · refine (Meets.orThrow fun _ => ⟨nofun, nofun⟩).bind ?_
    intro c hc
    refine (Meets.require fun _ => ⟨nofun, nofun⟩).bind ?_
    intro _ _
    refine (Meets.orThrow fun _ => ⟨nofun, nofun⟩).bind ?_
    intro c' _
    have hkept : KeysKept api s (s.setChannel m.channelId c') :=
      .setChannel (hasChannel_of_lookup hc) c'
    split
    · exact .pure hkept
    · exact (forwardJob_kept (h.of_kept hkept) m).mono fun s₂ hs₂ => hkept.trans hs₂

theorem handleSetNewPrevHash_kept (hapi : api.Lawful) (h : GroupsConsistent api s)
    (m : SetNewPrevHash) :
    Meets (KeysKept api s) NothingMissing (handleSetNewPrevHash api cfg s m) := by
  simp only [handleSetNewPrevHash, hmode]
  split
  next group hgroup =>
    have hmembers : groupMembers api s m.channelId = some (api.getChannelIds group) := by
      rw [groupMembers, hgroup]
      rfl
    refine (Meets.orThrow fun _ => ⟨nofun, nofun⟩).bind ?_
    intro group' hgroup'
    have hids := hapi.groupPrevHash_ids hgroup'
    have hgroups : KeysKept api s { s with
        groupChannels := s.groupChannels.insert m.channelId group' } :=
      .setGroup (by rw [hids]; exact hmembers)
    refine (members_kept ?_ (memberPrevHash_kept m) ([], [])).bind ?_
    · intro k hk
      rw [hids] at hk
      exact h.members _ _ hmembers k hk
    · rintro ⟨s₁, prevHashes, jobs⟩ hs₁
      have hkept := hgroups.trans hs₁
      exact (forwardPrevHashes_kept (h.of_kept hkept) prevHashes jobs).mono
        fun s₂ hs₂ => hkept.trans hs₂
  · refine (Meets.orThrow fun _ => ⟨nofun, nofun⟩).bind ?_
    intro c hc
    refine (Meets.orThrow fun _ => ⟨nofun, nofun⟩).bind ?_
    intro c' _
    refine (Meets.orThrow fun _ => ⟨nofun, nofun⟩).bind ?_
    intro job _
    have hkept : KeysKept api s (s.setChannel m.channelId c') :=
      .setChannel (hasChannel_of_lookup hc) c'
    exact (forwardPrevHashes_kept (h.of_kept hkept) [m] [job]).mono
      fun s₂ hs₂ => hkept.trans hs₂

theorem handleSetTarget_kept (h : GroupsConsistent api s) (channelId : ChannelId)
    (target : Target) :
    Meets (KeysKept api s) NothingMissing (handleSetTarget api cfg s channelId target) := by
  simp only [handleSetTarget, hmode]
  split
  next group hgroup =>
    have hmembers : groupMembers api s channelId = some (api.getChannelIds group) := by
      rw [groupMembers, hgroup]
      rfl
    refine (Meets.foldlM (KeysKept api s) ?_ (.refl s)).bind ?_
    · intro s₁ hs₁ k hk
      have hfound : s₁.hasChannel k = true := by
        rw [hs₁.channels]
        exact h.members _ _ hmembers k hk
      exact (memberTarget_kept target hfound).mono fun s₂ hs₂ => hs₁.trans hs₂
    · intro s₁ hs₁
      exact .pure (hs₁.trans (.sendAll _ _ s₁))
  · refine (Meets.orThrow fun _ => ⟨nofun, nofun⟩).bind ?_
    intro c hc
    refine (Meets.orThrow fun _ => ⟨nofun, nofun⟩).bind ?_
    intro c' _
    exact .pure ((KeysKept.setChannel (hasChannel_of_lookup hc) c').trans (.sendSv1 _ _))

theorem handleSubmitSharesExtended_kept (m : SubmitSharesExtended) :
    Meets (KeysKept api s) NothingMissing (handleSubmitSharesExtended api cfg s m) := by
  simp only [handleSubmitSharesExtended, hmode]
  split
  · exact .pure (.refl s)
  next c hc =>
    have hkept : KeysKept api s (s.setChannel m.channelId (api.validateShare c m).2) :=
      .setChannel (hasChannel_of_lookup hc) _
    split
    · unfold rewriteExtranonce
      refine Meets.bind (P := fun _ => True) ?_ ?_
      · refine (Meets.require fun _ => ⟨nofun, nofun⟩).bind ?_
        intro _ _
        exact (Meets.orThrow fun _ => ⟨nofun, nofun⟩).mono fun _ _ => trivial
      · intro extranonce _
        exact .pure ⟨hkept.channels, hkept.groups, hkept.advertised⟩
    · exact .pure hkept

/-- Ids that do not collide. -/
theorem collidingChannelId_none {k g : ChannelId} (h : s.collidingChannelId cfg k g = none) :
    k ≠ aggregatedChannelId ∧ g ≠ aggregatedChannelId ∧ k ≠ g ∧ s.hasChannel k = false ∧
      s.hasChannel g = false ∧ s.groupChannels.lookup k = none := by
  simp only [collidingChannelId, hmode, true_and] at h
  split at h
  · cases h
  next hreserved =>
    split at h
    · cases h
    next hgroup =>
      split at h
      · cases h
      next hchannel =>
        rw [not_or] at hreserved hchannel
        rw [not_or] at hchannel
        refine ⟨hreserved.1, hreserved.2, hchannel.1, ?_, ?_, ?_⟩
        · simpa [hasChannel] using hchannel.2.1
        · simpa [hasChannel] using hgroup
        · simpa using hchannel.2.2

theorem handleOpenSuccess_consistent (hapi : api.Lawful) (h : GroupsConsistent api s)
    (m : OpenExtendedMiningChannelSuccess) :
    Meets (GroupsConsistent api) NothingMissing
      (handleOpenExtendedMiningChannelSuccess api cfg s m) := by
  simp only [handleOpenExtendedMiningChannelSuccess, hmode]
  refine (Meets.orThrow fun _ => ⟨nofun, nofun⟩).bind ?_
  intro pending _
  split
  · exact .throw ⟨nofun, nofun⟩
  next hcolliding =>
    obtain ⟨hk, hg, hkg, hnew, hgroup, hnoGroup⟩ := collidingChannelId_none hmode hcolliding
    unfold joinGroup
    simp only [bind_assoc, pure_bind]
    refine (Meets.orThrow fun _ => ⟨nofun, nofun⟩).bind ?_
    intro group hadded
    refine (openNonAggregated_opens m pending).bind ?_
    rintro ⟨s₁, success⟩ ⟨⟨c, rfl⟩, hid⟩
    refine .pure ?_
    refine h.opened (api.getChannelIds group) hk hg hkg hnew hgroup ?_ ?_ ?_ ?_ ?_
    · rw [groupMembers, hnoGroup]
      rfl
    · intro j
      rw [hapi.addChannelId_ids hadded]
      cases hlookup : s.groupChannels.lookup m.groupChannelId with
      | none =>
        simp only [Option.getD_none, hapi.newGroup_ids, groupMembers, hlookup, Option.map_none]
        simp
      | some old =>
        simp only [Option.getD_some, groupMembers, hlookup, Option.map_some]
        simp
    · intro j
      simp only [hasChannel, publishOpenSuccess, sendSv1, setChannel, KeyMap.lookup_insert_eq]
      by_cases hj : j = m.channelId <;> simp [hj]
    · intro j
      simp only [groupMembers, publishOpenSuccess, sendSv1, setChannel, KeyMap.lookup_insert_eq]
      by_cases hj : j = m.groupChannelId <;> simp [hj]
    · intro j
      simp only [hasAdvertised, publishOpenSuccess, sendSv1, setChannel, KeyMap.lookup_insert_eq]
      rw [show success.channelId = m.channelId from hid]
      by_cases hj : j = m.channelId <;> simp [hj]

theorem handleCloseChannel_consistent (hapi : api.Lawful) (h : GroupsConsistent api s)
    (k : ChannelId) :
    Meets (GroupsConsistent api) NothingMissing (handleCloseChannel api cfg s k) := by
  unfold handleCloseChannel
  rw [if_neg (by rw [hmode]; decide)]
  split
  next group hgroup =>
    -- the group goes with all its members, which no other group has
    have hmembers : groupMembers api s k = some (api.getChannelIds group) := by
      rw [groupMembers, hgroup]
      rfl
    obtain ⟨hchannels, hgroups, hadvertised⟩ := foldl_forwardClose (api.getChannelIds group)
      { s with
        groupChannels := s.groupChannels.erase k
        extendedChannels := (api.getChannelIds group).foldl (fun m j => m.erase j)
          s.extendedChannels }
    refine h.closed (fun j => decide (j ∈ api.getChannelIds group)) ?_ ?_ ?_
    · intro j
      rw [hasChannel, hchannels, lookup_foldl_erase, hasChannel]
      by_cases hj : j ∈ api.getChannelIds group <;> simp [hj]
    · intro j js hj
      rw [groupMembers, hgroups, KeyMap.lookup_erase_eq] at hj
      split at hj
      · cases hj
      next hjk =>
        refine ⟨js, hj, ?_⟩
        intro i hi
        refine ⟨?_, hi⟩
        rw [decide_eq_false_iff_not]
        intro hmem
        exact hjk (h.oneGroup j k js _ hj hmembers i hi hmem)
    · intro j
      rw [hasAdvertised, hadvertised, lookup_foldl_erase, hasAdvertised]
      by_cases hj : j ∈ api.getChannelIds group <;> simp [hj]
  next hgroup =>
    split
    · refine h.closed (fun j => decide (j = k)) ?_ ?_ ?_
      · intro j
        simp only [hasChannel, forwardClose, sendSv1, leaveGroups, KeyMap.lookup_erase_eq]
        by_cases hj : j = k <;> simp [hj]
      · intro j js hj
        obtain ⟨is, his, hmem⟩ := groupMembers_leaveGroups hapi k hj
        refine ⟨is, his, ?_⟩
        intro i hi
        exact ⟨by simpa using (hmem i hi).1, (hmem i hi).2⟩
      · intro j
        simp only [hasAdvertised, forwardClose, sendSv1, leaveGroups, KeyMap.lookup_erase_eq]
        by_cases hj : j = k <;> simp [hj]
    · exact ⟨nofun, nofun⟩

theorem handleCloseDownstreamChannel_consistent (hapi : api.Lawful) (h : GroupsConsistent api s)
    (k : ChannelId) : GroupsConsistent api (handleCloseDownstreamChannel api cfg s k) := by
  unfold handleCloseDownstreamChannel
  rw [if_neg (by rw [hmode]; simp), if_neg (by rw [hmode]; decide)]
  have hgroups : (dropChannel api s k).groupChannels = s.groupChannels := by
    unfold dropChannel
    split <;> rfl
  have hadvertised : (dropChannel api s k).sv1AdvertisedExtranoncePrefixes =
      s.sv1AdvertisedExtranoncePrefixes := by
    unfold dropChannel
    split <;> rfl
  refine h.closed (fun j => decide (j = k)) (hasChannel_dropChannel k) ?_ ?_
  · intro j js hj
    obtain ⟨is, his, hmem⟩ := groupMembers_leaveGroups hapi k hj
    refine ⟨is, ?_, ?_⟩
    · simp only [groupMembers, hgroups] at his
      exact his
    · intro i hi
      exact ⟨by simpa using (hmem i hi).1, (hmem i hi).2⟩
  · intro j
    simp only [hasAdvertised, sendUpstream, leaveGroups, hadvertised, KeyMap.lookup_erase_eq]
    by_cases hj : j = k <;> simp [hj]

theorem handleSetGroupChannel_consistent (hapi : api.Lawful) (h : GroupsConsistent api s)
    (g : ChannelId) (ks : List ChannelId) :
    Meets (GroupsConsistent api) NothingMissing
      (result (handleSetGroupChannel api cfg g ks) s) := by
  rw [result_handleSetGroupChannel]
  simp only [replacement, groupedAggregate, hmode, bind_assoc, pure_bind]
  refine (Meets.require fun _ => ⟨nofun, nofun⟩).bind ?_
  intro _ hreserved
  refine (Meets.require fun _ => ⟨nofun, nofun⟩).bind ?_
  intro _ hfree
  refine (addMember_meets hapi [] ?_ (by simp)).bind ?_
  · intro j
    rw [hapi.newGroup_ids]
  rintro group ⟨hgroup, hfound⟩
  refine .pure ?_
  generalize hs' : replaceGroup api g ks group s = s'
  have hchannels : ∀ k, s'.hasChannel k = s.hasChannel k := by
    intro k
    rw [← hs']
    rfl
  have hadvertised : ∀ k, s'.hasAdvertised k = s.hasAdvertised k := by
    intro k
    rw [← hs']
    rfl
  -- a group is the new one, or an old one without the channels that have moved
  have hgroups : ∀ j js, groupMembers api s' j = some js →
      (j = g ∧ ∀ i ∈ js, i ∈ ks) ∨
      (j ≠ g ∧ ∃ is, groupMembers api s j = some is ∧ ∀ i ∈ js, i ∉ ks ∧ i ∈ is) := by
    intro j js hj
    obtain ⟨old, hold, rfl⟩ := Option.map_eq_some_iff.mp hj
    have hkept : ∀ {group' : Gr}, ((regroup api s ks).erase g).lookup j = some group' → j ≠ g ∧
        ∃ is, groupMembers api s j = some is ∧
          ∀ i ∈ api.getChannelIds group', i ∉ ks ∧ i ∈ is := by
      intro group' hlookup
      rw [KeyMap.lookup_erase_eq] at hlookup
      split at hlookup
      · cases hlookup
      next hjg => exact ⟨hjg, groupMembers_regroup hapi ks hlookup⟩
    rw [← hs'] at hold
    dsimp only [replaceGroup, setGroups] at hold
    split at hold
    · exact Or.inr (hkept hold)
    · rw [KeyMap.lookup_insert_eq] at hold
      split at hold
      next hjg =>
        cases hold
        refine Or.inl ⟨hjg, ?_⟩
        intro i hi
        simpa using (hgroup i).mp hi
      · exact Or.inr (hkept hold)
  refine ⟨?_, ?_, ?_, ?_, ?_, ?_⟩
  · rw [hchannels]
    exact h.channelReserved
  · cases hreserve : groupMembers api s' aggregatedChannelId with
    | none => rfl
    | some js =>
      rcases hgroups _ js hreserve with ⟨heq, -⟩ | ⟨-, is, his, -⟩
      · exact absurd heq.symm (by simpa using hreserved)
      · rw [h.groupReserved] at his
        cases his
  · intro k hk
    rw [hchannels] at hk
    cases hgroupk : groupMembers api s' k with
    | none => rfl
    | some js =>
      rcases hgroups k js hgroupk with ⟨rfl, -⟩ | ⟨-, is, his, -⟩
      · rw [hasChannel, Option.isSome_iff_ne_none] at hk
        exact absurd (by simpa using hfree) hk
      · rw [h.disjoint k hk] at his
        cases his
  · intro j js hj i hi
    rw [hchannels]
    rcases hgroups j js hj with ⟨-, hmem⟩ | ⟨-, is, his, hmem⟩
    · exact hfound i (Or.inr (hmem i hi))
    · exact h.members j is his i (hmem i hi).2
  · intro j j' js js' hj hj' i hi hi'
    rcases hgroups j js hj with ⟨rfl, hmem⟩ | ⟨-, is, his, hmem⟩
    · rcases hgroups j' js' hj' with ⟨rfl, -⟩ | ⟨-, is', his', hmem'⟩
      · rfl
      · exact absurd (hmem i hi) (hmem' i hi').1
    · rcases hgroups j' js' hj' with ⟨rfl, hmem'⟩ | ⟨-, is', his', hmem'⟩
      · exact absurd (hmem' i hi') (hmem i hi).1
      · exact h.oneGroup j j' is is' his his' i (hmem i hi).2 (hmem' i hi').2
  · intro k
    rw [hadvertised, hchannels]
    exact h.advertised k

/-! ## Runs -/

theorem handle_consistent (hapi : api.Lawful) (h : GroupsConsistent api s) (e : Event) :
    Meets (GroupsConsistent api) NothingMissing (handle api cfg s e) := by
  have hkept : ∀ {x : Except TproxyError (ChannelManager Ch Gr Al)},
      Meets (KeysKept api s) NothingMissing x → Meets (GroupsConsistent api) NothingMissing x :=
    fun hx => hx.mono fun s' hs' => h.of_kept hs'
  cases e with
  | openExtendedMiningChannelSuccess m => exact handleOpenSuccess_consistent hmode hapi h m
  | openMiningChannelError => exact .throw ⟨nofun, nofun⟩
  | closeChannel k => exact handleCloseChannel_consistent hmode hapi h k
  | setExtranoncePrefix k b => exact hkept (handleSetExtranoncePrefix_kept hmode k b)
  | newExtendedMiningJob m => exact hkept (handleNewExtendedMiningJob_kept hmode hapi h m)
  | setNewPrevHash m => exact hkept (handleSetNewPrevHash_kept hmode hapi h m)
  | setTarget k target => exact hkept (handleSetTarget_kept hmode h k target)
  | setGroupChannel g ks => exact handleSetGroupChannel_consistent hmode hapi h g ks
  | openExtendedMiningChannel m =>
    simp only [handle, handleOpenExtendedMiningChannel, hmode]
    exact .pure (h.of_kept ⟨fun _ => rfl, fun _ => rfl, fun _ => rfl⟩)
  | submitSharesExtended m => exact hkept (handleSubmitSharesExtended_kept hmode m)
  | closeDownstreamChannel k => exact handleCloseDownstreamChannel_consistent hmode hapi h k

theorem step_consistent (hapi : api.Lawful) (h : GroupsConsistent api s) (a : Action) :
    GroupsConsistent api (step api cfg s a) := by
  cases a with
  | event e =>
    rw [step_event]
    split
    · exact h
    split
    next s' hs' => exact (handle_consistent hmode hapi h e).ok hs'
    next err herr =>
      unfold fail
      split
      · exact h
      · exact ⟨h.channelReserved, h.groupReserved, h.disjoint, h.members, h.oneGroup, h.advertised⟩
  | touchChannel k =>
    refine h.of_kept ⟨?_, fun _ => rfl, fun _ => rfl⟩
    intro j
    simp only [step, hasChannel, KeyMap.lookup_modify_id]
  | touchPending k => exact h.of_kept ⟨fun _ => rfl, fun _ => rfl, fun _ => rfl⟩
  | touchGroup k =>
    refine h.of_kept ⟨fun _ => rfl, ?_, fun _ => rfl⟩
    intro j
    simp only [step, groupMembers, KeyMap.lookup_modify_id]

end NonAggregated

/-- In every state that the manager reaches without aggregation, channels, groups and advertised
    prefixes are consistent, and whatever message comes next: no handler looks for a member of a
    group, or for the prefix that a miner was told, in vain. -/
theorem channels_and_groups_consistent (hapi : api.Lawful) (hmode : cfg.mode = .nonAggregated)
    (as : List Action) :
    let s := after api cfg as
    GroupsConsistent api s ∧ ∀ e err, handle api cfg s e = .error err → NothingMissing err := by
  intro s
  have hinv : GroupsConsistent api s := Runs.run_invariant (GroupsConsistent api)
    (fun s a h => step_consistent hmode hapi h a) groupsConsistent_start as
  refine ⟨hinv, ?_⟩
  intro e err herr
  exact (handle_consistent hmode hapi hinv e).error herr

/-- Two channels of one group; one of them moves to a group of its own, and the group of the other
    one is closed. -/
def regroupedRun : List Action :=
  [sampleRequest 1, sampleRequest 2, sampleGrant 1 5 7 samplePrefix,
   sampleGrant 2 6 7 ⟨[2], by decide⟩, .event (.setGroupChannel 8 [6]), .event (.closeChannel 7)]

theorem channels_and_groups_consistent_regrouped :
    let s := after referenceChannels (sampleConfig .nonAggregated) regroupedRun
    s.hasChannel 5 = false ∧ groupMembers referenceChannels s 8 = some [6] ∧
      GroupsConsistent referenceChannels s :=
  ⟨by decide +kernel, by decide +kernel, (channels_and_groups_consistent referenceChannels_lawful rfl
    regroupedRun).1⟩

end ChannelManager

end Sv2Apps.Translator
