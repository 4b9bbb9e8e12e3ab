/-
  Translator/GroupReplacement.lean
  ================================
  **`SetGroupChannel`** — the handler checks the whole replacement before it changes a group
  (`handleSetGroupChannel_checked`), so that an error leaves `group_channels` as it was, and
  afterwards exactly the listed channels are in the group, in either mode
  (`setGroupChannel_replaces`).
-/
import Sv2Apps.Translator.GroupMembership

namespace Sv2Apps.Translator

open Fallible

namespace ChannelManager

variable {Ch Gr Al : Type} {api : ClientChannels Ch Gr Al} {cfg : Config}
  {s s' : ChannelManager Ch Gr Al} {g : ChannelId} {ks : List ChannelId}

/-- The group exists and the channel is one of its members. -/
def InGroup (api : ClientChannels Ch Gr Al) (s : ChannelManager Ch Gr Al) (g k : ChannelId) : Prop :=
  ∃ js, groupMembers api s g = some js ∧ k ∈ js

/-- The group `g` has been replaced by one of the listed channels. -/
structure Regrouped (api : ClientChannels Ch Gr Al) (s s' : ChannelManager Ch Gr Al)
    (g : ChannelId) (ks : List ChannelId) : Prop where
  listed : ∀ k ∈ ks, ∀ j, InGroup api s' j k ↔ j = g
  only : ∀ k, InGroup api s' g k → k ∈ ks
  unlisted : ∀ k, k ∉ ks → ¬InGroup api s g k → ∀ j, InGroup api s' j k ↔ InGroup api s j k
  others : ∀ j, j ≠ g → ∀ k, InGroup api s' j k ↔ k ∉ ks ∧ InGroup api s j k
  noneEmpty : ∀ j js, groupMembers api s' j = some js → js ≠ []

/-- The replacement has the listed members, whatever they are checked against. -/
theorem replacement_ids (hapi : api.Lawful) (aggregate : Option Ch) (group : Gr) :
    Meets (fun group' => ∀ j, j ∈ api.getChannelIds group' ↔ j ∈ ks ∨ j ∈ api.getChannelIds group)
      (fun _ => True) (ks.foldlM (addMember api s aggregate) group) := by
  induction ks generalizing group with
  | nil =>
    refine .pure ?_
    intro j
    simp
  | cons k ks ih =>
    rw [List.foldlM_cons]
    have hstep : Meets (fun group' => ∀ j, j ∈ api.getChannelIds group' ↔
        j = k ∨ j ∈ api.getChannelIds group) (fun _ => True)
        (addMember api s aggregate group k) := by
      unfold addMember
      refine (Meets.require fun _ => trivial).bind ?_
      intro _ _
      refine Meets.bind (P := fun _ => True) .any ?_
      intro size _
      refine (Meets.orThrow fun _ => trivial).mono ?_
      intro group' hadded
      exact hapi.addChannelId_ids hadded
    refine hstep.bind ?_
    intro group' hgroup'
    refine (ih group').mono ?_
    intro group'' hgroup'' j
    rw [hgroup'', hgroup', List.mem_cons]
    tauto

/-- What removing the listed channels leaves of a group. -/
theorem removeListed_ids (hapi : api.Lawful) (group : Gr) (j : ChannelId) :
    j ∈ api.getChannelIds (ks.foldl api.removeChannelId group) ↔
      j ∉ ks ∧ j ∈ api.getChannelIds group := by
  induction ks generalizing group with
  | nil => simp
  | cons k ks ih =>
    rw [List.foldl_cons, ih, hapi.removeChannelId_ids, List.mem_cons]
    tauto

/-- The members of the groups once the listed channels have left. -/
theorem regroup_lookup (hapi : api.Lawful) (j k : ChannelId) :
    (∃ group, (regroup api s ks).lookup j = some group ∧ k ∈ api.getChannelIds group) ↔
      k ∉ ks ∧ InGroup api s j k := by
  constructor
  · rintro ⟨group, hgroup, hk⟩
    obtain ⟨js, hjs, hmem⟩ := groupMembers_regroup hapi ks hgroup
    exact ⟨(hmem k hk).1, js, hjs, (hmem k hk).2⟩
  · rintro ⟨hks, js, hjs, hk⟩
    obtain ⟨old, hold, rfl⟩ := Option.map_eq_some_iff.mp hjs
    have hmem : k ∈ api.getChannelIds (ks.foldl api.removeChannelId old) :=
      (removeListed_ids hapi old k).mpr ⟨hks, hk⟩
    refine ⟨ks.foldl api.removeChannelId old, ?_, hmem⟩
    have hne : api.getChannelIds (ks.foldl api.removeChannelId old) ≠ [] :=
      List.ne_nil_of_mem hmem
    rw [regroup, KeyMap.lookup_retain, KeyMap.lookup_mapValues, hold]
    simp [hne]

theorem regroup_nonempty {j : ChannelId} {group : Gr}
    (h : (regroup api s ks).lookup j = some group) : api.getChannelIds group ≠ [] := by
  rw [regroup, KeyMap.lookup_retain] at h
  have := (Option.filter_eq_some_iff.mp h).2
  simpa using this

/-- The groups after the move: the listed channels are in `g`, the rest is what is left. -/
theorem moved_iff (hapi : api.Lawful) {group : Gr}
    (hgroup : ∀ j, j ∈ api.getChannelIds group ↔ j ∈ ks)
    (hs : s'.groupChannels =
      if ks.isEmpty then (regroup api s ks).erase g
      else ((regroup api s ks).erase g).insert g group) (j k : ChannelId) :
    InGroup api s' j k ↔ if j = g then k ∈ ks else k ∉ ks ∧ InGroup api s j k := by
  have hother : j ≠ g → s'.groupChannels.lookup j = (regroup api s ks).lookup j := by
    intro hj
    rw [hs]
    split
    · rw [KeyMap.lookup_erase_eq, if_neg hj]
    · rw [KeyMap.lookup_insert_eq, if_neg hj, KeyMap.lookup_erase_eq, if_neg hj]
  have hmembers : InGroup api s' j k ↔
      ∃ gr, s'.groupChannels.lookup j = some gr ∧ k ∈ api.getChannelIds gr := by
    constructor
    · rintro ⟨js, hjs, hk⟩
      obtain ⟨gr, hgr, rfl⟩ := Option.map_eq_some_iff.mp hjs
      exact ⟨gr, hgr, hk⟩
    · rintro ⟨gr, hgr, hk⟩
      exact ⟨api.getChannelIds gr, by rw [groupMembers, hgr]; rfl, hk⟩
  rw [hmembers]
  by_cases hj : j = g
  · rw [if_pos hj, hj, hs]
    cases hks : ks.isEmpty with
    | true =>
      rw [List.isEmpty_iff] at hks
      simp [hks]
    | false => simp [hgroup]
  · rw [if_neg hj, hother hj]
    exact regroup_lookup hapi j k

theorem handleSetGroupChannel_regroups (hapi : api.Lawful) :
    Meets (fun s' => Regrouped api s s' g ks) (fun _ => True)
      (result (handleSetGroupChannel api cfg g ks) s) := by
  rw [result_handleSetGroupChannel]
  simp only [replacement, bind_assoc]
  refine (Meets.require fun _ => trivial).bind ?_
  intro _ _
  refine Meets.bind (P := fun _ => True) .any ?_
  intro aggregate _
  refine (replacement_ids hapi aggregate (api.newGroup g)).bind ?_
  intro group hnew
  have hgroup : ∀ j, j ∈ api.getChannelIds group ↔ j ∈ ks := by
    intro j
    rw [hnew, hapi.newGroup_ids]
    simp
  refine .pure ?_
  have hiff : ∀ j k, InGroup api (replaceGroup api g ks group s) j k ↔
      if j = g then k ∈ ks else k ∉ ks ∧ InGroup api s j k := moved_iff hapi hgroup rfl
  refine ⟨?_, ?_, ?_, ?_, ?_⟩
  · intro k hk j
    rw [hiff]
    by_cases hj : j = g <;> simp [hj, hk]
  · intro k hk
    simpa using (hiff g k).mp hk
  · intro k hk hold j
    rw [hiff]
    by_cases hj : j = g
    · rw [if_pos hj, hj]
      exact ⟨fun h => absurd h hk, fun h => absurd h hold⟩
    · rw [if_neg hj]
      exact and_iff_right hk
  · intro j hj k
    rw [hiff, if_neg hj]
  · intro j js hjs
    obtain ⟨gr, hgr, rfl⟩ := Option.map_eq_some_iff.mp hjs
    dsimp only [replaceGroup, setGroups] at hgr
    have hleft : (regroup api s ks).lookup j = some gr → api.getChannelIds gr ≠ [] :=
      regroup_nonempty
    split at hgr
    · exact hleft (KeyMap.lookup_erase_some hgr)
    next hne =>
      rw [KeyMap.lookup_insert_eq] at hgr
      split at hgr
      · cases hgr
        cases ks with
        | nil => exact absurd rfl hne
        | cons k ks => exact List.ne_nil_of_mem ((hgroup k).mpr List.mem_cons_self)
      · exact hleft (KeyMap.lookup_erase_some hgr)

/-- **`SetGroupChannel` is atomic and exact**: in every state that the manager reaches, in either
    mode, an error leaves the groups as they were, and otherwise the listed channels and no others
    are in the group, while the rest of the groups is as before. -/
theorem setGroupChannel_replaces (hapi : api.Lawful) (as : List Action) (g : ChannelId)
    (ks : List ChannelId) :
    let s := after api cfg as
    (∀ err, handle api cfg s (.setGroupChannel g ks) = .error err →
      (afterFailure api cfg s (.setGroupChannel g ks)).groupChannels = s.groupChannels ∧
      (step api cfg s (.event (.setGroupChannel g ks))).groupChannels = s.groupChannels) ∧
    ∀ s', handle api cfg s (.setGroupChannel g ks) = .ok s' → Regrouped api s s' g ks := by
  intro s
  constructor
  · intro err herr
    have hkept : afterFailure api cfg s (.setGroupChannel g ks) = s := afterFailure_eq herr
    refine ⟨by rw [hkept], ?_⟩
    simp only [step, herr, hkept, fail]
    split
    · rfl
    · split <;> rfl
  · intro s' hs'
    exact (handleSetGroupChannel_regroups hapi).ok hs'

/-- Channel 6 moves to group 8; with an unknown channel in the list nothing moves. -/
theorem setGroupChannel_replaces_sample :
    let s := after referenceChannels (sampleConfig .nonAggregated) (regroupedRun.take 4)
    (∃ s', handle referenceChannels (sampleConfig .nonAggregated) s (.setGroupChannel 8 [6]) =
      .ok s' ∧ Regrouped referenceChannels s s' 8 [6]) ∧
    (afterFailure referenceChannels (sampleConfig .nonAggregated) s
      (.setGroupChannel 8 [6, 99])).groupChannels = s.groupChannels := by
  intro s
  constructor
  · have hok : (handle referenceChannels (sampleConfig .nonAggregated) s
        (.setGroupChannel 8 [6])).toOption.isSome = true := by decide +kernel
    cases hs : handle referenceChannels (sampleConfig .nonAggregated) s (.setGroupChannel 8 [6]) with
    | error err =>
      rw [hs] at hok
      cases hok
    | ok s' =>
      exact ⟨s', rfl, (setGroupChannel_replaces referenceChannels_lawful (regroupedRun.take 4)
        8 [6]).2 s' hs⟩
  · have hfails : (handle referenceChannels (sampleConfig .nonAggregated) s
        (.setGroupChannel 8 [6, 99])).toOption.isSome = false := by decide +kernel
    cases hs : handle referenceChannels (sampleConfig .nonAggregated) s
      (.setGroupChannel 8 [6, 99]) with
    | ok s' =>
      rw [hs] at hfails
      cases hfails
    | error err =>
      exact ((setGroupChannel_replaces referenceChannels_lawful (regroupedRun.take 4)
        8 [6, 99]).1 err hs).1

end ChannelManager

end Sv2Apps.Translator
