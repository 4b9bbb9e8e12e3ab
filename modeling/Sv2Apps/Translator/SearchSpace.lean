/-
  Translator/SearchSpace.lean
  ===========================
  **The search space of an aggregated channel** — one upstream channel is divided among the
  miners: the prefix of each miner is the upstream prefix and a local part of its own, the index
  of which is taken from the allocator and given back when the channel is dropped.

  `Shared` ties the four structures together that the handlers update: the channels, the
  allocator, the shared channel and the state of the aggregation.  Handlers that leave all of
  them alone satisfy `SpaceKept`; a channel comes only with a free id (`nextChannelId_free`) and
  with a free index, and a prefix that is not used in the end is released at once.
-/
import Sv2Apps.Translator.GroupMembership

namespace Sv2Apps.Translator

open Bitcoin Fallible

namespace ChannelManager

variable {Ch Gr Al : Type} {api : ClientChannels Ch Gr Al} {cfg : Config}
  {s s' : ChannelManager Ch Gr Al}

/-- The channels of the miners. -/
def downstreamChannelIds (s : ChannelManager Ch Gr Al) : List ChannelId :=
  s.extendedChannels.keys.filter (· ≠ aggregatedChannelId)

/-- The id of a channel whose opening is announced. -/
def openedChannelId : Sv1Message → Option ChannelId
  | .openExtendedMiningChannelSuccess m => some m.channelId
  | _ => none

/-- The channels that were announced to the `Sv1Server`, oldest first. -/
def openedChannelIds (s : ChannelManager Ch Gr Al) : List ChannelId :=
  s.toSv1Server.filterMap openedChannelId

/-- The prefix with a local index. -/
def ownedPrefix (api : ClientChannels Ch Gr Al) (a : Al) (i : Nat) : ExtranoncePrefix :=
  ⟨api.getUpstreamPrefix a ++ api.localPartOf a i, (api.getUpstreamPrefix a).length, some i⟩

/-- The channel of a miner owns a local index. -/
def Owns (api : ClientChannels Ch Gr Al) (s : ChannelManager Ch Gr Al) (k : ChannelId) (i : Nat) :
    Prop :=
  k ≠ aggregatedChannelId ∧ ∃ c, s.extendedChannels.lookup k = some c ∧
    (api.getExtranoncePrefix c).localIndex = some i

structure Shared (api : ClientChannels Ch Gr Al) (s : ChannelManager Ch Gr Al) (aggregate : Ch)
    (a : Al) : Prop where
  found : s.extendedChannels.lookup aggregatedChannelId = some aggregate
  allocator : s.aggregatedExtranonceAllocator = some a
  upstreamPrefix : api.getExtranoncePrefix aggregate =
    ⟨api.getUpstreamPrefix a, (api.getUpstreamPrefix a).length, none⟩
  owned : ∀ k c, k ≠ aggregatedChannelId → s.extendedChannels.lookup k = some c →
    k ≠ 0 ∧ ∃ i ∈ api.localIndexes a, api.getExtranoncePrefix c = ownedPrefix api a i
  owner : ∀ i ∈ api.localIndexes a, ∃ k, Owns api s k i
  unique : ∀ k k' i, Owns api s k i → Owns api s k' i → k = k'
  nodup : (api.localIndexes a).Nodup

/-- Nothing is divided yet, or the shared channel is. -/
structure SpaceInv (api : ClientChannels Ch Gr Al) (s : ChannelManager Ch Gr Al) : Prop where
  connected : s.aggregatedChannelState = .connected →
    (∃ aggregate a, Shared api s aggregate a) ∧
      ∀ r, s.pendingDownstreamChannels.lookup r = none
  unconnected : s.aggregatedChannelState ≠ .connected →
    (∀ k, s.extendedChannels.lookup k = none) ∧ s.aggregatedExtranonceAllocator = none

theorem spaceInv_start : SpaceInv api (start : ChannelManager Ch Gr Al) := by
  refine ⟨nofun, ?_⟩
  intro _
  exact ⟨fun _ => rfl, rfl⟩

/-! ## Handlers that leave the space alone -/

theorem Keeps.refl (c : Ch) : api.Keeps c c := ⟨rfl, rfl⟩

structure SpaceKept (api : ClientChannels Ch Gr Al) (s s' : ChannelManager Ch Gr Al) : Prop where
  channels : ∀ k, Option.Rel api.Keeps (s.extendedChannels.lookup k) (s'.extendedChannels.lookup k)
  allocator : s'.aggregatedExtranonceAllocator = s.aggregatedExtranonceAllocator
  state : s'.aggregatedChannelState = s.aggregatedChannelState
  pending : s'.pendingDownstreamChannels = s.pendingDownstreamChannels
  opened : s'.openedChannelIds = s.openedChannelIds

theorem exists_of_rel_right {R : Ch → Ch → Prop} {o o' : Option Ch} (h : Option.Rel R o o') {c' : Ch}
    (hc' : o' = some c') : ∃ c, o = some c ∧ R c c' := by
  cases h with
  | none => cases hc'
  | some hr =>
    cases hc'
    exact ⟨_, rfl, hr⟩

theorem exists_of_rel_left {R : Ch → Ch → Prop} {o o' : Option Ch} (h : Option.Rel R o o') {c : Ch}
    (hc : o = some c) : ∃ c', o' = some c' ∧ R c c' := by
  cases h with
  | none => cases hc
  | some hr =>
    cases hc
    exact ⟨_, rfl, hr⟩

namespace SpaceKept

/-- Other fields than those of the search space. -/
theorem of_eq (hchannels : s'.extendedChannels = s.extendedChannels)
    (hallocator : s'.aggregatedExtranonceAllocator = s.aggregatedExtranonceAllocator)
    (hstate : s'.aggregatedChannelState = s.aggregatedChannelState)
    (hpending : s'.pendingDownstreamChannels = s.pendingDownstreamChannels)
    (hopened : s'.openedChannelIds = s.openedChannelIds) : SpaceKept api s s' := by
  refine ⟨?_, hallocator, hstate, hpending, hopened⟩
  intro k
  rw [hchannels]
  cases s.extendedChannels.lookup k with
  | none => exact .none
  | some c => exact .some (Keeps.refl c)

theorem refl (s : ChannelManager Ch Gr Al) : SpaceKept api s s := of_eq rfl rfl rfl rfl rfl

theorem trans {s₁ s₂ s₃ : ChannelManager Ch Gr Al} (h : SpaceKept api s₁ s₂)
    (h' : SpaceKept api s₂ s₃) : SpaceKept api s₁ s₃ := by
  refine ⟨?_, h'.allocator.trans h.allocator, h'.state.trans h.state, h'.pending.trans h.pending,
    h'.opened.trans h.opened⟩
  intro k
  have hk := h.channels k
  have hk' := h'.channels k
  cases hlookup : s₁.extendedChannels.lookup k with
  | none =>
    rw [hlookup] at hk
    generalize s₂.extendedChannels.lookup k = o₂ at hk hk'
    cases hk
    generalize s₃.extendedChannels.lookup k = o₃ at hk'
    cases hk'
    exact .none
  | some c₁ =>
    obtain ⟨c₂, hc₂, hkeeps⟩ := exists_of_rel_left hk hlookup
    obtain ⟨c₃, hc₃, hkeeps'⟩ := exists_of_rel_left hk' hc₂
    rw [hc₃]
    exact .some ⟨hkeeps'.channelId.trans hkeeps.channelId,
      hkeeps'.extranoncePrefix.trans hkeeps.extranoncePrefix⟩

/-- A message that opens no channel. -/
theorem sendSv1 {m : Sv1Message} (hm : openedChannelId m = none) (s : ChannelManager Ch Gr Al) :
    SpaceKept api s (s.sendSv1 m) := by
  refine of_eq rfl rfl rfl rfl ?_
  simp [openedChannelIds, ChannelManager.sendSv1, hm]

theorem setChannel {k : ChannelId} {c c' : Ch} (hc : s.extendedChannels.lookup k = some c)
    (hkeeps : api.Keeps c c') : SpaceKept api s (s.setChannel k c') := by
  refine ⟨?_, rfl, rfl, rfl, rfl⟩
  intro j
  simp only [ChannelManager.setChannel, KeyMap.lookup_insert_eq]
  split
  next hj =>
    rw [hj, hc]
    exact .some hkeeps
  · exact (SpaceKept.refl s).channels j

/-- A pass over the channels. -/
theorem setChannels {ε : Type} {f : ChannelId → Ch → Except ε Ch} {channels : KeyMap ChannelId Ch}
    (h : s.extendedChannels.tryMap f = .ok channels)
    (hf : ∀ {k c c'}, f k c = .ok c' → api.Keeps c c') :
    SpaceKept api s { s with extendedChannels := channels } := by
  refine ⟨?_, rfl, rfl, rfl, rfl⟩
  intro k
  have hrel := KeyMap.rel_tryMap h k
  dsimp only
  generalize s.extendedChannels.lookup k = o at hrel
  generalize channels.lookup k = o' at hrel
  cases hrel with
  | none => exact .none
  | some hc => exact .some (hf hc)

end SpaceKept

theorem Owns.of_kept {k : ChannelId} {i : Nat} (hkept : SpaceKept api s s') :
    Owns api s' k i ↔ Owns api s k i := by
  constructor
  · rintro ⟨hk, c', hc', hi⟩
    obtain ⟨c, hc, hkeeps⟩ := exists_of_rel_right (hkept.channels k) hc'
    rw [hkeeps.extranoncePrefix] at hi
    exact ⟨hk, c, hc, hi⟩
  · rintro ⟨hk, c, hc, hi⟩
    obtain ⟨c', hc', hkeeps⟩ := exists_of_rel_left (hkept.channels k) hc
    rw [← hkeeps.extranoncePrefix] at hi
    exact ⟨hk, c', hc', hi⟩

theorem Shared.of_kept {aggregate : Ch} {a : Al} (h : Shared api s aggregate a)
    (hkept : SpaceKept api s s') : ∃ aggregate', Shared api s' aggregate' a := by
  obtain ⟨aggregate', haggregate, hkeeps⟩ := exists_of_rel_left (hkept.channels _) h.found
  refine ⟨aggregate', haggregate, hkept.allocator.trans h.allocator, ?_, ?_, ?_, ?_, h.nodup⟩
  · rw [hkeeps.extranoncePrefix]
    exact h.upstreamPrefix
  · intro k c' hk hc'
    obtain ⟨c, hc, hkeeps⟩ := exists_of_rel_right (hkept.channels k) hc'
    rw [hkeeps.extranoncePrefix]
    exact h.owned k c hk hc
  · intro i hi
    obtain ⟨k, hk⟩ := h.owner i hi
    exact ⟨k, (Owns.of_kept hkept).mpr hk⟩
  · intro k k' i hk hk'
    exact h.unique k k' i ((Owns.of_kept hkept).mp hk) ((Owns.of_kept hkept).mp hk')

theorem SpaceInv.of_kept (h : SpaceInv api s) (hkept : SpaceKept api s s') : SpaceInv api s' := by
  refine ⟨?_, ?_⟩
  · intro hstate
    rw [hkept.state] at hstate
    obtain ⟨⟨aggregate, a, hshared⟩, hpending⟩ := h.connected hstate
    obtain ⟨aggregate', hshared'⟩ := hshared.of_kept hkept
    refine ⟨⟨aggregate', a, hshared'⟩, ?_⟩
    intro r
    rw [hkept.pending]
    exact hpending r
  · intro hstate
    rw [hkept.state] at hstate
    obtain ⟨hchannels, hallocator⟩ := h.unconnected hstate
    refine ⟨?_, hkept.allocator.trans hallocator⟩
    intro k
    cases hk : s'.extendedChannels.lookup k with
    | none => rfl
    | some c' =>
      obtain ⟨c, hc, -⟩ := exists_of_rel_right (hkept.channels k) hk
      rw [hchannels k] at hc
      cases hc

/-! ## Jobs -/

/-- Whatever goes wrong; the theorems of this module are about results. -/
abbrev AnyError (_ : TproxyError) : Prop := True

theorem announcePrefix_space (e : ChannelId × Bytes) :
    Meets (SpaceKept api s) AnyError (announcePrefix s e) := by
  unfold announcePrefix
  refine (Meets.orThrow fun _ => trivial).bind ?_
  intro advertised _
  split
  · exact .pure (.refl s)
  refine (Meets.orThrow fun _ => trivial).bind ?_
  intro b _
  have hsent : SpaceKept api s (s.sendSv1 (.setExtranoncePrefix e.1 b)) := .sendSv1 rfl s
  exact .pure (hsent.trans (.of_eq rfl rfl rfl rfl rfl))

theorem forwardJob_space (m : NewExtendedMiningJob) :
    Meets (SpaceKept api s) AnyError (forwardJobToSv1Server api s m) := by
  unfold forwardJobToSv1Server
  refine (Meets.orThrow fun _ => trivial).bind ?_
  intro prefixes _
  refine (Meets.foldlM (SpaceKept api s) ?_ (.refl s)).bind ?_
  · intro s₁ hs₁ e _
    exact (announcePrefix_space e).mono fun s₂ hs₂ => hs₁.trans hs₂
  · intro s₁ hs₁
    exact .pure (hs₁.trans (.sendSv1 rfl s₁))

theorem forwardPrevHashes_space (prevHashes : List SetNewPrevHash)
    (jobs : List NewExtendedMiningJob) :
    Meets (SpaceKept api s) AnyError (forwardPrevHashes api s prevHashes jobs) := by
  unfold forwardPrevHashes
  refine Meets.foldlM (SpaceKept api s) ?_ ?_
  · intro s₁ hs₁ m _
    exact (forwardJob_space m).mono fun s₂ hs₂ => hs₁.trans hs₂
  · induction prevHashes generalizing s with
    | nil => exact .refl s
    | cons p prevHashes ih =>
      have hsent : SpaceKept api s (s.sendSv1 (.setNewPrevHash p)) := .sendSv1 rfl s
      exact hsent.trans ih

/-! ## Free ids -/

theorem uint32_max (n k : UInt32) : max n k = if n ≤ k then k else n := rfl

theorem le_foldl_max {ks : List ChannelId} {n m : ChannelId}
    (h : ks.foldl (fun n k => if k = aggregatedChannelId then n else max n k) n = m) :
    n ≤ m ∧ ∀ k ∈ ks, k ≠ aggregatedChannelId → k ≤ m := by
  induction ks generalizing n with
  | nil =>
    cases h
    exact ⟨UInt32.le_refl n, by simp⟩
  | cons j ks ih =>
    obtain ⟨hn, hks⟩ := ih h
    dsimp only at hn
    rw [uint32_max] at hn
    refine ⟨UInt32.le_trans ?_ hn, ?_⟩
    · split
      · exact UInt32.le_refl n
      split
      · assumption
      · exact UInt32.le_refl n
    intro k hk hreserved
    rcases List.mem_cons.mp hk with rfl | hk
    · rw [if_neg hreserved] at hn
      refine UInt32.le_trans ?_ hn
      split
      · exact UInt32.le_refl k
      next hle => exact (UInt32.le_total n k).resolve_left hle
    · exact hks k hk hreserved

theorem foldl_max_reserved (ks : List ChannelId) {n : ChannelId} (hn : n ≠ aggregatedChannelId) :
    ks.foldl (fun n k => if k = aggregatedChannelId then n else max n k) n ≠
      aggregatedChannelId := by
  induction ks generalizing n with
  | nil => exact hn
  | cons k ks ih =>
    refine ih ?_
    dsimp only
    rw [uint32_max]
    split
    · exact hn
    next hk =>
      split
      · exact hk
      · exact hn

/-- The ids that are tried do not wrap. -/
theorem firstGap_free {n : Nat} {k j : ChannelId} (hn : k.toNat + n ≤ aggregatedChannelId.toNat)
    (h : s.firstGap n k = some j) :
    k.toNat ≤ j.toNat ∧ j.toNat < aggregatedChannelId.toNat ∧ s.hasChannel j = false := by
  induction n generalizing k with
  | zero => cases h
  | succ n ih =>
    unfold firstGap at h
    split at h
    · have hnext : (k + 1).toNat = k.toNat + 1 := by
        rw [UInt32.toNat_add]
        have hreserved : aggregatedChannelId.toNat = 4294967295 := rfl
        simp only [UInt32.toNat_one]
        omega
      obtain ⟨hle, hlt, hfree⟩ := ih (by omega) h
      exact ⟨by omega, hlt, hfree⟩
    next hfree =>
      cases h
      exact ⟨Nat.le_refl _, by omega, by simpa [hasChannel] using hfree⟩

/-- The id of a new channel is none of a live one, and not reserved. -/
theorem nextChannelId_free {k : ChannelId} (h : s.nextChannelId = some k) :
    k ≠ 0 ∧ k ≠ aggregatedChannelId ∧ s.hasChannel k = false := by
  have hreserved : aggregatedChannelId.toNat = 4294967295 := rfl
  unfold nextChannelId at h
  split at h
  next hnext =>
    cases h
    have hhighest : s.highestChannelId ≠ aggregatedChannelId :=
      foldl_max_reserved _ (by decide)
    have hlt : s.highestChannelId.toNat < 4294967295 := by
      have h32 := s.highestChannelId.toNat_lt
      have hne : s.highestChannelId.toNat ≠ aggregatedChannelId.toNat :=
        fun heq => hhighest (UInt32.toNat_inj.mp heq)
      omega
    have hsucc : (s.highestChannelId + 1).toNat = s.highestChannelId.toNat + 1 := by
      rw [UInt32.toNat_add]
      simp only [UInt32.toNat_one]
      omega
    refine ⟨?_, hnext, ?_⟩
    · intro hzero
      rw [hzero] at hsucc
      simp at hsucc
    · cases hhas : s.hasChannel (s.highestChannelId + 1) with
      | false => rfl
      | true =>
        have hmem : s.highestChannelId + 1 ∈ s.extendedChannels.keys :=
          AList.mem_keys.mp (AList.lookup_isSome.mp hhas)
        have hle := (le_foldl_max (rfl : _ = s.highestChannelId)).2 _ hmem hnext
        rw [UInt32.le_iff_toNat_le] at hle
        omega
  · obtain ⟨hle, hlt, hfree⟩ := firstGap_free (by decide) h
    refine ⟨?_, ?_, hfree⟩
    · rintro rfl
      simp at hle
    · rintro rfl
      omega

/-! ## Channels that are opened -/

/-- The channels that are announced between two states: their ids are different and were free. -/
def FreshlyAnnounced (s s' : ChannelManager Ch Gr Al) : Prop :=
  ∃ ids, s'.openedChannelIds = s.openedChannelIds ++ ids ∧ ids.Nodup ∧
    ∀ k ∈ ids, k ≠ 0 ∧ k ≠ aggregatedChannelId ∧ s.hasChannel k = false ∧ s'.hasChannel k = true

theorem FreshlyAnnounced.of_same (h : s'.openedChannelIds = s.openedChannelIds) :
    FreshlyAnnounced s s' :=
  ⟨[], by rw [h, List.append_nil], List.nodup_nil, by simp⟩

/-- Channels are opened, and those that there were stay. -/
structure Opened (s s' : ChannelManager Ch Gr Al) : Prop where
  announced : FreshlyAnnounced s s'
  kept : ∀ k, s.hasChannel k = true → s'.hasChannel k = true

namespace Opened

/-- The channels are the same, and none is announced. -/
theorem of_same (hchannels : s'.extendedChannels = s.extendedChannels)
    (hopened : s'.openedChannelIds = s.openedChannelIds) : Opened s s' := by
  refine ⟨.of_same hopened, ?_⟩
  intro k hk
  rw [hasChannel, hchannels]
  exact hk

theorem of_kept (hkept : SpaceKept api s s') : Opened s s' := by
  refine ⟨.of_same hkept.opened, ?_⟩
  intro k hk
  obtain ⟨c, hc⟩ := Option.isSome_iff_exists.mp hk
  obtain ⟨c', hc', -⟩ := exists_of_rel_left (hkept.channels k) hc
  exact hasChannel_of_lookup hc'

theorem trans {s₁ s₂ s₃ : ChannelManager Ch Gr Al} (h : Opened s₁ s₂) (h' : Opened s₂ s₃) :
    Opened s₁ s₃ := by
  obtain ⟨ids, hids, hnodup, hfree⟩ := h.announced
  obtain ⟨ids', hids', hnodup', hfree'⟩ := h'.announced
  refine ⟨⟨ids ++ ids', by rw [hids', hids, List.append_assoc], ?_, ?_⟩,
    fun k hk => h'.kept k (h.kept k hk)⟩
  · refine List.nodup_append.mpr ⟨hnodup, hnodup', ?_⟩
    rintro k hk j hj rfl
    have hlive := (hfree k hk).2.2.2
    rw [(hfree' k hj).2.2.1] at hlive
    cases hlive
  · intro k hk
    rcases List.mem_append.mp hk with hk | hk
    · obtain ⟨hzero, hreserved, hnew, hlive⟩ := hfree k hk
      exact ⟨hzero, hreserved, hnew, h'.kept k hlive⟩
    · obtain ⟨hzero, hreserved, hnew, hlive⟩ := hfree' k hk
      refine ⟨hzero, hreserved, ?_, hlive⟩
      cases hold : s₁.hasChannel k with
      | false => rfl
      | true =>
        rw [h.kept k hold] at hnew
        cases hnew

/-- One channel is announced. -/
theorem of_announced {k : ChannelId} (hopened : s'.openedChannelIds = s.openedChannelIds ++ [k])
    (hk : k ≠ 0 ∧ k ≠ aggregatedChannelId ∧ s.hasChannel k = false) (hlive : s'.hasChannel k = true)
    (hkept : ∀ j, s.hasChannel j = true → s'.hasChannel j = true) : Opened s s' := by
  refine ⟨⟨[k], hopened, List.nodup_singleton k, ?_⟩, hkept⟩
  intro j hj
  cases List.mem_singleton.mp hj
  exact ⟨hk.1, hk.2.1, hk.2.2, hlive⟩

end Opened

theorem hasChannel_setChannel (k : ChannelId) (c : Ch) (j : ChannelId) :
    (s.setChannel k c).hasChannel j = (decide (j = k) || s.hasChannel j) := by
  simp only [hasChannel, setChannel, KeyMap.lookup_insert_eq]
  by_cases hj : j = k <;> simp [hj]

theorem Shared.of_eq {aggregate : Ch} {a : Al} (h : Shared api s aggregate a)
    (hchannels : s'.extendedChannels = s.extendedChannels)
    (hallocator : s'.aggregatedExtranonceAllocator = s.aggregatedExtranonceAllocator) :
    Shared api s' aggregate a := by
  have howns : ∀ k i, Owns api s' k i ↔ Owns api s k i := by
    intro k i
    unfold Owns
    rw [hchannels]
  refine ⟨by rw [hchannels]; exact h.found, by rw [hallocator]; exact h.allocator, h.upstreamPrefix,
    ?_, ?_, ?_, h.nodup⟩
  · intro k c
    rw [hchannels]
    exact h.owned k c
  · intro i hi
    obtain ⟨k, hk⟩ := h.owner i hi
    exact ⟨k, (howns k i).mpr hk⟩
  · intro k k' i hk hk'
    exact h.unique k k' i ((howns k i).mp hk) ((howns k' i).mp hk')

theorem ownedPrefix_layout {a a' : Al} (h : api.SameLayout a a') (i : Nat) :
    ownedPrefix api a' i = ownedPrefix api a i := by
  unfold ownedPrefix
  rw [h.upstreamPrefix, h.localPartOf]

theorem ownedPrefix_localPart (a : Al) (i : Nat) :
    (ownedPrefix api a i).localPart = api.localPartOf a i :=
  List.drop_left

/-- An allocator with the same layout and the same indexes in use. -/
theorem Shared.of_allocator {aggregate : Ch} {a a' : Al} (h : Shared api s aggregate a)
    (hlayout : api.SameLayout a a') (hindexes : api.localIndexes a' = api.localIndexes a) :
    Shared api { s with aggregatedExtranonceAllocator := some a' } aggregate a' := by
  refine ⟨h.found, rfl, ?_, ?_, ?_, h.unique, by rw [hindexes]; exact h.nodup⟩
  · rw [hlayout.upstreamPrefix]
    exact h.upstreamPrefix
  · intro k c hk hc
    obtain ⟨hzero, i, hi, howned⟩ := h.owned k c hk hc
    refine ⟨hzero, i, by rw [hindexes]; exact hi, ?_⟩
    rw [howned, ownedPrefix_layout hlayout]
  · intro i hi
    rw [hindexes] at hi
    exact h.owner i hi

/-- A channel with a free id and a free index. -/
theorem Shared.opened {aggregate c : Ch} {a a' : Al} {i : Nat} {k : ChannelId}
    (h : Shared api s aggregate a) (hlayout : api.SameLayout a a')
    (hfree : i ∉ api.localIndexes a) (hindexes : api.localIndexes a' = i :: api.localIndexes a)
    (hk : k ≠ 0 ∧ k ≠ aggregatedChannelId ∧ s.hasChannel k = false)
    (howned : api.getExtranoncePrefix c = ownedPrefix api a i) :
    Shared api ({ s with aggregatedExtranonceAllocator := some a' }.setChannel k c) aggregate a' := by
  obtain ⟨hzero, hreserved, hnew⟩ := hk
  have hne : ∀ {j d}, s.extendedChannels.lookup j = some d → j ≠ k := by
    rintro j d hd rfl
    rw [hasChannel_of_lookup hd] at hnew
    cases hnew
  -- an owner is the new channel, or an old one with an old index
  have howns : ∀ j n, Owns api ({ s with aggregatedExtranonceAllocator := some a' }.setChannel k c)
      j n ↔ (j = k ∧ n = i) ∨ (j ≠ k ∧ Owns api s j n) := by
    intro j n
    simp only [Owns, setChannel, KeyMap.lookup_insert_eq]
    by_cases hj : j = k
    · rw [if_pos hj, hj]
      simp only [Option.some.injEq, exists_eq_left', howned, ownedPrefix, hreserved, ne_eq,
        not_false_eq_true, true_and, not_true_eq_false, false_and, or_false, eq_comm]
    · simp [hj]
  refine ⟨?_, rfl, ?_, ?_, ?_, ?_, ?_⟩
  · simp only [setChannel, KeyMap.lookup_insert_eq, if_neg hreserved.symm]
    exact h.found
  · rw [hlayout.upstreamPrefix]
    exact h.upstreamPrefix
  · intro j d hj hd
    simp only [setChannel, KeyMap.lookup_insert_eq] at hd
    rw [hindexes]
    split at hd
    next hjk =>
      cases hd
      rw [hjk]
      exact ⟨hzero, i, List.mem_cons_self, by rw [howned, ownedPrefix_layout hlayout]⟩
    · obtain ⟨hzero', n, hn, howned'⟩ := h.owned j d hj hd
      exact ⟨hzero', n, List.mem_cons_of_mem _ hn, by rw [howned', ownedPrefix_layout hlayout]⟩
  · intro n hn
    rw [hindexes] at hn
    rcases List.mem_cons.mp hn with rfl | hn
    · exact ⟨k, (howns k n).mpr (Or.inl ⟨rfl, rfl⟩)⟩
    · obtain ⟨j, hj⟩ := h.owner n hn
      obtain ⟨d, hd, -⟩ := hj.2
      exact ⟨j, (howns j n).mpr (Or.inr ⟨hne hd, hj⟩)⟩
  · -- an old channel has an index in use, which the new one is not
    have hused : ∀ j n, Owns api s j n → n ∈ api.localIndexes a := by
      rintro j n ⟨hj, d, hd, hn⟩
      obtain ⟨-, m, hm, howned'⟩ := h.owned j d hj hd
      rw [howned'] at hn
      cases hn
      exact hm
    intro j j' n hj hj'
    rcases (howns j n).mp hj with ⟨rfl, rfl⟩ | ⟨-, hj⟩
    · rcases (howns j' n).mp hj' with ⟨rfl, -⟩ | ⟨-, hj'⟩
      · rfl
      · exact absurd (hused j' n hj') hfree
    · rcases (howns j' n).mp hj' with ⟨-, rfl⟩ | ⟨-, hj'⟩
      · exact absurd (hused j n hj) hfree
      · exact h.unique j j' n hj hj'
  · rw [hindexes]
    exact List.nodup_cons.mpr ⟨hfree, h.nodup⟩

/-! ## Requests of the miners -/

theorem initPrefix_meets (hapi : api.Lawful) (k : ChannelId) (c : Ch) (b : Bytes) :
    Meets (fun c' => api.getExtranoncePrefix c' = ⟨b ++ (api.getExtranoncePrefix c).localPart,
      b.length, (api.getExtranoncePrefix c).localIndex⟩) AnyError (initPrefix api k c b) :=
  (Meets.orThrow fun _ => trivial).mono fun _ hc' => hapi.upstream_prefix hc'

/-- The local part of the prefix is the same, and whose it is. -/
def SameLocal (api : ClientChannels Ch Gr Al) (c c' : Ch) : Prop :=
  (api.getExtranoncePrefix c').localPart = (api.getExtranoncePrefix c).localPart ∧
    (api.getExtranoncePrefix c').localIndex = (api.getExtranoncePrefix c).localIndex

theorem SameLocal.of_keeps {c c' : Ch} (h : api.Keeps c c') : SameLocal api c c' :=
  ⟨congrArg _ h.extranoncePrefix, congrArg _ h.extranoncePrefix⟩

theorem SameLocal.trans {c c' c'' : Ch} (h : SameLocal api c c') (h' : SameLocal api c' c'') :
    SameLocal api c c'' := ⟨h'.1.trans h.1, h'.2.trans h.2⟩

theorem initPrefix_local (hapi : api.Lawful) (k : ChannelId) (c : Ch) (b : Bytes) :
    Meets (SameLocal api c) AnyError (initPrefix api k c b) := by
  refine (initPrefix_meets hapi k c b).mono ?_
  intro c' hc'
  unfold SameLocal
  rw [hc']
  exact ⟨List.drop_left, rfl⟩

theorem inheritJob_local (hapi : api.Lawful) (k : ChannelId) (c : Ch) (job : ExtendedJob) :
    Meets (SameLocal api c) AnyError (inheritJob api k c job) := by
  unfold inheritJob
  refine (initPrefix_local hapi k c _).bind ?_
  intro c₁ h₁
  refine (Meets.orThrow fun _ => trivial).bind ?_
  intro c₂ h₂
  refine (Meets.orThrow fun _ => trivial).mono ?_
  intro c₃ h₃
  exact (h₁.trans (.of_keeps (hapi.target_keeps h₂).1)).trans (.of_keeps (hapi.job_keeps h₃))

/-- Whatever is replayed on a new channel, it ends with the upstream prefix of the shared one. -/
theorem inheritWork_current (hapi : api.Lawful) (aggregate c : Ch) (k : ChannelId) :
    Meets (fun r => api.getExtranoncePrefix r.1 =
        ⟨(api.getExtranoncePrefix aggregate).bytes ++ (api.getExtranoncePrefix c).localPart,
          (api.getExtranoncePrefix aggregate).bytes.length, (api.getExtranoncePrefix c).localIndex⟩)
      AnyError (inheritWork api aggregate c k) := by
  unfold inheritWork
  dsimp only
  refine (initPrefix_local hapi k c _).bind ?_
  intro c₁ h₁
  refine (Meets.foldlM (SameLocal api c) ?_ ?_).bind ?_
  · intro c₃ h₃ job _
    exact (inheritJob_local hapi k c₃ job).mono fun c₄ h₄ => h₃.trans h₄
  · split
    · exact h₁.trans (.of_keeps (hapi.tip_keeps _ _).1)
    · exact h₁
  intro c₃ h₃
  refine (initPrefix_meets hapi k c₃ _).bind ?_
  intro c₄ h₄
  refine (Meets.orThrow fun _ => trivial).bind ?_
  intro c₅ h₅
  refine .pure ?_
  rw [(hapi.target_keeps h₅).1.extranoncePrefix, h₄, h₃.1, h₃.2]

/-- What a request of a miner does to the space: nothing, or it is given a part of it. -/
structure Joined (api : ClientChannels Ch Gr Al) (s s' : ChannelManager Ch Gr Al) : Prop where
  shared : ∃ aggregate a, Shared api s' aggregate a
  opened : Opened s s'
  state : s'.aggregatedChannelState = s.aggregatedChannelState
  pending : s'.pendingDownstreamChannels = s.pendingDownstreamChannels

theorem Joined.trans {s₁ s₂ s₃ : ChannelManager Ch Gr Al} (h : Joined api s₁ s₂)
    (h' : Joined api s₂ s₃) : Joined api s₁ s₃ :=
  ⟨h'.shared, h.opened.trans h'.opened, h'.state.trans h.state, h'.pending.trans h.pending⟩

theorem Joined.kept {s₁ s₂ s₃ : ChannelManager Ch Gr Al} (h : Joined api s₁ s₂)
    (hkept : SpaceKept api s₂ s₃) : Joined api s₁ s₃ := by
  obtain ⟨aggregate, a, hshared⟩ := h.shared
  obtain ⟨aggregate', hshared'⟩ := hshared.of_kept hkept
  exact ⟨⟨aggregate', a, hshared'⟩, h.opened.trans (.of_kept hkept), hkept.state.trans h.state,
    hkept.pending.trans h.pending⟩

/-- A rejected request gives back what the allocator had taken for it. -/
theorem rejected_joined (hapi : api.Lawful) {aggregate : Ch} {a a' : Al} {n : Nat}
    {p : ExtranoncePrefix} (h : Shared api s aggregate a)
    (hallocated : api.allocateExtended a n = some (a', p)) (requestId : RequestId)
    (code : OpenMiningChannelErrorCode) :
    Joined api s ({ s with aggregatedExtranonceAllocator := some (api.release a' p) }
      |>.rejectDownstreamChannelRequest requestId code) := by
  obtain ⟨i, hfree, hindexes, hp⟩ := hapi.allocate_prefix hallocated
  have hlayout := hapi.allocate_layout hallocated
  have hreleased := hapi.release_layout a' p
  have hback : api.localIndexes (api.release a' p) = api.localIndexes a := by
    rw [hapi.release_indexes, hp, hindexes]
    exact List.erase_cons_head i _
  have hshared := h.of_allocator
    ⟨hreleased.upstreamPrefix.trans hlayout.upstreamPrefix,
      hreleased.localPartOf.trans hlayout.localPartOf⟩ hback
  refine ⟨⟨aggregate, _, hshared.of_eq rfl rfl⟩, .of_same rfl ?_, rfl, rfl⟩
  simp [openedChannelIds, rejectDownstreamChannelRequest, sendSv1, openedChannelId]

/-- A channel is published under a free id, with the prefix of a free index. -/
theorem publishChannel_joined {aggregate c : Ch} {a a' : Al} {i : Nat} {k : ChannelId}
    (h : Shared api s aggregate a) (hlayout : api.SameLayout a a')
    (hfree : i ∉ api.localIndexes a) (hindexes : api.localIndexes a' = i :: api.localIndexes a)
    (hk : k ≠ 0 ∧ k ≠ aggregatedChannelId ∧ s.hasChannel k = false)
    (howned : api.getExtranoncePrefix c = ownedPrefix api a i) (successPrefix : Bytes)
    (requestId : RequestId) (n : Nat) :
    Meets (Joined api s) AnyError (publishChannel api
      { s with aggregatedExtranonceAllocator := some a' } aggregate c k successPrefix requestId n) := by
  unfold publishChannel
  refine (Meets.orThrow fun _ => trivial).bind ?_
  intro extranoncePrefix _
  dsimp only
  have hpublished : ∀ s' : ChannelManager Ch Gr Al,
      s'.extendedChannels = s.extendedChannels.insert k c →
      s'.aggregatedExtranonceAllocator = some a' →
      s'.aggregatedChannelState = s.aggregatedChannelState →
      s'.pendingDownstreamChannels = s.pendingDownstreamChannels →
      s'.openedChannelIds = s.openedChannelIds ++ [k] → Joined api s s' := by
    intro s' hchannels hallocator hstate hpending hannounced
    have hlive : ∀ j, s'.hasChannel j = (decide (j = k) || s.hasChannel j) := by
      intro j
      rw [← hasChannel_setChannel k c j]
      unfold hasChannel setChannel
      rw [hchannels]
    refine ⟨⟨aggregate, a', (h.opened hlayout hfree hindexes hk howned).of_eq hchannels hallocator⟩,
      .of_announced hannounced hk ?_ ?_, hstate, hpending⟩
    · simp [hlive]
    · intro j hj
      simp [hlive, hj]
  have hannounced : ∀ t : List Sv1Message, t = s.toSv1Server ++
      [.openExtendedMiningChannelSuccess ⟨requestId, k, api.getTarget aggregate, UInt16.ofNat n,
        extranoncePrefix, 0⟩] → t.filterMap openedChannelId = s.openedChannelIds ++ [k] := by
    rintro t rfl
    simp [openedChannelIds, openedChannelId]
  split
  · refine (forwardJob_space _).mono ?_
    intro s'' hs''
    refine Joined.kept ?_ hs''
    exact hpublished _ rfl rfl rfl rfl (hannounced _ rfl)
  · exact .pure (hpublished _ rfl rfl rfl rfl (hannounced _ rfl))

theorem handleDownstreamChannelRequest_joined (hapi : api.Lawful) {aggregate : Ch} {a : Al}
    (h : Shared api s aggregate a) (requestId : RequestId) (userIdentity : Identity) (n : Nat) :
    Meets (Joined api s) AnyError
      (handleDownstreamChannelRequest api cfg s requestId userIdentity n) := by
  unfold handleDownstreamChannelRequest
  refine (Meets.orThrow fun _ => trivial).bind ?_
  intro aggregate' haggregate
  cases h.found.symm.trans haggregate
  refine (Meets.orThrow fun _ => trivial).bind ?_
  intro a₁ ha₁
  cases h.allocator.symm.trans ha₁
  dsimp only
  split
  · refine .pure ⟨⟨aggregate, a, h.of_eq rfl rfl⟩, .of_same rfl ?_, rfl, rfl⟩
    simp [openedChannelIds, rejectDownstreamChannelRequest, sendSv1, openedChannelId]
  next a' p hallocated =>
    obtain ⟨i, hfree, hindexes, hp⟩ := hapi.allocate_prefix hallocated
    split
    · split
      · exact .pure (rejected_joined hapi h hallocated _ _)
      next k hk =>
        refine (Meets.orThrow fun _ => trivial).bind ?_
        intro c hc
        refine (inheritWork_current hapi aggregate c k).bind ?_
        rintro ⟨c', successPrefix⟩ hc'
        refine publishChannel_joined h (hapi.allocate_layout hallocated) hfree hindexes
          (nextChannelId_free hk) ?_ successPrefix requestId n
        dsimp only at hc'
        rw [hc', hapi.new_prefix hc, h.upstreamPrefix, hp]
        exact congrArg (fun l => (⟨_ ++ l, _, _⟩ : ExtranoncePrefix)) (ownedPrefix_localPart a i)
    · exact .pure (rejected_joined hapi h hallocated _ _)

/-- The requests that were buffered, once there is a shared channel. -/
theorem openPending_joined (hapi : api.Lawful) {aggregate : Ch} {a : Al}
    (h : Shared api s aggregate a) (hstate : s.aggregatedChannelState = .connected) :
    Meets (fun s' => SpaceInv api s' ∧ Opened s s') AnyError
      (openPendingAggregatedDownstreamChannels api cfg s) := by
  unfold openPendingAggregatedDownstreamChannels
  rw [if_pos hstate]
  refine (Meets.foldlM (Joined api { s with pendingDownstreamChannels := ∅ }) ?_ ?_).mono ?_
  · intro s₁ hs₁ e _
    obtain ⟨aggregate', a', hshared⟩ := hs₁.shared
    exact (handleDownstreamChannelRequest_joined hapi hshared _ _ _).mono
      fun s₂ hs₂ => hs₁.trans hs₂
  · exact ⟨⟨aggregate, a, h.of_eq rfl rfl⟩, .of_same rfl rfl, rfl, rfl⟩
  · intro s' hs'
    refine ⟨⟨?_, ?_⟩, hs'.opened.announced, hs'.opened.kept⟩
    · intro _
      refine ⟨hs'.shared, ?_⟩
      intro r
      rw [hs'.pending]
      rfl
    · intro hunconnected
      exact absurd (hs'.state.trans hstate) hunconnected

/-! ## The shared channel -/

theorem fromWire_eq {b : Bytes} {p : ExtranoncePrefix} (h : ExtranoncePrefix.fromWire b = some p) :
    p = ⟨b, b.length, none⟩ := by
  unfold ExtranoncePrefix.fromWire at h
  split at h <;> cases h
  rfl

/-- The shared channel with an allocator that nothing has been taken from. -/
theorem Shared.unallocated {aggregate : Ch} {a : Al}
    (hempty : ∀ k, s.extendedChannels.lookup k = none) (hindexes : api.localIndexes a = [])
    (hupstream : api.getExtranoncePrefix aggregate =
      ⟨api.getUpstreamPrefix a, (api.getUpstreamPrefix a).length, none⟩) :
    Shared api { s.setChannel aggregatedChannelId aggregate with
      aggregatedExtranonceAllocator := some a } aggregate a := by
  have honly : ∀ {k c}, k ≠ aggregatedChannelId →
      (s.extendedChannels.insert aggregatedChannelId aggregate).lookup k = some c → False := by
    intro k c hk hc
    rw [KeyMap.lookup_insert_eq, if_neg hk, hempty] at hc
    cases hc
  refine ⟨?_, rfl, hupstream, ?_, ?_, ?_, ?_⟩
  · simp [setChannel]
  · intro k c hk hc
    exact (honly hk hc).elim
  · rw [hindexes]
    intro i hi
    cases hi
  · rintro k k' i ⟨hk, c, hc, -⟩ -
    exact (honly hk hc).elim
  · rw [hindexes]
    exact List.nodup_nil

theorem buildAllocator_meets (hapi : api.Lawful) (m : OpenExtendedMiningChannelSuccess) (n : Nat)
    (maxChannels : UInt32) :
    Meets (fun r => ∃ a, api.getUpstreamPrefix a = m.extranoncePrefix.1 ∧
        api.localIndexes a = [] ∧ api.SameLayout a r.1 ∧
        ∃ i, api.localIndexes r.1 = [i] ∧ r.2 = ownedPrefix api a i) AnyError
      (buildAllocator api m n maxChannels) := by
  unfold buildAllocator
  refine (Meets.orThrow fun _ => trivial).bind ?_
  intro a ha
  refine (Meets.orThrow fun _ => trivial).mono ?_
  rintro ⟨a', p⟩ hallocated
  obtain ⟨i, -, hindexes, hp⟩ := hapi.allocate_prefix hallocated
  obtain ⟨hgranted, hnone⟩ := hapi.allocator_new ha
  rw [hnone] at hindexes
  exact ⟨a, hgranted, hnone, hapi.allocate_layout hallocated, i, hindexes, hp⟩

/-- The shared channel and the channel of the first miner. -/
theorem openAggregated_shared (hapi : api.Lawful)
    (hempty : ∀ k, s.extendedChannels.lookup k = none) (m : OpenExtendedMiningChannelSuccess)
    (pending : PendingChannel) :
    Meets (fun r => (∃ aggregate a, Shared api r.1 aggregate a) ∧
        r.1.aggregatedChannelState = .connected ∧ r.1.openedChannelIds = s.openedChannelIds ∧
        r.1.hasChannel 1 = true ∧ r.2.channelId = 1) AnyError
      (openAggregated api cfg s m pending) := by
  unfold openAggregated
  refine (Meets.require fun _ => trivial).bind ?_
  intro _ _
  refine (buildAllocator_meets hapi m _ _).bind ?_
  rintro ⟨a', p⟩ ⟨a, -, hindexes, hlayout, i, hindexes', hp⟩
  refine (Meets.orThrow fun _ => trivial).bind ?_
  intro upstreamPrefix hupstream
  refine (Meets.orThrow fun _ => trivial).bind ?_
  intro aggregate haggregate
  refine (Meets.orThrow fun _ => trivial).bind ?_
  intro c hc
  refine (Meets.orThrow fun _ => trivial).bind ?_
  intro extranoncePrefix _
  refine .pure ?_
  have hcurrent : api.getExtranoncePrefix aggregate =
      ⟨api.getUpstreamPrefix a, (api.getUpstreamPrefix a).length, none⟩ := by
    rw [hapi.new_prefix haggregate, fromWire_eq hupstream, hlayout.upstreamPrefix]
  have hshared := Shared.unallocated hempty hindexes hcurrent
  have hfree : i ∉ api.localIndexes a := by
    rw [hindexes]
    exact List.not_mem_nil
  have hnew : (s.setChannel aggregatedChannelId aggregate).hasChannel 1 = false := by
    rw [hasChannel_setChannel, hasChannel, hempty]
    rfl
  have hopened := hshared.opened hlayout hfree (by rw [hindexes, hindexes'])
    ⟨by decide, by decide, hnew⟩ ((hapi.new_prefix hc).trans hp)
  refine ⟨⟨aggregate, a', hopened.of_eq rfl rfl⟩, rfl, rfl, ?_, rfl⟩
  simp [hasChannel, setChannel]

/-- The upstream prefix is replaced everywhere, and every miner keeps its local part. -/
theorem Shared.moved {aggregate aggregate' : Ch} {a a' : Al} {b : Bytes}
    {channels : KeyMap ChannelId Ch} (h : Shared api s aggregate a)
    (hallocator : api.getUpstreamPrefix a' = b ∧ api.localPartOf a' = api.localPartOf a ∧
      api.localIndexes a' = api.localIndexes a)
    (hfound : channels.lookup aggregatedChannelId = some aggregate')
    (haggregate : api.getExtranoncePrefix aggregate' = ⟨b, b.length, none⟩)
    (hchannels : ∀ k, k ≠ aggregatedChannelId → Option.Rel (fun c c' =>
      api.getExtranoncePrefix c' = ⟨b ++ (api.getExtranoncePrefix c).localPart, b.length,
        (api.getExtranoncePrefix c).localIndex⟩)
      (s.extendedChannels.lookup k) (channels.lookup k)) :
    Shared api { s with
      extendedChannels := channels
      aggregatedExtranonceAllocator := some a' } aggregate' a' := by
  obtain ⟨hupstream, hlocal, hindexes⟩ := hallocator
  have howns : ∀ k i, Owns api { s with
      extendedChannels := channels
      aggregatedExtranonceAllocator := some a' } k i ↔ Owns api s k i := by
    intro k i
    constructor
    · rintro ⟨hk, c', hc', hi⟩
      obtain ⟨c, hc, hmoved⟩ := exists_of_rel_right (hchannels k hk) hc'
      rw [hmoved] at hi
      exact ⟨hk, c, hc, hi⟩
    · rintro ⟨hk, c, hc, hi⟩
      obtain ⟨c', hc', hmoved⟩ := exists_of_rel_left (hchannels k hk) hc
      exact ⟨hk, c', hc', by rw [hmoved]; exact hi⟩
  refine ⟨hfound, rfl, by rw [hupstream]; exact haggregate, ?_, ?_, ?_, by rw [hindexes]; exact h.nodup⟩
  · intro k c' hk hc'
    obtain ⟨c, hc, hmoved⟩ := exists_of_rel_right (hchannels k hk) hc'
    obtain ⟨hzero, i, hi, howned⟩ := h.owned k c hk hc
    refine ⟨hzero, i, by rw [hindexes]; exact hi, ?_⟩
    rw [hmoved, howned, ownedPrefix_localPart, ownedPrefix, ownedPrefix, hupstream, hlocal]
  · intro i hi
    rw [hindexes] at hi
    obtain ⟨k, hk⟩ := h.owner i hi
    exact ⟨k, (howns k i).mpr hk⟩
  · intro k k' i hk hk'
    exact h.unique k k' i ((howns k i).mp hk) ((howns k' i).mp hk')

/-- A channel is dropped, and the prefix that it owned is released. -/
theorem Shared.dropped {aggregate c : Ch} {a : Al} {k : ChannelId} (hapi : api.Lawful)
    (h : Shared api s aggregate a) (hk : k ≠ aggregatedChannelId)
    (hc : s.extendedChannels.lookup k = some c) :
    Shared api { s with
      extendedChannels := s.extendedChannels.erase k
      aggregatedExtranonceAllocator := some (api.release a (api.getExtranoncePrefix c)) } aggregate
      (api.release a (api.getExtranoncePrefix c)) := by
  obtain ⟨-, i, hi, howned⟩ := h.owned k c hk hc
  have hlayout := hapi.release_layout a (api.getExtranoncePrefix c)
  have hindexes : api.localIndexes (api.release a (api.getExtranoncePrefix c)) =
      (api.localIndexes a).erase i := by
    rw [hapi.release_indexes, howned]
    rfl
  have howner : Owns api s k i := ⟨hk, c, hc, by rw [howned]; rfl⟩
  have howns : ∀ j n, Owns api { s with
      extendedChannels := s.extendedChannels.erase k
      aggregatedExtranonceAllocator := some (api.release a (api.getExtranoncePrefix c)) } j n ↔
        j ≠ k ∧ Owns api s j n := by
    intro j n
    simp only [Owns, KeyMap.lookup_erase_eq]
    by_cases hj : j = k <;> simp [hj]
  refine ⟨?_, rfl, ?_, ?_, ?_, ?_, ?_⟩
  · simp only [KeyMap.lookup_erase_eq, if_neg hk.symm]
    exact h.found
  · rw [hlayout.upstreamPrefix]
    exact h.upstreamPrefix
  · intro j d hj hd
    simp only [KeyMap.lookup_erase_eq] at hd
    split at hd
    · cases hd
    next hjk =>
      obtain ⟨hzero, n, hn, howned'⟩ := h.owned j d hj hd
      refine ⟨hzero, n, ?_, by rw [howned', ownedPrefix_layout hlayout]⟩
      rw [hindexes]
      refine (List.mem_erase_of_ne ?_).mpr hn
      -- the index of another channel is another one
      rintro rfl
      exact hjk (h.unique j k n ⟨hj, d, hd, by rw [howned']; rfl⟩ howner)
  · intro n hn
    rw [hindexes] at hn
    obtain ⟨hne, hn⟩ := (List.Nodup.mem_erase_iff h.nodup).mp hn
    obtain ⟨j, hj⟩ := h.owner n hn
    refine ⟨j, (howns j n).mpr ⟨?_, hj⟩⟩
    rintro rfl
    obtain ⟨-, d, hd, hdn⟩ := hj
    cases hc.symm.trans hd
    rw [howned] at hdn
    cases hdn
    exact hne rfl
  · intro j j' n hj hj'
    exact h.unique j j' n ((howns j n).mp hj).2 ((howns j' n).mp hj').2
  · rw [hindexes]
    exact h.nodup.erase i

section Aggregated

variable (hmode : cfg.mode = .aggregated)
include hmode

theorem handleOpenSuccess_space (hapi : api.Lawful) (h : SpaceInv api s)
    (m : OpenExtendedMiningChannelSuccess) :
    Meets (fun s' => SpaceInv api s' ∧ Opened s s') AnyError
      (handleOpenExtendedMiningChannelSuccess api cfg s m) := by
  simp only [handleOpenExtendedMiningChannelSuccess, hmode]
  refine (Meets.orThrow fun _ => trivial).bind ?_
  intro pending hpending
  -- a request is pending only as long as there is no shared channel
  have hunconnected : s.aggregatedChannelState ≠ .connected := by
    intro hstate
    rw [(h.connected hstate).2] at hpending
    cases hpending
  have hempty := (h.unconnected hunconnected).1
  split
  · exact .throw trivial
  unfold joinGroup
  simp only [bind_assoc, pure_bind]
  refine (Meets.orThrow fun _ => trivial).bind ?_
  intro group _
  refine Meets.bind (openAggregated_shared hapi ?_ m pending) ?_
  · exact hempty
  rintro ⟨s₁, success⟩ ⟨⟨aggregate, a, hshared⟩, hstate, hopened, hlive, hid⟩
  dsimp only at hshared hstate hlive hid
  replace hopened : s₁.openedChannelIds = s.openedChannelIds := hopened
  have hannounced : (s₁.publishOpenSuccess success).openedChannelIds = s.openedChannelIds ++ [1] := by
    rw [← hid, ← hopened]
    simp [openedChannelIds, publishOpenSuccess, sendSv1, openedChannelId]
  have hnew : s.hasChannel 1 = false := by
    rw [hasChannel, hempty]
    rfl
  have hfirst : Opened s (s₁.publishOpenSuccess success) := by
    refine .of_announced hannounced ⟨by decide, by decide, hnew⟩ hlive ?_
    · intro j hj
      rw [hasChannel, hempty] at hj
      cases hj
  have hpublished : Shared api (s₁.publishOpenSuccess success) aggregate a := hshared.of_eq rfl rfl
  refine (openPending_joined hapi hpublished hstate).mono ?_
  rintro s' ⟨hinv, hopened'⟩
  exact ⟨hinv, hfirst.trans hopened'⟩

theorem handleOpenRequest_space (hapi : api.Lawful) (h : SpaceInv api s)
    (m : OpenExtendedMiningChannel) :
    Meets (fun s' => SpaceInv api s' ∧ Opened s s') AnyError
      (handleOpenExtendedMiningChannel api cfg s m) := by
  have hwaiting : ∀ s' : ChannelManager Ch Gr Al, s.aggregatedChannelState ≠ .connected →
      s'.aggregatedChannelState = .pending → s'.extendedChannels = s.extendedChannels →
      s'.aggregatedExtranonceAllocator = s.aggregatedExtranonceAllocator →
      s'.toSv1Server = s.toSv1Server → SpaceInv api s' ∧ Opened s s' := by
    intro s' hunconnected hstate hchannels hallocator hsent
    obtain ⟨hempty, hnone⟩ := h.unconnected hunconnected
    refine ⟨⟨?_, ?_⟩, .of_same hchannels (by unfold openedChannelIds; rw [hsent])⟩
    · intro hconnected
      rw [hstate] at hconnected
      cases hconnected
    · intro _
      rw [hchannels, hallocator]
      exact ⟨hempty, hnone⟩
  simp only [handleOpenExtendedMiningChannel, hmode]
  split
  next hconnected =>
    obtain ⟨⟨aggregate, a, hshared⟩, hpending⟩ := h.connected hconnected
    refine (handleDownstreamChannelRequest_joined hapi hshared _ _ _).mono ?_
    intro s' hs'
    refine ⟨⟨?_, ?_⟩, hs'.opened⟩
    · intro _
      refine ⟨hs'.shared, ?_⟩
      intro r
      rw [hs'.pending]
      exact hpending r
    · intro hunconnected
      exact absurd (hs'.state.trans hconnected) hunconnected
  next hpending => exact .pure (hwaiting _ (by rw [hpending]; decide) hpending rfl rfl rfl)
  next hnone =>
    refine (Meets.require fun _ => trivial).bind ?_
    intro _ _
    exact .pure (hwaiting _ (by rw [hnone]; decide) rfl rfl rfl rfl)
  · contradiction

theorem handleSetExtranoncePrefix_space (hapi : api.Lawful) (h : SpaceInv api s)
    (channelId : ChannelId) (b : B032) :
    Meets (fun s' => SpaceInv api s' ∧ Opened s s') AnyError
      (handleSetExtranoncePrefix api cfg s channelId b) := by
  simp only [handleSetExtranoncePrefix, hmode]
  refine (Meets.orThrow fun _ => trivial).bind ?_
  intro aggregate haggregate
  have hconnected : s.aggregatedChannelState = .connected := by
    by_contra hunconnected
    rw [(h.unconnected hunconnected).1] at haggregate
    cases haggregate
  obtain ⟨⟨aggregate', a, hshared⟩, hpending⟩ := h.connected hconnected
  cases hshared.found.symm.trans haggregate
  refine (Meets.require fun _ => trivial).bind ?_
  intro _ _
  refine (Meets.require fun _ => trivial).bind ?_
  intro _ _
  refine (Meets.orThrow fun _ => trivial).bind ?_
  intro a₁ ha₁
  cases hshared.allocator.symm.trans ha₁
  refine (Meets.orThrow fun _ => trivial).bind ?_
  intro a' ha'
  refine (Meets.orThrow fun _ => trivial).bind ?_
  intro aggregate' haggregate'
  unfold updateDownstreamPrefixes
  refine (Meets.eq fun _ _ => trivial).bind ?_
  intro channels htried
  refine .pure ?_
  have hmoved : Shared api { s with
      extendedChannels := channels
      aggregatedExtranonceAllocator := some a' } aggregate' a' := by
    refine hshared.moved (hapi.setUpstream_prefix ha') ?_ ?_ ?_
    · have hrel := KeyMap.rel_tryMap htried aggregatedChannelId
      obtain ⟨c, hc, hkept⟩ := exists_of_rel_left hrel (by simp [setChannel]; rfl)
      rw [if_pos rfl] at hkept
      cases hkept
      exact hc
    · rw [hapi.upstream_prefix haggregate', hshared.upstreamPrefix]
      simp [ExtranoncePrefix.localPart]
    · intro k hk
      have hrel := KeyMap.rel_tryMap htried k
      simp only [setChannel, KeyMap.lookup_insert_eq, if_neg hk] at hrel
      generalize s.extendedChannels.lookup k = o at hrel
      generalize channels.lookup k = o' at hrel
      cases hrel with
      | none => exact .none
      | some hinit => exact .some ((initPrefix_meets hapi k _ b.1).ok hinit)
  have hlive : ∀ k, s.hasChannel k = true → (channels.lookup k).isSome = true := by
    intro k hk
    have hset : (s.setChannel aggregatedChannelId aggregate').hasChannel k = true := by
      rw [hasChannel_setChannel, hk, Bool.or_true]
    obtain ⟨c, hc⟩ := Option.isSome_iff_exists.mp hset
    obtain ⟨c', hc', -⟩ := exists_of_rel_left (KeyMap.rel_tryMap htried k) hc
    rw [hc']
    rfl
  refine ⟨⟨fun _ => ⟨⟨aggregate', a', hmoved.of_eq rfl rfl⟩, hpending⟩,
    fun hunconnected => absurd hconnected hunconnected⟩, .of_same rfl, hlive⟩

theorem handleNewExtendedMiningJob_space (hapi : api.Lawful) (m : NewExtendedMiningJob) :
    Meets (SpaceKept api s) AnyError (handleNewExtendedMiningJob api cfg s m) := by
  simp only [handleNewExtendedMiningJob, hmode]
  refine (Meets.require fun _ => trivial).bind ?_
  intro _ _
  refine Meets.any.bind ?_
  intro aggregate _
  refine Meets.any.bind ?_
  intro _ _
  refine (Meets.eq fun _ _ => trivial).bind ?_
  intro channels hchannels
  have hgiven : SpaceKept api s { s with extendedChannels := channels } := by
    refine .setChannels hchannels ?_
    intro k c c' hc'
    exact hapi.job_keeps ((Meets.orThrow (E := AnyError) fun _ => trivial).ok hc')
  split
  · exact .pure hgiven
  · exact (forwardJob_space _).mono fun s' hs' => hgiven.trans hs'

theorem handleSetNewPrevHash_space (hapi : api.Lawful) (m : SetNewPrevHash) :
    Meets (SpaceKept api s) AnyError (handleSetNewPrevHash api cfg s m) := by
  simp only [handleSetNewPrevHash, hmode]
  refine Meets.any.bind ?_
  intro aggregate _
  refine (Meets.eq fun _ _ => trivial).bind ?_
  intro channels hchannels
  have hgiven : SpaceKept api s { s with extendedChannels := channels } := by
    refine .setChannels hchannels ?_
    intro k c c' hc'
    exact (hapi.prevHash_keeps ((Meets.orThrow (E := AnyError) fun _ => trivial).ok hc')).1
  refine Meets.any.bind ?_
  intro _ _
  refine Meets.any.bind ?_
  intro _ _
  exact (forwardPrevHashes_space _ _).mono fun s' hs' => hgiven.trans hs'

theorem handleSetTarget_space (hapi : api.Lawful) (channelId : ChannelId) (target : Target) :
    Meets (SpaceKept api s) AnyError (handleSetTarget api cfg s channelId target) := by
  simp only [handleSetTarget, hmode]
  refine Meets.any.bind ?_
  intro aggregate _
  refine (Meets.eq fun _ _ => trivial).bind ?_
  intro channels hchannels
  have hgiven : SpaceKept api s { s with extendedChannels := channels } := by
    refine .setChannels hchannels ?_
    intro k c c' hc'
    exact (hapi.target_keeps ((Meets.orThrow (E := AnyError) fun _ => trivial).ok hc')).1
  exact .pure (hgiven.trans (.sendSv1 rfl _))

omit hmode in
theorem handleSetGroupChannel_space (groupChannelId : ChannelId) (channelIds : List ChannelId) :
    Meets (SpaceKept api s) AnyError
      (result (handleSetGroupChannel api cfg groupChannelId channelIds) s) := by
  rw [result_handleSetGroupChannel]
  refine Meets.any.bind ?_
  intro group _
  exact .pure (.of_eq rfl rfl rfl rfl rfl)

theorem handleSubmitSharesExtended_space (hapi : api.Lawful) (h : SpaceInv api s)
    (m : SubmitSharesExtended) :
    Meets (SpaceKept api s) AnyError (handleSubmitSharesExtended api cfg s m) := by
  simp only [handleSubmitSharesExtended, hmode]
  split
  next aggregate _ haggregate =>
    refine Meets.any.bind ?_
    intro extranonce _
    have hchecked : SpaceKept api s (s.setChannel aggregatedChannelId (api.validateShare aggregate
        { m with extranonce := extranonce, channelId := api.getChannelId aggregate }).2) :=
      .setChannel haggregate (hapi.share_keeps _ _).1
    split
    · exact .pure (hchecked.trans (.of_eq rfl rfl rfl rfl rfl))
    · exact .pure hchecked
  next hnone =>
    -- without the shared channel there is none
    have hempty : ∀ k, s.extendedChannels.lookup k = none := by
      refine (h.unconnected ?_).1
      intro hconnected
      obtain ⟨⟨aggregate, a, hshared⟩, -⟩ := h.connected hconnected
      exact hnone aggregate rfl hshared.found
    rw [hempty]
    exact .pure (.refl s)

theorem handleCloseDownstreamChannel_space (hapi : api.Lawful) (h : SpaceInv api s)
    (k : ChannelId) :
    SpaceInv api (handleCloseDownstreamChannel api cfg s k) ∧
      FreshlyAnnounced s (handleCloseDownstreamChannel api cfg s k) := by
  unfold handleCloseDownstreamChannel
  split
  · exact ⟨h, .of_same rfl⟩
  next hreserved =>
    have hk : k ≠ aggregatedChannelId := fun hk => hreserved ⟨hmode, hk⟩
    have hrest : SpaceKept api (dropChannel api s k) (leaveGroups api
        { dropChannel api s k with sv1AdvertisedExtranoncePrefixes :=
          (dropChannel api s k).sv1AdvertisedExtranoncePrefixes.erase k } k) :=
      .of_eq rfl rfl rfl rfl rfl
    have hdropped : SpaceInv api (dropChannel api s k) ∧
        (dropChannel api s k).openedChannelIds = s.openedChannelIds := by
      unfold dropChannel
      split
      next c hc =>
        refine ⟨⟨?_, ?_⟩, rfl⟩
        · intro hconnected
          obtain ⟨⟨aggregate, a, hshared⟩, hpending⟩ := h.connected hconnected
          refine ⟨⟨aggregate, _, (hshared.dropped hapi hk hc).of_eq rfl ?_⟩, hpending⟩
          rw [hshared.allocator]
          rfl
        · intro hunconnected
          rw [(h.unconnected hunconnected).1] at hc
          cases hc
      · exact ⟨h, rfl⟩
    exact ⟨hdropped.1.of_kept hrest, .of_same (hrest.opened.trans hdropped.2)⟩

/-! ## Runs -/

theorem handle_space (hapi : api.Lawful) (h : SpaceInv api s) (e : Event) :
    Meets (fun s' => SpaceInv api s' ∧ FreshlyAnnounced s s') AnyError (handle api cfg s e) := by
  have hkept : ∀ {x : Except TproxyError (ChannelManager Ch Gr Al)},
      Meets (SpaceKept api s) AnyError x →
      Meets (fun s' => SpaceInv api s' ∧ FreshlyAnnounced s s') AnyError x :=
    fun hx => hx.mono fun s' hs' => ⟨h.of_kept hs', .of_same hs'.opened⟩
  have hopened : ∀ {x : Except TproxyError (ChannelManager Ch Gr Al)},
      Meets (fun s' => SpaceInv api s' ∧ Opened s s') AnyError x →
      Meets (fun s' => SpaceInv api s' ∧ FreshlyAnnounced s s') AnyError x :=
    fun hx => hx.mono fun s' hs' => ⟨hs'.1, hs'.2.announced⟩
  cases e with
  | openExtendedMiningChannelSuccess m => exact hopened (handleOpenSuccess_space hmode hapi h m)
  | openMiningChannelError => exact .throw trivial
  | closeChannel k =>
    simp only [handle, handleCloseChannel, if_pos hmode]
    exact .throw trivial
  | setExtranoncePrefix k b => exact hopened (handleSetExtranoncePrefix_space hmode hapi h k b)
  | newExtendedMiningJob m => exact hkept (handleNewExtendedMiningJob_space hmode hapi m)
  | setNewPrevHash m => exact hkept (handleSetNewPrevHash_space hmode hapi m)
  | setTarget k target => exact hkept (handleSetTarget_space hmode hapi k target)
  | setGroupChannel g ks => exact hkept (handleSetGroupChannel_space g ks)
  | openExtendedMiningChannel m => exact hopened (handleOpenRequest_space hmode hapi h m)
  | submitSharesExtended m => exact hkept (handleSubmitSharesExtended_space hmode hapi h m)
  | closeDownstreamChannel k => exact .pure (handleCloseDownstreamChannel_space hmode hapi h k)

theorem step_space (hapi : api.Lawful) (h : SpaceInv api s) (act : Action) :
    SpaceInv api (step api cfg s act) ∧ FreshlyAnnounced s (step api cfg s act) := by
  have hkept : ∀ {s' : ChannelManager Ch Gr Al}, SpaceKept api s s' →
      SpaceInv api s' ∧ FreshlyAnnounced s s' :=
    fun hs' => ⟨h.of_kept hs', .of_same hs'.opened⟩
  cases act with
  | event e =>
    rw [step_event]
    split
    · exact hkept (.refl s)
    split
    next s' hs' => exact (handle_space hmode hapi h e).ok hs'
    next err herr =>
      unfold fail
      split
      · exact hkept (.refl s)
      · exact hkept (.of_eq rfl rfl rfl rfl rfl)
  | touchChannel k =>
    refine hkept ⟨?_, rfl, rfl, rfl, rfl⟩
    intro j
    simp only [step, KeyMap.lookup_modify_id]
    exact (SpaceKept.refl s).channels j
  | touchPending r =>
    refine ⟨⟨?_, h.unconnected⟩, .of_same rfl⟩
    intro hconnected
    obtain ⟨⟨aggregate, a, hshared⟩, hpending⟩ := h.connected hconnected
    refine ⟨⟨aggregate, a, hshared.of_eq rfl rfl⟩, ?_⟩
    intro j
    simp only [step, KeyMap.lookup_modify_id]
    exact hpending j
  | touchGroup g => exact hkept (.of_eq rfl rfl rfl rfl rfl)

end Aggregated

/-! ## The division -/

theorem mem_downstreamChannelIds {k : ChannelId} :
    k ∈ s.downstreamChannelIds ↔ k ≠ aggregatedChannelId ∧ s.hasChannel k = true := by
  unfold downstreamChannelIds hasChannel
  rw [AList.lookup_isSome, AList.mem_keys, List.mem_filter, and_comm, decide_eq_true_eq]

/-- As many indexes are in use as there are miners. -/
theorem Shared.slots {aggregate : Ch} {a : Al} (h : Shared api s aggregate a) :
    (api.localIndexes a).length = s.downstreamChannelIds.length := by
  let indexOf : ChannelId → Nat := fun k => ((s.extendedChannels.lookup k).bind fun c =>
    (api.getExtranoncePrefix c).localIndex).getD 0
  have hindex : ∀ {k i}, Owns api s k i → indexOf k = i := by
    rintro k i ⟨-, c, hc, hi⟩
    simp only [indexOf, hc, Option.bind_some, hi, Option.getD_some]
  have howns : ∀ k ∈ s.downstreamChannelIds, Owns api s k (indexOf k) ∧
      indexOf k ∈ api.localIndexes a := by
    intro k hk
    obtain ⟨hreserved, hlive⟩ := mem_downstreamChannelIds.mp hk
    obtain ⟨c, hc⟩ := Option.isSome_iff_exists.mp hlive
    obtain ⟨-, i, hi, howned⟩ := h.owned k c hreserved hc
    have howner : Owns api s k i := ⟨hreserved, c, hc, by rw [howned]; rfl⟩
    rw [hindex howner]
    exact ⟨howner, hi⟩
  have hperm : (s.downstreamChannelIds.map indexOf).Perm (api.localIndexes a) := by
    refine (List.perm_ext_iff_of_nodup ?_ h.nodup).mpr ?_
    · refine List.Nodup.map_on ?_ ((AList.keys_nodup _).filter _)
      intro k hk k' hk' heq
      have howner := (howns k' hk').1
      rw [← heq] at howner
      exact h.unique k k' _ (howns k hk).1 howner
    · intro i
      rw [List.mem_map]
      constructor
      · rintro ⟨k, hk, rfl⟩
        exact (howns k hk).2
      · intro hi
        obtain ⟨k, hk⟩ := h.owner i hi
        obtain ⟨c, hc, -⟩ := hk.2
        exact ⟨k, mem_downstreamChannelIds.mpr ⟨hk.1, hasChannel_of_lookup hc⟩, hindex hk⟩
  rw [← hperm.length_eq, List.length_map]

/-- A channel of a miner, with its id. -/
def IsDownstream (s : ChannelManager Ch Gr Al) (k : ChannelId) (c : Ch) : Prop :=
  k ≠ aggregatedChannelId ∧ s.extendedChannels.lookup k = some c

structure SpaceDivided (api : ClientChannels Ch Gr Al) (s : ChannelManager Ch Gr Al) : Prop where
  ids : ∀ k ∈ s.downstreamChannelIds, 0 < k ∧ k < aggregatedChannelId
  /-- Shared channel and allocator hold the same upstream prefix. -/
  upstream : ∀ aggregate, s.extendedChannels.lookup aggregatedChannelId = some aggregate →
    ∃ a, s.aggregatedExtranonceAllocator = some a ∧
      (api.getExtranoncePrefix aggregate).bytes = api.getUpstreamPrefix a
  prefixes : ∀ k c, IsDownstream s k c → ∃ aggregate,
    s.extendedChannels.lookup aggregatedChannelId = some aggregate ∧
    (api.getExtranoncePrefix c).bytes = (api.getExtranoncePrefix aggregate).bytes ++
      (api.getExtranoncePrefix c).localPart
  lengths : ∀ k c k' c', IsDownstream s k c → IsDownstream s k' c' →
    (api.getExtranoncePrefix c).localPart.length = (api.getExtranoncePrefix c').localPart.length
  distinct : ∀ k c k' c', IsDownstream s k c → IsDownstream s k' c' → k ≠ k' →
    (api.getExtranoncePrefix c).localPart ≠ (api.getExtranoncePrefix c').localPart
  /-- Whatever two miners roll, their extranonces are different. -/
  noOverlap : ∀ k c k' c', IsDownstream s k c → IsDownstream s k' c' → k ≠ k' →
    ∀ x y : Bytes, (api.getExtranoncePrefix c).bytes ++ x ≠ (api.getExtranoncePrefix c').bytes ++ y
  /-- The indexes in use are those of the miners. -/
  slots : (s.aggregatedExtranonceAllocator.map fun a => (api.localIndexes a).length).getD 0 =
    s.downstreamChannelIds.length

theorem Shared.divided {aggregate : Ch} {a : Al} (hapi : api.Lawful)
    (h : Shared api s aggregate a) : SpaceDivided api s := by
  have hlocal : ∀ k c, IsDownstream s k c → k ≠ 0 ∧ ∃ i ∈ api.localIndexes a,
      Owns api s k i ∧ (api.getExtranoncePrefix c).bytes =
        api.getUpstreamPrefix a ++ api.localPartOf a i ∧
      (api.getExtranoncePrefix c).localPart = api.localPartOf a i := by
    rintro k c ⟨hk, hc⟩
    obtain ⟨hzero, i, hi, howned⟩ := h.owned k c hk hc
    refine ⟨hzero, i, hi, ⟨hk, c, hc, by rw [howned]; rfl⟩, by rw [howned]; rfl, ?_⟩
    rw [howned, ownedPrefix_localPart]
  have hlengths : ∀ k c k' c', IsDownstream s k c → IsDownstream s k' c' →
      (api.getExtranoncePrefix c).localPart.length =
        (api.getExtranoncePrefix c').localPart.length := by
    intro k c k' c' hk hk'
    obtain ⟨-, i, -, -, -, hi⟩ := hlocal k c hk
    obtain ⟨-, i', -, -, -, hi'⟩ := hlocal k' c' hk'
    rw [hi, hi', hapi.localPart_length a i i']
  have hdistinct : ∀ k c k' c', IsDownstream s k c → IsDownstream s k' c' → k ≠ k' →
      (api.getExtranoncePrefix c).localPart ≠ (api.getExtranoncePrefix c').localPart := by
    intro k c k' c' hk hk' hne heq
    obtain ⟨-, i, hi, howner, -, hlocali⟩ := hlocal k c hk
    obtain ⟨-, i', hi', howner', -, hlocali'⟩ := hlocal k' c' hk'
    rw [hlocali, hlocali'] at heq
    rw [← hapi.localPart_injective a i hi i' hi' heq] at howner'
    exact hne (h.unique k k' i howner howner')
  refine ⟨?_, ?_, ?_, hlengths, hdistinct, ?_, ?_⟩
  · intro k hk
    obtain ⟨hreserved, hlive⟩ := mem_downstreamChannelIds.mp hk
    obtain ⟨c, hc⟩ := Option.isSome_iff_exists.mp hlive
    obtain ⟨hzero, -⟩ := hlocal k c ⟨hreserved, hc⟩
    have hmax : aggregatedChannelId.toNat = 4294967295 := rfl
    have hlt := k.toNat_lt
    have hne : k.toNat ≠ aggregatedChannelId.toNat := fun heq => hreserved (UInt32.toNat_inj.mp heq)
    have hpos : k.toNat ≠ 0 := fun heq => hzero (UInt32.toNat_inj.mp heq)
    rw [UInt32.lt_iff_toNat_lt, UInt32.lt_iff_toNat_lt]
    refine ⟨?_, ?_⟩
    · rw [UInt32.toNat_zero]
      omega
    · omega
  · intro aggregate' haggregate
    cases h.found.symm.trans haggregate
    exact ⟨a, h.allocator, by rw [h.upstreamPrefix]⟩
  · intro k c hk
    obtain ⟨-, i, -, -, hbytes, hlocali⟩ := hlocal k c hk
    refine ⟨aggregate, h.found, ?_⟩
    rw [hbytes, hlocali, h.upstreamPrefix]
  · intro k c k' c' hk hk' hne x y heq
    obtain ⟨-, i, -, -, hbytes, hlocali⟩ := hlocal k c hk
    obtain ⟨-, i', -, -, hbytes', hlocali'⟩ := hlocal k' c' hk'
    rw [hbytes, hbytes', List.append_assoc, List.append_assoc] at heq
    have hparts := List.append_inj (List.append_cancel_left heq) (hapi.localPart_length a i i')
    refine hdistinct k c k' c' hk hk' hne ?_
    rw [hlocali, hlocali', hparts.1]
  · rw [h.allocator]
    exact h.slots

theorem SpaceInv.divided (hapi : api.Lawful) (h : SpaceInv api s) : SpaceDivided api s := by
  by_cases hconnected : s.aggregatedChannelState = .connected
  · obtain ⟨⟨aggregate, a, hshared⟩, -⟩ := h.connected hconnected
    exact hshared.divided hapi
  · obtain ⟨hempty, hnone⟩ := h.unconnected hconnected
    have hno : ∀ {k c}, s.extendedChannels.lookup k = some c → False := by
      intro k c hc
      rw [hempty] at hc
      cases hc
    have hids : s.downstreamChannelIds = [] := by
      rw [List.eq_nil_iff_forall_not_mem]
      intro k hk
      obtain ⟨c, hc⟩ := Option.isSome_iff_exists.mp (mem_downstreamChannelIds.mp hk).2
      exact hno hc
    refine ⟨?_, fun _ hc => (hno hc).elim, fun _ _ hc => (hno hc.2).elim,
      fun _ _ _ _ hc => (hno hc.2).elim, fun _ _ _ _ hc => (hno hc.2).elim,
      fun _ _ _ _ hc => (hno hc.2).elim, ?_⟩
    · rw [hids]
      intro k hk
      cases hk
    · rw [hnone, hids]
      rfl

/-- In every state that the manager reaches with aggregation the search space is divided among
    the miners, and whatever comes next: the channels that it opens have free ids. -/
theorem search_space_divided (hapi : api.Lawful) (hmode : cfg.mode = .aggregated)
    (as : List Action) :
    let s := after api cfg as
    SpaceDivided api s ∧ ∀ act, FreshlyAnnounced s (step api cfg s act) := by
  intro s
  have hinv : SpaceInv api s := Runs.run_invariant (SpaceInv api)
    (fun s act h => (step_space hmode hapi h act).1) spaceInv_start as
  exact ⟨hinv.divided hapi, fun act => (step_space hmode hapi hinv act).2⟩

/-- Two buffered requests, a third miner after the first one has left, and a longer prefix. -/
def dividedRun : List Action :=
  [sampleRequest 1, sampleRequest 2, sampleGrant 1 5 7 samplePrefix,
   .event (.closeDownstreamChannel 1), sampleRequest 3,
   .event (.setExtranoncePrefix 5 ⟨[2, 2], by decide⟩)]

theorem search_space_divided_rejoined :
    let s := after referenceChannels (sampleConfig .aggregated) dividedRun
    s.downstreamChannelIds.length = 2 ∧ s.openedChannelIds = [1, 2, 3] ∧
      SpaceDivided referenceChannels s :=
  ⟨by decide +kernel, by decide +kernel,
    (search_space_divided referenceChannels_lawful rfl dividedRun).1⟩

end ChannelManager

end Sv2Apps.Translator
