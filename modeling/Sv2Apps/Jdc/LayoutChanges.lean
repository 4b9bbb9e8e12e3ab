/-
  Jdc/LayoutChanges.lean
  ======================
  **Channels get prefixes** — a channel that is opened at a connected client gets a prefix of the
  allocator (`LayoutInv.opens`), and the channels of one connection get prefixes of a new allocator
  (`LayoutInv.renew`).
-/
import Sv2Apps.Jdc.ExtranonceLayout

namespace Sv2Apps.Jdc

open Bitcoin

namespace ChannelManager

variable {env : Env} {s s' : ChannelManager} {d : DownstreamId}

/-! ## Opening a channel -/

theorem mem_takenIndexes {k : ChannelKind} {ch : ChannelId} {c : Channel} (hc : s.IsOpen d k ch c)
    (hgeneration : c.generation = s.extranonceAllocator.generation) :
    localIndex s.extranonceAllocator.upstreamPrefix c.extranoncePrefix ∈ s.takenIndexes := by
  obtain ⟨ds, hds, hc⟩ := hc
  refine List.mem_flatMap.mpr ⟨⟨d, ds⟩, (KeyMap.mem_entries_iff _ _ _).mpr hds, ?_⟩
  exact List.mem_filterMap.mpr ⟨(k, ch, c), Downstream.mem_openChannels.mpr hc, if_pos hgeneration⟩

theorem Connected.fullExtranonceSize_eq (h : Connected s) :
    s.fullExtranonceSize = s.extranonceAllocator.totalLen := by
  obtain ⟨rollable, hu, hfull⟩ := h.upstream
  obtain ⟨u, hu, heq⟩ := Option.map_eq_some_iff.mp hu
  obtain ⟨hbytes, hrollable⟩ := Prod.mk.inj heq
  rw [fullExtranonceSize, hu, ← hfull, ← hbytes, ← hrollable]
  rfl

/-- What a prefix that the allocator gives to a channel has. -/
structure Given (a : ExtranonceAllocator) (taken : List Bytes) (k : ChannelKind) (bytes : Bytes) :
    Prop where
  isPrefix : a.upstreamPrefix <+: bytes
  length : bytes.length = match k with
    | .standard => a.totalLen
    | .extended => a.upstreamPrefix.length + localPrefixBytes
  free : localIndex a.upstreamPrefix bytes ∉ taken

theorem given_of_gives {a : ExtranonceAllocator} {taken : List Bytes} {k : ChannelKind}
    {bytes : Bytes} (h : a.gives taken k bytes = true) : Given a taken k bytes := by
  simp only [ExtranonceAllocator.gives, Bool.and_eq_true, decide_eq_true_eq, Bool.not_eq_true',
    List.contains_eq_mem, decide_eq_false_iff_not, List.isPrefixOf_iff_prefix] at h
  exact ⟨h.1.1, h.1.2, h.2⟩

/-- The bytes of the allocator and what is left to roll. -/
theorem Given.rolls (h : Connected s) {taken : List Bytes} {k : ChannelKind} {bytes : Bytes}
    (hgiven : Given s.extranonceAllocator taken k bytes) :
    bytes.length + s.openedRollable bytes k = s.extranonceAllocator.totalLen := by
  have hlen := hgiven.length
  have hroom := h.room
  have hfits := h.fits
  cases k with
  | standard => exact hlen
  | extended =>
    simp only [localPrefixBytes, maxExtranonceLen] at hlen hroom hfits
    rw [openedRollable, h.fullExtranonceSize_eq, rollableSize, UInt16.toNat_ofNat']
    omega

/-- A prefix of the allocator leaves every size in its type. -/
theorem recordRollableSize_eq (h : Connected s) {r : PendingRequest} {ans : OpenAnswers}
    (hgiven : ∀ bytes, ans.allocation = .allocated bytes →
      Given s.extranonceAllocator s.takenIndexes r.request.kind.channelKind bytes) :
    s.recordRollableSize r ans = s := by
  unfold recordRollableSize
  split
  next m bytes hkind hallocation =>
    have hlen := (hgiven bytes hallocation).length
    have hroom := h.room
    have hfits := h.fits
    rw [hkind] at hlen
    simp only [OpenKind.channelKind, localPrefixBytes, maxExtranonceLen] at hlen hroom hfits
    have hsmall : ¬ s.fullExtranonceSize < bytes.length := by
      rw [h.fullExtranonceSize_eq]
      omega
    have hnarrow : ¬ 2 ^ 16 ≤ s.fullExtranonceSize - bytes.length := by
      rw [h.fullExtranonceSize_eq]
      omega
    simp only [hsmall, hnarrow, decide_false, Bool.or_false]
  · rfl

/-- How an open request that does not fail changes channels and what the miners know. -/
theorem Opens.layout {r : PendingRequest} {ans : OpenAnswers} (h : Opens s r ans s') :
    LayoutFrame s s' ∨ ∃ ds ds' bytes c, s.downstream.lookup r.downstreamId = some ds ∧
      s'.downstream = s.downstream.insert r.downstreamId ds' ∧ ans.allocation = .allocated bytes ∧
      OpensChannel ds ds' r.request.kind.channelKind c ∧ c.extranoncePrefix = bytes ∧
      c.rollableExtranonceSize = s.openedRollable bytes r.request.kind.channelKind ∧
      c.generation = s.extranonceAllocator.generation ∧ s'.upstreamState = s.upstreamState ∧
      s'.sizeWrapped = s.sizeWrapped ∧ s'.extranonceAllocator = s.extranonceAllocator ∧
      s'.upstreamLayout = s.upstreamLayout ∧ ∀ key, toldPrefix s'.sent key =
        if (r.downstreamId, ds.channelIdFactory) = key then some bytes else toldPrefix s.sent key := by
  have htold : ∀ {success job : MiningMessage} {ch : ChannelId} {jobId : JobId} {p : SetNewPrevHash}
      {bytes : Bytes} (key : DownstreamId × ChannelId),
      (Message.downstream r.downstreamId job).tellsPrefix = none →
      (Message.downstream r.downstreamId success).tellsPrefix = some ((r.downstreamId, ch), bytes) →
      toldPrefix (announcement r.downstreamId success job ch jobId p ++ s.sent) key =
        if (r.downstreamId, ch) = key then some bytes else toldPrefix s.sent key := by
    intro success job ch jobId p bytes key hjob hsuccess
    have hprevHash : (Message.downstream r.downstreamId (.setNewPrevHash ch jobId p)).tellsPrefix =
        none := rfl
    simp only [announcement, toldPrefix, List.cons_append, List.nil_append, List.findSome?_cons,
      hprevHash, hjob, hsuccess, Option.bind_none, Option.bind_some]
    by_cases heq : (r.downstreamId, ch) = key
    · simp only [if_pos heq]
    · simp only [if_neg heq]
  cases h with
  | refused ds factory code hds =>
    have hs' : (s.refuseOpen r.downstreamId { ds with channelIdFactory := factory } r.request
        code).downstream =
          s.downstream.insert r.downstreamId { ds with channelIdFactory := factory } := rfl
    refine Or.inl (.of_insert hds ?_ ?_ hs' rfl rfl rfl rfl
      ⟨[_], rfl, by simp [Message.tellsPrefix]⟩)
    · rfl
    · intro k ch c hc
      cases k <;> exact ⟨c, hc, rfl, rfl, rfl⟩
  | standard ds bytes t p raw outs jobId group hkind hds hallocation =>
    rw [hkind]
    refine Or.inr ⟨ds, _, bytes, _, hds, rfl, hallocation, ⟨rfl, ?_, rfl, rfl, rfl, rfl, rfl, rfl⟩, rfl,
      rfl, rfl, rfl, rfl, rfl, rfl, fun key => htold key rfl rfl⟩
    intro k hk
    cases k with
    | standard => exact absurd rfl hk
    | extended => rfl
  | extended ds bytes m t p raw outs jobId group hkind hds hstd hallocation =>
    rw [hkind]
    refine Or.inr ⟨ds, _, bytes, _, hds, rfl, hallocation, ⟨rfl, ?_, rfl, rfl, rfl, rfl, rfl, rfl⟩, rfl,
      rfl, rfl, rfl, rfl, rfl, rfl, fun key => htold key rfl rfl⟩
    intro k hk
    cases k with
    | standard => rfl
    | extended => exact absurd rfl hk

/-- A request is handled at a client that is connected. -/
theorem LayoutInv.opens (h : LayoutInv s) (hstate : s.upstreamState = .connected)
    (hsettled : s.loop.isSettled = true) (hrun : s.loop.hasFallenBack = false) {r : PendingRequest}
    {ans : OpenAnswers} (hopens : Opens s r ans s')
    (hgiven : ∀ bytes, ans.allocation = .allocated bytes →
      Given s.extranonceAllocator s.takenIndexes r.request.kind.channelKind bytes)
    (hfree : ∀ ds, s.downstream.lookup r.downstreamId = some ds → idIsFree ds = true)
    {loop : LoopTask} (hloop : loop.isSettled = true) : LayoutInv { s' with loop := loop } := by
  have hstarted : s.loop.hasFallenBack = true → loop.hasFallenBack = true := by
    intro hs
    rw [hrun] at hs
    cases hs
  rcases hopens.layout with hframe | ⟨ds, ds', bytes, c, hds, hs', hallocation, hnew, hbytes,
    hrollable, hgeneration, hstate', hwrapped, ha, hu, htold⟩
  · exact h.frame (hframe.withLoop loop) (Or.inr ⟨hsettled, hloop⟩) hstarted
      (fun _ => hframe.state.trans hstate)
  have hconn := h.connected hstate hrun
  have hgiven := hgiven bytes hallocation
  have hfree := idIsFree_lookup (hfree ds hds)
  have hrenewed : ∀ d, s.loop.hasRenewed d := fun d => (LoopTask.of_isSettled hsettled d).2.1
  -- an open channel is the new one, or was open under another id
  have hopen : ∀ {d k ch c₁}, IsOpen { s' with loop := loop } d k ch c₁ →
      (d = r.downstreamId ∧ k = r.request.kind.channelKind ∧ ch = ds.channelIdFactory ∧ c₁ = c) ∨
      (s.IsOpen d k ch c₁ ∧ (r.downstreamId, ds.channelIdFactory) ≠ (d, ch)) := by
    rintro d k ch c₁ ⟨ds₁, hds₁, hc₁⟩
    rcases lookup_of_insert hs' hds₁ with ⟨rfl, rfl⟩ | ⟨hne, hds₁⟩
    · rcases lookup_opened hnew hc₁ with ⟨hk, hch, hc⟩ | ⟨-, hc⟩
      · exact Or.inl ⟨rfl, hk, hch, hc⟩
      · refine Or.inr ⟨⟨ds, hds, hc⟩, ?_⟩
        intro heq
        cases heq
        rw [hfree k] at hc
        cases hc
    · exact Or.inr ⟨⟨ds₁, hds₁, hc₁⟩, fun heq => hne (congrArg Prod.fst heq).symm⟩
  have hindex : ∀ {d k ch c₁}, s.IsOpen d k ch c₁ →
      localIndex s.extranonceAllocator.upstreamPrefix c₁.extranoncePrefix ≠
        localIndex s.extranonceAllocator.upstreamPrefix c.extranoncePrefix := by
    intro d k ch c₁ hc₁ heq
    apply hgiven.free
    rw [← hbytes, ← heq]
    exact mem_takenIndexes hc₁ (hconn.holds d k ch c₁ hc₁ (hrenewed d)).generation
  refine ⟨hwrapped.trans h.sizes, ?_, fun _ => hstate'.trans hstate, ?_, ?_⟩
  · rw [hstate']
    exact h.upstream
  · intro d k k' ch c₁ c₂ hc₁ hc₂
    rcases hopen hc₁ with ⟨rfl, rfl, rfl, rfl⟩ | ⟨hc₁, hne⟩
    · rcases hopen hc₂ with ⟨-, rfl, -, -⟩ | ⟨-, hne⟩
      · rfl
      · exact absurd rfl hne
    · rcases hopen hc₂ with ⟨rfl, rfl, rfl, rfl⟩ | ⟨hc₂, -⟩
      · exact absurd rfl hne
      · exact h.disjoint d k k' ch c₁ c₂ hc₁ hc₂
  · intro _ _
    have hout : outgoing { s' with loop := loop } = s'.sent := by
      rw [outgoing, (LoopTask.of_isSettled hloop 0).2.2]
      rfl
    have hout₀ : s.outgoing = s.sent := by
      rw [outgoing, (LoopTask.of_isSettled hsettled 0).2.2]
      rfl
    refine ⟨?_, ?_, ?_, ?_, ?_, ?_, ?_, ?_, ?_, ?_, ?_⟩
    · have hu : upstreamLayout { s' with loop := loop } = s.upstreamLayout := hu
      rw [hu]
      dsimp only
      rw [ha]
      exact hconn.upstream
    · dsimp only
      rw [ha]
      exact hconn.room
    · dsimp only
      rw [ha]
      exact hconn.fits
    · intro d ds₁ hds₁ _
      dsimp only
      rw [ha]
      rcases lookup_of_insert hs' hds₁ with ⟨rfl, rfl⟩ | ⟨-, hds₁⟩
      · rw [hnew.size]
        exact hconn.groups _ ds hds (LoopTask.of_isSettled hsettled _).1
      · exact hconn.groups d ds₁ hds₁ (LoopTask.of_isSettled hsettled _).1
    · intro size customJob present visited heq
      rw [show loop = _ from heq] at hloop
      cases hloop
    · intro present visited rs heq
      rw [show loop = _ from heq] at hloop
      cases hloop
    · intro d k ch c₁ hc₁
      dsimp only
      rw [ha]
      rcases hopen hc₁ with ⟨rfl, rfl, rfl, rfl⟩ | ⟨hc₁, -⟩
      · have hrolls := hgiven.rolls hconn
        have hlength := hgiven.length
        generalize r.request.kind.channelKind = k at hrolls hlength hrollable
        cases k with
        | standard => exact hrollable
        | extended =>
          rw [Rolls, hrollable, ← hrolls]
          exact congrArg (· + _) hlength.symm
      · exact hconn.rolls d k ch c₁ hc₁
    · intro d k ch c₁ _ hnot
      exact absurd (LoopTask.of_isSettled hloop d).2.1 hnot
    · intro d k ch c₁ hc₁ _
      dsimp only
      rw [ha]
      rcases hopen hc₁ with ⟨rfl, rfl, rfl, rfl⟩ | ⟨hc₁, -⟩
      · exact ⟨hgeneration, by rw [hbytes]; exact hgiven.isPrefix,
          by rw [hbytes]; exact hgiven.length⟩
      · exact hconn.holds d k ch c₁ hc₁ (hrenewed d)
    · intro d k ch c₁ d' k' ch' c₁' hc₁ hc₁' _ _ heq
      dsimp only at heq
      rw [ha] at heq
      rcases hopen hc₁ with ⟨rfl, rfl, rfl, rfl⟩ | ⟨hc₁, -⟩
      · rcases hopen hc₁' with ⟨rfl, rfl, rfl, rfl⟩ | ⟨hc₁', -⟩
        · rfl
        · exact absurd heq.symm (hindex hc₁')
      · rcases hopen hc₁' with ⟨rfl, rfl, rfl, rfl⟩ | ⟨hc₁', -⟩
        · exact absurd heq (hindex hc₁)
        · exact hconn.distinct d k ch c₁ d' k' ch' c₁' hc₁ hc₁' (hrenewed d) (hrenewed d') heq
    · intro d k ch c₁ hc₁ _
      rw [hout, htold]
      rcases hopen hc₁ with ⟨rfl, rfl, rfl, rfl⟩ | ⟨hc₁, hne⟩
      · rw [if_pos rfl, hbytes]
      · rw [if_neg hne, ← hout₀]
        exact hconn.told d k ch c₁ hc₁ (hrenewed d)

/-! ## New prefixes -/

/-- The prefixes for channels that ask one after the other are all different. -/
theorem given_of_givesAll {a : ExtranonceAllocator} {answers : ChannelId → AllocationAnswer}
    {taken : List Bytes} {cs : List (ChannelKind × ChannelId × Channel)}
    (h : a.givesAll answers taken cs = true) :
    (∀ x ∈ cs, ∀ bytes, answers x.2.1 = .allocated bytes → Given a taken x.1 bytes) ∧
    cs.Pairwise fun x y => ∀ b b', answers x.2.1 = .allocated b → answers y.2.1 = .allocated b' →
      localIndex a.upstreamPrefix b ≠ localIndex a.upstreamPrefix b' := by
  induction cs generalizing taken with
  | nil => simp
  | cons x cs ih =>
    obtain ⟨k, ch, c⟩ := x
    rw [List.forall_mem_cons, List.pairwise_cons]
    cases hch : answers ch with
    | allocated bytes =>
      simp only [ExtranonceAllocator.givesAll, hch, Bool.and_eq_true] at h
      obtain ⟨hrest, hpairwise⟩ := ih h.2
      refine ⟨⟨?_, ?_⟩, ?_, hpairwise⟩
      · intro b hb
        cases hb
        exact given_of_gives h.1
      · intro y hy b hb
        have hgiven := hrest y hy b hb
        exact ⟨hgiven.isPrefix, hgiven.length, fun hmem => hgiven.free (List.mem_cons_of_mem _ hmem)⟩
      · intro y hy b b' hb hb' heq
        cases hb
        apply (hrest y hy b' hb').free
        rw [← heq]
        exact List.mem_cons_self
    | _ =>
      simp only [ExtranonceAllocator.givesAll, hch] at h
      obtain ⟨hrest, hpairwise⟩ := ih h
      refine ⟨⟨?_, hrest⟩, ?_, hpairwise⟩
      · intro b hb
        cases hb
      · intro y hy b b' hb
        cases hb

theorem mem_renewals {ans : PrefixAnswers} {channelIds : List ChannelId} {r : Renewal} :
    r ∈ renewals d ans channelIds ↔ ∃ ch ∈ channelIds, ∃ bytes, ans.allocation ch = .allocated bytes ∧
      ans.channelAccepts ch = true ∧ r = ⟨d, ch, bytes⟩ := by
  rw [renewals, List.mem_flatMap]
  refine exists_congr fun ch => and_congr_right fun _ => ?_
  cases hch : ans.allocation ch with
  | allocated bytes =>
    by_cases haccepts : ans.channelAccepts ch = true
    · simp [haccepts]
    · simp [haccepts]
  | _ => simp

theorem renew_eq {ans : PrefixAnswers} {ch : ChannelId} (h : ans.renews ch = true) :
    ∃ bytes, ans.allocation ch = .allocated bytes ∧ ans.channelAccepts ch = true ∧
      ∀ generation c, renew generation ans ch c =
        { c with extranoncePrefix := bytes, generation := generation } := by
  unfold PrefixAnswers.renews at h
  split at h
  next bytes hallocation =>
    refine ⟨bytes, hallocation, h, ?_⟩
    intro generation c
    rw [renew, hallocation]
    exact if_pos h
  · cases h

theorem Renewal.tellsPrefix (r : Renewal) :
    r.message.tellsPrefix = some ((r.downstreamId, r.channelId), r.extranoncePrefix) := rfl

/-- The channels of one connection get their new prefixes. -/
theorem LayoutInv.renew (h : LayoutInv s) {present visited : List DownstreamId} {rs : List Renewal}
    (hloop : s.loop = .setExtranoncePrefix present visited rs) {ds : Downstream}
    (hds : s.downstream.lookup d = some ds) (hvisited : d ∉ visited) {ans : PrefixAnswers}
    (hlaw : s.extranonceAllocator.givesAll ans.allocation s.takenIndexes ds.openChannels = true)
    (hok : s.upstreamState = .connected →
      ds.openChannels.all (fun c => ans.renews c.2.1) = true) :
    LayoutInv { (s.visitSetExtranoncePrefix d ds ans).1 with
      loop := .setExtranoncePrefix present (d :: visited)
        (rs ++ (s.visitSetExtranoncePrefix d ds ans).2) } := by
  generalize hs' : ({ (s.visitSetExtranoncePrefix d ds ans).1 with
      loop := .setExtranoncePrefix present (d :: visited)
        (rs ++ (s.visitSetExtranoncePrefix d ds ans).2) } : ChannelManager) = s'
  have hdownstream : s'.downstream = s.downstream.insert d
      (renewedDownstream s.extranonceAllocator.generation ans ds) := by
    rw [← hs']
    rfl
  have hloop' : s'.loop = .setExtranoncePrefix present (d :: visited)
      (rs ++ renewals d ans (ds.standardChannels.keys ++ ds.extendedChannels.keys)) := by
    rw [← hs']
    rfl
  have hsame : s'.sizeWrapped = s.sizeWrapped ∧ s'.upstreamState = s.upstreamState ∧
      s'.extranonceAllocator = s.extranonceAllocator ∧ s'.upstreamLayout = s.upstreamLayout ∧
      s'.sent = s.sent := by
    rw [← hs']
    exact ⟨rfl, rfl, rfl, rfl, rfl⟩
  clear hs'
  obtain ⟨hwrapped, hstate, ha, hu, hsent⟩ := hsame
  -- an open channel belongs to the connection and is renewed, or belongs to another one
  have hopen : ∀ {d₁ k ch c'}, s'.IsOpen d₁ k ch c' →
      (d₁ = d ∧ ∃ c, (ds.channels k).lookup ch = some c ∧
        c' = ChannelManager.renew s.extranonceAllocator.generation ans ch c) ∨
      (d₁ ≠ d ∧ s.IsOpen d₁ k ch c') := by
    rintro d₁ k ch c' ⟨ds₁, hds₁, hc'⟩
    rcases lookup_of_insert hdownstream hds₁ with ⟨rfl, rfl⟩ | ⟨hne, hds₁⟩
    · exact Or.inl ⟨rfl, lookup_renewed hc'⟩
    · exact Or.inr ⟨hne, ds₁, hds₁, hc'⟩
  have hwas : ∀ {d₁ k ch c'}, s'.IsOpen d₁ k ch c' → ∃ c, s.IsOpen d₁ k ch c := by
    intro d₁ k ch c' hc'
    rcases hopen hc' with ⟨rfl, c, hc, -⟩ | ⟨-, hc'⟩
    · exact ⟨c, ds, hds, hc⟩
    · exact ⟨c', hc'⟩
  refine ⟨hwrapped.trans h.sizes, ?_, ?_, ?_, ?_⟩
  · rw [hstate]
    exact h.upstream
  · intro hreplaying
    rw [hloop'] at hreplaying
    cases hreplaying
  · intro d₁ k k' ch c c' hc hc'
    obtain ⟨c₀, hc₀⟩ := hwas hc
    obtain ⟨c₁, hc₁⟩ := hwas hc'
    exact h.disjoint d₁ k k' ch c₀ c₁ hc₀ hc₁
  intro hconnected _
  rw [hstate] at hconnected
  have hconn := h.connected hconnected (by rw [hloop]; rfl)
  obtain ⟨hgiven, hpairwise⟩ := given_of_givesAll hlaw
  have hok := hok hconnected
  rw [List.all_eq_true] at hok
  -- the prefix that a channel of the connection has now
  have hbytes : ∀ {k ch c}, (ds.channels k).lookup ch = some c → ∃ bytes,
      ans.allocation ch = .allocated bytes ∧ ans.channelAccepts ch = true ∧
      ChannelManager.renew s.extranonceAllocator.generation ans ch c =
        { c with extranoncePrefix := bytes, generation := s.extranonceAllocator.generation } ∧
      Given s.extranonceAllocator s.takenIndexes k bytes := by
    intro k ch c hc
    have hmem : (k, ch, c) ∈ ds.openChannels := Downstream.mem_openChannels.mpr hc
    obtain ⟨bytes, hallocation, haccepts, hrenew⟩ := renew_eq (hok _ hmem)
    exact ⟨bytes, hallocation, haccepts, hrenew _ c, hgiven _ hmem bytes hallocation⟩
  have hrenewed' : ∀ d₁, s'.loop.hasRenewed d₁ ↔ d₁ = d ∨ s.loop.hasRenewed d₁ := by
    intro d₁
    rw [hloop', hloop]
    exact List.mem_cons
  have hholds : ∀ {d₁ k ch c'}, s.IsOpen d₁ k ch c' → d₁ ≠ d → s'.loop.hasRenewed d₁ →
      s.loop.hasRenewed d₁ ∧ HoldsPrefix s.extranonceAllocator k c' := by
    intro d₁ k ch c' hc' hne hr
    have hr := ((hrenewed' d₁).mp hr).resolve_left hne
    exact ⟨hr, hconn.holds d₁ k ch c' hc' hr⟩
  have hothers : ∀ {d₁ k k' ch ch' c c' bytes}, s.IsOpen d₁ k ch c' → d₁ ≠ d →
      s'.loop.hasRenewed d₁ → (ds.channels k').lookup ch' = some c →
      Given s.extranonceAllocator s.takenIndexes k' bytes →
      localIndex s.extranonceAllocator.upstreamPrefix c'.extranoncePrefix ≠
        localIndex s.extranonceAllocator.upstreamPrefix bytes := by
    intro d₁ k k' ch ch' c c' bytes hc' hne hr hc hgiven heq
    apply hgiven.free
    rw [← heq]
    exact mem_takenIndexes hc' (hholds hc' hne hr).2.generation
  refine ⟨?_, ?_, ?_, ?_, ?_, ?_, ?_, ?_, ?_, ?_, ?_⟩
  · rw [hu, ha]
    exact hconn.upstream
  · rw [ha]
    exact hconn.room
  · rw [ha]
    exact hconn.fits
  · intro d₁ ds₁ hds₁ _
    have hsized : ∀ d, s.loop.hasSized d := by
      intro d
      rw [hloop]
      trivial
    rw [ha]
    rcases lookup_of_insert hdownstream hds₁ with ⟨rfl, rfl⟩ | ⟨-, hds₁⟩
    · exact hconn.groups _ ds hds (hsized _)
    · exact hconn.groups d₁ ds₁ hds₁ (hsized _)
  · intro size customJob present₁ visited₁ heq
    rw [hloop'] at heq
    cases heq
  · intro present₁ visited₁ rs₁ heq d₁ k ch c' hc'
    rw [hloop'] at heq
    cases heq
    obtain ⟨c, hc⟩ := hwas hc'
    exact hconn.present present visited rs hloop d₁ k ch c hc
  · intro d₁ k ch c' hc'
    rw [ha]
    rcases hopen hc' with ⟨rfl, c, hc, rfl⟩ | ⟨-, hc'⟩
    · obtain ⟨bytes, -, -, hrenew, -⟩ := hbytes hc
      have hrolls := hconn.rolls d₁ k ch c ⟨ds, hds, hc⟩
      rw [hrenew]
      cases k <;> exact hrolls
    · exact hconn.rolls d₁ k ch c' hc'
  · intro d₁ k ch c' hc' hnot
    rw [hrenewed' d₁, not_or] at hnot
    rw [ha]
    rcases hopen hc' with ⟨rfl, -⟩ | ⟨-, hc'⟩
    · exact absurd rfl hnot.1
    · exact hconn.old d₁ k ch c' hc' hnot.2
  · intro d₁ k ch c' hc' hr
    rw [ha]
    rcases hopen hc' with ⟨rfl, c, hc, rfl⟩ | ⟨hne, hc'⟩
    · obtain ⟨bytes, -, -, hrenew, hgiven⟩ := hbytes hc
      rw [hrenew]
      exact ⟨rfl, hgiven.isPrefix, hgiven.length⟩
    · exact (hholds hc' hne hr).2
  · intro d₁ k ch c₁ d₂ k' ch' c₂ hc₁ hc₂ hr₁ hr₂ heq
    rw [ha] at heq
    rcases hopen hc₁ with ⟨rfl, c, hc, rfl⟩ | ⟨hne₁, hc₁⟩
    · obtain ⟨bytes, hallocation, -, hrenew, hgiven₁⟩ := hbytes hc
      rw [hrenew] at heq
      rcases hopen hc₂ with ⟨rfl, c', hc', rfl⟩ | ⟨hne₂, hc₂⟩
      · obtain ⟨bytes', hallocation', -, hrenew', -⟩ := hbytes hc'
        rw [hrenew'] at heq
        by_contra hne
        have hdiffer : (k, ch, c) ≠ (k', ch', c') := by
          intro heq
          cases heq
          exact hne rfl
        have hsymmetric : Std.Symm fun x y : ChannelKind × ChannelId × Channel =>
            ∀ b b', ans.allocation x.2.1 = .allocated b → ans.allocation y.2.1 = .allocated b' →
              localIndex s.extranonceAllocator.upstreamPrefix b ≠
                localIndex s.extranonceAllocator.upstreamPrefix b' :=
          ⟨fun x y hxy b b' hb hb' heq => hxy b' b hb' hb heq.symm⟩
        exact hpairwise.forall (Downstream.mem_openChannels.mpr hc)
          (Downstream.mem_openChannels.mpr hc') hdiffer bytes bytes' hallocation hallocation' heq
      · exact absurd heq.symm (hothers hc₂ hne₂ hr₂ hc hgiven₁)
    · rcases hopen hc₂ with ⟨rfl, c', hc', rfl⟩ | ⟨hne₂, hc₂⟩
      · obtain ⟨bytes', -, -, hrenew', hgiven₂⟩ := hbytes hc'
        rw [hrenew'] at heq
        exact absurd heq (hothers hc₁ hne₁ hr₁ hc' hgiven₂)
      · exact hconn.distinct d₁ k ch c₁ d₂ k' ch' c₂ hc₁ hc₂ (hholds hc₁ hne₁ hr₁).1
          (hholds hc₂ hne₂ hr₂).1 heq
  · intro d₁ k ch c' hc' hr
    have hout : s'.outgoing = ((renewals d ans (ds.standardChannels.keys ++
        ds.extendedChannels.keys)).map Renewal.message).reverse ++ s.outgoing := by
      rw [outgoing, outgoing, hloop', hloop, hsent]
      simp [LoopTask.renewals]
    rw [hout, toldPrefix_append]
    rcases hopen hc' with ⟨rfl, c, hc, rfl⟩ | ⟨hne, hc'⟩
    · obtain ⟨bytes, hallocation, haccepts, hrenew, -⟩ := hbytes hc
      have hkey : ch ∈ ds.standardChannels.keys ++ ds.extendedChannels.keys := by
        have hsome := Option.isSome_of_eq_some hc
        cases k with
        | standard => exact List.mem_append_left _ (AList.lookup_isSome.mp hsome)
        | extended => exact List.mem_append_right _ (AList.lookup_isSome.mp hsome)
      have hrenewal : (⟨d₁, ch, bytes⟩ : Renewal) ∈ renewals d₁ ans (ds.standardChannels.keys ++
          ds.extendedChannels.keys) :=
        mem_renewals.mpr ⟨ch, hkey, bytes, hallocation, haccepts, rfl⟩
      have htold : toldPrefix ((renewals d₁ ans (ds.standardChannels.keys ++
          ds.extendedChannels.keys)).map Renewal.message).reverse (d₁, ch) = some bytes := by
        apply toldPrefix_eq_some
        · exact ⟨_, List.mem_reverse.mpr (List.mem_map_of_mem hrenewal), rfl⟩
        · intro m hm b hb
          obtain ⟨r, hr, rfl⟩ := List.mem_map.mp (List.mem_reverse.mp hm)
          obtain ⟨ch', -, bytes', hallocation', -, rfl⟩ := mem_renewals.mp hr
          rw [Renewal.tellsPrefix] at hb
          cases hb
          rw [hallocation] at hallocation'
          cases hallocation'
          rfl
      rw [hrenew, htold, Option.some_or]
    · rw [toldPrefix_eq_none, Option.none_or]
      · exact hconn.told d₁ k ch c' hc' (hholds hc' hne hr).1
      · intro m hm b hb
        obtain ⟨r, hr, rfl⟩ := List.mem_map.mp (List.mem_reverse.mp hm)
        obtain ⟨ch', -, bytes', -, -, rfl⟩ := mem_renewals.mp hr
        rw [Renewal.tellsPrefix] at hb
        cases hb
        exact hne rfl

end ChannelManager

end Sv2Apps.Jdc
