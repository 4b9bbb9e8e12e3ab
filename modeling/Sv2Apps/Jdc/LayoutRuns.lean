/-
  Jdc/LayoutRuns.lean
  ===================
  **The extranonce layout over a run** — what each message and each task does to the layout, and
  that it is kept in every run that meets the conditions (`extranonce_layout_kept`).

  A prefix of another length is where the client itself fails: the upstream channel, the allocator
  and the channels follow it, the group channels do not (`shorter_prefix_breaks_layout`).
-/
import Sv2Apps.Jdc.LayoutChanges

namespace Sv2Apps.Jdc

open Bitcoin

namespace ChannelManager

variable {env : Env} {s s' : ChannelManager} {d : DownstreamId}

/-! ## Messages of the pool -/

theorem totalLen_of_not_wraps {msg : OpenSuccess} (h : msg.wraps = false) :
    msg.totalLen.toNat % 2 ^ 8 = msg.extranoncePrefix.val.length + msg.extranonceSize.toNat := by
  have hsmall : msg.extranoncePrefix.val.length + msg.extranonceSize.toNat < 2 ^ 8 := by
    rw [OpenSuccess.wraps, decide_eq_false_iff_not] at h
    exact Nat.lt_of_not_le h
  rw [OpenSuccess.totalLen, UInt16.toNat_add, UInt16.toNat_ofNat']
  omega

namespace LayoutInv

/-- The client has no channel to the pool any more. -/
theorem closeUpstream (h : LayoutInv s) (hloop : s.loop = .idle) (channelId : ChannelId) :
    LayoutInv (s.closeUpstream channelId) := by
  refine ⟨h.sizes, ?_, ?_, h.disjoint, ?_⟩
  · intro hstate
    cases hstate
  · intro hreplaying
    rw [show (s.closeUpstream channelId).loop = .idle from hloop] at hreplaying
    cases hreplaying
  · intro hstate
    cases hstate

theorem receiveOpenSuccess (h : LayoutInv s) (hloop : s.loop = .idle) {msg : OpenSuccess}
    {ans : OpenSuccessAnswers}
    (hlaw : s.allocatorSound (.event (.openExtendedMiningChannelSuccess msg ans)) = true)
    (hok : s.keepsLayout env (.event (.openExtendedMiningChannelSuccess msg ans)) = true) :
    LayoutInv (s.receiveOpenSuccess env msg ans) := by
  simp only [keepsLayout, openOf, hloop, LoopTask.hasFallenBack, Bool.false_or] at hok
  unfold ChannelManager.receiveOpenSuccess
  split
  · exact h.fail (by rw [hloop]; rfl) (by rw [hloop]; rfl) .shutdown
  next raw hraw =>
  split
  · exact h.fallBack h.sizes rfl rfl rfl
  next hsize =>
  split
  · exact h.closeUpstream hloop msg.channelId
  next hpending =>
  simp only [hraw, Option.isNone_some, hpending, hsize, decide_false, Bool.false_or, Bool.and_eq_true,
    Bool.not_eq_true', Bool.or_eq_true, List.all_eq_true, List.isEmpty_iff] at hok
  obtain ⟨hwraps, hempty⟩ := hok
  have hwrapped : (s.sizeWrapped || msg.wraps) = false := by
    rw [h.sizes, hwraps]
    rfl
  dsimp only
  split
  · have h₁ : LayoutInv { s with sizeWrapped := s.sizeWrapped || msg.wraps } :=
      ⟨hwrapped, h.upstream, h.replaying, h.disjoint, fun hstate hrun =>
        (h.connected hstate hrun).frame (Or.inl rfl)
          (.of_eq rfl (hwrapped.trans h.sizes.symm) rfl rfl rfl ⟨[], rfl, by simp⟩)⟩
    exact h₁.closeUpstream hloop msg.channelId
  next hallocator =>
  split
  · exact h.fallBack hwrapped rfl rfl rfl
  next hchannel =>
  have hfits : ExtranonceAllocator.fits msg.extranoncePrefix.val (msg.totalLen.toNat % 2 ^ 8) = true := by
    simp only [allocatorSound, openOf, Bool.or_eq_true] at hlaw
    exact hlaw.resolve_left hallocator
  rw [ExtranonceAllocator.fits, totalLen_of_not_wraps hwraps, Bool.and_eq_true, decide_eq_true_eq,
    decide_eq_true_eq] at hfits
  generalize hs₁ : ChannelManager.openCustomJob env _ _ raw ans.customJobBuilt = r
  obtain ⟨s₁, customJob⟩ := r
  have hkeeps : s₁.downstream = s.downstream ∧ s₁.sizeWrapped = (s.sizeWrapped || msg.wraps) := by
    obtain ⟨tokens, n, jobs, rfl⟩ := openCustomJob_frame hs₁
    exact ⟨rfl, rfl⟩
  obtain ⟨hdownstream, hkept⟩ := hkeeps
  dsimp only
  have hnone : ∀ d k ch c, ¬ s₁.IsOpen d k ch c := by
    intro d k ch c hc
    obtain ⟨ds, hds, hc⟩ := isOpen_of_downstream hdownstream hc
    have hall := (hempty.resolve_left (fun hnot => hnot.elim (fun h => hallocator (by rw [h]; rfl))
      (fun h => hchannel (by rw [h]; rfl)))) ⟨d, ds⟩ ((KeyMap.mem_entries_iff _ _ _).mpr hds)
    have hmem := Downstream.mem_openChannels.mpr hc
    rw [hall] at hmem
    cases hmem
  refine ⟨hkept.trans hwrapped, ?_, fun _ => rfl, ?_, ?_⟩
  · intro hstate
    cases hstate
  · intro d k k' ch c c' hc
    exact absurd hc (hnone d k ch c)
  intro _ _
  refine ⟨⟨msg.extranonceSize, rfl, (totalLen_of_not_wraps hwraps).symm⟩, ?_, ?_, ?_, ?_, ?_, ?_, ?_,
    ?_, ?_, ?_⟩
  · dsimp only
    rw [totalLen_of_not_wraps hwraps]
    exact hfits.1
  · dsimp only
    rw [totalLen_of_not_wraps hwraps]
    exact hfits.2
  · intro d ds _ hsized
    exact absurd hsized List.not_mem_nil
  · intro size customJob present visited heq
    cases heq
    exact ⟨(totalLen_of_not_wraps hwraps).symm, hnone⟩
  · intro present visited rs heq
    cases heq
  · intro d k ch c hc
    exact absurd hc (hnone d k ch c)
  · intro d k ch c hc
    exact absurd hc (hnone d k ch c)
  · intro d k ch c hc
    exact absurd hc (hnone d k ch c)
  · intro d k ch c d' k' ch' c' hc
    exact absurd hc (hnone d k ch c)
  · intro d k ch c hc
    exact absurd hc (hnone d k ch c)

theorem receiveSetExtranoncePrefix (h : LayoutInv s) (hloop : s.loop = .idle) {bytes : B032}
    {accepts built : Bool}
    (hlaw : s.allocatorSound (.event (.setExtranoncePrefix bytes accepts built)) = true)
    (hok : s.keepsLayout env (.event (.setExtranoncePrefix bytes accepts built)) = true) :
    LayoutInv (s.receiveSetExtranoncePrefix bytes accepts built) := by
  unfold ChannelManager.receiveSetExtranoncePrefix
  split
  · exact h
  next u hu =>
  split
  · exact h.fallBack h.sizes rfl rfl rfl
  next haccepts =>
  dsimp only
  split
  · exact h.fallBack h.sizes rfl rfl rfl
  next hlen =>
  split
  · exact h.fallBack h.sizes rfl rfl rfl
  next hbuilt =>
  refine ⟨h.sizes, h.upstream, fun hreplaying => (by cases hreplaying), h.disjoint, ?_⟩
  intro hstate _
  have hstate : s.upstreamState = .connected := hstate
  have hconn := h.connected hstate (by rw [hloop]; rfl)
  have hfull : (bytes.val.length + u.rollableExtranonceSize.toNat) % 2 ^ 8 =
      bytes.val.length + u.rollableExtranonceSize.toNat := by
    simp only [maxExtranonceLen] at hlen
    omega
  have hfits : ExtranonceAllocator.fits bytes.val (bytes.val.length + u.rollableExtranonceSize.toNat) =
      true := by
    simp only [allocatorSound, openOf, hu, Bool.or_eq_true, hfull] at hlaw
    exact hlaw.resolve_left hbuilt
  simp only [ExtranonceAllocator.fits, Bool.and_eq_true, decide_eq_true_eq] at hfits
  have hfullSize := hconn.fullExtranonceSize_eq
  rw [fullExtranonceSize, hu] at hfullSize
  have hold : ∀ {d k ch c}, s.IsOpen d k ch c → HoldsPrefix s.extranonceAllocator k c :=
    fun {d k ch c} hc => hconn.holds d k ch c hc (by rw [hloop]; trivial)
  have hlengths : (∀ d, s.downstream.lookup d = none) ∨
      bytes.val.length = s.extranonceAllocator.upstreamPrefix.length := by
    obtain ⟨rollable, hlayout, -⟩ := hconn.upstream
    rw [upstreamLayout, hu, Option.map_some, Option.some.injEq, Prod.mk.injEq] at hlayout
    simp only [keepsLayout, openOf, hloop, LoopTask.hasFallenBack, hstate, hu, Bool.false_or,
      Bool.or_eq_true, decide_eq_true_eq, haccepts, hbuilt, hlen, false_or, List.isEmpty_iff] at hok
    rw [← hlayout.1]
    rcases hok with hok | hempty
    · exact Or.inr hok
    · left
      intro d
      cases hd : s.downstream.lookup d with
      | none => rfl
      | some ds =>
        have hmem := (KeyMap.mem_entries_iff _ _ _).mpr hd
        rw [hempty] at hmem
        cases hmem
  have hsame : ∀ {d ds}, s.downstream.lookup d = some ds →
      bytes.val.length = s.extranonceAllocator.upstreamPrefix.length ∧
      bytes.val.length + u.rollableExtranonceSize.toNat = s.extranonceAllocator.totalLen := by
    intro d ds hds
    have hlength := hlengths.resolve_left (fun hnone => by rw [hnone d] at hds; cases hds)
    obtain ⟨rollable, hlayout, hsum⟩ := hconn.upstream
    rw [upstreamLayout, hu, Option.map_some, Option.some.injEq, Prod.mk.injEq] at hlayout
    refine ⟨hlength, ?_⟩
    rw [hlength, ← hsum, hlayout.2]
  refine ⟨⟨u.rollableExtranonceSize, rfl, hfull.symm⟩, ?_, ?_, ?_, ?_, ?_, ?_, ?_, ?_, ?_, ?_⟩
  · dsimp only
    rw [hfull]
    exact hfits.1
  · dsimp only
    rw [hfull]
    exact hfits.2
  · intro d ds hds _
    dsimp only
    rw [hfull, (hsame hds).2]
    exact hconn.groups d ds hds (by rw [hloop]; trivial)
  · intro size customJob present visited heq
    cases heq
  · intro present visited rs heq d k ch c hc
    cases heq
    obtain ⟨ds, hds, -⟩ := hc
    exact AList.lookup_isSome.mp (Option.isSome_of_eq_some hds)
  · intro d k ch c hc
    obtain ⟨ds, hds, -⟩ := id hc
    obtain ⟨hlength, htotal⟩ := hsame hds
    have hrolls := hconn.rolls d k ch c hc
    dsimp only
    rw [hfull]
    cases k with
    | standard => exact hrolls
    | extended =>
      rw [Rolls] at hrolls ⊢
      dsimp only
      rw [htotal, hlength]
      exact hrolls
  · intro d k ch c hc _
    rw [(hold hc).generation]
    exact Nat.ne_of_lt (Nat.lt_succ_self _)
  · intro d k ch c hc hrenewed
    exact absurd hrenewed List.not_mem_nil
  · intro d k ch c d' k' ch' c' hc hc' hrenewed
    exact absurd hrenewed List.not_mem_nil
  · intro d k ch c hc hrenewed
    exact absurd hrenewed List.not_mem_nil

/-! ## Messages of the miners -/

/-- What the law and the condition say about a request that a connected client handles. -/
theorem opened_conditions {a : Action} {r : PendingRequest} {ans : OpenAnswers}
    (ha : s.openOf a = some (r, ans)) (hstate : s.upstreamState = .connected)
    (hrun : s.loop.hasFallenBack = false) (hlaw : s.allocatorSound a = true)
    (hok : s.keepsLayout env a = true) :
    (∀ bytes, ans.allocation = .allocated bytes →
      Given s.extranonceAllocator s.takenIndexes r.request.kind.channelKind bytes) ∧
    ∀ ds, s.downstream.lookup r.downstreamId = some ds → idIsFree ds = true := by
  simp only [allocatorSound, ha, hstate] at hlaw
  simp only [keepsLayout, ha, hstate, hrun, Bool.false_or] at hok
  refine ⟨?_, ?_⟩
  · intro bytes hallocation
    rw [hallocation] at hlaw
    exact given_of_gives hlaw
  · intro ds hds
    rw [hds] at hok
    exact hok

theorem handleOpenNow (h : LayoutInv s) (hloop : s.loop = .idle)
    (hstate : s.upstreamState = .connected) {r : PendingRequest} {ans : OpenAnswers}
    (hgiven : ∀ bytes, ans.allocation = .allocated bytes →
      Given s.extranonceAllocator s.takenIndexes r.request.kind.channelKind bytes)
    (hfree : ∀ ds, s.downstream.lookup r.downstreamId = some ds → idIsFree ds = true) :
    LayoutInv (s.handleOpenNow r ans) := by
  have hrun : s.loop.hasFallenBack = false := by rw [hloop]; rfl
  have hsettled : s.loop.isSettled = true := by rw [hloop]; rfl
  unfold ChannelManager.handleOpenNow
  rw [recordRollableSize_eq (h.connected hstate hrun) hgiven]
  dsimp only
  cases hopen : s.handleOpen r ans with
  | error f => exact h.fail hsettled hrun f
  | ok s' => exact h.opens hstate hsettled hrun (handleOpen_opens hopen) hgiven hfree rfl

theorem handleDownstreamOpen (h : LayoutInv s) (hloop : s.loop = .idle) {r : PendingRequest}
    {ans : OpenAnswers} (hlaw : s.allocatorSound (.event (.openChannel r ans)) = true)
    (hok : s.keepsLayout env (.event (.openChannel r ans)) = true) :
    LayoutInv (s.handleDownstreamOpen env r ans) := by
  have hrun : s.loop.hasFallenBack = false := by rw [hloop]; rfl
  have hreplaying : s.loop.isReplaying = true → False := by
    rw [hloop]
    intro hr
    cases hr
  unfold ChannelManager.handleDownstreamOpen
  dsimp only
  split
  next hstate =>
    have hwraps : upstreamMinExtranonceSizeWraps env r.request.kind = false := by
      simp only [keepsLayout, openOf, hstate, hrun, Bool.false_or, Bool.not_eq_true'] at hok
      exact hok
    refine ⟨?_, ?_, fun hr => absurd hr hreplaying, h.disjoint, ?_⟩
    · dsimp only
      rw [h.sizes, hwraps]
      rfl
    · intro heq
      cases heq
    · intro heq
      cases heq
  · exact h.frame (.of_eq rfl rfl rfl rfl rfl ⟨[], rfl, by simp⟩) (Or.inl rfl) id
      fun hr => absurd hr hreplaying
  next hstate =>
    have h₁ : LayoutInv { s with openRequests := r :: s.openRequests } :=
      h.frame (.of_eq rfl rfl rfl rfl rfl ⟨[], rfl, by simp⟩) (Or.inl rfl) id
        fun hr => absurd hr hreplaying
    obtain ⟨hgiven, hfree⟩ := opened_conditions rfl hstate hrun hlaw hok
    exact h₁.handleOpenNow hloop hstate hgiven hfree
  next hstate => exact absurd hstate h.upstream

theorem handlePending (h : LayoutInv s) {ans : OpenAnswers}
    (hlaw : s.allocatorSound (.handlePending ans) = true)
    (hok : s.keepsLayout env (.handlePending ans) = true) : LayoutInv (s.handlePending ans) := by
  unfold ChannelManager.handlePending
  split
  next r rest hloop =>
    have hrun : s.loop.hasFallenBack = false := by rw [hloop]; rfl
    have hsettled : s.loop.isSettled = true := by rw [hloop]; rfl
    have hstate := h.replaying (by rw [hloop]; rfl)
    have ha : s.openOf (.handlePending ans) = some (r, ans) := by simp [openOf, hloop]
    obtain ⟨hgiven, hfree⟩ := opened_conditions ha hstate hrun hlaw hok
    rw [recordRollableSize_eq (h.connected hstate hrun) hgiven]
    dsimp only
    split
    next f hf => exact h.fail hsettled hrun f
    next s' hs' =>
      refine h.opens hstate hsettled hrun (handleOpen_opens hs') hgiven hfree ?_
      split <;> rfl
  · exact h

/-- The end of a message whose handler leaves the layout alone. -/
theorem conclude (h : LayoutInv s) (hloop : s.loop = .idle) {r : Except Fault ChannelManager}
    (hr : ∀ s', r = .ok s' → LayoutFrame s s') : LayoutInv (s.conclude r) := by
  have hrun : s.loop.hasFallenBack = false := by rw [hloop]; rfl
  have hsettled : s.loop.isSettled = true := by rw [hloop]; rfl
  cases r with
  | error f => exact h.fail hsettled hrun f
  | ok s' =>
    have hframe := hr s' rfl
    refine h.frame (hframe.withLoop .idle) (Or.inr ⟨hsettled, rfl⟩) ?_ ?_
    · intro hs
      rw [hrun] at hs
      cases hs
    · intro hreplaying
      cases hreplaying

theorem handle (h : LayoutInv s) (hloop : s.loop = .idle) {e : Event}
    (hlaw : s.allocatorSound (.event e) = true) (hok : s.keepsLayout env (.event e) = true) :
    LayoutInv (s.handle env e) := by
  have hsettled : s.loop.isSettled = true := by rw [hloop]; rfl
  by_cases hcalm : e.isCalm = true
  · have hstep := @handle_calm env s e hcalm hloop
    refine h.frame (.of_calm hstep.toCalm) (Or.inr ⟨hsettled, ?_⟩) ?_ ?_
    · have hcalm := hstep.loop
      cases hl : (s.handle env e).loop <;> rw [hl] at hcalm <;> first | rfl | cases hcalm
    · intro hs
      rw [hloop] at hs
      cases hs
    · intro hreplaying
      rw [LoopTask.isReplaying_of_isCalm hstep.loop] at hreplaying
      cases hreplaying
  cases e with
  | openExtendedMiningChannelSuccess msg ans => exact h.receiveOpenSuccess hloop hlaw hok
  | setExtranoncePrefix bytes accepts built => exact h.receiveSetExtranoncePrefix hloop hlaw hok
  | closeUpstreamChannel => exact h.fallBack h.sizes rfl rfl rfl
  | openChannel r ans => exact h.handleDownstreamOpen hloop hlaw hok
  | closeChannel d channelId =>
    refine h.conclude hloop ?_
    intro s' hs'
    unfold handleCloseChannel at hs'
    split at hs'
    · cases hs'
    next ds hds =>
      cases hs'
      refine .of_insert hds ?_ ?_ rfl rfl rfl rfl rfl ⟨[], rfl, by simp⟩
      · rfl
      · intro k ch c hc
        cases k with
        | standard => exact ⟨c, KeyMap.lookup_erase_some hc, rfl, rfl, rfl⟩
        | extended => exact ⟨c, KeyMap.lookup_erase_some hc, rfl, rfl, rfl⟩
  | submitSharesStandard d channelId jobId ans upstream =>
    exact h.conclude hloop fun s' hs' => .of_calm (.of_sharesMoved (handleSubmitShares_moves hs'))
  | submitSharesExtended d channelId jobId extranonce ans upstream =>
    exact h.conclude hloop fun s' hs' => .of_calm (.of_sharesMoved (handleSubmitShares_moves hs'))
  | _ => exact absurd rfl hcalm

/-! ## Going through the connections -/

/-- A part of a handler that leaves the layout alone. -/
theorem visited (h : LayoutInv s) (hsettled : s.loop.isSettled = true)
    (hrun : s.loop.hasFallenBack = false) (hframe : LayoutFrame s s') {loop : LoopTask}
    (hloop : loop.isSettled = true) (hreplaying : loop.isReplaying = false) :
    LayoutInv { s' with loop := loop } := by
  refine h.frame (hframe.withLoop loop) (Or.inr ⟨hsettled, hloop⟩) ?_ ?_
  · intro hs
    rw [hrun] at hs
    cases hs
  · intro hr
    rw [show ({ s' with loop := loop } : ChannelManager).loop = loop from rfl, hreplaying] at hr
    cases hr

theorem visitNewTemplate_frame {t : NewTemplate} {ctx : TemplateContext} {ds : Downstream}
    {ans : TemplateAnswers} {out : List Message} (hds : s.downstream.lookup d = some ds)
    (h : s.visitNewTemplate t ctx d ds ans = .ok (s', out)) : LayoutFrame s s' := by
  obtain ⟨ds', jobs, notices, hgot, -, rfl, -⟩ := visitNewTemplate_ok h
  have hchannels : ∀ k ch c', (ds'.channels k).lookup ch = some c' → ∃ c,
      (ds.channels k).lookup ch = some c ∧ c'.extranoncePrefix = c.extranoncePrefix ∧
      c'.rollableExtranonceSize = c.rollableExtranonceSize ∧ c'.generation = c.generation := by
    intro k ch c' hc'
    have hrel : Option.Rel (GotJob ds t ctx.outputs) ((ds.channels k).lookup ch)
        ((ds'.channels k).lookup ch) := by
      cases k with
      | standard => exact hgot.standard ch
      | extended => exact hgot.extended ch
    rw [hc'] at hrel
    obtain ⟨c, hc, jobId, size, own, rfl, -⟩ := rel_some_right hrel
    exact ⟨c, hc, rfl, rfl, rfl⟩
  obtain ⟨n, store, heq⟩ := templateCustomJob_frame s t ctx ans.customJobBuilt
  rw [heq]
  exact .of_insert hds hgot.size hchannels rfl rfl rfl rfl rfl ⟨[], rfl, by simp⟩

/-- The group channel of one connection is told the new size. -/
theorem resize (h : LayoutInv s) {size : Nat} {customJob : Option CustomJob}
    {present visited : List DownstreamId}
    (hloop : s.loop = .openSuccess size customJob present visited) {ds : Downstream}
    (hds : s.downstream.lookup d = some ds) :
    LayoutInv { s with
      downstream := s.downstream.insert d { ds with groupFullExtranonceSize := size }
      loop := .openSuccess size customJob present (d :: visited) } := by
  have hstate := h.replaying (by rw [hloop]; rfl)
  have hconn := h.connected hstate (by rw [hloop]; rfl)
  obtain ⟨hsize, hnone⟩ := hconn.opening size customJob present visited hloop
  generalize hs' : ({ s with
      downstream := s.downstream.insert d { ds with groupFullExtranonceSize := size }
      loop := .openSuccess size customJob present (d :: visited) } : ChannelManager) = s'
  have hdownstream : s'.downstream =
      s.downstream.insert d { ds with groupFullExtranonceSize := size } := by
    rw [← hs']
  have hnone' : ∀ d k ch c, ¬ s'.IsOpen d k ch c := by
    rintro d₁ k ch c ⟨ds₁, hds₁, hc⟩
    rcases lookup_of_insert hdownstream hds₁ with ⟨rfl, rfl⟩ | ⟨-, hds₁⟩
    · refine hnone d₁ k ch c ⟨ds, hds, ?_⟩
      cases k <;> exact hc
    · exact hnone d₁ k ch c ⟨ds₁, hds₁, hc⟩
  have hloop' : s'.loop = .openSuccess size customJob present (d :: visited) := by rw [← hs']
  have ha : s'.extranonceAllocator = s.extranonceAllocator := by rw [← hs']
  have hstate' : s'.upstreamState = .connected := by
    rw [← hs']
    exact hstate
  have hu : s'.upstreamLayout = s.upstreamLayout := by
    rw [← hs']
    rfl
  refine ⟨?_, ?_, fun _ => hstate', ?_, fun _ _ => ⟨?_, ?_, ?_, ?_, ?_, ?_, ?_, ?_, ?_, ?_, ?_⟩⟩
  · rw [← hs']
    exact h.sizes
  · rw [hstate']
    simp
  · intro d k k' ch c c' hc
    exact absurd hc (hnone' d k ch c)
  · rw [hu, ha]
    exact hconn.upstream
  · rw [ha]
    exact hconn.room
  · rw [ha]
    exact hconn.fits
  · intro d₁ ds₁ hds₁ hsized
    rw [ha]
    rcases lookup_of_insert hdownstream hds₁ with ⟨rfl, rfl⟩ | ⟨hne, hds₁⟩
    · exact hsize
    · rw [hloop'] at hsized
      refine hconn.groups d₁ ds₁ hds₁ ?_
      rw [hloop]
      exact (List.mem_cons.mp hsized).resolve_left hne
  · intro size₁ customJob₁ present₁ visited₁ heq
    rw [hloop'] at heq
    cases heq
    exact ⟨hsize.trans (by rw [ha]), hnone'⟩
  · intro present₁ visited₁ rs heq
    rw [hloop'] at heq
    cases heq
  · intro d k ch c hc
    exact absurd hc (hnone' d k ch c)
  · intro d k ch c hc
    exact absurd hc (hnone' d k ch c)
  · intro d k ch c hc
    exact absurd hc (hnone' d k ch c)
  · intro d k ch c d' k' ch' c' hc
    exact absurd hc (hnone' d k ch c)
  · intro d k ch c hc
    exact absurd hc (hnone' d k ch c)

theorem visit (h : LayoutInv s) {ans : VisitAnswers}
    (hlaw : s.allocatorSound (.visit d ans) = true) (hok : s.keepsLayout env (.visit d ans) = true) :
    LayoutInv (s.visit d ans) := by
  unfold ChannelManager.visit
  split
  · exact h
  next ds hds =>
  split
  next t ctx present visited messages hloop =>
    have hsettled : s.loop.isSettled = true := by rw [hloop]; rfl
    have hrun : s.loop.hasFallenBack = false := by rw [hloop]; rfl
    split
    · exact h
    split
    · exact h.fail hsettled hrun _
    next s₁ ms hs₁ => exact h.visited hsettled hrun (visitNewTemplate_frame hds hs₁) rfl rfl
  next p consumed present visited messages hloop =>
    have hsettled : s.loop.isSettled = true := by rw [hloop]; rfl
    have hrun : s.loop.hasFallenBack = false := by rw [hloop]; rfl
    split
    · exact h
    split
    · exact h.fail hsettled hrun _
    next s₁ ms hs₁ =>
      obtain ⟨jobs, rfl, -⟩ := visitSetNewPrevHash_ok hs₁
      have hframe : LayoutFrame s { s with
          downstream := s.downstream.insert d (ds.activate ans.prevHash)
          jobToTemplateId := jobs } := by
        refine .of_insert hds ?_ ?_ rfl rfl rfl rfl rfl ⟨[], rfl, by simp⟩
        · rfl
        · intro k ch c' hc'
          obtain ⟨c, hc, rfl⟩ := Downstream.lookup_activate hc'
          exact ⟨c, hc, rfl, rfl, rfl⟩
      exact h.visited hsettled hrun hframe rfl rfl
  next size customJob present visited hloop =>
    split
    · exact h
    next hvisited =>
    split
    · exact h.resize hloop hds
    next haccepts =>
      simp [keepsLayout, openOf, hloop, hds, LoopTask.hasFallenBack, hvisited, haccepts] at hok
  next present visited rs hloop =>
    split
    · exact h
    next hvisited =>
      simp only [allocatorSound, openOf, hloop, hds, hvisited, decide_false, Bool.false_or] at hlaw
      refine h.renew hloop hds hvisited hlaw ?_
      intro hstate
      simpa only [keepsLayout, openOf, hloop, hds, hstate, LoopTask.hasFallenBack, hvisited, decide_false,
        Bool.false_or] using hok
  · exact h

end LayoutInv

/-- The handler that changed the layout has come to its end. -/
theorem Connected.settle (h : Connected s) (hloop : s'.loop.isSettled = true)
    (ha : s'.extranonceAllocator = s.extranonceAllocator) (hu : s'.upstreamLayout = s.upstreamLayout)
    (hs' : s'.downstream = s.downstream)
    (hgroups : ∀ d ds, s.downstream.lookup d = some ds →
      ds.groupFullExtranonceSize = s.extranonceAllocator.totalLen)
    (hrenewed : ∀ d k ch c, s.IsOpen d k ch c → s.loop.hasRenewed d)
    (htold : ∀ d k ch c, s.IsOpen d k ch c →
      toldPrefix s'.sent (d, ch) = toldPrefix s.outgoing (d, ch)) : Connected s' := by
  have hopen : ∀ {d k ch c}, s'.IsOpen d k ch c → s.IsOpen d k ch c :=
    fun hc => isOpen_of_downstream hs' hc
  refine ⟨?_, ?_, ?_, ?_, ?_, ?_, ?_, ?_, ?_, ?_, ?_⟩
  · rw [hu, ha]
    exact h.upstream
  · rw [ha]
    exact h.room
  · rw [ha]
    exact h.fits
  · intro d ds hds _
    rw [hs'] at hds
    rw [ha]
    exact hgroups d ds hds
  · intro size customJob present visited heq
    rw [heq] at hloop
    cases hloop
  · intro present visited rs heq
    rw [heq] at hloop
    cases hloop
  · intro d k ch c hc
    rw [ha]
    exact h.rolls d k ch c (hopen hc)
  · intro d k ch c hc hnot
    exact absurd (LoopTask.of_isSettled hloop d).2.1 hnot
  · intro d k ch c hc _
    rw [ha]
    exact h.holds d k ch c (hopen hc) (hrenewed d k ch c (hopen hc))
  · intro d k ch c d' k' ch' c' hc hc' _ _ heq
    rw [ha] at heq
    exact h.distinct d k ch c d' k' ch' c' (hopen hc) (hopen hc') (hrenewed d k ch c (hopen hc))
      (hrenewed d' k' ch' c' (hopen hc')) heq
  · intro d k ch c hc _
    rw [outgoing, (LoopTask.of_isSettled hloop d).2.2]
    exact (htold d k ch c (hopen hc)).trans
      (h.told d k ch c (hopen hc) (hrenewed d k ch c (hopen hc)))

theorem visitedAll_mem {present visited : List DownstreamId} (h : s.visitedAll present visited = true)
    {ds : Downstream} (hds : s.downstream.lookup d = some ds) (hd : d ∈ present) : d ∈ visited := by
  have hd := List.all_eq_true.mp h d hd
  simpa [hds] using hd

namespace LayoutInv

/-- The loop is free again, and the layout has not been touched. -/
theorem finished (h : LayoutInv s) (hsettled : s.loop.isSettled = true)
    (hrun : s.loop.hasFallenBack = false) (token : Bool)
    (hmessages : ∀ m ∈ s.loop.messages, m.IsJobMessage) :
    LayoutInv { (if token then s.allocateToken else s).send s.loop.messages with loop := .idle } := by
  have hsend := Calm.send (s := if token then s.allocateToken else s)
    fun m hm => (hmessages m hm).calm
  exact h.visited hsettled hrun (.of_calm ((Calm.replaceToken s token).trans hsend)) rfl rfl

theorem finishOpenSuccess (h : LayoutInv s) {size : Nat} {customJob : Option CustomJob}
    {present visited : List DownstreamId}
    (hloop : s.loop = .openSuccess size customJob present visited)
    (hall : ∀ d ds, s.downstream.lookup d = some ds → d ∈ visited ∨ ds.groupFullExtranonceSize = size) :
    LayoutInv (s.finishOpenSuccess env customJob) := by
  have hstate := h.replaying (by rw [hloop]; rfl)
  have hconn := h.connected hstate (by rw [hloop]; rfl)
  obtain ⟨hsize, hnone⟩ := hconn.opening size customJob present visited hloop
  have hcalm := @sendOpenCustomJob_calm env s customJob
  unfold ChannelManager.finishOpenSuccess
  generalize (s.requestFutureTemplate env).sendOpenCustomJob env customJob = s₁ at hcalm ⊢
  have hstate₁ : s₁.takePending.upstreamState = .connected := hcalm.state.trans hstate
  refine ⟨hcalm.wrapped.trans h.sizes, ?_, fun _ => hstate₁, ?_, ?_⟩
  · rw [hstate₁]
    simp
  · intro d k k' ch c c' hc
    exact absurd (isOpen_of_downstream hcalm.downstream hc) (hnone d k ch c)
  · intro _ _
    refine hconn.settle ?_ hcalm.allocator hcalm.upstream hcalm.downstream ?_ ?_ ?_
    · unfold takePending
      dsimp only
      split <;> rfl
    · intro d ds hds
      rcases hall d ds hds with hd | hd
      · exact hconn.groups d ds hds (by rw [hloop]; exact hd)
      · exact hd.trans hsize
    · intro d k ch c hc
      exact absurd hc (hnone d k ch c)
    · intro d k ch c hc
      exact absurd hc (hnone d k ch c)

theorem finish (h : LayoutInv s) (hmessages : ∀ m ∈ s.loop.messages, m.IsJobMessage)
    (hok : s.keepsLayout env .finish = true) : LayoutInv (s.finish env) := by
  unfold ChannelManager.finish
  split
  next t ctx present visited messages hloop =>
    have hfinished := h.finished (by rw [hloop]; rfl) (by rw [hloop]; rfl) ctx.token.isSome hmessages
    rw [hloop] at hfinished
    split
    · exact hfinished
    · exact h
  next p consumed present visited messages hloop =>
    have hfinished := h.finished (by rw [hloop]; rfl) (by rw [hloop]; rfl) consumed hmessages
    rw [hloop] at hfinished
    split
    · exact hfinished
    · exact h
  next size customJob present visited hloop =>
    split
    next hall =>
      refine h.finishOpenSuccess hloop ?_
      intro d ds hds
      simp only [keepsLayout, openOf, hloop, LoopTask.hasFallenBack, hall, Bool.not_true, Bool.false_or,
        List.all_eq_true, Bool.or_eq_true, decide_eq_true_eq] at hok
      exact hok ⟨d, ds⟩ ((KeyMap.mem_entries_iff _ _ _).mpr hds)
    · exact h
  next present visited rs hloop =>
    split
    next hall =>
      refine ⟨h.sizes, h.upstream, fun hr => (by cases hr), h.disjoint, ?_⟩
      intro hstate _
      have hconn := h.connected hstate (by rw [hloop]; rfl)
      refine hconn.settle rfl rfl rfl rfl ?_ ?_ ?_
      · intro d ds hds
        exact hconn.groups d ds hds (by rw [hloop]; trivial)
      · intro d k ch c hc
        have hd := hconn.present present visited rs hloop d k ch c hc
        obtain ⟨ds, hds, -⟩ := hc
        rw [hloop]
        exact visitedAll_mem hall hds hd
      · intro d k ch c _
        rw [outgoing, hloop]
        rfl
    · exact h
  · exact h

/-! ## Connections -/

theorem register (h : LayoutInv s) (hok : s.keepsLayout env (.register d) = true) :
    LayoutInv (s.register d) := by
  unfold ChannelManager.register
  split
  next size hsize =>
    generalize hs' : ({ s with
      downstream := s.downstream.insert d (Downstream.new size)
      accepting := s.accepting.erase d } : ChannelManager) = s'
    have hdownstream : s'.downstream = s.downstream.insert d (Downstream.new size) := by rw [← hs']
    have hopen : ∀ d k ch c, s'.IsOpen d k ch c → s.IsOpen d k ch c := by
      rintro d₁ k ch c ⟨ds, hds, hc⟩
      rcases lookup_of_insert hdownstream hds with ⟨rfl, rfl⟩ | ⟨-, hds⟩
      · cases k <;> cases hc
      · exact ⟨ds, hds, hc⟩
    have hframe : PrefixFrame s s' := by
      rw [← hs'] at hopen ⊢
      exact ⟨rfl, rfl, rfl, rfl, fun d k ch c hc => ⟨c, hopen d k ch c hc, rfl, rfl, rfl⟩, [], rfl,
        by simp⟩
    have hloop : s'.loop = s.loop := by rw [← hs']
    refine ⟨hframe.wrapped.trans h.sizes, ?_, ?_, ?_, ?_⟩
    · rw [hframe.state]
      exact h.upstream
    · rw [hloop, hframe.state]
      exact h.replaying
    · intro d k k' ch c c' hc hc'
      exact h.disjoint d k k' ch c c' (hopen d k ch c hc) (hopen d k' ch c' hc')
    · intro hstate hrun
      rw [hframe.state] at hstate
      rw [hloop] at hrun
      have hconn := h.connected hstate hrun
      refine hconn.of_groups (Or.inl hloop) hframe ?_
      intro d₁ ds hds hsized
      rw [hloop] at hsized
      rcases lookup_of_insert hdownstream hds with ⟨rfl, rfl⟩ | ⟨-, hds⟩
      · simp only [keepsLayout, openOf, hstate, hsize, hrun, Bool.false_or, Bool.or_eq_true,
          decide_eq_true_eq] at hok
        rcases hok with hok | hok
        · rw [← hconn.fullExtranonceSize_eq]
          exact hok
        · split at hok
          next hl =>
            rw [hl] at hsized
            simp only [decide_eq_true_eq] at hok
            exact absurd hsized hok
          · cases hok
      · exact hconn.groups d₁ ds hds hsized
  · exact h

/-- A task of a connection that leaves the layout alone. -/
theorem aside (h : LayoutInv s) (hframe : LayoutFrame s s') (hloop : s'.loop = s.loop) :
    LayoutInv s' := by
  refine h.frame hframe (Or.inl hloop) ?_ ?_
  · rw [hloop]
    exact id
  · rw [hloop, hframe.state]
    exact h.replaying

theorem step (h : LayoutInv s) (hmessages : ∀ m ∈ s.loop.messages, m.IsJobMessage) {a : Action}
    (hlaw : s.allocatorSound a = true) (hok : s.keepsLayout env a = true) :
    LayoutInv (s.step env a) := by
  cases a with
  | event e =>
    simp only [ChannelManager.step]
    split
    next htakes => exact h.handle (takes_idle htakes) hlaw hok
    · exact h
  | visit d ans => exact h.visit hlaw hok
  | finish => exact h.finish hmessages hok
  | handlePending ans => exact h.handlePending hlaw hok
  | accept =>
    simp only [ChannelManager.step, ChannelManager.accept]
    split
    · exact h.aside (.of_eq rfl rfl rfl rfl rfl ⟨[], rfl, by simp⟩) rfl
    · exact h
  | bootstrap d built =>
    simp only [ChannelManager.step, ChannelManager.bootstrap]
    have haside : ∀ accepting cancelled,
        LayoutInv { s with accepting := accepting, cancelled := cancelled } :=
      fun accepting cancelled => h.aside (.of_eq rfl rfl rfl rfl rfl ⟨[], rfl, by simp⟩) rfl
    split
    · split
      · split
        · exact haside _ s.cancelled
        · exact haside _ true
      · exact haside _ s.cancelled
      · exact haside _ true
    · exact h
  | register d => exact h.register hok
  | setUpConnection d requireStdJob =>
    have hlookup : ∀ d', (s.setUpConnection d requireStdJob).downstream.lookup d' =
        if d' = d then (s.downstream.lookup d).map fun ds =>
          if ds.setUp then ds else { ds with requireStdJob := requireStdJob, setUp := true }
        else s.downstream.lookup d' := fun d' => KeyMap.lookup_modify _ _ _ _
    have hkept : ∀ d' ds', (s.setUpConnection d requireStdJob).downstream.lookup d' = some ds' →
        ∃ ds, s.downstream.lookup d' = some ds ∧
          ds'.groupFullExtranonceSize = ds.groupFullExtranonceSize ∧ ds'.channels = ds.channels := by
      intro d' ds' hds'
      rw [hlookup] at hds'
      split at hds'
      next heq =>
        obtain ⟨ds, hds, rfl⟩ := Option.map_eq_some_iff.mp hds'
        rw [heq]
        refine ⟨ds, hds, ?_⟩
        split
        · exact ⟨rfl, rfl⟩
        · refine ⟨rfl, ?_⟩
          funext k
          cases k <;> rfl
      · exact ⟨ds', hds', rfl, rfl⟩
    refine h.aside ⟨⟨rfl, rfl, rfl, rfl, ?_, [], rfl, by simp⟩, ?_⟩ rfl
    · rintro d' k ch c ⟨ds', hds', hc⟩
      obtain ⟨ds, hds, -, hchannels⟩ := hkept d' ds' hds'
      rw [hchannels] at hc
      exact ⟨c, ⟨ds, hds, hc⟩, rfl, rfl, rfl⟩
    · intro d' ds' hds'
      obtain ⟨ds, hds, hsize, -⟩ := hkept d' ds' hds'
      exact ⟨ds, hds, hsize⟩
  | removeDownstream d => exact h.aside (.removeDownstream s d) rfl

/-- What a settled client that is connected has. -/
theorem layoutKept (h : LayoutInv s) : LayoutKept s := by
  refine ⟨h.sizes, ?_⟩
  intro hstate hsettled hrun
  have hconn := h.connected hstate hrun
  have hrenewed : ∀ d, s.loop.hasRenewed d := fun d => (LoopTask.of_isSettled hsettled d).2.1
  have hout : s.outgoing = s.sent := by
    rw [outgoing, (LoopTask.of_isSettled hsettled 0).2.2]
    rfl
  have hfull := hconn.fullExtranonceSize_eq
  obtain ⟨rollable, hu, -⟩ := hconn.upstream
  obtain ⟨u, hu, heq⟩ := Option.map_eq_some_iff.mp hu
  obtain ⟨hbytes, -⟩ := Prod.mk.inj heq
  rw [fullExtranonceSize, hu] at hfull
  dsimp only at hfull
  refine ⟨u, hu, ?_, ?_, ?_, ?_, ?_, ?_, ?_⟩
  · rw [hfull]
    exact hconn.fits
  · exact hfull.symm
  · intro d ds hds
    rw [hfull]
    exact hconn.groups d ds hds (LoopTask.of_isSettled hsettled d).1
  · intro d k ch c hc
    have hholds := hconn.holds d k ch c hc (hrenewed d)
    obtain ⟨rest, hrest⟩ := hholds.isPrefix
    have hlong : localPrefixBytes ≤ rest.length := by
      have hlength := congrArg List.length hrest
      rw [List.length_append, hholds.length] at hlength
      have hroom := hconn.room
      cases k with
      | standard =>
        dsimp only at hlength
        omega
      | extended =>
        dsimp only at hlength
        omega
    refine ⟨rest.take localPrefixBytes, rest.drop localPrefixBytes, ?_, ?_⟩
    · rw [List.length_take, Nat.min_eq_left hlong]
    · rw [List.append_assoc, List.take_append_drop, hbytes, hrest]
  · intro d k ch c d' k' ch' c' hc hc' heq
    rw [hbytes] at heq
    exact hconn.distinct d k ch c d' k' ch' c' hc hc' (hrenewed d) (hrenewed d') heq
  · intro d k ch c hc
    have hlength := (hconn.holds d k ch c hc (hrenewed d)).length
    have hrolls := hconn.rolls d k ch c hc
    rw [hfull, Channel.fullExtranonceSize]
    cases k with
    | standard =>
      rw [Rolls] at hrolls
      rw [hrolls]
      exact hlength
    | extended =>
      rw [hlength]
      exact hrolls
  · intro d k ch c hc
    rw [← hout]
    exact hconn.told d k ch c hc (hrenewed d)

end LayoutInv

/-- A message of the pool that changes the layout ends the loop only with a fallback. -/
theorem changesLayout_fallback {a : Action} (hok : s.keepsLayout env a = true)
    (hchanges : s.changesLayout a = true) (hrun : s.loop.isStopped = false) {f : Fault}
    (hf : (s.step env a).loop = .stopped f) : f = .fallback ∨ s.coinbaseOutputs = none := by
  have hsame : s.loop ≠ .stopped f := by
    intro heq
    rw [heq] at hrun
    cases hrun
  have hunsettled : s.loop.isSettled = false → s.loop ≠ .idle := by
    intro hsettled heq
    rw [heq] at hsettled
    cases hsettled
  cases a with
  | event e =>
    simp only [ChannelManager.step] at hf
    split at hf
    next htakes =>
      have hloop := takes_idle htakes
      cases e with
      | openExtendedMiningChannelSuccess msg ans =>
        simp only [ChannelManager.handle, ChannelManager.receiveOpenSuccess] at hf
        split at hf
        next hnone => exact Or.inr hnone
        split at hf
        · cases hf
          exact Or.inl rfl
        split at hf
        · exact absurd hf hsame
        split at hf
        · exact absurd hf hsame
        split at hf
        · cases hf
          exact Or.inl rfl
        · cases hf
      | setExtranoncePrefix bytes accepts built =>
        simp only [ChannelManager.handle, ChannelManager.receiveSetExtranoncePrefix] at hf
        split at hf
        · exact absurd hf hsame
        split at hf
        · cases hf
          exact Or.inl rfl
        split at hf
        · cases hf
          exact Or.inl rfl
        split at hf
        · cases hf
          exact Or.inl rfl
        · cases hf
      | _ =>
        simp only [changesLayout, Bool.not_eq_true'] at hchanges
        exact absurd hloop (hunsettled hchanges)
    · exact absurd hf hsame
  | visit d ans =>
    simp only [changesLayout, Bool.not_eq_true'] at hchanges
    simp only [ChannelManager.step, ChannelManager.visit] at hf
    split at hf
    · exact absurd hf hsame
    next ds hds =>
    split at hf
    next hloop =>
      rw [hloop] at hchanges
      cases hchanges
    next hloop =>
      rw [hloop] at hchanges
      cases hchanges
    next size customJob present visited hloop =>
      split at hf
      · exact absurd hf hsame
      next hvisited =>
      split at hf
      · cases hf
      next haccepts =>
        simp [keepsLayout, openOf, hloop, hds, LoopTask.hasFallenBack, hvisited, haccepts] at hok
    · split at hf
      · exact absurd hf hsame
      · cases hf
    · exact absurd hf hsame
  | finish =>
    simp only [changesLayout, Bool.not_eq_true'] at hchanges
    simp only [ChannelManager.step, ChannelManager.finish] at hf
    split at hf
    next hloop =>
      rw [hloop] at hchanges
      cases hchanges
    next hloop =>
      rw [hloop] at hchanges
      cases hchanges
    · split at hf
      · simp only [ChannelManager.finishOpenSuccess, takePending] at hf
        split at hf <;> cases hf
      · exact absurd hf hsame
    · split at hf
      · cases hf
      · exact absurd hf hsame
    · exact absurd hf hsame
  | handlePending ans =>
    simp only [changesLayout, Bool.not_eq_true'] at hchanges
    simp only [ChannelManager.step, ChannelManager.handlePending] at hf
    split at hf
    next hloop =>
      rw [hloop] at hchanges
      cases hchanges
    · exact absurd hf hsame
  | accept =>
    simp only [ChannelManager.step, ChannelManager.accept] at hf
    split at hf <;> exact absurd hf hsame
  | bootstrap d built =>
    simp only [ChannelManager.step, ChannelManager.bootstrap] at hf
    split at hf
    · split at hf
      · split at hf <;> exact absurd hf hsame
      · exact absurd hf hsame
      · exact absurd hf hsame
    · exact absurd hf hsame
  | register d =>
    simp only [ChannelManager.step, ChannelManager.register] at hf
    split at hf <;> exact absurd hf hsame
  | setUpConnection d requireStdJob => exact absurd hf hsame
  | removeDownstream d => exact absurd hf hsame

/-! ## Runs -/

/-- In a run that meets the conditions no size leaves its type; whenever the client is connected,
    has not fallen back and does not change its layout, group channels, channels and allocator
    agree with the channel to the pool, and every miner has been told the prefixes of its
    channels; and a message of the pool that changes the layout ends the loop only with a
    fallback, or because there are no coinbase outputs. -/
theorem extranonce_layout_kept (env : Env) (outs : Option (List TxOut)) (as : List Action)
    (hok : Runs.Guarded (ChannelManager.step env)
      (fun s a => s.allocatorSound a = true ∧ s.keepsLayout env a = true) (start outs) as) :
    let s := after env outs as
    LayoutKept s ∧ ∀ a f, s.keepsLayout env a = true → s.changesLayout a = true →
      s.loop.isStopped = false → (s.step env a).loop = .stopped f →
      f = .fallback ∨ s.coinbaseOutputs = none := by
  have hinv : (∀ m ∈ (after env outs as).loop.messages, m.IsJobMessage) ∧
      LayoutInv (after env outs as) :=
    Runs.run_invariant_of_guarded
      (fun s => (∀ m ∈ s.loop.messages, m.IsJobMessage) ∧ LayoutInv s)
      (fun s a h hok => ⟨step_messages h.1 a, h.2.step h.1 hok.1 hok.2⟩)
      ⟨fun m hm => absurd hm List.not_mem_nil, layoutInv_start outs⟩ as hok
  exact ⟨hinv.2.layoutKept, fun a f hkeeps hchanges hrun hf =>
    changesLayout_fallback hkeeps hchanges hrun hf⟩

/-- A miner has an extended channel below a prefix of one byte. -/
def oneMinerRun : List Action :=
  sampleConnections 1 ++ sampleUpstream 0 ++
  [.visit 0 (sampleVisit 1 []), .finish, .handlePending (sampleOpen [0xaa, 0, 0])]

/-- The pool hands out another prefix. -/
def renewedPrefixRun (upstreamPrefix : B032) (bytes : Bytes) : List Action :=
  oneMinerRun ++ [.event (.setExtranoncePrefix upstreamPrefix true true),
    .visit 0 (sampleVisit 2 bytes), .finish]

theorem extranonce_layout_kept_renewed :
    let s := after (sampleEnv .fullTemplate) (some [⟨0, [0x51]⟩])
      (renewedPrefixRun ⟨[0xbb], by decide⟩ [0xbb, 0, 1])
    s.upstreamState = .connected ∧ s.loop = .idle ∧
    toldPrefix s.sent (0, 2) = some [0xbb, 0, 1] ∧ LayoutKept s :=
  ⟨by decide +kernel, by decide +kernel, by decide +kernel,
    (extranonce_layout_kept (sampleEnv .fullTemplate) (some [⟨0, [0x51]⟩])
      (renewedPrefixRun ⟨[0xbb], by decide⟩ [0xbb, 0, 1]) (by decide +kernel)).1⟩

/-- A prefix that is one byte shorter makes the full extranonce 8 bytes long; the group channel
    still goes by 9. -/
theorem shorter_prefix_breaks_layout :
    ¬ ∀ (env : Env) (outs : Option (List TxOut)) (as : List Action),
      Runs.Guarded (ChannelManager.step env) (fun s a => s.allocatorSound a = true) (start outs) as →
      LayoutKept (after env outs as) := by
  intro h
  have hkept := h (sampleEnv .fullTemplate) (some [⟨0, [0x51]⟩])
    (renewedPrefixRun ⟨[], by decide⟩ [0, 1]) (by decide +kernel)
  generalize hs : after (sampleEnv .fullTemplate) (some [⟨0, [0x51]⟩])
    (renewedPrefixRun ⟨[], by decide⟩ [0, 1]) = s at hkept
  obtain ⟨hconnected, hsettled, hrun, hupstream, hgroup⟩ : s.upstreamState = .connected ∧
      s.loop.isSettled = true ∧ s.loop.hasFallenBack = false ∧ s.fullExtranonceSize = 8 ∧
      (s.downstream.lookup 0).map Downstream.groupFullExtranonceSize = some 9 := by
    rw [← hs]
    decide +kernel
  obtain ⟨u, hu, hlayout⟩ := hkept.connected hconnected hsettled hrun
  obtain ⟨ds, hds, hsize⟩ := Option.map_eq_some_iff.mp hgroup
  have hequal := hlayout.groups 0 ds hds
  rw [fullExtranonceSize, hu] at hupstream
  rw [hsize, show u.fullExtranonceSize = 8 from hupstream] at hequal
  cases hequal

end ChannelManager

end Sv2Apps.Jdc
