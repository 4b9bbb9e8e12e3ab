/-
  Jdc/ShareLedger.lean
  ====================
  **The ledger of shares** — what happens to shares, told apart from channels and messages.  A
  share that a miner's channel accepts is validated under the job that the pool has acknowledged
  for its template, or it is kept in the cache of its template.  The cache of a template is given
  up when the pool answers for the template and at every prev-hash.

  `LedgerInv` holds whatever the order of these moves is: no share is validated twice, each one is
  validated under a job of its own template, and a template that has been acknowledged has no
  cache.
-/
import Sv2Apps.Jdc.Channels

namespace Sv2Apps.Jdc

open Bitcoin

/-! ## The cache of a template -/

theorem worstShare_le {heap : List CachedShare} {worst : CachedShare}
    (h : worstShare heap = some worst) : ∀ c ∈ heap, c.shareTarget ≤ worst.shareTarget := by
  induction heap generalizing worst with
  | nil => cases h
  | cons s rest ih =>
    intro c hc
    unfold worstShare at h
    split at h
    next hnone =>
      cases h
      rcases List.mem_cons.mp hc with rfl | hc
      · exact Nat.le_refl _
      · cases rest with
        | nil => cases hc
        | cons s' rest' =>
          unfold worstShare at hnone
          split at hnone
          · cases hnone
          · split at hnone <;> cases hnone
    next w hw =>
      have hrest := ih hw
      split at h
      next hlt =>
        cases h
        rcases List.mem_cons.mp hc with rfl | hc
        · exact Nat.le_refl _
        · exact Nat.le_of_lt (Nat.lt_of_le_of_lt (hrest c hc) hlt)
      next hge =>
        cases h
        rcases List.mem_cons.mp hc with rfl | hc
        · exact Nat.le_of_not_lt hge
        · exact hrest c hc

theorem worstShare_mem {heap : List CachedShare} {worst : CachedShare}
    (h : worstShare heap = some worst) : worst ∈ heap := by
  induction heap generalizing worst with
  | nil => cases h
  | cons s rest ih =>
    unfold worstShare at h
    split at h
    · cases h
      exact List.mem_cons_self
    next w hw =>
      split at h
      · cases h
        exact List.mem_cons_self
      · cases h
        exact List.mem_cons_of_mem _ (ih hw)

theorem worstShare_isSome {heap : List CachedShare} (h : worstShare heap = none) : heap = [] := by
  cases heap with
  | nil => rfl
  | cons s rest =>
    unfold worstShare at h
    split at h
    · cases h
    · split at h <;> cases h

/-- The cache is full of shares that are at least as good as one of the given target. -/
def FullOfBetter (heap : List CachedShare) (target : Nat) : Prop :=
  heap.length = cachedSharesCapacity ∧ ∀ c ∈ heap, c.shareTarget ≤ target

/-- How a share is put into a cache: there is room, a worse share makes room, or the cache is full
    of better ones. -/
theorem addShareToCache_cases {heap : List CachedShare} (hle : heap.length ≤ cachedSharesCapacity)
    (entry : CachedShare) :
    (heap.length < cachedSharesCapacity ∧ addShareToCache heap entry = entry :: heap) ∨
    (∃ worst ∈ heap, (∀ c ∈ heap, c.shareTarget ≤ worst.shareTarget) ∧
      heap.length = cachedSharesCapacity ∧ entry.shareTarget < worst.shareTarget ∧
      addShareToCache heap entry = entry :: heap.erase worst) ∨
    (FullOfBetter heap entry.shareTarget ∧ addShareToCache heap entry = heap) := by
  unfold addShareToCache
  split
  next hlt => exact Or.inl ⟨hlt, rfl⟩
  next hge =>
    have hfull : heap.length = cachedSharesCapacity := by omega
    right
    split
    next hnone =>
      rw [worstShare_isSome hnone] at hfull
      cases hfull
    next worst hworst =>
      split
      next hlt =>
        exact Or.inl ⟨worst, worstShare_mem hworst, worstShare_le hworst, hfull, hlt, rfl⟩
      next hge =>
        refine Or.inr ⟨⟨hfull, ?_⟩, rfl⟩
        intro c hc
        exact Nat.le_trans (worstShare_le hworst c hc) (Nat.le_of_not_lt hge)

theorem addShareToCache_length {heap : List CachedShare} (hle : heap.length ≤ cachedSharesCapacity)
    (entry : CachedShare) : (addShareToCache heap entry).length ≤ cachedSharesCapacity := by
  obtain ⟨hlt, heq⟩ | ⟨worst, hmem, -, hfull, -, heq⟩ | ⟨-, heq⟩ := addShareToCache_cases hle entry
  · rw [heq]
    exact hlt
  · rw [heq, List.length_cons, List.length_erase_of_mem hmem]
    have hpos := List.length_pos_of_mem hmem
    omega
  · rw [heq]
    exact hle

/-- A share that was in the cache or is put into it is in it afterwards, unless the cache is full
    of shares that are at least as good. -/
theorem mem_addShareToCache_or_full {heap : List CachedShare}
    (hle : heap.length ≤ cachedSharesCapacity) {entry c : CachedShare} (hc : c ∈ entry :: heap) :
    c ∈ addShareToCache heap entry ∨
      FullOfBetter (addShareToCache heap entry) c.shareTarget := by
  obtain ⟨-, heq⟩ | ⟨worst, hmem, hworst, hfull, hlt, heq⟩ | ⟨hbetter, heq⟩ :=
    addShareToCache_cases hle entry
  · rw [heq]
    exact Or.inl hc
  · rw [heq]
    rcases List.mem_cons.mp hc with rfl | hc
    · exact Or.inl List.mem_cons_self
    · by_cases hcw : c = worst
      · right
        refine ⟨?_, ?_⟩
        · rw [List.length_cons, List.length_erase_of_mem hmem]
          have hpos := List.length_pos_of_mem hmem
          omega
        · intro c' hc'
          rw [hcw]
          rcases List.mem_cons.mp hc' with rfl | hc'
          · exact Nat.le_of_lt hlt
          · exact hworst c' (List.mem_of_mem_erase hc')
      · exact Or.inl (List.mem_cons_of_mem _ ((List.mem_erase_of_ne hcw).mpr hc))
  · rw [heq]
    rcases List.mem_cons.mp hc with rfl | hc
    · exact Or.inr hbetter
    · exact Or.inl hc

/-- The shares of a cache with one more are among those of both. -/
theorem addShareToCache_subperm (heap : List CachedShare) (entry : CachedShare) :
    (addShareToCache heap entry).Sublist (entry :: heap) := by
  unfold addShareToCache
  split
  · exact List.Sublist.refl _
  · split
    · exact List.sublist_cons_self _ _
    · split
      · exact List.erase_sublist.cons_cons _
      · exact List.sublist_cons_self _ _

/-! ## The ledger -/

structure ShareLedger where
  cached : KeyMap TemplateId (List CachedShare)
  accepted : List AcceptedShare
  validations : List Validation
  acknowledgements : List (TemplateId × JobId)
  upstreamJobs : KeyMap TemplateId JobId
  /-- The job ids of the shares that have been sent to the pool. -/
  submitted : List JobId

/-- What can happen to the ledger; `releases` says of which templates the cache may be given up. -/
inductive LedgerMove (releases : TemplateId → Bool) (l : ShareLedger) : ShareLedger → Prop
  | kept : LedgerMove releases l l
  | cleared (h : ∀ t, releases t = true) : LedgerMove releases l { l with cached := ∅ }
  | dropped (t : TemplateId) (h : releases t = true) :
      LedgerMove releases l { l with cached := l.cached.erase t }
  /-- The pool has accepted a job, and cached shares are validated under it. -/
  | acknowledged (t : TemplateId) (jobId : JobId) (vs : List Validation) (h : releases t = true)
      (hshares : (vs.map Validation.share).reverse.Sublist
        (((l.cached.lookup t).getD []).map CachedShare.accepted))
      (hjobs : ∀ v ∈ vs, v.jobId = jobId) :
      LedgerMove releases l { l with
        cached := l.cached.erase t
        validations := vs ++ l.validations
        acknowledgements := (t, jobId) :: l.acknowledgements
        upstreamJobs := l.upstreamJobs.insert t jobId
        submitted := (vs.filter Validation.forwarded).map Validation.jobId ++ l.submitted }
  | validated (share : AcceptedShare) (jobId : JobId) (forwarded : Bool)
      (hnew : share.number = l.accepted.length)
      (hjob : l.upstreamJobs.lookup share.templateId = some jobId) :
      LedgerMove releases l { l with
        accepted := share :: l.accepted
        validations := ⟨share, jobId, forwarded⟩ :: l.validations
        submitted := if forwarded then jobId :: l.submitted else l.submitted }
  | cached (entry : CachedShare) (hnew : entry.accepted.number = l.accepted.length)
      (hjob : l.upstreamJobs.lookup entry.accepted.templateId = none) :
      LedgerMove releases l { l with
        accepted := entry.accepted :: l.accepted
        cached := l.cached.insert entry.accepted.templateId
          (addShareToCache ((l.cached.lookup entry.accepted.templateId).getD []) entry) }

/-- A share of a template that a channel has accepted with the given target is entered. -/
inductive Enters (t : TemplateId) (target : Nat) (l : ShareLedger) : ShareLedger → Prop
  | validated (jobId : JobId) (forwarded : Bool) (hjob : l.upstreamJobs.lookup t = some jobId) :
      Enters t target l { l with
        accepted := ⟨l.accepted.length, t⟩ :: l.accepted
        validations := ⟨⟨l.accepted.length, t⟩, jobId, forwarded⟩ :: l.validations
        submitted := if forwarded then jobId :: l.submitted else l.submitted }
  | cached (entry : CachedShare) (hentry : entry.accepted = ⟨l.accepted.length, t⟩)
      (htarget : entry.shareTarget = target) (hjob : l.upstreamJobs.lookup t = none) :
      Enters t target l { l with
        accepted := ⟨l.accepted.length, t⟩ :: l.accepted
        cached := l.cached.insert t (addShareToCache ((l.cached.lookup t).getD []) entry) }

theorem Enters.move {t : TemplateId} {target : Nat} {l l' : ShareLedger}
    (h : Enters t target l l') (releases : TemplateId → Bool) : LedgerMove releases l l' := by
  cases h with
  | validated jobId forwarded hjob => exact .validated _ jobId forwarded rfl hjob
  | cached entry hentry htarget hjob =>
    have hmove := @LedgerMove.cached releases l entry
    rw [hentry] at hmove
    exact hmove rfl hjob

structure LedgerInv (l : ShareLedger) : Prop where
  numbered : ∀ a ∈ l.accepted, a.number < l.accepted.length
  accepted : l.accepted.Nodup
  once : (l.validations.map Validation.share).Nodup
  validated : ∀ v ∈ l.validations,
    v.share ∈ l.accepted ∧ (v.share.templateId, v.jobId) ∈ l.acknowledgements
  cached : ∀ t cs, l.cached.lookup t = some cs → ∀ c ∈ cs, c.accepted.templateId = t ∧
    c.accepted ∈ l.accepted ∧ c.accepted ∉ l.validations.map Validation.share
  cachedOnce : ∀ t cs, l.cached.lookup t = some cs → (cs.map CachedShare.accepted).Nodup
  bounded : ∀ t cs, l.cached.lookup t = some cs → cs.length ≤ cachedSharesCapacity
  acknowledged : ∀ t jobId, (t, jobId) ∈ l.acknowledgements →
    l.cached.lookup t = none ∧ l.upstreamJobs.lookup t ≠ none
  upstreamJobs : ∀ t jobId, l.upstreamJobs.lookup t = some jobId → (t, jobId) ∈ l.acknowledgements
  submitted : l.submitted = (l.validations.filter Validation.forwarded).map Validation.jobId

namespace LedgerInv

variable {l l' : ShareLedger} {releases : TemplateId → Bool}

/-- A share with the next number has not been seen. -/
theorem fresh (h : LedgerInv l) {a : AcceptedShare} (hnew : a.number = l.accepted.length) :
    a ∉ l.accepted := by
  intro ha
  have hlt := h.numbered a ha
  omega

/-- Caches at most go away. -/
theorem of_cached (h : LedgerInv l) {cached : KeyMap TemplateId (List CachedShare)}
    (hle : ∀ t cs, cached.lookup t = some cs → l.cached.lookup t = some cs) :
    LedgerInv { l with cached := cached } := by
  refine ⟨h.numbered, h.accepted, h.once, h.validated, ?_, ?_, ?_, ?_, h.upstreamJobs, h.submitted⟩
  · intro t cs hcs
    exact h.cached t cs (hle t cs hcs)
  · intro t cs hcs
    exact h.cachedOnce t cs (hle t cs hcs)
  · intro t cs hcs
    exact h.bounded t cs (hle t cs hcs)
  · intro t jobId ht
    refine ⟨?_, (h.acknowledged t jobId ht).2⟩
    cases hcs : AList.lookup t cached with
    | none => rfl
    | some cs =>
      have hnone := (h.acknowledged t jobId ht).1
      rw [hle t cs hcs] at hnone
      cases hnone

theorem of_acknowledged (h : LedgerInv l) {t : TemplateId} {jobId : JobId} {vs : List Validation}
    (hshares : (vs.map Validation.share).reverse.Sublist
      (((l.cached.lookup t).getD []).map CachedShare.accepted))
    (hjobs : ∀ v ∈ vs, v.jobId = jobId) :
    LedgerInv { l with
      cached := l.cached.erase t
      validations := vs ++ l.validations
      acknowledgements := (t, jobId) :: l.acknowledgements
      upstreamJobs := l.upstreamJobs.insert t jobId
      submitted := (vs.filter Validation.forwarded).map Validation.jobId ++ l.submitted } := by
  -- the shares that are validated were in the cache of the template
  have hcached : ∀ a ∈ vs.map Validation.share, ∃ cs, l.cached.lookup t = some cs ∧
      ∃ c ∈ cs, c.accepted = a := by
    intro a ha
    have hmem := hshares.subset (List.mem_reverse.mpr ha)
    obtain ⟨c, hc, rfl⟩ := List.mem_map.mp hmem
    cases hcs : l.cached.lookup t with
    | none =>
      rw [hcs] at hc
      cases hc
    | some cs =>
      rw [hcs] at hc
      exact ⟨cs, rfl, c, hc, rfl⟩
  have hold : ∀ t' cs, (l.cached.erase t).lookup t' = some cs →
      t' ≠ t ∧ l.cached.lookup t' = some cs := by
    intro t' cs hcs
    rw [KeyMap.lookup_erase_eq] at hcs
    split at hcs
    · cases hcs
    next hne => exact ⟨hne, hcs⟩
  refine ⟨h.numbered, h.accepted, ?_, ?_, ?_, ?_, ?_, ?_, ?_, ?_⟩
  · rw [List.map_append]
    refine List.Nodup.append ?_ h.once ?_
    · rw [← List.nodup_reverse]
      refine hshares.nodup ?_
      cases hcs : l.cached.lookup t with
      | none => exact List.nodup_nil
      | some cs => exact h.cachedOnce t cs hcs
    · intro a ha hav
      obtain ⟨cs, hcs, c, hc, rfl⟩ := hcached a ha
      exact (h.cached t cs hcs c hc).2.2 hav
  · intro v hv
    rcases List.mem_append.mp hv with hv | hv
    · obtain ⟨cs, hcs, c, hc, heq⟩ := hcached v.share (List.mem_map_of_mem hv)
      obtain ⟨ht, hacc, -⟩ := h.cached t cs hcs c hc
      rw [← heq, ht, hjobs v hv]
      exact ⟨hacc, List.mem_cons_self⟩
    · exact ⟨(h.validated v hv).1, List.mem_cons_of_mem _ (h.validated v hv).2⟩
  · intro t' cs hcs c hc
    obtain ⟨hne, hcs⟩ := hold t' cs hcs
    obtain ⟨ht, hacc, hval⟩ := h.cached t' cs hcs c hc
    refine ⟨ht, hacc, ?_⟩
    intro hmem
    rw [List.map_append] at hmem
    rcases List.mem_append.mp hmem with hmem | hmem
    · obtain ⟨cs₀, hcs₀, c₀, hc₀, heq⟩ := hcached _ hmem
      have ht₀ := (h.cached t cs₀ hcs₀ c₀ hc₀).1
      rw [heq, ht] at ht₀
      exact hne ht₀
    · exact hval hmem
  · intro t' cs hcs
    exact h.cachedOnce t' cs (hold t' cs hcs).2
  · intro t' cs hcs
    exact h.bounded t' cs (hold t' cs hcs).2
  · intro t' jobId' hmem
    dsimp only
    rw [KeyMap.lookup_erase_eq, KeyMap.lookup_insert_eq]
    by_cases ht : t' = t
    · simp [ht]
    · rw [if_neg ht, if_neg ht]
      rcases List.mem_cons.mp hmem with heq | hmem
      · cases heq
        exact absurd rfl ht
      · exact h.acknowledged t' jobId' hmem
  · intro t' jobId' hlookup
    dsimp only at hlookup
    rw [KeyMap.lookup_insert_eq] at hlookup
    split at hlookup
    next ht =>
      cases hlookup
      rw [ht]
      exact List.mem_cons_self
    · exact List.mem_cons_of_mem _ (h.upstreamJobs t' jobId' hlookup)
  · dsimp only
    rw [List.filter_append, List.map_append, h.submitted]

/-- A new share is numbered after those before it. -/
theorem of_accepted (h : LedgerInv l) {share : AcceptedShare}
    (hnew : share.number = l.accepted.length) :
    LedgerInv { l with accepted := share :: l.accepted } := by
  refine ⟨?_, List.nodup_cons.mpr ⟨h.fresh hnew, h.accepted⟩, h.once, ?_, ?_, h.cachedOnce,
    h.bounded, h.acknowledged, h.upstreamJobs, h.submitted⟩
  · intro a ha
    rw [List.length_cons]
    rcases List.mem_cons.mp ha with rfl | ha
    · omega
    · exact Nat.lt_succ_of_lt (h.numbered a ha)
  · intro v hv
    exact ⟨List.mem_cons_of_mem _ (h.validated v hv).1, (h.validated v hv).2⟩
  · intro t cs hcs c hc
    obtain ⟨ht, hacc, hval⟩ := h.cached t cs hcs c hc
    exact ⟨ht, List.mem_cons_of_mem _ hacc, hval⟩

theorem of_validated (h : LedgerInv l) {share : AcceptedShare} {jobId : JobId} {forwarded : Bool}
    (hnew : share.number = l.accepted.length)
    (hjob : l.upstreamJobs.lookup share.templateId = some jobId) :
    LedgerInv { l with
      accepted := share :: l.accepted
      validations := ⟨share, jobId, forwarded⟩ :: l.validations
      submitted := if forwarded then jobId :: l.submitted else l.submitted } := by
  have hfresh := h.fresh hnew
  have hacc := h.of_accepted hnew
  refine ⟨hacc.numbered, hacc.accepted, ?_, ?_, ?_, h.cachedOnce, h.bounded, h.acknowledged,
    h.upstreamJobs, ?_⟩
  · rw [List.map_cons]
    refine List.nodup_cons.mpr ⟨?_, h.once⟩
    intro hmem
    obtain ⟨v, hv, heq⟩ := List.mem_map.mp hmem
    have hv := (h.validated v hv).1
    rw [heq] at hv
    exact hfresh hv
  · intro v hv
    rcases List.mem_cons.mp hv with rfl | hv
    · exact ⟨List.mem_cons_self, h.upstreamJobs _ _ hjob⟩
    · exact hacc.validated v hv
  · intro t cs hcs c hc
    obtain ⟨ht, hmem, hval⟩ := h.cached t cs hcs c hc
    refine ⟨ht, List.mem_cons_of_mem _ hmem, ?_⟩
    intro hv
    rw [List.map_cons] at hv
    rcases List.mem_cons.mp hv with heq | hv
    · rw [heq] at hmem
      exact hfresh hmem
    · exact hval hv
  · cases forwarded
    · simpa using h.submitted
    · simpa using h.submitted

theorem of_cache (h : LedgerInv l) {entry : CachedShare}
    (hnew : entry.accepted.number = l.accepted.length)
    (hjob : l.upstreamJobs.lookup entry.accepted.templateId = none) :
    LedgerInv { l with
      accepted := entry.accepted :: l.accepted
      cached := l.cached.insert entry.accepted.templateId
        (addShareToCache ((l.cached.lookup entry.accepted.templateId).getD []) entry) } := by
  have hfresh := h.fresh hnew
  have hacc := h.of_accepted hnew
  -- the cache of the template as it was
  have hheap : ∀ c ∈ (l.cached.lookup entry.accepted.templateId).getD [],
      c.accepted.templateId = entry.accepted.templateId ∧ c.accepted ∈ l.accepted ∧
        c.accepted ∉ l.validations.map Validation.share := by
    intro c hc
    cases hcs : l.cached.lookup entry.accepted.templateId with
    | none =>
      rw [hcs] at hc
      cases hc
    | some cs =>
      rw [hcs] at hc
      exact h.cached _ cs hcs c hc
  have hlength : ((l.cached.lookup entry.accepted.templateId).getD []).length ≤
      cachedSharesCapacity := by
    cases hcs : l.cached.lookup entry.accepted.templateId with
    | none => exact Nat.zero_le _
    | some cs => exact h.bounded _ cs hcs
  have hnodup : (((l.cached.lookup entry.accepted.templateId).getD []).map
      CachedShare.accepted).Nodup := by
    cases hcs : l.cached.lookup entry.accepted.templateId with
    | none => exact List.nodup_nil
    | some cs => exact h.cachedOnce _ cs hcs
  refine ⟨hacc.numbered, hacc.accepted, h.once, hacc.validated, ?_, ?_, ?_, ?_, h.upstreamJobs,
    h.submitted⟩
  · intro t cs hcs c hc
    dsimp only at hcs
    rw [KeyMap.lookup_insert_eq] at hcs
    split at hcs
    next ht =>
      cases hcs
      rcases mem_addShareToCache hc with rfl | hc
      · refine ⟨ht.symm, List.mem_cons_self, ?_⟩
        intro hmem
        obtain ⟨v, hv, heq⟩ := List.mem_map.mp hmem
        have hv := (h.validated v hv).1
        rw [heq] at hv
        exact hfresh hv
      · obtain ⟨htc, hmem, hval⟩ := hheap c hc
        exact ⟨htc.trans ht.symm, List.mem_cons_of_mem _ hmem, hval⟩
    · exact hacc.cached t cs hcs c hc
  · intro t cs hcs
    dsimp only at hcs
    rw [KeyMap.lookup_insert_eq] at hcs
    split at hcs
    · cases hcs
      refine ((addShareToCache_subperm _ entry).map CachedShare.accepted).nodup ?_
      rw [List.map_cons]
      refine List.nodup_cons.mpr ⟨?_, hnodup⟩
      intro hmem
      obtain ⟨c, hc, heq⟩ := List.mem_map.mp hmem
      have hc := (hheap c hc).2.1
      rw [heq] at hc
      exact hfresh hc
    · exact h.cachedOnce t cs hcs
  · intro t cs hcs
    dsimp only at hcs
    rw [KeyMap.lookup_insert_eq] at hcs
    split at hcs
    · cases hcs
      exact addShareToCache_length hlength entry
    · exact h.bounded t cs hcs
  · intro t jobId hmem
    obtain ⟨hnone, hsome⟩ := h.acknowledged t jobId hmem
    refine ⟨?_, hsome⟩
    dsimp only
    rw [KeyMap.lookup_insert_eq, if_neg]
    · exact hnone
    · rintro rfl
      exact hsome hjob

theorem move (h : LedgerInv l) (hmove : LedgerMove releases l l') : LedgerInv l' := by
  cases hmove with
  | kept => exact h
  | cleared hrel =>
    refine h.of_cached ?_
    intro t cs hcs
    cases hcs
  | dropped t hrel => exact h.of_cached fun t' cs hcs => KeyMap.lookup_erase_some hcs
  | acknowledged t jobId vs hrel hshares hjobs => exact h.of_acknowledged hshares hjobs
  | validated share jobId forwarded hnew hjob => exact h.of_validated hnew hjob
  | cached entry hnew hjob => exact h.of_cache hnew hjob

/-- A share leaves the cache of its template only when the cache is given up, or when the cache is
    full of shares that are at least as good. -/
theorem stays (h : LedgerInv l) (hmove : LedgerMove releases l l') {t : TemplateId}
    {cs : List CachedShare} (hcs : l.cached.lookup t = some cs) {c : CachedShare} (hc : c ∈ cs) :
    releases t = true ∨ ∃ cs', l'.cached.lookup t = some cs' ∧
      (c ∈ cs' ∨ FullOfBetter cs' c.shareTarget) := by
  have herase : ∀ t', (releases t' = true) → releases t = true ∨
      ∃ cs', (l.cached.erase t').lookup t = some cs' ∧
        (c ∈ cs' ∨ FullOfBetter cs' c.shareTarget) := by
    intro t' hrel
    by_cases ht : t = t'
    · rw [ht]
      exact Or.inl hrel
    · refine Or.inr ⟨cs, ?_, Or.inl hc⟩
      rw [KeyMap.lookup_erase_eq, if_neg ht]
      exact hcs
  cases hmove with
  | kept => exact Or.inr ⟨cs, hcs, Or.inl hc⟩
  | cleared hrel => exact Or.inl (hrel t)
  | dropped t' hrel => exact herase t' hrel
  | acknowledged t' jobId vs hrel hshares hjobs => exact herase t' hrel
  | validated share jobId forwarded hnew hjob => exact Or.inr ⟨cs, hcs, Or.inl hc⟩
  | cached entry hnew hjob =>
    right
    dsimp only
    rw [KeyMap.lookup_insert_eq]
    split
    next ht =>
      rw [ht] at hcs
      refine ⟨_, rfl, ?_⟩
      rw [hcs]
      exact mem_addShareToCache_or_full (h.bounded _ cs hcs) (List.mem_cons_of_mem _ hc)
    · exact ⟨cs, hcs, Or.inl hc⟩

/-- A share that is entered is validated if its template has been acknowledged; otherwise it is in
    the cache of its template, or the cache is full of shares that are at least as good. -/
theorem entered (h : LedgerInv l) {t : TemplateId} {target : Nat} (henters : Enters t target l l') :
    l'.accepted = ⟨l.accepted.length, t⟩ :: l.accepted ∧
    ((l.upstreamJobs.lookup t ≠ none ∧ ∃ v ∈ l'.validations, v.share = ⟨l.accepted.length, t⟩) ∨
      ∃ cs, l'.cached.lookup t = some cs ∧
        ((∃ c ∈ cs, c.accepted = ⟨l.accepted.length, t⟩) ∨ FullOfBetter cs target)) := by
  cases henters with
  | validated jobId forwarded hjob =>
    refine ⟨rfl, Or.inl ⟨?_, _, List.mem_cons_self, rfl⟩⟩
    rw [hjob]
    exact Option.some_ne_none jobId
  | cached entry hentry htarget hjob =>
    have hlength : ((l.cached.lookup t).getD []).length ≤ cachedSharesCapacity := by
      cases hcs : l.cached.lookup t with
      | none => exact Nat.zero_le _
      | some cs => exact h.bounded _ cs hcs
    refine ⟨rfl, Or.inr ⟨_, AList.lookup_insert _, ?_⟩⟩
    rcases mem_addShareToCache_or_full hlength (List.mem_cons_self (a := entry)) with hmem | hfull
    · exact Or.inl ⟨entry, hmem, hentry⟩
    · rw [htarget] at hfull
      exact Or.inr hfull

end LedgerInv

end Sv2Apps.Jdc
