/-
  BitcoinCore/TemplateRetention.lean
  ==================================
  **Which templates are kept** — the future template of the tip on its own, the most recent refreshes
  behind it, and everything else with a deadline until a sweep takes it out.

  The live retained templates are exactly the newest refreshes, as many as the retention allows
  (`Retention.live`).  Ids grow with every publication, so what is retired for the count is the oldest
  live template.
-/
import Sv2Apps.BitcoinCore.TemplateTasks

namespace Sv2Apps.BitcoinCore.TemplateDistribution

open Bitcoin

variable {s s' : State} {d d' : Shared}

/-! ## Newest first -/

/-- In a list with the newest first, the `n` newest are those not older than the last of them. -/
theorem mem_take_iff_le {l : List Nat} (hl : l.Pairwise (· > ·)) {n : Nat} (hn : n < l.length)
    {a : Nat} (ha : a ∈ l) : a ∈ l.take (n + 1) ↔ l[n] ≤ a := by
  obtain ⟨i, hi, rfl⟩ := List.mem_iff_getElem.mp ha
  constructor
  · intro htake
    obtain ⟨j, hj, heq⟩ := List.mem_iff_getElem.mp htake
    rw [List.getElem_take] at heq
    rw [List.length_take] at hj
    rw [← heq]
    rcases Nat.lt_or_eq_of_le (show j ≤ n by omega) with hlt | rfl
    · exact Nat.le_of_lt (List.pairwise_iff_getElem.mp hl j n _ hn hlt)
    · exact Nat.le_refl _
  · intro hle
    rw [List.mem_iff_getElem]
    have hin : i ≤ n := by
      refine Nat.le_of_not_lt ?_
      intro hlt
      exact absurd (List.pairwise_iff_getElem.mp hl n i hn hi hlt) (Nat.not_lt.mpr hle)
    exact ⟨i, by rw [List.length_take]; omega, List.getElem_take⟩

/-! ## Retirement -/

namespace TemplateData

theorem retire_of_retired {t : TemplateData} (h : t.retireAt.isSome = true) (at' : Instant) :
    t.retire at' = t := by
  unfold retire
  rw [if_pos h]

theorem retire_of_live {t : TemplateData} (h : t.retireAt = none) (at' : Instant) :
    t.retire at' = { t with retireAt := some at' } := by
  unfold retire
  rw [h]
  rfl

@[simp] theorem retire_templateId (t : TemplateData) (at' : Instant) :
    (t.retire at').templateId = t.templateId := by
  unfold retire
  split <;> rfl

@[simp] theorem retire_isSome (t : TemplateData) (at' : Instant) :
    (t.retire at').retireAt.isSome = true := by
  unfold retire
  split
  next h => exact h
  · rfl

/-- The template without its deadline. -/
def unretired (t : TemplateData) : TemplateData := { t with retireAt := none }

@[simp] theorem unretired_retire (t : TemplateData) (at' : Instant) :
    (t.retire at').unretired = t.unretired := by
  unfold retire
  split <;> rfl

theorem unretired_of_live {t : TemplateData} (h : t.retireAt = none) : t.unretired = t := by
  cases t
  cases h
  rfl

end TemplateData

namespace Shared

/-- Retained, and without a deadline. -/
def Live (d : Shared) (id : TemplateId) : Prop :=
  ∃ t, d.retainedTemplates.lookup id = some t ∧ t.retireAt = none

theorem mem_liveTemplateIds {id : TemplateId} : id ∈ d.liveTemplateIds ↔ d.Live id := by
  unfold liveTemplateIds
  rw [List.mem_insertionSort]
  constructor
  · intro h
    obtain ⟨⟨id', t⟩, he, rfl⟩ := List.mem_map.mp h
    rw [List.mem_filter] at he
    exact ⟨t, (KeyMap.mem_entries_iff _ _ _).mp he.1, by simpa using he.2⟩
  · rintro ⟨t, ht, hlive⟩
    refine List.mem_map.mpr ⟨⟨id, t⟩, List.mem_filter.mpr ⟨?_, ?_⟩, rfl⟩
    · exact (KeyMap.mem_entries_iff _ _ _).mpr ht
    · rw [hlive]
      rfl

theorem liveTemplateIds_nodup (d : Shared) : d.liveTemplateIds.Nodup := by
  unfold liveTemplateIds
  rw [(List.perm_insertionSort _ _).nodup_iff]
  have hkeys : (d.retainedTemplates.entries.map Sigma.fst).Nodup := d.retainedTemplates.nodupKeys
  exact (List.filter_sublist.map _).nodup hkeys

/-- The live templates in order, when it is known which they are. -/
theorem liveTemplateIds_eq {l : List TemplateId} (hl : l.Pairwise (· > ·))
    (hlive : ∀ id, d.Live id ↔ id ∈ l) : d.liveTemplateIds = l.reverse := by
  have hperm : d.liveTemplateIds.Perm l.reverse := by
    rw [List.perm_ext_iff_of_nodup d.liveTemplateIds_nodup]
    · intro id
      rw [mem_liveTemplateIds, hlive, List.mem_reverse]
    · rw [List.nodup_reverse]
      exact hl.imp fun h => Nat.ne_of_gt h
  have hsorted : d.liveTemplateIds.Pairwise (· ≤ ·) := List.pairwise_insertionSort _ _
  refine hperm.eq_of_pairwise' hsorted ?_
  rw [List.pairwise_reverse]
  exact hl.imp fun h => Nat.le_of_lt h

theorem retireAllTemplates_lookup (d : Shared) (id : TemplateId) :
    d.retireAllTemplates.retainedTemplates.lookup id =
      match d.futureTemplate with
      | none => (d.retainedTemplates.lookup id).map (·.retire (d.now + staleTemplateGracePeriod))
      | some t => if id = t.templateId then some (t.retire (d.now + staleTemplateGracePeriod))
        else (d.retainedTemplates.lookup id).map (·.retire (d.now + staleTemplateGracePeriod)) := by
  unfold retireAllTemplates
  dsimp only
  cases d.futureTemplate with
  | none => exact KeyMap.lookup_mapValues _ _ _
  | some t =>
    dsimp only
    rw [KeyMap.lookup_insert_eq, KeyMap.lookup_mapValues]

/-- The count retires the oldest live templates and nothing else. -/
theorem retireTemplatesBeyondCap_lookup {l : List TemplateId} (hl : l.Pairwise (· > ·))
    (hlive : ∀ id, d.Live id ↔ id ∈ l) (hmax : 0 < d.maxSameTipTemplates) (id : TemplateId) :
    d.retireTemplatesBeyondCap.retainedTemplates.lookup id =
      (d.retainedTemplates.lookup id).map fun t =>
        if id ∈ l ∧ id ∉ l.take d.maxSameTipTemplates then
          t.retire (d.now + staleTemplateGracePeriod)
        else t := by
  unfold retireTemplatesBeyondCap
  dsimp only
  rw [liveTemplateIds_eq hl hlive, List.length_reverse]
  split
  next hfits =>
    rw [List.take_of_length_le hfits]
    simp
  next hover =>
    rw [Nat.not_le] at hover
    obtain ⟨n, hn⟩ : ∃ n, d.maxSameTipTemplates = n + 1 := ⟨d.maxSameTipTemplates - 1, by omega⟩
    have hindex : n < l.length := by omega
    have holdest : l.reverse[l.length - d.maxSameTipTemplates]? = some l[n] := by
      rw [List.getElem?_reverse (by omega), hn]
      rw [show l.length - 1 - (l.length - (n + 1)) = n by omega]
      exact List.getElem?_eq_getElem hindex
    rw [holdest]
    dsimp only
    rw [KeyMap.lookup_mapValues]
    cases ht : d.retainedTemplates.lookup id with
    | none => rfl
    | some t =>
      rw [Option.map_some, Option.map_some, hn]
      by_cases hid : id ∈ l
      · simp only [hid, true_and, mem_take_iff_le hl hindex hid, Nat.not_le]
      · have hretired : t.retireAt.isSome = true := by
          rw [Option.isSome_iff_ne_none]
          intro hnone
          exact hid ((hlive id).mp ⟨t, ht, hnone⟩)
        rw [TemplateData.retire_of_retired hretired]
        simp

/-- In store, with or without a deadline. -/
def Held (d : Shared) (t : TemplateData) : Prop :=
  d.futureTemplate = some t ∨ ∃ id, d.retainedTemplates.lookup id = some t

end Shared

/-! ## The invariant -/

/-- How publications follow one another. -/
def Publication.Before (p q : Publication) : Prop :=
  p.template.templateId < q.template.templateId ∧
    p.template.templateIpcClient.serial < q.template.templateIpcClient.serial ∧
    p.template.templateIpcClient.request ≤ q.template.templateIpcClient.request

def refreshIds (ps : List Publication) : List TemplateId :=
  (ps.filter fun p => !p.futureTemplate).map (·.template.templateId)

structure Retention (d : Shared) (w : Option Work) : Prop where
  retention : 0 < d.maxSameTipTemplates
  keyed : ∀ id t, d.retainedTemplates.lookup id = some t → t.templateId = id
  future : ∀ t, d.futureTemplate = some t →
    t.retireAt = none ∧ d.retainedTemplates.lookup t.templateId = none
  live : ∀ id, d.Live id ↔ id ∈ d.refreshes.take d.maxSameTipTemplates
  newest : d.refreshes.Pairwise (· > ·)
  recent : ∃ older, refreshIds d.published = older ++ d.refreshes.reverse
  /-- What is live was built on the current prev-hash and, unless the connection is being ended, with
      the newest options. -/
  current : ∀ t, d.Held t → t.retireAt = none →
    d.currentPrevHash = some t.prevHash ∧
      (d.globalCancelled = false →
        t.templateIpcClient.request + 1 = d.createNewBlockRequests.length)
  held : ∀ t, d.Held t → ∃ p ∈ d.published, p.template = t.unretired
  order : d.published.Pairwise Publication.Before
  bound : ∀ p ∈ d.published, p.template.templateId < d.templateIdFactory ∧
    p.template.templateIpcClient.serial < d.issued ∧
    p.template.templateIpcClient.request < d.createNewBlockRequests.length
  fetching : ∀ c id, w = some (.fetch c id) → id < d.templateIdFactory ∧ c.serial < d.issued ∧
    c.request < d.createNewBlockRequests.length ∧
    ∀ p ∈ d.published, p.template.templateId < id ∧ p.template.templateIpcClient.serial < c.serial ∧
      p.template.templateIpcClient.request ≤ c.request

namespace Retention

variable {w w' : Option Work}

theorem retention_pos (maxSameTipTemplates : Option Nat) :
    0 < Shared.retention maxSameTipTemplates := by
  unfold Shared.retention
  split
  · decide
  · decide
  next requested h => exact Nat.pos_of_ne_zero h

theorem new (maxSameTipTemplates : Option Nat) : Retention (.new maxSameTipTemplates) none where
  retention := retention_pos maxSameTipTemplates
  keyed _ _ h := (Option.some_ne_none _ h.symm).elim
  future _ h := (Option.some_ne_none _ h.symm).elim
  live id := by
    constructor
    · rintro ⟨t, ht, -⟩
      exact (Option.some_ne_none _ ht.symm).elim
    · intro h
      simp [Shared.new] at h
  newest := List.Pairwise.nil
  recent := ⟨[], rfl⟩
  current t h := by
    rcases h with h | ⟨id, h⟩
    · exact (Option.some_ne_none _ h.symm).elim
    · exact (Option.some_ne_none _ h.symm).elim
  held t h := by
    rcases h with h | ⟨id, h⟩
    · exact (Option.some_ne_none _ h.symm).elim
    · exact (Option.some_ne_none _ h.symm).elim
  order := List.Pairwise.nil
  bound _ h := (List.not_mem_nil h).elim
  fetching _ _ h := (Option.some_ne_none _ h.symm).elim

/-- What steps keep that leave the templates alone. -/
structure Same (d d' : Shared) : Prop where
  retention : d'.maxSameTipTemplates = d.maxSameTipTemplates
  retained : d'.retainedTemplates = d.retainedTemplates
  future : d'.futureTemplate = d.futureTemplate
  refreshes : d'.refreshes = d.refreshes
  published : d'.published = d.published
  prevHash : d'.currentPrevHash = d.currentPrevHash
  requests : d'.createNewBlockRequests = d.createNewBlockRequests
  active : d'.globalCancelled = false → d.globalCancelled = false
  ids : d.templateIdFactory ≤ d'.templateIdFactory
  issued : d.issued ≤ d'.issued

theorem same (h : Retention d w) (hd : Same d d')
    (hw : ∀ c id, w' = some (.fetch c id) → w = some (.fetch c id)) : Retention d' w' := by
  have hheld : ∀ t, d'.Held t ↔ d.Held t := by
    intro t
    rw [Shared.Held, Shared.Held, hd.future, hd.retained]
  constructor
  · rw [hd.retention]
    exact h.retention
  · rw [hd.retained]
    exact h.keyed
  · rw [hd.future, hd.retained]
    exact h.future
  · intro id
    rw [hd.refreshes, hd.retention, Shared.Live, hd.retained]
    exact h.live id
  · rw [hd.refreshes]
    exact h.newest
  · rw [hd.published, hd.refreshes]
    exact h.recent
  · rw [hd.prevHash, hd.requests]
    intro t ht hlive
    obtain ⟨htip, hrequest⟩ := h.current t ((hheld t).mp ht) hlive
    exact ⟨htip, fun hactive => hrequest (hd.active hactive)⟩
  · rw [hd.published]
    intro t ht
    exact h.held t ((hheld t).mp ht)
  · rw [hd.published]
    exact h.order
  · rw [hd.published, hd.requests]
    intro p hp
    obtain ⟨hid, hserial, hrequest⟩ := h.bound p hp
    exact ⟨Nat.lt_of_lt_of_le hid hd.ids, Nat.lt_of_lt_of_le hserial hd.issued, hrequest⟩
  · rw [hd.published, hd.requests]
    intro c id hfetch
    obtain ⟨hid, hserial, hbefore⟩ := h.fetching c id (hw c id hfetch)
    exact ⟨Nat.lt_of_lt_of_le hid hd.ids, Nat.lt_of_lt_of_le hserial hd.issued, hbefore⟩

theorem idle (h : Retention d w) : Retention d none :=
  h.same ⟨rfl, rfl, rfl, rfl, rfl, rfl, rfl, id, Nat.le_refl _, Nat.le_refl _⟩ nofun

/-! ### Everything is retired -/

theorem retireAll_cases (h : Retention d w) {id : TemplateId} {t : TemplateData}
    (ht : d.retireAllTemplates.retainedTemplates.lookup id = some t) :
    ∃ t₀, d.Held t₀ ∧ t₀.templateId = id ∧
      t = t₀.retire (d.now + staleTemplateGracePeriod) := by
  rw [Shared.retireAllTemplates_lookup] at ht
  split at ht
  · obtain ⟨t₀, ht₀, rfl⟩ := Option.map_eq_some_iff.mp ht
    exact ⟨t₀, Or.inr ⟨id, ht₀⟩, h.keyed id t₀ ht₀, rfl⟩
  next t₁ hfuture =>
    split at ht
    next hid =>
      cases ht
      exact ⟨t₁, Or.inl hfuture, hid.symm, rfl⟩
    · obtain ⟨t₀, ht₀, rfl⟩ := Option.map_eq_some_iff.mp ht
      exact ⟨t₀, Or.inr ⟨id, ht₀⟩, h.keyed id t₀ ht₀, rfl⟩

theorem retireAll (h : Retention d w) : Retention d.retireAllTemplates w where
  retention := h.retention
  keyed id t ht := by
    obtain ⟨t₀, -, hid, rfl⟩ := h.retireAll_cases ht
    rw [TemplateData.retire_templateId]
    exact hid
  future _ ht := (Option.some_ne_none _ ht.symm).elim
  live id := by
    constructor
    · rintro ⟨t, ht, hlive⟩
      obtain ⟨t₀, -, -, rfl⟩ := h.retireAll_cases ht
      have hretired := TemplateData.retire_isSome t₀ (d.now + staleTemplateGracePeriod)
      rw [hlive] at hretired
      cases hretired
    · intro hid
      rw [show d.retireAllTemplates.refreshes = [] from rfl, List.take_nil] at hid
      cases hid
  newest := List.Pairwise.nil
  recent := ⟨refreshIds d.published, (List.append_nil _).symm⟩
  current t ht hlive := by
    rcases ht with ht | ⟨id, ht⟩
    · cases ht
    · obtain ⟨t₀, -, -, rfl⟩ := h.retireAll_cases ht
      have hretired := TemplateData.retire_isSome t₀ (d.now + staleTemplateGracePeriod)
      rw [hlive] at hretired
      cases hretired
  held t ht := by
    rcases ht with ht | ⟨id, ht⟩
    · cases ht
    · obtain ⟨t₀, ht₀, -, rfl⟩ := h.retireAll_cases ht
      rw [TemplateData.unretired_retire]
      exact h.held t₀ ht₀
  order := h.order
  bound := h.bound
  fetching := h.fetching

/-- Nothing live is left when new constraints are sent. -/
theorem rotated (h : Retention d w) (hcleared : d.Cleared) (requests : List BlockCreateOptions) :
    Retention { d with createNewBlockRequests := d.createNewBlockRequests ++ requests } w where
  retention := h.retention
  keyed := h.keyed
  future := h.future
  live := h.live
  newest := h.newest
  recent := h.recent
  current t ht hlive := by
    rcases ht with ht | ⟨id, ht⟩
    · exact absurd (hcleared.1.symm.trans ht) nofun
    · have hid := (h.live id).mp ⟨t, ht, hlive⟩
      rw [hcleared.2, List.take_nil] at hid
      cases hid
  held := h.held
  order := h.order
  bound p hp := by
    obtain ⟨hid, hserial, hrequest⟩ := h.bound p hp
    refine ⟨hid, hserial, ?_⟩
    rw [List.length_append]
    omega
  fetching c id hw := by
    obtain ⟨hid, hserial, hrequest, hbefore⟩ := h.fetching c id hw
    refine ⟨hid, hserial, ?_, hbefore⟩
    rw [List.length_append]
    omega

/-! ### A template is published -/

/-- A fresh template, about to be stored. -/
structure Fresh (d : Shared) (t : TemplateData) : Prop where
  live : t.retireAt = none
  id : t.templateId < d.templateIdFactory
  serial : t.templateIpcClient.serial < d.issued
  bound : t.templateIpcClient.request < d.createNewBlockRequests.length
  request : d.globalCancelled = false →
    t.templateIpcClient.request + 1 = d.createNewBlockRequests.length
  newer : ∀ p ∈ d.published, p.template.templateId < t.templateId ∧
    p.template.templateIpcClient.serial < t.templateIpcClient.serial ∧
    p.template.templateIpcClient.request ≤ t.templateIpcClient.request

theorem fresh (h : Retention d w) {c : BlockTemplate} {id : TemplateId} {f : Fetched}
    (hw : w = some (.fetch c id))
    (hrequest : d.globalCancelled = false → c.request + 1 = d.createNewBlockRequests.length) :
    Fresh d (.ofFetched id c f) := by
  obtain ⟨hid, hserial, hbound, hbefore⟩ := h.fetching c id hw
  exact ⟨rfl, hid, hserial, hbound, hrequest, hbefore⟩

theorem Fresh.newer_held (h : Retention d w) {t u : TemplateData} (ht : Fresh d t)
    (hu : d.Held u) : u.templateId < t.templateId := by
  obtain ⟨p, hp, heq⟩ := h.held u hu
  have hid := (ht.newer p hp).1
  rw [heq] at hid
  exact hid

theorem Fresh.unretained (h : Retention d w) {t : TemplateData} (ht : Fresh d t) :
    d.retainedTemplates.lookup t.templateId = none := by
  cases hu : d.retainedTemplates.lookup t.templateId with
  | none => rfl
  | some u =>
    have hid := ht.newer_held h (Or.inr ⟨t.templateId, hu⟩)
    rw [h.keyed _ u hu] at hid
    exact absurd hid (Nat.lt_irrefl _)

theorem order_append (h : Retention d w) {t : TemplateData} (ht : Fresh d t) {p : Publication}
    (hp : p.template = t) : (d.published ++ [p]).Pairwise Publication.Before := by
  rw [List.pairwise_append]
  refine ⟨h.order, List.pairwise_singleton _ _, ?_⟩
  intro q hq p' hp'
  rw [List.mem_singleton] at hp'
  subst hp'
  subst hp
  exact ht.newer q hq

theorem bound_append (h : Retention d w) {t : TemplateData} (ht : Fresh d t) {p : Publication}
    (hp : p.template = t) : ∀ q ∈ d.published ++ [p],
      q.template.templateId < d.templateIdFactory ∧
      q.template.templateIpcClient.serial < d.issued ∧
      q.template.templateIpcClient.request < d.createNewBlockRequests.length := by
  intro q hq
  rcases List.mem_append.mp hq with hq | hq
  · exact h.bound q hq
  · rw [List.mem_singleton] at hq
    subst hq
    subst hp
    exact ⟨ht.id, ht.serial, ht.bound⟩

theorem not_live_of_cleared (h : Retention d w) (hcleared : d.Cleared) (id : TemplateId) :
    ¬ d.Live id := by
  intro hid
  have hmem := (h.live id).mp hid
  rw [hcleared.2, List.take_nil] at hmem
  cases hmem

theorem storeFuture_lookup (h : Retention d w) (hcleared : d.Cleared) (t : TemplateData)
    (id : TemplateId) :
    (d.storeTemplateData t true).retireTemplatesBeyondCap.retainedTemplates.lookup id =
      d.retainedTemplates.lookup id := by
  have hlive : ∀ id, (d.storeTemplateData t true).Live id ↔ id ∈ [] :=
    fun id => iff_of_false (h.not_live_of_cleared hcleared id) List.not_mem_nil
  rw [Shared.retireTemplatesBeyondCap_lookup List.Pairwise.nil hlive h.retention id]
  simp [Shared.storeTemplateData]

/-- The tip's future template has a place of its own. -/
theorem publishFuture (h : Retention d w) (hcleared : d.Cleared) {t : TemplateData}
    (ht : Fresh d t) {p : Publication} (hp : d.publishTemplate t true true = some (d', p))
    (hw' : ∀ c id, w' ≠ some (.fetch c id)) : Retention d' w' := by
  obtain ⟨htemplate, hfuture, rfl⟩ := Shared.publishTemplate_eq_some hp
  have hnone := h.not_live_of_cleared hcleared
  have hlookup := h.storeFuture_lookup hcleared t
  have hheld : ∀ u, Shared.Held { d with
      retainedTemplates := (d.storeTemplateData t true).retireTemplatesBeyondCap.retainedTemplates
      futureTemplate := some t } u → u = t ∨ d.Held u ∧ u.retireAt ≠ none := by
    rintro u (hu | ⟨id, hu⟩)
    · exact Or.inl (Option.some.inj hu).symm
    · dsimp only at hu
      rw [hlookup] at hu
      exact Or.inr ⟨Or.inr ⟨id, hu⟩, fun hlive => hnone id ⟨u, hu, hlive⟩⟩
  constructor
  · exact h.retention
  · intro id u hu
    dsimp only at hu
    rw [hlookup] at hu
    exact h.keyed id u hu
  · intro u hu
    cases hu
    refine ⟨ht.live, ?_⟩
    dsimp only
    rw [hlookup]
    exact ht.unretained h
  · intro id
    constructor
    · rintro ⟨u, hu, hlive⟩
      dsimp only at hu
      rw [hlookup] at hu
      exact absurd ⟨u, hu, hlive⟩ (hnone id)
    · intro hid
      rw [show (if true = true then d.refreshes else t.templateId :: d.refreshes) = [] from
        hcleared.2, List.take_nil] at hid
      cases hid
  · exact h.newest
  · obtain ⟨older, holder⟩ := h.recent
    refine ⟨older, ?_⟩
    dsimp only
    rw [refreshIds, List.filter_append, List.map_append]
    simp only [List.filter_cons, hfuture, Bool.not_true, Bool.false_eq_true, if_false,
      List.filter_nil, List.map_nil, List.append_nil, if_true]
    exact holder
  · intro u hu hlive
    rcases hheld u hu with rfl | ⟨-, hretired⟩
    · exact ⟨rfl, ht.request⟩
    · exact absurd hlive hretired
  · intro u hu
    dsimp only
    rcases hheld u hu with rfl | ⟨hu, -⟩
    · exact ⟨p, List.mem_append_right _ (List.mem_singleton_self p),
        htemplate.trans (TemplateData.unretired_of_live ht.live).symm⟩
    · obtain ⟨q, hq, heq⟩ := h.held u hu
      exact ⟨q, List.mem_append_left _ hq, heq⟩
  · exact h.order_append ht htemplate
  · exact h.bound_append ht htemplate
  · intro c id hfetch
    exact absurd hfetch (hw' c id)

/-- The refreshes since the last retirement of everything, with the new one. -/
theorem Fresh.newest (h : Retention d w) {t : TemplateData} (ht : Fresh d t) :
    (t.templateId :: d.refreshes).Pairwise (· > ·) := by
  refine List.pairwise_cons.mpr ⟨?_, h.newest⟩
  intro id hid
  obtain ⟨older, holder⟩ := h.recent
  have hmem : id ∈ refreshIds d.published := by
    rw [holder]
    exact List.mem_append_right _ (List.mem_reverse.mpr hid)
  obtain ⟨q, hq, rfl⟩ := List.mem_map.mp hmem
  exact (ht.newer q (List.mem_of_mem_filter hq)).1

/-- What is live before the count is looked at. -/
theorem storeRefresh_live (h : Retention d w) {t : TemplateData} (ht : t.retireAt = none)
    (id : TemplateId) : (d.storeTemplateData t false).Live id ↔
      id ∈ t.templateId :: d.refreshes.take d.maxSameTipTemplates := by
  rw [List.mem_cons, ← h.live id]
  unfold Shared.Live Shared.storeTemplateData
  simp only [Bool.false_eq_true, if_false, KeyMap.lookup_insert_eq]
  by_cases hid : id = t.templateId
  · simp [hid, ht]
  · simp [hid]

theorem take_cons_take (h : Retention d w) (id : TemplateId) :
    (id :: d.refreshes.take d.maxSameTipTemplates).take d.maxSameTipTemplates =
      (id :: d.refreshes).take d.maxSameTipTemplates := by
  obtain ⟨n, hn⟩ : ∃ n, d.maxSameTipTemplates = n + 1 :=
    ⟨d.maxSameTipTemplates - 1, by have := h.retention; omega⟩
  rw [hn, List.take_succ_cons, List.take_succ_cons, List.take_take]
  simp

theorem storeRefresh_lookup (h : Retention d w) {t : TemplateData} (ht : Fresh d t)
    (id : TemplateId) :
    (d.storeTemplateData t false).retireTemplatesBeyondCap.retainedTemplates.lookup id =
      ((d.storeTemplateData t false).retainedTemplates.lookup id).map fun u =>
        if id ∈ t.templateId :: d.refreshes.take d.maxSameTipTemplates ∧
            id ∉ (t.templateId :: d.refreshes).take d.maxSameTipTemplates then
          u.retire (d.now + staleTemplateGracePeriod)
        else u := by
  have hlookup := Shared.retireTemplatesBeyondCap_lookup (d := d.storeTemplateData t false)
    ((ht.newest h).sublist ((List.take_sublist _ _).cons_cons _)) (h.storeRefresh_live ht.live)
    h.retention id
  rw [show (d.storeTemplateData t false).maxSameTipTemplates = d.maxSameTipTemplates from rfl,
    h.take_cons_take] at hlookup
  exact hlookup

/-- A refresh joins the retained templates, and may push the oldest of them out. -/
theorem publishRefresh (h : Retention d w) {t : TemplateData} (ht : Fresh d t)
    (htip : d.currentPrevHash = some t.prevHash) {p : Publication}
    (hp : d.publishTemplate t false false = some (d', p)) (hw' : ∀ c id, w' ≠ some (.fetch c id)) :
    Retention d' w' := by
  obtain ⟨htemplate, hfuture, rfl⟩ := Shared.publishTemplate_eq_some hp
  have hsorted := ht.newest h
  have hstored := h.storeRefresh_live ht.live
  have htake := h.take_cons_take t.templateId
  have hlookup := h.storeRefresh_lookup ht
  generalize hcapped : (d.storeTemplateData t false).retireTemplatesBeyondCap.retainedTemplates =
    capped at hlookup ⊢
  have hstore : ∀ id v, (d.storeTemplateData t false).retainedTemplates.lookup id = some v →
      v.templateId = id ∧ (v = t ∨ d.Held v) := by
    intro id v hv
    unfold Shared.storeTemplateData at hv
    simp only [Bool.false_eq_true, if_false, KeyMap.lookup_insert_eq] at hv
    split at hv
    next hid =>
      cases hv
      exact ⟨hid.symm, Or.inl rfl⟩
    · exact ⟨h.keyed id v hv, Or.inr (Or.inr ⟨id, hv⟩)⟩
  have hcapped : ∀ id u, capped.lookup id = some u → u.templateId = id ∧
      (∃ v, (v = t ∨ d.Held v) ∧ u.unretired = v.unretired ∧ (u.retireAt = none → u = v)) ∧
      (u.retireAt = none → id ∈ (t.templateId :: d.refreshes).take d.maxSameTipTemplates) := by
    intro id u hu
    rw [hlookup] at hu
    obtain ⟨v, hv, rfl⟩ := Option.map_eq_some_iff.mp hu
    obtain ⟨hid, hheld⟩ := hstore id v hv
    split
    · refine ⟨by rw [TemplateData.retire_templateId, hid],
        ⟨v, hheld, TemplateData.unretired_retire v _, ?_⟩, ?_⟩
      · intro hlive
        exact absurd hlive (Option.isSome_iff_ne_none.mp (TemplateData.retire_isSome v _))
      · intro hlive
        exact absurd hlive (Option.isSome_iff_ne_none.mp (TemplateData.retire_isSome v _))
    next hkept =>
      refine ⟨hid, ⟨v, hheld, rfl, fun _ => rfl⟩, ?_⟩
      intro hlive
      exact not_not.mp fun hout => hkept ⟨(hstored id).mp ⟨v, hv, hlive⟩, hout⟩
  have hheld : ∀ u, Shared.Held { d with retainedTemplates := capped } u →
      ∃ v, (v = t ∨ d.Held v) ∧ u.unretired = v.unretired ∧ (u.retireAt = none → u = v) := by
    rintro u (hu | ⟨id, hu⟩)
    · exact ⟨u, Or.inr (Or.inl hu), rfl, fun _ => rfl⟩
    · exact (hcapped id u hu).2.1
  constructor
  · exact h.retention
  · intro id u hu
    exact (hcapped id u hu).1
  · intro u hu
    obtain ⟨hlive, hnone⟩ := h.future u hu
    have hid := ht.newer_held h (Or.inl hu)
    refine ⟨hlive, ?_⟩
    dsimp only
    rw [hlookup]
    unfold Shared.storeTemplateData
    simp only [Bool.false_eq_true, if_false, KeyMap.lookup_insert_eq]
    rw [if_neg (Nat.ne_of_lt hid), hnone]
    rfl
  · intro id
    constructor
    · rintro ⟨u, hu, hlive⟩
      exact (hcapped id u hu).2.2 hlive
    · intro hid
      have hin : id ∈ t.templateId :: d.refreshes.take d.maxSameTipTemplates := by
        have hid' : id ∈ (t.templateId :: d.refreshes).take d.maxSameTipTemplates := hid
        rw [← htake] at hid'
        exact List.mem_of_mem_take hid'
      obtain ⟨v, hv, hlive⟩ := (hstored id).mpr hin
      refine ⟨v, ?_, hlive⟩
      dsimp only
      rw [hlookup, hv, Option.map_some, if_neg fun hout => hout.2 hid]
  · exact hsorted
  · obtain ⟨older, holder⟩ := h.recent
    refine ⟨older, ?_⟩
    dsimp only
    rw [refreshIds, List.filter_append, List.map_append]
    simp only [List.filter_cons, hfuture, Bool.not_false, if_true, List.filter_nil, List.map_cons,
      List.map_nil, Bool.false_eq_true, if_false, List.reverse_cons, htemplate]
    rw [← List.append_assoc, ← holder]
    rfl
  · intro u hu hlive
    obtain ⟨v, hv, -, hsame⟩ := hheld u hu
    have heq := hsame hlive
    rw [heq] at hlive ⊢
    rcases hv with rfl | hv
    · exact ⟨htip, ht.request⟩
    · exact h.current v hv hlive
  · intro u hu
    dsimp only
    obtain ⟨v, hv, hsame, -⟩ := hheld u hu
    rw [hsame]
    rcases hv with rfl | hv
    · exact ⟨p, List.mem_append_right _ (List.mem_singleton_self p),
        htemplate.trans (TemplateData.unretired_of_live ht.live).symm⟩
    · obtain ⟨q, hq, heq⟩ := h.held v hv
      exact ⟨q, List.mem_append_left _ hq, heq⟩
  · exact h.order_append ht htemplate
  · exact h.bound_append ht htemplate
  · intro c id hfetch
    exact absurd hfetch (hw' c id)

/-! ### A sweep -/

theorem extractDue_lookup (d : Shared) (id : TemplateId) :
    d.extractDue.1.retainedTemplates.lookup id =
      (d.retainedTemplates.lookup id).filter fun t => !Shared.isDue d.now t :=
  KeyMap.lookup_retain _ _ _

theorem isDue_eq_true {now : Instant} {t : TemplateData} :
    Shared.isDue now t = true ↔ ∃ retireAt, t.retireAt = some retireAt ∧ retireAt ≤ now := by
  unfold Shared.isDue
  cases t.retireAt <;> simp

theorem swept (h : Retention d w) (destroyed : List (Instant × TemplateData)) :
    Retention { d.extractDue.1 with destroyed := destroyed } w := by
  have hsub : ∀ id t, d.extractDue.1.retainedTemplates.lookup id = some t →
      d.retainedTemplates.lookup id = some t := by
    intro id t ht
    rw [extractDue_lookup] at ht
    exact (Option.filter_eq_some_iff.mp ht).1
  have hheld : ∀ t, d.extractDue.1.Held t → d.Held t :=
    fun t ht => ht.imp_right fun ⟨id, ht⟩ => ⟨id, hsub id t ht⟩
  constructor
  · exact h.retention
  · exact fun id t ht => h.keyed id t (hsub id t ht)
  · intro t ht
    refine ⟨(h.future t ht).1, ?_⟩
    dsimp only
    rw [extractDue_lookup, (h.future t ht).2]
    rfl
  · intro id
    rw [show d.extractDue.1.refreshes = d.refreshes from rfl,
      show d.extractDue.1.maxSameTipTemplates = d.maxSameTipTemplates from rfl, ← h.live id]
    constructor
    · rintro ⟨t, ht, hlive⟩
      exact ⟨t, hsub id t ht, hlive⟩
    · rintro ⟨t, ht, hlive⟩
      refine ⟨t, ?_, hlive⟩
      dsimp only
      rw [extractDue_lookup, ht, Option.filter_some]
      rw [if_pos]
      rw [Bool.not_eq_true', Bool.eq_false_iff]
      intro hdue
      obtain ⟨retireAt, hretired, -⟩ := isDue_eq_true.mp hdue
      rw [hlive] at hretired
      cases hretired
  · exact h.newest
  · exact h.recent
  · exact fun t ht => h.current t (hheld t ht)
  · exact fun t ht => h.held t (hheld t ht)
  · exact h.order
  · exact h.bound
  · exact h.fetching

/-! ### Every step -/

theorem effect {retiring : Bool} (h : Retention d w) (he : Effect retiring d w d' w') : Retention d' w' := by
  cases he with
  | quiet =>
    refine h.same ⟨rfl, rfl, rfl, rfl, rfl, rfl, rfl, ?_, Nat.le_refl _, Nat.le_refl _⟩ fun _ _ hw => hw
    exact fun hactive => (Bool.or_eq_false_iff.mp hactive).1
  | tick | issue | respond | destroy =>
    exact h.same ⟨rfl, rfl, rfl, rfl, rfl, rfl, rfl, id, Nat.le_refl _,
      by dsimp only [Shared.send]; omega⟩ fun _ _ hw => hw
  | abandon =>
    exact h.idle.same ⟨rfl, rfl, rfl, rfl, rfl, rfl, rfl, nofun, Nat.le_refl _, Nat.le_refl _⟩ nofun
  | fetch request hactive hrequest =>
    have hsame : Retention { d with
        issued := d.issued + 1
        templateIdFactory := d.templateIdFactory + 1 } none :=
      h.same ⟨rfl, rfl, rfl, rfl, rfl, rfl, rfl, id, Nat.le_succ _, Nat.le_succ _⟩ nofun
    refine { hsame with fetching := ?_ }
    intro c id hfetch
    cases hfetch
    refine ⟨Nat.lt_succ_self _, Nat.lt_succ_self _, ?_, ?_⟩
    · show request < d.createNewBlockRequests.length
      omega
    · intro p hp
      obtain ⟨hid, hserial, hbefore⟩ := h.bound p hp
      refine ⟨hid, hserial, ?_⟩
      show p.template.templateIpcClient.request ≤ request
      omega
  | firstRequest c hnone =>
    have hunheld : ∀ t, ¬ d.Held t := by
      intro t ht
      obtain ⟨p, hp, -⟩ := h.held t ht
      have hrequest := (h.bound p hp).2.2
      rw [hnone] at hrequest
      exact absurd hrequest (Nat.not_lt_zero _)
    exact { h with
      current := fun t ht => absurd ht (hunheld t)
      bound := by
        intro p hp
        have hrequest := (h.bound p hp).2.2
        rw [hnone] at hrequest
        exact absurd hrequest (Nat.not_lt_zero _)
      fetching := nofun }
  | rotate _ c tokens hw =>
    have hsame : Retention { d with cancelledTokens := tokens } w :=
      h.same ⟨rfl, rfl, rfl, rfl, rfl, rfl, rfl, id, Nat.le_refl _, Nat.le_refl _⟩ fun _ _ hw => hw
    exact hsame.retireAll.rotated ⟨rfl, rfl⟩ [c.options]
  | refresh d' c id f p hrequest htip hlive hpublish =>
    exact h.publishRefresh (h.fresh rfl hrequest) htip hpublish nofun
  | replace d₁ d' c id f p hrequest hcleared hpublish =>
    rcases hcleared with rfl | ⟨rfl, hcleared⟩
    · exact h.retireAll.publishFuture ⟨rfl, rfl⟩ (h.retireAll.fresh rfl hrequest) hpublish nofun
    · exact h.publishFuture hcleared (h.fresh rfl hrequest) hpublish nofun
  | unpublishable =>
    exact h.retireAll.idle.same
      ⟨rfl, rfl, rfl, rfl, rfl, rfl, rfl, nofun, Nat.le_refl _, Nat.le_refl _⟩ nofun
  | sendFuture | sendRefresh | sendSetNewPrevHash =>
    exact h.same ⟨rfl, rfl, rfl, rfl, rfl, rfl, rfl, id, Nat.le_refl _, Nat.le_refl _⟩ nofun
  | sweep _ destroyed hretiring => exact h.swept destroyed

/-! ## Deadlines -/

/-- A deadline stays as it is until a sweep takes the template out, at the deadline or later. -/
theorem deadline {retiring : Bool} (h : Retention d w) (he : Effect retiring d w d' w')
    {id : TemplateId} {t : TemplateData} (ht : d.retainedTemplates.lookup id = some t)
    {retireAt : Instant} (hretired : t.retireAt = some retireAt) :
    d'.retainedTemplates.lookup id = some t ∨
      d'.retainedTemplates.lookup id = none ∧ retireAt ≤ d.now := by
  have hsome : t.retireAt.isSome = true := by
    rw [hretired]
    rfl
  have hall : d.retireAllTemplates.retainedTemplates.lookup id = some t := by
    have hretire : some (t.retire (d.now + staleTemplateGracePeriod)) = some t := by
      rw [TemplateData.retire_of_retired hsome]
    rw [Shared.retireAllTemplates_lookup]
    split
    · rw [ht, Option.map_some, hretire]
    next u hfuture =>
      rw [if_neg ?_, ht, Option.map_some, hretire]
      rintro rfl
      rw [(h.future u hfuture).2] at ht
      cases ht
  cases he with
  | rotate | unpublishable => exact Or.inl hall
  | refresh d' c fid f p hrequest htip hlive hpublish =>
    have hfresh := h.fresh (f := f) rfl hrequest
    obtain ⟨-, -, rfl⟩ := Shared.publishTemplate_eq_some hpublish
    left
    dsimp only
    rw [h.storeRefresh_lookup hfresh]
    unfold Shared.storeTemplateData
    simp only [Bool.false_eq_true, if_false, KeyMap.lookup_insert_eq]
    rw [if_neg ?_, ht, Option.map_some, TemplateData.retire_of_retired hsome, ite_self]
    rintro rfl
    exact absurd (ht.symm.trans (hfresh.unretained h)) nofun
  | replace d₁ d' c fid f p hrequest hcleared hpublish =>
    obtain ⟨-, -, rfl⟩ := Shared.publishTemplate_eq_some hpublish
    left
    dsimp only
    rcases hcleared with rfl | ⟨rfl, hcleared⟩
    · rw [h.retireAll.storeFuture_lookup ⟨rfl, rfl⟩]
      exact hall
    · rw [h.storeFuture_lookup hcleared]
      exact ht
  | sweep _ destroyed hretiring =>
    dsimp only
    rw [extractDue_lookup, ht, Option.filter_some]
    split
    · exact Or.inl rfl
    next hdue =>
      rw [Bool.not_eq_true', Bool.not_eq_false] at hdue
      obtain ⟨retireAt', hretired', hle⟩ := isDue_eq_true.mp hdue
      rw [hretired] at hretired'
      cases hretired'
      exact Or.inr ⟨rfl, hle⟩
  | _ => exact Or.inl ht

/-- Whatever a step stores is new. -/
theorem held_or_new {retiring : Bool} (h : Retention d w) (he : Effect retiring d w d' w')
    {u : TemplateData} (hu : d'.Held u) : (∃ v, d.Held v ∧ v.templateId = u.templateId) ∨
      ∀ p ∈ d.published, p.template.templateId < u.templateId := by
  have hall : d.retireAllTemplates.Held u → ∃ v, d.Held v ∧ v.templateId = u.templateId := by
    rintro (hu | ⟨id, hu⟩)
    · cases hu
    · obtain ⟨v, hv, -, rfl⟩ := h.retireAll_cases hu
      exact ⟨v, hv, (TemplateData.retire_templateId v _).symm⟩
  cases he with
  | rotate | unpublishable => exact Or.inl (hall hu)
  | refresh d' c fid f p hrequest htip hlive hpublish =>
    have hfresh := h.fresh (f := f) rfl hrequest
    obtain ⟨-, -, rfl⟩ := Shared.publishTemplate_eq_some hpublish
    rcases hu with hu | ⟨id, hu⟩
    · exact Or.inl ⟨u, Or.inl hu, rfl⟩
    · dsimp only at hu
      rw [h.storeRefresh_lookup hfresh] at hu
      obtain ⟨v, hv, rfl⟩ := Option.map_eq_some_iff.mp hu
      have hid : (if id ∈ (TemplateData.ofFetched fid c f).templateId ::
          d.refreshes.take d.maxSameTipTemplates ∧
          id ∉ ((TemplateData.ofFetched fid c f).templateId :: d.refreshes).take
            d.maxSameTipTemplates then v.retire (d.now + staleTemplateGracePeriod)
          else v).templateId = v.templateId := by
        split
        · exact TemplateData.retire_templateId v _
        · rfl
      rw [hid]
      unfold Shared.storeTemplateData at hv
      simp only [Bool.false_eq_true, if_false, KeyMap.lookup_insert_eq] at hv
      split at hv
      · cases hv
        exact Or.inr fun p hp => (hfresh.newer p hp).1
      · exact Or.inl ⟨v, Or.inr ⟨id, hv⟩, rfl⟩
  | replace d₁ d' c fid f p hrequest hcleared hpublish =>
    have hfresh := h.fresh (f := f) rfl hrequest
    obtain ⟨-, -, rfl⟩ := Shared.publishTemplate_eq_some hpublish
    rcases hu with hu | ⟨id, hu⟩
    · cases hu
      exact Or.inr fun p hp => (hfresh.newer p hp).1
    · dsimp only at hu
      rcases hcleared with rfl | ⟨rfl, hcleared⟩
      · rw [h.retireAll.storeFuture_lookup ⟨rfl, rfl⟩] at hu
        exact Or.inl (hall (Or.inr ⟨id, hu⟩))
      · rw [h.storeFuture_lookup hcleared] at hu
        exact Or.inl ⟨u, Or.inr ⟨id, hu⟩, rfl⟩
  | sweep _ destroyed hretiring =>
    rcases hu with hu | ⟨id, hu⟩
    · exact Or.inl ⟨u, Or.inl hu, rfl⟩
    · dsimp only at hu
      rw [extractDue_lookup] at hu
      exact Or.inl ⟨u, Or.inr ⟨id, (Option.filter_eq_some_iff.mp hu).1⟩, rfl⟩
  | _ => exact Or.inl ⟨u, hu, rfl⟩

/-- Publications are never forgotten. -/
theorem published_grows {retiring : Bool} (he : Effect retiring d w d' w') :
    d.published ⊆ d'.published ∧ d.now ≤ d'.now := by
  cases he with
  | tick elapsed => exact ⟨List.Subset.refl _, Nat.le_add_right _ _⟩
  | refresh d' c fid f p hrequest htip hlive hpublish =>
    obtain ⟨-, -, rfl⟩ := Shared.publishTemplate_eq_some hpublish
    exact ⟨List.subset_append_left _ _, Nat.le_refl _⟩
  | replace d₁ d' c fid f p hrequest hcleared hpublish =>
    obtain ⟨-, -, rfl⟩ := Shared.publishTemplate_eq_some hpublish
    rcases hcleared with rfl | ⟨rfl, -⟩
    · exact ⟨List.subset_append_left _ _, Nat.le_refl _⟩
    · exact ⟨List.subset_append_left _ _, Nat.le_refl _⟩
  | _ => exact ⟨List.Subset.refl _, Nat.le_refl _⟩

theorem destroyed_kept (he : Effect false d w d' w') : d'.destroyed = d.destroyed := by
  cases he with
  | refresh d' c fid f p hrequest htip hlive hpublish =>
    obtain ⟨-, -, rfl⟩ := Shared.publishTemplate_eq_some hpublish
    rfl
  | replace d₁ d' c fid f p hrequest hcleared hpublish =>
    obtain ⟨-, -, rfl⟩ := Shared.publishTemplate_eq_some hpublish
    rcases hcleared with rfl | ⟨rfl, -⟩
    · rfl
    · rfl
  | destroy _ _ hretiring | sweep _ _ hretiring => cases hretiring
  | _ => rfl

end Retention

/-! ## Destruction -/

/-- Taken out, and not destroyed yet. -/
def RetirementTask.due : RetirementTask → List TemplateData
  | .destroying due => due
  | _ => []

namespace State

/-- Templates that were taken out of the store. -/
def gone (s : State) : List TemplateData := s.shared.destroyed.map (·.2) ++ s.retirement.due

end State

/-- What is taken out is not held any more, and is destroyed at most once. -/
structure Destruction (s : State) : Prop where
  once : (s.gone.map (·.templateId)).Nodup
  unheld : ∀ t ∈ s.gone, ∀ u, s.shared.Held u → u.templateId ≠ t.templateId
  published : ∀ t ∈ s.gone, ∃ p ∈ s.shared.published, p.template = t.unretired
  due : ∀ t ∈ s.gone, Shared.isDue s.shared.now t = true
  inTime : ∀ e ∈ s.shared.destroyed, Shared.isDue e.1 e.2 = true

namespace Destruction

theorem isDue_mono {now now' : Instant} (hle : now ≤ now') {t : TemplateData}
    (h : Shared.isDue now t = true) : Shared.isDue now' t = true := by
  obtain ⟨retireAt, hretired, hdue⟩ := Retention.isDue_eq_true.mp h
  exact Retention.isDue_eq_true.mpr ⟨retireAt, hretired, Nat.le_trans hdue hle⟩

/-- A step of a task that does not take templates out. -/
theorem other (h : Destruction s) (hr : Retention s.shared s.work?)
    (he : Effect false s.shared s.work? s'.shared s'.work?)
    (hdue : s'.retirement.due.Sublist s.retirement.due) : Destruction s' := by
  obtain ⟨hpublished, hnow⟩ := Retention.published_grows he
  have hdestroyed := Retention.destroyed_kept he
  have hgone : s'.gone.Sublist s.gone := by
    unfold State.gone
    rw [hdestroyed]
    exact (List.Sublist.refl _).append hdue
  constructor
  · exact (hgone.map _).nodup h.once
  · intro t ht u hu heq
    rcases hr.held_or_new he hu with ⟨v, hv, hid⟩ | hnew
    · exact h.unheld t (hgone.subset ht) v hv (hid.trans heq)
    · obtain ⟨p, hp, htemplate⟩ := h.published t (hgone.subset ht)
      have hid := hnew p hp
      rw [htemplate, heq] at hid
      exact absurd hid (Nat.lt_irrefl _)
  · intro t ht
    obtain ⟨p, hp, htemplate⟩ := h.published t (hgone.subset ht)
    exact ⟨p, hpublished hp, htemplate⟩
  · exact fun t ht => isDue_mono hnow (h.due t (hgone.subset ht))
  · rw [hdestroyed]
    exact h.inTime

/-- The sweep takes out what is due, all at once. -/
theorem sweep (h : Destruction s) (hr : Retention s.shared s.work?) :
    Destruction
      { s with
        shared := s.shared.extractDue.1
        retirement := .destroying s.shared.extractDue.2 } := by
  have hdue : ∀ t ∈ s.shared.extractDue.2,
      s.shared.retainedTemplates.lookup t.templateId = some t ∧
        Shared.isDue s.shared.now t = true := by
    intro t ht
    obtain ⟨⟨id, u⟩, he, rfl⟩ := List.mem_map.mp ht
    obtain ⟨he, hdue⟩ := List.mem_filter.mp he
    have hlookup := (KeyMap.mem_entries_iff _ _ _).mp he
    refine ⟨?_, hdue⟩
    rw [hr.keyed id u hlookup]
    exact hlookup
  have hids : (s.shared.extractDue.2.map (·.templateId)).Nodup := by
    have hkeys : s.shared.extractDue.2.map (·.templateId) =
        (s.shared.retainedTemplates.entries.filter fun e => Shared.isDue s.shared.now e.2).map
          Sigma.fst := by
      rw [Shared.extractDue, List.map_map]
      refine List.map_congr_left ?_
      intro e he
      exact hr.keyed e.1 e.2 ((KeyMap.mem_entries_iff _ _ _).mp (List.mem_of_mem_filter he))
    rw [hkeys]
    have hnodup : (s.shared.retainedTemplates.entries.map Sigma.fst).Nodup :=
      s.shared.retainedTemplates.nodupKeys
    exact (List.filter_sublist.map _).nodup hnodup
  have hheld : ∀ u, s.shared.extractDue.1.Held u → s.shared.Held u ∧
      ∀ t ∈ s.shared.extractDue.2, u.templateId ≠ t.templateId := by
    rintro u (hu | ⟨id, hu⟩)
    · refine ⟨Or.inl hu, ?_⟩
      intro t ht heq
      have hnone := (hr.future u hu).2
      rw [heq, (hdue t ht).1] at hnone
      cases hnone
    · rw [Retention.extractDue_lookup] at hu
      obtain ⟨hu, hkept⟩ := Option.filter_eq_some_iff.mp hu
      refine ⟨Or.inr ⟨id, hu⟩, ?_⟩
      intro t ht heq
      rw [← hr.keyed id u hu, heq, (hdue t ht).1] at hu
      cases hu
      rw [(hdue u ht).2] at hkept
      cases hkept
  have hgone : ∀ {P : TemplateData → Prop}, (∀ t ∈ s.gone, P t) →
      (∀ t ∈ s.shared.extractDue.2, P t) →
      ∀ t ∈ s.shared.destroyed.map (·.2) ++ s.shared.extractDue.2, P t := by
    intro P hold hnew t ht
    rcases List.mem_append.mp ht with ht | ht
    · exact hold t (List.mem_append_left _ ht)
    · exact hnew t ht
  constructor
  · have hold := h.once
    rw [State.gone, List.map_append, List.nodup_append] at hold
    refine (List.map_append (f := TemplateData.templateId)).symm ▸
      List.nodup_append.mpr ⟨hold.1, hids, ?_⟩
    intro i hi j hj heq
    obtain ⟨t, ht, rfl⟩ := List.mem_map.mp hi
    obtain ⟨u, hu, rfl⟩ := List.mem_map.mp hj
    exact h.unheld t (List.mem_append_left _ ht) u (Or.inr ⟨_, (hdue u hu).1⟩) heq.symm
  · exact hgone (fun t ht u hu => h.unheld t ht u (hheld u hu).1)
      fun t ht u hu => (hheld u hu).2 t ht
  · exact hgone h.published fun t ht => hr.held t (Or.inr ⟨_, (hdue t ht).1⟩)
  · exact hgone h.due fun t ht => (hdue t ht).2
  · exact h.inTime

/-- The next of the templates that were taken out is destroyed. -/
theorem destroyNext {due : List TemplateData} (h : Destruction { s with retirement := .destroying due }) :
    Destruction (s.destroyNext due) := by
  cases due with
  | nil => exact ⟨h.once, h.unheld, h.published, h.due, h.inTime⟩
  | cons t due =>
    dsimp only [State.destroyNext]
    split
    · have hgone : (State.gone { s with retirement := .exited }).Sublist
          (State.gone { s with retirement := .destroying (t :: due) }) :=
        (List.Sublist.refl _).append (List.nil_sublist _)
      exact ⟨(hgone.map _).nodup h.once, fun u hu => h.unheld u (hgone.subset hu),
        fun u hu => h.published u (hgone.subset hu), fun u hu => h.due u (hgone.subset hu), h.inTime⟩
    · have hgone : State.gone { s with
          shared := { s.shared with destroyed := s.shared.destroyed ++ [(s.shared.now, t)] }
          retirement := .destroying due } = State.gone { s with retirement := .destroying (t :: due) } := by
        simp [State.gone, RetirementTask.due]
      have ht : t ∈ State.gone { s with retirement := .destroying (t :: due) } :=
        List.mem_append_right _ List.mem_cons_self
      constructor
      · rw [hgone]
        exact h.once
      · rw [hgone]
        exact h.unheld
      · rw [hgone]
        exact h.published
      · rw [hgone]
        exact h.due
      · intro e he
        rcases List.mem_append.mp he with he | he
        · exact h.inTime e he
        · rw [List.mem_singleton.mp he]
          exact h.due t ht

theorem stepRetirement (h : Destruction s) (hr : Retention s.shared s.work?) (a : Answer) :
    Destruction (s.stepRetirement a) := by
  have hquiet : ∀ r : RetirementTask, r.due = [] → Destruction { s with retirement := r } := by
    intro r hr'
    have he : Effect false s.shared s.work? s.shared s.work? := .refl _ _
    exact h.other hr he (by rw [hr']; exact List.nil_sublist _)
  have hcancel : ∀ r : RetirementTask, r.due = [] →
      Destruction { s with shared := s.shared.cancel, retirement := r } := by
    intro r hr'
    have he : Effect false s.shared s.work? s.shared.cancel s.work? := .cancel _ _
    exact h.other hr he (by rw [hr']; exact List.nil_sublist _)
  unfold State.stepRetirement
  split
  · split
    · exact hquiet _ rfl
    · exact h
  · exact hcancel _ rfl
  · exact hquiet _ rfl
  · split
    · exact hquiet _ rfl
    · exact h
  · exact (h.sweep hr).destroyNext (s := { s with shared := s.shared.extractDue.1 })
  · split
    · exact hquiet _ rfl
    · exact h
  · exact hcancel _ rfl
  next due hdue =>
    refine Destruction.destroyNext ?_
    rw [← hdue]
    exact h
  · exact h

theorem step (h : Destruction s) (ht : Tasks s) (hr : Retention s.shared s.work?) (e : State.Event) :
    Destruction (s.step e) := by
  have hsound := (ht.step_sound e).1
  have hmonitor : ∀ id a, (s.stepMonitor id a).retirement = s.retirement := by
    intro id a
    unfold State.stepMonitor
    split
    · rfl
    · split <;> rfl
  have hincoming : ∀ a, (s.stepIncoming a).retirement = s.retirement := by
    intro a
    unfold State.stepIncoming State.handleMessage State.handleCoinbaseOutputConstraints State.rotate
    grind [State.monitorIpcTemplates]
  have hrun : ∀ a, (s.stepRun a).retirement.due.Sublist s.retirement.due := by
    intro a
    unfold State.stepRun
    grind [State.monitorIpcTemplates, RetirementTask.due]
  cases e with
  | tick elapsed => exact h.other hr hsound (List.Sublist.refl _)
  | cancel => exact h.other hr hsound (List.Sublist.refl _)
  | run a => exact h.other hr hsound (hrun a)
  | incoming a => exact h.other hr hsound (by rw [State.step, hincoming])
  | monitor id a => exact h.other hr hsound (by rw [State.step, hmonitor])
  | retirement a => exact h.stepRetirement hr a

end Destruction

/-! ## Every run -/

theorem retention_after (maxSameTipTemplates : Option Nat) (es : List State.Event) :
    Retention (State.after maxSameTipTemplates es).shared (State.after maxSameTipTemplates es).work? ∧
      Destruction (State.after maxSameTipTemplates es) := by
  have hnew : Destruction (.new maxSameTipTemplates) := by
    constructor <;> simp [State.new, Shared.new, State.gone, RetirementTask.due]
  have hrun := Runs.run_invariant
    (fun s : State => Tasks s ∧ Retention s.shared s.work? ∧ Destruction s)
    (fun s e h => ⟨(h.1.step_sound e).2, h.2.1.effect (h.1.step_sound e).1, h.2.2.step h.1 h.2.1 e⟩)
    ⟨tasks_new maxSameTipTemplates, Retention.new maxSameTipTemplates, hnew⟩ es
  exact hrun.2

end Sv2Apps.BitcoinCore.TemplateDistribution
