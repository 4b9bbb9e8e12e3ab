/-
  BitcoinCore/TemplateCoverage.lean
  =================================
  **The store and the reader of the queue** — what the reader may still name is in store, and stays
  there while a replacement is on its way, for the grace period at least.

  Templates are retired before their successors are announced: all of them at the start of a rotation
  and when the tip has moved, the oldest when a refresh is published.  `superseding` says since when.
  A sweep that comes later than the grace period after that can take out a template that the reader
  has no successor for (`Coverage.swept` asks that it does not).
-/
import Sv2Apps.BitcoinCore.PublicationOrder

namespace Sv2Apps.BitcoinCore.TemplateDistribution

open Bitcoin

variable {s s' : State} {d d' : Shared} {w w' : Option Work}

/-! ## What the reader knows -/

/-- The template whose prev-hash was announced last, and the refreshes sent since, newest first. -/
structure Tip where
  template : Option TemplateId
  refreshes : List TemplateId

namespace Tip

def note (t : Tip) : Outgoing → Tip
  | .newTemplate p =>
    if p.newTemplate.futureTemplate then t
    else { t with refreshes := p.newTemplate.templateId :: t.refreshes }
  | .setNewPrevHash m => ⟨some m.templateId, []⟩
  | .response _ => t

def read (l : List Outgoing) : Tip := l.foldl note ⟨none, []⟩

theorem read_concat (l : List Outgoing) (m : Outgoing) : read (l ++ [m]) = (read l).note m := by
  unfold read
  rw [List.foldl_append]
  rfl

end Tip

namespace Shared

/-- In store; if it has a deadline, the replacement in progress began the grace period before that, or
    later. -/
def Safe (d : Shared) (id : TemplateId) : Prop :=
  ∃ t, d.Held t ∧ t.templateId = id ∧
    ∀ retireAt, t.retireAt = some retireAt →
      ∃ since, d.superseding = some since ∧ since + staleTemplateGracePeriod ≤ retireAt

/-- Templates that are retired now are safe for the whole grace period. -/
theorem safe_of_retire (hsince : ∀ since, d.superseding = some since → since ≤ d.now)
    (hd' : d'.superseding = d.superseding.or (some d.now)) {t : TemplateData} {id : TemplateId}
    (hid : t.templateId = id)
    (ht : ∀ retireAt, t.retireAt = some retireAt →
      ∃ since, d.superseding = some since ∧ since + staleTemplateGracePeriod ≤ retireAt)
    (hheld : d'.Held (t.retire (d.now + staleTemplateGracePeriod))) : d'.Safe id := by
  refine ⟨_, hheld, (TemplateData.retire_templateId t _).trans hid, ?_⟩
  intro retireAt hretired
  rw [hd']
  cases hlive : t.retireAt with
  | some deadline =>
    rw [TemplateData.retire_of_retired (by rw [hlive]; rfl), hlive] at hretired
    cases hretired
    obtain ⟨since, hsuperseding, hle⟩ := ht retireAt hlive
    exact ⟨since, by rw [hsuperseding]; rfl, hle⟩
  | none =>
    rw [TemplateData.retire_of_live hlive] at hretired
    cases hretired
    cases hsuperseding : d.superseding with
    | none => exact ⟨d.now, rfl, Nat.le_refl _⟩
    | some since => exact ⟨since, rfl, Nat.add_le_add_right (hsince since hsuperseding) _⟩

/-- What stays in store as it is. -/
theorem safe_of_kept (hd' : d'.superseding = d.superseding ∨ d'.superseding = d.superseding.or (some d.now))
    {t : TemplateData} {id : TemplateId} (hid : t.templateId = id)
    (ht : ∀ retireAt, t.retireAt = some retireAt →
      ∃ since, d.superseding = some since ∧ since + staleTemplateGracePeriod ≤ retireAt)
    (hheld : d'.Held t) : d'.Safe id := by
  refine ⟨t, hheld, hid, ?_⟩
  intro retireAt hretired
  obtain ⟨since, hsuperseding, hle⟩ := ht retireAt hretired
  refine ⟨since, ?_, hle⟩
  rcases hd' with hd' | hd'
  · exact hd'.trans hsuperseding
  · rw [hd', hsuperseding]
    rfl

theorem safe_of_live {t : TemplateData} (hheld : d.Held t) (hlive : t.retireAt = none) :
    d.Safe t.templateId := by
  refine ⟨t, hheld, rfl, ?_⟩
  intro retireAt hretired
  rw [hlive] at hretired
  cases hretired

end Shared

namespace Retention

/-- All templates stay in store when they are retired. -/
theorem retireAll_held (h : Retention d w) {t : TemplateData} (ht : d.Held t) :
    d.retireAllTemplates.Held (t.retire (d.now + staleTemplateGracePeriod)) := by
  right
  rcases ht with hfuture | ⟨id, hretained⟩
  · refine ⟨t.templateId, ?_⟩
    rw [Shared.retireAllTemplates_lookup, hfuture]
    exact if_pos rfl
  · refine ⟨id, ?_⟩
    rw [Shared.retireAllTemplates_lookup]
    split
    · rw [hretained]
      rfl
    next u hfuture =>
      rw [if_neg ?_, hretained]
      · rfl
      · rintro rfl
        exact absurd (hretained.symm.trans (h.future u hfuture).2) nofun

theorem retireAll_safe (h : Retention d w)
    (hsince : ∀ since, d.superseding = some since → since ≤ d.now) {id : TemplateId}
    (hid : d.Safe id) : d.retireAllTemplates.Safe id := by
  obtain ⟨t, hheld, hid, ht⟩ := hid
  exact Shared.safe_of_retire hsince rfl hid ht (h.retireAll_held hheld)

/-- A refresh takes nothing out of the store. -/
theorem publishRefresh_safe (h : Retention d w)
    (hsince : ∀ since, d.superseding = some since → since ≤ d.now) {t : TemplateData}
    (ht : Fresh d t) {p : Publication} (hp : d.publishTemplate t false false = some (d', p))
    {id : TemplateId} (hid : d.Safe id) : d'.Safe id := by
  obtain ⟨-, -, rfl⟩ := Shared.publishTemplate_eq_some hp
  obtain ⟨u, hheld, hid, hu⟩ := hid
  rcases hheld with hfuture | ⟨id', hretained⟩
  · exact Shared.safe_of_kept (Or.inr rfl) hid hu (Or.inl hfuture)
  · have hlookup := h.storeRefresh_lookup ht id'
    have hold : (d.storeTemplateData t false).retainedTemplates.lookup id' = some u := by
      unfold Shared.storeTemplateData
      simp only [Bool.false_eq_true, if_false, KeyMap.lookup_insert_eq]
      rw [if_neg ?_]
      · exact hretained
      · rintro rfl
        exact absurd (hretained.symm.trans (ht.unretained h)) nofun
    rw [hold, Option.map_some] at hlookup
    split at hlookup
    · exact Shared.safe_of_retire hsince rfl hid hu (Or.inr ⟨id', hlookup⟩)
    · exact Shared.safe_of_kept (Or.inr rfl) hid hu (Or.inr ⟨id', hlookup⟩)

/-- Nor does a future template, which is stored when nothing is live. -/
theorem publishFuture_safe (h : Retention d w) (hcleared : d.Cleared) {t : TemplateData}
    {p : Publication} (hp : d.publishTemplate t true true = some (d', p)) {id : TemplateId}
    (hid : d.Safe id) : d'.Safe id := by
  obtain ⟨-, -, rfl⟩ := Shared.publishTemplate_eq_some hp
  obtain ⟨u, hheld, hid, hu⟩ := hid
  rcases hheld with hfuture | ⟨id', hretained⟩
  · exact absurd (hcleared.1.symm.trans hfuture) nofun
  · refine Shared.safe_of_kept (Or.inr rfl) hid hu (Or.inr ⟨id', ?_⟩)
    dsimp only
    rw [h.storeFuture_lookup hcleared]
    exact hretained

theorem publish_safe (h : Retention d w) {t : TemplateData} (ht : Fresh d t) {future : Bool}
    {p : Publication} (hp : d.publishTemplate t future future = some (d', p)) :
    d'.Safe p.template.templateId := by
  have hheld := h.publish_held ht hp
  rw [(Shared.publishTemplate_eq_some hp).1]
  exact Shared.safe_of_live hheld ht.live

end Retention

/-! ## The store covers what the reader may name -/

/-- What is live, and what the reader will know when the work is done. -/
def Work.Linked (d : Shared) : Option Work → Prop
  | some (.sendNewTemplate _ p true) | some (.sendSetNewPrevHash _ p) =>
    d.futureTemplate = some p.template ∧ d.refreshes = []
  | some (.sendNewTemplate _ p false) =>
    d.futureTemplate.map (·.templateId) = (Tip.read d.outgoing).template ∧
      d.refreshes = p.template.templateId :: (Tip.read d.outgoing).refreshes
  | some (.fetch _ _) | none =>
    d.Cleared ∨
      d.futureTemplate.map (·.templateId) = (Tip.read d.outgoing).template ∧
        d.refreshes = (Tip.read d.outgoing).refreshes

/-- The publication that is stored and not announced. -/
def Work.publication? : Option Work → Option Publication
  | some (.sendNewTemplate _ p _) | some (.sendSetNewPrevHash _ p) => some p
  | some (.fetch _ _) | none => none

structure Coverage (d : Shared) (w : Option Work) : Prop where
  since : ∀ since, d.superseding = some since → since ≤ d.now
  template : ∀ id, (Tip.read d.outgoing).template = some id → d.Safe id
  refreshes : ∀ id ∈ (Tip.read d.outgoing).refreshes.take d.maxSameTipTemplates, d.Safe id
  stored : ∀ p, Work.publication? w = some p → d.Safe p.template.templateId
  linked : d.globalCancelled = false → Work.Linked d w

namespace Coverage

theorem new (maxSameTipTemplates : Option Nat) : Coverage (.new maxSameTipTemplates) none where
  since := nofun
  template := nofun
  refreshes _ hid := by simp [Tip.read, Shared.new] at hid
  stored := nofun
  linked _ := Or.inl ⟨rfl, rfl⟩

/-- What steps keep that leave the templates alone and send none. -/
structure Same (d d' : Shared) : Prop where
  retention : d'.maxSameTipTemplates = d.maxSameTipTemplates
  retained : d'.retainedTemplates = d.retainedTemplates
  future : d'.futureTemplate = d.futureTemplate
  refreshes : d'.refreshes = d.refreshes
  tip : Tip.read d'.outgoing = Tip.read d.outgoing
  superseding : d'.superseding = d.superseding
  now : d.now ≤ d'.now
  active : d'.globalCancelled = false → d.globalCancelled = false

theorem linked_same (hd : Same d d') (h : Work.Linked d w) : Work.Linked d' w := by
  unfold Work.Linked Shared.Cleared at h ⊢
  rw [hd.future, hd.refreshes, hd.tip]
  exact h

theorem safe_same (hd : Same d d') {id : TemplateId} (h : d.Safe id) : d'.Safe id := by
  unfold Shared.Safe Shared.Held at h ⊢
  rw [hd.future, hd.retained, hd.superseding]
  exact h

theorem same (h : Coverage d w) (hd : Same d d') : Coverage d' w where
  since since hsince := Nat.le_trans (h.since since (hd.superseding.symm.trans hsince)) hd.now
  template id hid := safe_same hd (h.template id (hd.tip ▸ hid))
  refreshes id hid := by
    rw [hd.tip, hd.retention] at hid
    exact safe_same hd (h.refreshes id hid)
  stored p hp := safe_same hd (h.stored p hp)
  linked hactive := linked_same hd (h.linked (hd.active hactive))

/-- The work is given up, or everything is retired. -/
theorem drop (h : Coverage d w) : Coverage d.cancel none where
  since := h.since
  template := h.template
  refreshes := h.refreshes
  stored := nofun
  linked := nofun

theorem retireAll (h : Coverage d w) (hr : Retention d w)
    (hw : d.globalCancelled = false → w = none ∨ ∃ c id, w = some (.fetch c id)) :
    Coverage d.retireAllTemplates w where
  since since hsince := by
    have hor : d.superseding.or (some d.now) = some since := hsince
    rcases Option.or_eq_some_iff.mp hor with hold | ⟨-, hnow⟩
    · exact h.since since hold
    · cases hnow
      exact Nat.le_refl _
  template id hid := hr.retireAll_safe h.since (h.template id hid)
  refreshes id hid := hr.retireAll_safe h.since (h.refreshes id hid)
  stored p hp := hr.retireAll_safe h.since (h.stored p hp)
  linked hactive := by
    rcases hw hactive with rfl | ⟨c, id, rfl⟩
    · exact Or.inl ⟨rfl, rfl⟩
    · exact Or.inl ⟨rfl, rfl⟩

/-! ### Publishing -/

/-- Storing a template keeps what is safe; whether the publication is linked depends on its kind. -/
theorem publish (h : Coverage d w) {c : BlockTemplate} {t : TemplateData} {future announce : Bool}
    {p : Publication} (hp : d.publishTemplate t future announce = some (d', p))
    (hsafe : ∀ id, d.Safe id → d'.Safe id) (hstored : d'.Safe p.template.templateId)
    (hlinked : d.globalCancelled = false → Work.Linked d' (some (.sendNewTemplate c p future))) :
    Coverage d' (some (.sendNewTemplate c p future)) := by
  obtain ⟨-, -, hd'⟩ := Shared.publishTemplate_eq_some hp
  have hsince : d'.superseding = d.superseding.or (some d.now) := by rw [hd']
  have hnow : d'.now = d.now := by rw [hd']
  have houtgoing : d'.outgoing = d.outgoing := by rw [hd']
  have hmax : d'.maxSameTipTemplates = d.maxSameTipTemplates := by rw [hd']
  have hcancelled : d'.globalCancelled = d.globalCancelled := by rw [hd']
  constructor
  · intro since hs
    rw [hsince] at hs
    rw [hnow]
    rcases Option.or_eq_some_iff.mp hs with hold | ⟨-, hnew⟩
    · exact h.since since hold
    · cases hnew
      exact Nat.le_refl _
  · rw [houtgoing]
    exact fun id hid => hsafe id (h.template id hid)
  · rw [houtgoing, hmax]
    exact fun id hid => hsafe id (h.refreshes id hid)
  · intro q hq
    cases hq
    exact hstored
  · rw [hcancelled]
    exact hlinked

theorem publishRefresh (h : Coverage d w) (hr : Retention d w) {c c' : BlockTemplate}
    {id : TemplateId} {t : TemplateData} (hw : w = some (.fetch c id))
    (ht : Retention.Fresh d t) (hlive : d.globalCancelled = false → ¬ d.Cleared) {p : Publication}
    (hp : d.publishTemplate t false false = some (d', p)) :
    Coverage d' (some (.sendNewTemplate c' p false)) := by
  subst hw
  apply h.publish hp (fun id => hr.publishRefresh_safe h.since ht hp) (hr.publish_safe ht hp)
  intro hactive
  obtain ⟨hfuture, hrefreshes⟩ := (h.linked hactive).resolve_left (hlive hactive)
  obtain ⟨htemplate, -, hd'⟩ := Shared.publishTemplate_eq_some hp
  have houtgoing : d'.outgoing = d.outgoing := by rw [hd']
  dsimp only [Work.Linked]
  rw [houtgoing, hd', htemplate]
  exact ⟨hfuture, by rw [← hrefreshes]; rfl⟩

theorem publishFuture (h : Coverage d w) (hr : Retention d w) (hcleared : d.Cleared)
    {c : BlockTemplate} {t : TemplateData} (ht : Retention.Fresh d t) {p : Publication}
    (hp : d.publishTemplate t true true = some (d', p)) :
    Coverage d' (some (.sendNewTemplate c p true)) := by
  apply h.publish hp (fun id => hr.publishFuture_safe hcleared hp) (hr.publish_safe ht hp)
  intro _
  obtain ⟨htemplate, -, hd'⟩ := Shared.publishTemplate_eq_some hp
  dsimp only [Work.Linked]
  rw [hd', htemplate]
  exact ⟨rfl, hcleared.2⟩

/-! ### Sending -/

theorem finish_safe (d : Shared) (c : BlockTemplate) {id : TemplateId}
    (hactive : d.globalCancelled = false → ∃ t, d.Held t ∧ t.templateId = id ∧ t.retireAt = none)
    (hcancelled : d.globalCancelled = true → d.Safe id) : (d.finish c).Safe id := by
  cases hd : d.globalCancelled with
  | false =>
    obtain ⟨t, hheld, rfl, hlive⟩ := hactive hd
    exact Shared.safe_of_live hheld hlive
  | true =>
    obtain ⟨t, hheld, hid, ht⟩ := hcancelled hd
    refine ⟨t, hheld, hid, ?_⟩
    unfold Shared.finish
    rw [hd]
    exact ht

theorem finish_since (h : Coverage d w) (c : BlockTemplate) :
    ∀ since, (d.finish c).superseding = some since → since ≤ d.now := by
  intro since hs
  unfold Shared.finish at hs
  dsimp only at hs
  split at hs
  · exact h.since since hs
  · cases hs

/-- The refresh is the newest that the reader knows. -/
theorem sendRefresh (hr : Retention d w) {c : BlockTemplate} {p : Publication}
    (h : Coverage d (some (.sendNewTemplate c p false))) (hp : p.futureTemplate = false) :
    Coverage ((d.send (.newTemplate p)).finish c) none := by
  have hread : Tip.read (d.send (.newTemplate p)).outgoing =
      { Tip.read d.outgoing with
        refreshes := p.template.templateId :: (Tip.read d.outgoing).refreshes } := by
    unfold Shared.send
    rw [Tip.read_concat, Tip.note, p.newTemplate_future, hp, p.newTemplate_id]
    rfl
  have hlinked : d.globalCancelled = false →
      d.futureTemplate.map (·.templateId) = (Tip.read d.outgoing).template ∧
        d.refreshes = p.template.templateId :: (Tip.read d.outgoing).refreshes := h.linked
  constructor
  · exact h.finish_since c
  · intro id hid
    have htip : (Tip.read d.outgoing).template = some id := by
      have hid' : (Tip.read (d.send (.newTemplate p)).outgoing).template = some id := hid
      rw [hread] at hid'
      exact hid'
    refine finish_safe (d.send (.newTemplate p)) c ?_ fun _ => h.template id htip
    intro hactive
    obtain ⟨t, hfuture, rfl⟩ := Option.map_eq_some_iff.mp ((hlinked hactive).1.trans htip)
    exact ⟨t, Or.inl hfuture, rfl, (hr.future t hfuture).1⟩
  · intro id hid
    have hid' : id ∈ (p.template.templateId :: (Tip.read d.outgoing).refreshes).take
        d.maxSameTipTemplates := by
      have hid' : id ∈ (Tip.read (d.send (.newTemplate p)).outgoing).refreshes.take
        d.maxSameTipTemplates := hid
      rw [hread] at hid'
      exact hid'
    refine finish_safe (d.send (.newTemplate p)) c ?_ ?_
    · intro hactive
      rw [← (hlinked hactive).2] at hid'
      obtain ⟨t, hretained, hlive⟩ := (hr.live id).mpr hid'
      exact ⟨t, Or.inr ⟨id, hretained⟩, hr.keyed id t hretained, hlive⟩
    · intro _
      obtain ⟨n, hn⟩ : ∃ n, d.maxSameTipTemplates = n + 1 :=
        ⟨d.maxSameTipTemplates - 1, by have := hr.retention; omega⟩
      rw [hn, List.take_succ_cons] at hid'
      rcases List.mem_cons.mp hid' with rfl | hold
      · exact h.stored p rfl
      · refine h.refreshes id ?_
        rw [hn]
        exact List.take_subset_take_left _ (Nat.le_succ n) hold
  · nofun
  · intro hactive
    refine Or.inr ?_
    have hread' : Tip.read ((d.send (.newTemplate p)).finish c).outgoing = _ := hread
    rw [hread']
    exact hlinked hactive

/-- A future template is nothing to the reader before its prev-hash is announced. -/
theorem sendFuture {c : BlockTemplate} {p : Publication}
    (h : Coverage d (some (.sendNewTemplate c p true))) (hp : p.futureTemplate = true) :
    Coverage (d.send (.newTemplate p)) (some (.sendSetNewPrevHash c p)) := by
  have hread : Tip.read (d.send (.newTemplate p)).outgoing = Tip.read d.outgoing := by
    unfold Shared.send
    rw [Tip.read_concat, Tip.note, p.newTemplate_future, hp]
    rfl
  have hsame : Coverage (d.send (.newTemplate p)) (some (.sendNewTemplate c p true)) :=
    h.same ⟨rfl, rfl, rfl, rfl, hread, rfl, Nat.le_refl _, id⟩
  exact ⟨hsame.since, hsame.template, hsame.refreshes, fun q hq => hsame.stored q hq, hsame.linked⟩

/-- With its prev-hash the future template becomes the one that refreshes go back to. -/
theorem sendSetNewPrevHash (hr : Retention d w) {c : BlockTemplate} {p : Publication}
    (h : Coverage d (some (.sendSetNewPrevHash c p))) :
    Coverage ((d.send (.setNewPrevHash p.template.getSetNewPrevHashMessage)).finish c) none := by
  have hread : Tip.read
      (d.send (.setNewPrevHash p.template.getSetNewPrevHashMessage)).outgoing =
        ⟨some p.template.templateId, []⟩ := by
    unfold Shared.send
    rw [Tip.read_concat]
    rfl
  have hlinked : d.globalCancelled = false →
      d.futureTemplate = some p.template ∧ d.refreshes = [] := h.linked
  constructor
  · exact h.finish_since c
  · intro id hid
    have hid' : (Tip.read
        (d.send (.setNewPrevHash p.template.getSetNewPrevHashMessage)).outgoing).template =
          some id := hid
    rw [hread] at hid'
    cases hid'
    refine finish_safe (d.send _) c ?_ fun _ => h.stored p rfl
    intro hactive
    exact ⟨p.template, Or.inl (hlinked hactive).1, rfl, (hr.future _ (hlinked hactive).1).1⟩
  · intro id hid
    have hid' : id ∈ (Tip.read (d.send
        (.setNewPrevHash p.template.getSetNewPrevHashMessage)).outgoing).refreshes.take
          d.maxSameTipTemplates := hid
    rw [hread, List.take_nil] at hid'
    cases hid'
  · nofun
  · intro hactive
    refine Or.inr ?_
    have hread' : Tip.read ((d.send
      (.setNewPrevHash p.template.getSetNewPrevHashMessage)).finish c).outgoing = _ := hread
    have hfinished : ((d.send
      (.setNewPrevHash p.template.getSetNewPrevHashMessage)).finish c).futureTemplate =
        d.futureTemplate := rfl
    rw [hread', hfinished, (hlinked hactive).1]
    exact ⟨rfl, (hlinked hactive).2⟩

/-! ### Every step -/

/-- A step of a task that does not take templates out. -/
theorem effect (h : Coverage d w) (hr : Retention d w) (ha : Announced d w)
    (he : Effect false d w d' w') : Coverage d' w' := by
  cases he with
  | quiet _ cancelled tokens =>
    refine h.same ⟨rfl, rfl, rfl, rfl, rfl, rfl, Nat.le_refl _, ?_⟩
    exact fun hactive => (Bool.or_eq_false_iff.mp hactive).1
  | abandon => exact h.drop
  | tick _ elapsed => exact h.same ⟨rfl, rfl, rfl, rfl, rfl, rfl, Nat.le_add_right _ _, id⟩
  | issue | firstRequest => exact h.same ⟨rfl, rfl, rfl, rfl, rfl, rfl, Nat.le_refl _, id⟩
  | respond _ r =>
    exact h.same ⟨rfl, rfl, rfl, rfl, Tip.read_concat _ _, rfl, Nat.le_refl _, id⟩
  | fetch request hactive hrequest =>
    have hsame : Coverage { d with
        issued := d.issued + 1
        templateIdFactory := d.templateIdFactory + 1 } none :=
      h.same ⟨rfl, rfl, rfl, rfl, rfl, rfl, Nat.le_refl _, id⟩
    exact ⟨hsame.since, hsame.template, hsame.refreshes, nofun, hsame.linked⟩
  | rotate _ c tokens hw =>
    have hsame : Coverage { d with cancelledTokens := tokens } w :=
      h.same ⟨rfl, rfl, rfl, rfl, rfl, rfl, Nat.le_refl _, id⟩
    have hrsame : Retention { d with cancelledTokens := tokens } w :=
      hr.same ⟨rfl, rfl, rfl, rfl, rfl, rfl, rfl, id, Nat.le_refl _, Nat.le_refl _⟩ fun _ _ hw => hw
    have hidle : d.globalCancelled = false → w = none ∨ ∃ c id, w = some (.fetch c id) := by
      intro hactive
      refine Or.inl (hw.resolve_right ?_)
      rw [hactive]
      nofun
    exact (hsame.retireAll hrsame hidle).same ⟨rfl, rfl, rfl, rfl, rfl, rfl, Nat.le_refl _, id⟩
  | refresh d' c id f p hrequest htip hlive hpublish =>
    exact h.publishRefresh hr rfl (hr.fresh rfl hrequest) hlive hpublish
  | replace d₁ d' c id f p hrequest hcleared hpublish =>
    rcases hcleared with rfl | ⟨rfl, hcleared⟩
    · exact (h.retireAll hr fun _ => Or.inr ⟨c, id, rfl⟩).publishFuture hr.retireAll ⟨rfl, rfl⟩
        (hr.retireAll.fresh rfl hrequest) hpublish
    · exact h.publishFuture hr hcleared (hr.fresh rfl hrequest) hpublish
  | unpublishable =>
    have hcancelled : Retention d.cancel none :=
      hr.idle.same ⟨rfl, rfl, rfl, rfl, rfl, rfl, rfl, nofun, Nat.le_refl _, Nat.le_refl _⟩ nofun
    exact h.drop.retireAll hcancelled nofun
  | sendFuture c p =>
    obtain ⟨tip, owed, -, -, hfuture, -⟩ := ha.order
    exact h.sendFuture hfuture
  | sendRefresh c p =>
    obtain ⟨tip, owed, -, -, hfuture, -⟩ := ha.order
    exact h.sendRefresh hr hfuture
  | sendSetNewPrevHash c p => exact h.sendSetNewPrevHash hr
  | destroy _ _ hretiring | sweep _ _ hretiring => cases hretiring

/-- A sweep that comes in time. -/
theorem swept (h : Coverage d w) (destroyed : List (Instant × TemplateData))
    (hintime : ∀ since, d.superseding = some since → d.now < since + staleTemplateGracePeriod) :
    Coverage { d.extractDue.1 with destroyed := destroyed } w := by
  have hsafe : ∀ id, d.Safe id →
      Shared.Safe { d.extractDue.1 with destroyed := destroyed } id := by
    rintro id ⟨t, hheld, hid, ht⟩
    refine ⟨t, hheld.imp_right ?_, hid, ht⟩
    rintro ⟨id', hretained⟩
    refine ⟨id', ?_⟩
    dsimp only
    rw [Retention.extractDue_lookup, hretained, Option.filter_some, if_pos]
    rw [Bool.not_eq_true', Bool.eq_false_iff]
    intro hdue
    obtain ⟨retireAt, hretired, hle⟩ := Retention.isDue_eq_true.mp hdue
    obtain ⟨since, hsuperseding, hgrace⟩ := ht retireAt hretired
    have hnow := hintime since hsuperseding
    exact absurd (Nat.lt_of_lt_of_le hnow (Nat.le_trans hgrace hle)) (Nat.lt_irrefl _)
  exact ⟨h.since, fun id hid => hsafe id (h.template id hid),
    fun id hid => hsafe id (h.refreshes id hid), fun p hp => hsafe _ (h.stored p hp), h.linked⟩

end Coverage

end Sv2Apps.BitcoinCore.TemplateDistribution
