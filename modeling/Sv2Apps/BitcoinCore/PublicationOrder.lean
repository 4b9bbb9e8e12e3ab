/-
  BitcoinCore/PublicationOrder.lean
  =================================
  **The order of the announcements** — a future template, then its prev-hash, then refreshes on that
  prev-hash, until the next future template; template ids grow, and the templates of old constraints
  come before those of new ones.

  `Order` is the grammar of the outgoing queue; its parameters are what the reader of the queue
  knows: the prev-hash announced last, and the future template whose prev-hash is owed.
-/
import Sv2Apps.BitcoinCore.TemplateRequests

namespace Sv2Apps.BitcoinCore.TemplateDistribution

open Bitcoin

variable {s s' : State} {d d' : Shared} {w w' : Option Work}

theorem TemplateData.newTemplate_id {t : TemplateData} {future : Bool} {m : NewTemplate}
    (h : t.getNewTemplateMessage future = some m) :
    m.templateId = t.templateId ∧ m.futureTemplate = future := by
  unfold getNewTemplateMessage at h
  simp only [Option.bind_eq_bind, Option.bind_eq_some_iff] at h
  obtain ⟨_, -, _, -, _, -, _, -, _, -, h⟩ := h
  cases h
  exact ⟨rfl, rfl⟩

theorem Publication.newTemplate_id (p : Publication) :
    p.newTemplate.templateId = p.template.templateId :=
  (TemplateData.newTemplate_id p.made).1

theorem Publication.newTemplate_future (p : Publication) :
    p.newTemplate.futureTemplate = p.futureTemplate :=
  (TemplateData.newTemplate_id p.made).2

/-! ## The queue -/

def Outgoing.newTemplate? : Outgoing → Option Publication
  | .newTemplate p => some p
  | _ => none

def Outgoing.setNewPrevHash? : Outgoing → Option SetNewPrevHash
  | .setNewPrevHash m => some m
  | _ => none

/-- The queue without the answers to requests. -/
def announcements (l : List Outgoing) : List Outgoing := l.filter (·.response?.isNone)

/-- The templates sent, oldest first. -/
def sentTemplates (l : List Outgoing) : List Publication := l.filterMap Outgoing.newTemplate?

inductive Order : List Outgoing → Option Hash256 → Option Publication → Prop
  | nil : Order [] none none
  | future {l : List Outgoing} {tip : Option Hash256} (p : Publication) (hl : Order l tip none)
      (hp : p.futureTemplate = true) : Order (l ++ [.newTemplate p]) tip (some p)
  | refresh {l : List Outgoing} (p : Publication) (hl : Order l (some p.template.prevHash) none)
      (hp : p.futureTemplate = false) :
      Order (l ++ [.newTemplate p]) (some p.template.prevHash) none
  | announce {l : List Outgoing} {tip : Option Hash256} (p : Publication) (hl : Order l tip (some p)) :
      Order (l ++ [.setNewPrevHash p.template.getSetNewPrevHashMessage])
        (some p.template.prevHash) none
  | respond {l : List Outgoing} {tip : Option Hash256} {owed : Option Publication} (r : Response)
      (hl : Order l tip owed) : Order (l ++ [.response r]) tip owed

/-- A place in a list with one more element at its end. -/
theorem concat_eq_append_cons {α : Type} {l pre post : List α} {x y : α}
    (h : l ++ [x] = pre ++ y :: post) :
    post = [] ∧ pre = l ∧ y = x ∨ ∃ post', post = post' ++ [x] ∧ l = pre ++ y :: post' := by
  rcases List.eq_nil_or_concat post with rfl | ⟨post', z, rfl⟩
  · obtain ⟨rfl, hx⟩ := List.append_inj' h rfl
    exact Or.inl ⟨rfl, rfl, (List.cons.inj hx).1.symm⟩
  · have happend : l ++ [x] = (pre ++ y :: post') ++ [z] := by
      rw [h, List.concat_eq_append, List.append_assoc, List.cons_append]
    obtain ⟨rfl, hz⟩ := List.append_inj' happend rfl
    refine Or.inr ⟨post', ?_, rfl⟩
    rw [List.concat_eq_append, (List.cons.inj hz).1]

theorem announcements_concat (l : List Outgoing) (m : Outgoing) :
    announcements (l ++ [m]) = if m.response?.isNone then announcements l ++ [m] else announcements l := by
  unfold announcements
  rw [List.filter_append]
  cases m <;> simp [Outgoing.response?]

namespace Order

variable {l pre post : List Outgoing} {tip : Option Hash256} {owed : Option Publication}

/-- A future template that was sent last is owed its prev-hash. -/
theorem owed_of_last (h : Order l tip owed) {p : Publication} :
    announcements l = pre ++ [.newTemplate p] → p.futureTemplate = true → owed = some p := by
  induction h with
  | nil => exact fun heq => absurd heq (by simp [announcements])
  | future q hl hq ih | refresh q hl hq ih =>
    rw [announcements_concat]
    intro heq hp
    have hlast := List.append_inj_right' heq rfl
    cases hlast
    first
      | rfl
      | exact absurd (hp.symm.trans hq) nofun
  | announce q hl ih =>
    rw [announcements_concat]
    intro heq
    have hlast := List.append_inj_right' heq rfl
    cases hlast
  | respond r hl ih =>
    rw [announcements_concat]
    exact ih

/-- The other way round. -/
theorem last_of_owed (h : Order l tip owed) {p : Publication} (howed : owed = some p) :
    p.futureTemplate = true ∧ ∃ before, announcements l = before ++ [.newTemplate p] := by
  induction h with
  | nil => cases howed
  | future q hl hq ih =>
    cases howed
    exact ⟨hq, _, announcements_concat _ _⟩
  | refresh q hl hq ih => cases howed
  | announce q hl ih => cases howed
  | respond r hl ih =>
    rw [announcements_concat]
    exact ih howed

/-- Nothing but its prev-hash can come after a future template. -/
theorem next_of_future (h : Order l tip owed) {p : Publication} {m : Outgoing} :
    announcements l = pre ++ .newTemplate p :: m :: post → p.futureTemplate = true →
      m = .setNewPrevHash p.template.getSetNewPrevHashMessage := by
  induction h generalizing post with
  | nil => exact fun heq => absurd heq (by simp [announcements])
  | future q hl hq ih | refresh q hl hq ih =>
    rw [announcements_concat]
    intro heq hp
    rcases concat_eq_append_cons heq with ⟨hnil, -, -⟩ | ⟨post', hpost, hbefore⟩
    · cases hnil
    · cases post' with
      | nil => cases hl.owed_of_last hbefore hp
      | cons m' post' =>
        cases hpost
        exact ih hbefore hp
  | announce q hl ih =>
    rw [announcements_concat]
    intro heq hp
    rcases concat_eq_append_cons heq with ⟨hnil, -, -⟩ | ⟨post', hpost, hbefore⟩
    · cases hnil
    · cases post' with
      | nil =>
        cases hl.owed_of_last hbefore hp
        cases hpost
        rfl
      | cons m' post' =>
        cases hpost
        exact ih hbefore hp
  | respond r hl ih =>
    rw [announcements_concat]
    exact ih

/-- A future template is followed by its prev-hash, which is owed until then. -/
theorem followed (h : Order l tip owed) {p : Publication}
    (heq : announcements l = pre ++ .newTemplate p :: post) (hp : p.futureTemplate = true) :
    post = [] ∧ owed = some p ∨
      ∃ post', post = .setNewPrevHash p.template.getSetNewPrevHashMessage :: post' := by
  cases post with
  | nil => exact Or.inl ⟨rfl, h.owed_of_last heq hp⟩
  | cons m post => exact Or.inr ⟨post, by rw [h.next_of_future heq hp]⟩

/-- A prev-hash is announced right after its future template. -/
theorem announced (h : Order l tip owed) {m : SetNewPrevHash} :
    announcements l = pre ++ .setNewPrevHash m :: post →
      ∃ before p, pre = before ++ [.newTemplate p] ∧ p.futureTemplate = true ∧
        m = p.template.getSetNewPrevHashMessage := by
  induction h generalizing post with
  | nil => exact fun heq => absurd heq (by simp [announcements])
  | future q hl hq ih | refresh q hl hq ih =>
    rw [announcements_concat]
    intro heq
    rcases concat_eq_append_cons heq with ⟨-, -, hm⟩ | ⟨post', -, hbefore⟩
    · cases hm
    · exact ih hbefore
  | announce q hl ih =>
    rw [announcements_concat]
    intro heq
    rcases concat_eq_append_cons heq with ⟨-, rfl, hm⟩ | ⟨post', -, hbefore⟩
    · cases hm
      obtain ⟨hq, before, hlast⟩ := hl.last_of_owed rfl
      exact ⟨before, q, hlast, hq, rfl⟩
    · exact ih hbefore
  | respond r hl ih =>
    rw [announcements_concat]
    exact ih

/-- The reader's prev-hash is that of the last announcement. -/
theorem tip_eq (h : Order l tip owed) :
    tip = ((announcements l).filterMap Outgoing.setNewPrevHash?).getLast?.map (·.prevHash) := by
  induction h with
  | nil => rfl
  | future q hl hq ih | refresh q hl hq ih =>
    rw [announcements_concat]
    simpa [Outgoing.response?, Outgoing.setNewPrevHash?] using ih
  | announce q hl ih =>
    rw [announcements_concat]
    simp [Outgoing.response?, Outgoing.setNewPrevHash?, TemplateData.getSetNewPrevHashMessage]
  | respond r hl ih =>
    rw [announcements_concat]
    exact ih

/-- A refresh is built on the prev-hash announced last. -/
theorem refreshed (h : Order l tip owed) {p : Publication} :
    announcements l = pre ++ .newTemplate p :: post → p.futureTemplate = false →
      ∃ m, (pre.filterMap Outgoing.setNewPrevHash?).getLast? = some m ∧
        m.prevHash = p.template.prevHash := by
  induction h generalizing post with
  | nil => exact fun heq => absurd heq (by simp [announcements])
  | future q hl hq ih =>
    rw [announcements_concat]
    intro heq hp
    rcases concat_eq_append_cons heq with ⟨-, -, hm⟩ | ⟨post', -, hbefore⟩
    · cases hm
      exact absurd (hq.symm.trans hp) nofun
    · exact ih hbefore hp
  | refresh q hl hq ih =>
    rw [announcements_concat]
    intro heq hp
    rcases concat_eq_append_cons heq with ⟨-, rfl, hm⟩ | ⟨post', -, hbefore⟩
    · cases hm
      exact Option.map_eq_some_iff.mp hl.tip_eq.symm
    · exact ih hbefore hp
  | announce q hl ih =>
    rw [announcements_concat]
    intro heq hp
    rcases concat_eq_append_cons heq with ⟨-, -, hm⟩ | ⟨post', -, hbefore⟩
    · cases hm
    · exact ih hbefore hp
  | respond r hl ih =>
    rw [announcements_concat]
    exact ih

end Order

/-! ## The queue and the work in progress -/

/-- What the reader of the queue knows while the work is in progress.  Work that is given up at a
    shutdown may leave a prev-hash owed. -/
def Work.Pending (d : Shared) (tip : Option Hash256) (owed : Option Publication) : Option Work → Prop
  | some (.sendNewTemplate _ p true) =>
    owed = none ∧ p.futureTemplate = true ∧ d.currentPrevHash = some p.template.prevHash
  | some (.sendNewTemplate _ p false) =>
    owed = none ∧ p.futureTemplate = false ∧ tip = some p.template.prevHash ∧
      d.currentPrevHash = some p.template.prevHash
  | some (.sendSetNewPrevHash _ p) =>
    owed = some p ∧ d.currentPrevHash = some p.template.prevHash
  | some (.fetch _ _) => owed = none ∧ tip = d.currentPrevHash
  | none => d.globalCancelled = false → owed = none ∧ tip = d.currentPrevHash

/-- Templates are sent as they were stored, the last one perhaps not yet. -/
def Work.Sent (d : Shared) : Option Work → Prop
  | some (.sendNewTemplate _ p _) =>
    ∃ before, d.published = before ++ [p] ∧ (sentTemplates d.outgoing).Sublist before
  | _ => (sentTemplates d.outgoing).Sublist d.published

structure Announced (d : Shared) (w : Option Work) : Prop where
  order : ∃ tip owed, Order d.outgoing tip owed ∧ Work.Pending d tip owed w
  sent : Work.Sent d w

namespace Announced

theorem new (maxSameTipTemplates : Option Nat) : Announced (.new maxSameTipTemplates) none where
  order := ⟨none, none, .nil, fun _ => ⟨rfl, rfl⟩⟩
  sent := List.Sublist.refl _

/-- What steps keep that send nothing. -/
structure Same (d d' : Shared) : Prop where
  outgoing : d'.outgoing = d.outgoing
  published : d'.published = d.published
  prevHash : d'.currentPrevHash = d.currentPrevHash
  active : d'.globalCancelled = false → d.globalCancelled = false

theorem pending (hd : Same d d') {tip : Option Hash256} {owed : Option Publication}
    (h : Work.Pending d tip owed w) : Work.Pending d' tip owed w := by
  unfold Work.Pending at h ⊢
  rw [hd.prevHash]
  split
  · exact h
  · exact h
  · exact h
  · exact h
  · exact fun hactive => h (hd.active hactive)

theorem same (h : Announced d w) (hd : Same d d') : Announced d' w := by
  obtain ⟨tip, owed, horder, hpending⟩ := h.order
  refine ⟨⟨tip, owed, ?_, pending hd hpending⟩, ?_⟩
  · rw [hd.outgoing]
    exact horder
  · have hsent := h.sent
    unfold Work.Sent at hsent ⊢
    rw [hd.outgoing, hd.published]
    exact hsent

theorem sublist (h : Announced d w) : (sentTemplates d.outgoing).Sublist d.published := by
  have hsent := h.sent
  unfold Work.Sent at hsent
  split at hsent
  · obtain ⟨before, hpublished, hsub⟩ := hsent
    rw [hpublished]
    exact hsub.trans (List.sublist_append_left _ _)
  · exact hsent

/-- Work can be given up when the token is cancelled. -/
theorem cancel (h : Announced d w) : Announced d.cancel none := by
  obtain ⟨tip, owed, horder, -⟩ := h.order
  exact ⟨⟨tip, owed, horder, nofun⟩, h.sublist⟩

theorem sentTemplates_concat (l : List Outgoing) (p : Publication) :
    sentTemplates (l ++ [.newTemplate p]) = sentTemplates l ++ [p] := by
  simp [sentTemplates, Outgoing.newTemplate?]

theorem effect {retiring : Bool} (h : Announced d w) (he : Effect retiring d w d' w') :
    Announced d' w' := by
  cases he with
  | quiet _ cancelled tokens =>
    refine h.same ⟨rfl, rfl, rfl, ?_⟩
    exact fun hactive => (Bool.or_eq_false_iff.mp hactive).1
  | abandon => exact h.cancel
  | tick | issue | destroy | sweep | firstRequest | rotate => exact h.same ⟨rfl, rfl, rfl, id⟩
  | fetch request hactive hrequest =>
    obtain ⟨tip, owed, horder, hpending⟩ := h.order
    exact ⟨⟨tip, owed, horder, hpending hactive⟩, h.sent⟩
  | refresh d' c id f p hrequest htip hlive hpublish =>
    obtain ⟨tip, owed, horder, hpending⟩ := h.order
    obtain ⟨rfl, rfl⟩ := hpending
    obtain ⟨htemplate, hfuture, rfl⟩ := Shared.publishTemplate_eq_some hpublish
    refine ⟨⟨_, none, horder, rfl, hfuture, ?_, ?_⟩, ⟨d.published, rfl, h.sublist⟩⟩
    · rw [htip, htemplate]
    · rw [htemplate]
      exact htip
  | replace d₁ d' c id f p hrequest hcleared hpublish =>
    obtain ⟨tip, owed, horder, hpending⟩ := h.order
    obtain ⟨rfl, rfl⟩ := hpending
    obtain ⟨htemplate, hfuture, rfl⟩ := Shared.publishTemplate_eq_some hpublish
    rcases hcleared with rfl | ⟨rfl, -⟩
    all_goals
      refine ⟨⟨_, none, horder, rfl, hfuture, ?_⟩, ⟨_, rfl, h.sublist⟩⟩
      rw [htemplate]
      rfl
  | unpublishable =>
    have hsame : Announced d.retireAllTemplates _ := h.same ⟨rfl, rfl, rfl, id⟩
    exact hsame.cancel
  | sendFuture c p =>
    obtain ⟨tip, owed, horder, rfl, hfuture, hcurrent⟩ := h.order
    obtain ⟨before, hpublished, hsub⟩ := h.sent
    refine ⟨⟨tip, some p, horder.future p hfuture, rfl, hcurrent⟩, ?_⟩
    dsimp only [Work.Sent, Shared.send]
    rw [sentTemplates_concat, hpublished]
    exact hsub.append (List.Sublist.refl _)
  | sendRefresh c p =>
    obtain ⟨tip, owed, horder, rfl, hfuture, rfl, hcurrent⟩ := h.order
    obtain ⟨before, hpublished, hsub⟩ := h.sent
    refine ⟨⟨_, none, horder.refresh p hfuture, fun _ => ⟨rfl, hcurrent.symm⟩⟩, ?_⟩
    dsimp only [Work.Sent, Shared.send, Shared.finish]
    rw [sentTemplates_concat, hpublished]
    exact hsub.append (List.Sublist.refl _)
  | sendSetNewPrevHash c p =>
    obtain ⟨tip, owed, horder, rfl, hcurrent⟩ := h.order
    refine ⟨⟨_, none, horder.announce p, fun _ => ⟨rfl, hcurrent.symm⟩⟩, ?_⟩
    dsimp only [Work.Sent, Shared.send, Shared.finish]
    rw [sentTemplates, List.filterMap_append]
    exact (List.append_nil (sentTemplates d.outgoing)).symm ▸ h.sublist
  | respond _ r =>
    obtain ⟨tip, owed, horder, hpending⟩ := h.order
    have hsame : sentTemplates (d.send (.response r)).outgoing = sentTemplates d.outgoing := by
      rw [Shared.send, sentTemplates, List.filterMap_append]
      simp [Outgoing.newTemplate?, sentTemplates]
    refine ⟨⟨tip, owed, horder.respond r, ?_⟩, ?_⟩
    · exact pending ⟨rfl, rfl, rfl, id⟩ hpending
    · have hsent := h.sent
      unfold Work.Sent at hsent ⊢
      rw [hsame]
      exact hsent

/-- A prev-hash that is owed is on its way. -/
theorem owed_sending {tip : Option Hash256} {p : Publication} (h : Work.Pending d tip (some p) w) :
    d.globalCancelled = true ∨ ∃ c, w = some (.sendSetNewPrevHash c p) := by
  unfold Work.Pending at h
  split at h
  · exact absurd h.1 nofun
  · exact absurd h.1 nofun
  next c q =>
    obtain ⟨howed, -⟩ := h
    cases howed
    exact Or.inr ⟨c, rfl⟩
  · exact absurd h.1 nofun
  · cases hd : d.globalCancelled with
    | true => exact Or.inl rfl
    | false => exact absurd (h hd).1 nofun

end Announced

/-! ## Every run -/

theorem announced_after (maxSameTipTemplates : Option Nat) (es : List State.Event) :
    Announced (State.after maxSameTipTemplates es).shared (State.after maxSameTipTemplates es).work? := by
  have hrun := Runs.run_invariant (fun s : State => Tasks s ∧ Announced s.shared s.work?)
    (fun s e h => ⟨(h.1.step_sound e).2, h.2.effect (h.1.step_sound e).1⟩)
    ⟨tasks_new maxSameTipTemplates, Announced.new maxSameTipTemplates⟩ es
  exact hrun.2

/-- The order in which `BitcoinCoreSv2TDP` announces templates and prev-hashes, whatever the tasks
    have done.  A future template whose prev-hash has not followed is the last announcement; unless
    the connection is being ended, its prev-hash is being sent. -/
theorem publications_ordered (maxSameTipTemplates : Option Nat) (es : List State.Event) :
    let s := State.after maxSameTipTemplates es
    let queue := announcements s.shared.outgoing
    (sentTemplates s.shared.outgoing).Pairwise
      (fun p q => p.newTemplate.templateId < q.newTemplate.templateId ∧
        p.template.templateIpcClient.request ≤ q.template.templateIpcClient.request) ∧
    (∀ pre p post, queue = pre ++ .newTemplate p :: post → p.newTemplate.futureTemplate = true →
      (post = [] ∧
        (s.shared.globalCancelled = true ∨ ∃ c, s.work? = some (.sendSetNewPrevHash c p))) ∨
      ∃ m post', post = .setNewPrevHash m :: post' ∧ m.templateId = p.newTemplate.templateId ∧
        m.prevHash = p.template.prevHash) ∧
    (∀ pre m post, queue = pre ++ .setNewPrevHash m :: post →
      ∃ pre' p, pre = pre' ++ [.newTemplate p] ∧ p.newTemplate.futureTemplate = true ∧
        m.templateId = p.newTemplate.templateId ∧ m.prevHash = p.template.prevHash) ∧
    (∀ pre p post, queue = pre ++ .newTemplate p :: post → p.newTemplate.futureTemplate = false →
      ∃ m, (pre.filterMap Outgoing.setNewPrevHash?).getLast? = some m ∧
        m.prevHash = p.template.prevHash) ∧
    s.monitors.length ≤ 1 := by
  intro s queue
  have hannounced := announced_after maxSameTipTemplates es
  obtain ⟨tip, owed, horder, hpending⟩ := hannounced.order
  refine ⟨?_, ?_, ?_, ?_, (tasks_after maxSameTipTemplates es).oneMonitor⟩
  · have hr := (retention_after maxSameTipTemplates es).1
    refine (hr.order.sublist hannounced.sublist).imp ?_
    intro p q hbefore
    rw [p.newTemplate_id, q.newTemplate_id]
    exact ⟨hbefore.1, hbefore.2.2⟩
  · intro pre p post hqueue hfuture
    rw [p.newTemplate_future] at hfuture
    rcases horder.followed hqueue hfuture with ⟨rfl, rfl⟩ | ⟨post', rfl⟩
    · exact Or.inl ⟨rfl, Announced.owed_sending hpending⟩
    · exact Or.inr ⟨_, post', rfl, p.newTemplate_id.symm, rfl⟩
  · intro pre m post hqueue
    obtain ⟨before, p, rfl, hfuture, rfl⟩ := horder.announced hqueue
    exact ⟨before, p, rfl, p.newTemplate_future.trans hfuture, p.newTemplate_id.symm, rfl⟩
  · intro pre p post hqueue hrefresh
    rw [p.newTemplate_future] at hrefresh
    exact horder.refreshed hqueue hrefresh

end Sv2Apps.BitcoinCore.TemplateDistribution
