/-
  BitcoinCore/TemplateRequests.lean
  =================================
  **What the store is relied on for** — the monitor waits on the template that was stored last, which
  stays live; requests for transaction data are answered by what is in store; and no capability is
  destroyed twice.
-/
import Sv2Apps.BitcoinCore.TemplateRetention
import Mathlib.Data.List.Induction

namespace Sv2Apps.BitcoinCore.TemplateDistribution

open Bitcoin

variable {s s' : State} {d d' : Shared} {w w' : Option Work}

/-! ## What is held -/

namespace Retention

theorem templateDataFor_eq_some (h : Retention d w) {id : TemplateId} {t : TemplateData} :
    d.templateDataFor id = some t ↔ d.Held t ∧ t.templateId = id := by
  unfold Shared.templateDataFor
  rw [Option.or_eq_some_iff, Option.filter_eq_some_iff, Option.filter_eq_none_iff]
  constructor
  · rintro (⟨hfuture, hid⟩ | ⟨-, hretained⟩)
    · exact ⟨Or.inl hfuture, of_decide_eq_true hid⟩
    · exact ⟨Or.inr ⟨id, hretained⟩, h.keyed id t hretained⟩
  · rintro ⟨hfuture | ⟨id', hretained⟩, rfl⟩
    · exact Or.inl ⟨hfuture, decide_eq_true rfl⟩
    · have hid := h.keyed id' t hretained
      subst hid
      refine Or.inr ⟨?_, hretained⟩
      intro u hu hsame
      have hnone := (h.future u hu).2
      rw [of_decide_eq_true hsame, hretained] at hnone
      cases hnone

theorem requestedTemplate_eq_ok (h : Retention d w) {id : TemplateId} {t : TemplateData} :
    d.requestedTemplate id = .ok t ↔ (d.Held t ∧ t.templateId = id) ∧ t.retireAt = none := by
  rw [← h.templateDataFor_eq_some]
  unfold Shared.requestedTemplate
  cases hdata : d.templateDataFor id with
  | none => simp
  | some u =>
    dsimp only
    cases hu : u.retireAt with
    | none =>
      simp only [Option.isSome_none, Bool.false_eq_true, if_false, Except.ok.injEq, Option.some.injEq]
      constructor
      · rintro rfl
        exact ⟨rfl, hu⟩
      · exact fun h => h.1
    | some retireAt =>
      simp only [Option.isSome_some, if_true, reduceCtorEq, false_iff, Option.some.injEq]
      rintro ⟨rfl, hlive⟩
      rw [hu] at hlive
      cases hlive

theorem requestedTemplate_eq_stale (h : Retention d w) {id : TemplateId} :
    d.requestedTemplate id = .error .staleTemplateId ↔
      ∃ t, (d.Held t ∧ t.templateId = id) ∧ t.retireAt ≠ none := by
  simp only [← h.templateDataFor_eq_some]
  unfold Shared.requestedTemplate
  cases hdata : d.templateDataFor id with
  | none => simp
  | some u =>
    dsimp only
    cases hu : u.retireAt <;> simp [hu]

theorem requestedTemplate_eq_notFound (h : Retention d w) {id : TemplateId} :
    d.requestedTemplate id = .error .templateIdNotFound ↔ ∀ t, ¬ (d.Held t ∧ t.templateId = id) := by
  simp only [← h.templateDataFor_eq_some]
  unfold Shared.requestedTemplate
  cases hdata : d.templateDataFor id with
  | none => simp
  | some u =>
    dsimp only
    cases u.retireAt <;> simp

/-- The live templates are the newest refreshes. -/
theorem liveTemplateIds_suffix (h : Retention d w) :
    d.liveTemplateIds <:+ refreshIds d.published := by
  rw [Shared.liveTemplateIds_eq (h.newest.sublist (List.take_sublist _ _)) h.live]
  obtain ⟨older, holder⟩ := h.recent
  refine ⟨older ++ (d.refreshes.drop d.maxSameTipTemplates).reverse, ?_⟩
  rw [holder, List.append_assoc, ← List.reverse_append, List.take_append_drop]

theorem liveTemplateIds_length (h : Retention d w) :
    d.liveTemplateIds.length ≤ d.maxSameTipTemplates := by
  rw [Shared.liveTemplateIds_eq (h.newest.sublist (List.take_sublist _ _)) h.live,
    List.length_reverse]
  exact List.length_take_le _ _

end Retention

/-! ## The template stored last -/

/-- It is live, unless everything was retired. -/
def Shared.LastLive (d : Shared) : Prop :=
  ∀ p, d.published.getLast? = some p →
    d.Cleared ∨ d.Held p.template ∧ p.template.retireAt = none

namespace Retention

/-- A publication stores its template, which the count does not reach. -/
theorem publish_held (h : Retention d w) {t : TemplateData} (ht : Fresh d t) {future : Bool}
    {p : Publication} (hp : d.publishTemplate t future future = some (d', p)) : d'.Held t := by
  obtain ⟨-, -, rfl⟩ := Shared.publishTemplate_eq_some hp
  cases future with
  | true => exact Or.inl rfl
  | false =>
    refine Or.inr ⟨t.templateId, ?_⟩
    dsimp only
    rw [h.storeRefresh_lookup ht]
    unfold Shared.storeTemplateData
    simp only [Bool.false_eq_true, if_false, KeyMap.lookup_insert_eq]
    rw [if_pos trivial, Option.map_some, if_neg]
    rintro ⟨-, hout⟩
    obtain ⟨n, hn⟩ : ∃ n, d.maxSameTipTemplates = n + 1 :=
      ⟨d.maxSameTipTemplates - 1, by have := h.retention; omega⟩
    rw [hn, List.take_succ_cons] at hout
    exact hout List.mem_cons_self

theorem publish_lastLive (h : Retention d w) {t : TemplateData} (ht : Fresh d t) {future : Bool}
    {p : Publication} (hp : d.publishTemplate t future future = some (d', p)) : d'.LastLive := by
  have hheld := h.publish_held ht hp
  obtain ⟨htemplate, -, rfl⟩ := Shared.publishTemplate_eq_some hp
  intro q hq
  dsimp only at hq
  rw [List.getLast?_concat] at hq
  cases hq
  rw [htemplate]
  exact Or.inr ⟨hheld, ht.live⟩

theorem lastLive {retiring : Bool} (h : Retention d w) (hlast : d.LastLive)
    (he : Effect retiring d w d' w') : d'.LastLive := by
  cases he with
  | rotate | unpublishable => exact fun _ _ => Or.inl ⟨rfl, rfl⟩
  | refresh d' c id f p hrequest htip hlive hpublish =>
    exact h.publish_lastLive (h.fresh rfl hrequest) hpublish
  | replace d₁ d' c id f p hrequest hcleared hpublish =>
    rcases hcleared with rfl | ⟨rfl, hcleared⟩
    · exact h.retireAll.publish_lastLive (h.retireAll.fresh rfl hrequest) hpublish
    · exact h.publish_lastLive (h.fresh rfl hrequest) hpublish
  | sweep _ destroyed hretiring =>
    intro p hp
    refine (hlast p hp).imp id fun ⟨hheld, hlive⟩ => ⟨hheld.imp id ?_, hlive⟩
    rintro ⟨id, hretained⟩
    refine ⟨id, ?_⟩
    dsimp only
    rw [extractDue_lookup, hretained, Option.filter_some, if_pos]
    rw [Bool.not_eq_true', Shared.isDue, hlive]
    rfl
  | _ => exact hlast

end Retention

theorem lastLive_after (maxSameTipTemplates : Option Nat) (es : List State.Event) :
    (State.after maxSameTipTemplates es).shared.LastLive := by
  have hrun := Runs.run_invariant
    (fun s : State => Tasks s ∧ Retention s.shared s.work? ∧ s.shared.LastLive)
    (fun s e h => ⟨(h.1.step_sound e).2, h.2.1.effect (h.1.step_sound e).1,
      h.2.1.lastLive h.2.2 (h.1.step_sound e).1⟩)
    ⟨tasks_new maxSameTipTemplates, Retention.new maxSameTipTemplates, nofun⟩ es
  exact hrun.2.2

theorem maxSameTipTemplates_kept {retiring : Bool} (he : Effect retiring d w d' w') :
    d'.maxSameTipTemplates = d.maxSameTipTemplates := by
  cases he with
  | refresh d' c id f p hrequest htip hlive hpublish =>
    obtain ⟨-, -, rfl⟩ := Shared.publishTemplate_eq_some hpublish
    rfl
  | replace d₁ d' c id f p hrequest hcleared hpublish =>
    obtain ⟨-, -, rfl⟩ := Shared.publishTemplate_eq_some hpublish
    rcases hcleared with rfl | ⟨rfl, -⟩
    · rfl
    · rfl
  | _ => rfl

theorem maxSameTipTemplates_after (maxSameTipTemplates : Option Nat) (es : List State.Event) :
    (State.after maxSameTipTemplates es).shared.maxSameTipTemplates =
      Shared.retention maxSameTipTemplates := by
  have hrun := Runs.run_invariant
    (fun s : State => Tasks s ∧ s.shared.maxSameTipTemplates = Shared.retention maxSameTipTemplates)
    (fun s e h => ⟨(h.1.step_sound e).2,
      (maxSameTipTemplates_kept (h.1.step_sound e).1).trans h.2⟩)
    ⟨tasks_new maxSameTipTemplates, rfl⟩ es
  exact hrun.2

/-- A template is published only by the task that has fetched it. -/
theorem published_of_idle {retiring : Bool} (he : Effect retiring d none d' w') :
    d'.published = d.published := by
  cases he <;> rfl

namespace Tasks

/-- While a monitor waits, nothing else is published. -/
theorem idle_of_waiting (h : Tasks s) {m : Monitor} (hm : m ∈ s.monitors) {c : BlockTemplate}
    (hwaiting : m.state = .waiting c) : s.work? = none := by
  have hmonitors : s.monitors = [m] := by
    have hone := h.oneMonitor
    cases hms : s.monitors with
    | nil =>
      rw [hms] at hm
      cases hm
    | cons m' ms =>
      rw [hms] at hone hm
      have hnil : ms = [] := List.length_eq_zero_iff.mp (by rw [List.length_cons] at hone; omega)
      rw [hnil, List.mem_singleton] at hm
      rw [hnil, hm]
  have hbootstrap : s.bootstrap?.bind (·.work?) = none := by
    cases hb : s.bootstrap? with
    | none => rfl
    | some b =>
      refine ((h.alone b hb).resolve_left ?_).1
      rw [hmonitors]
      nofun
  rw [State.work?, hbootstrap, State.monitorState?, hmonitors]
  simp [hwaiting, MonitorState.work?]

end Tasks

/-! ## Requests -/

/-- The answer that a request for `templateId` gets from what is in store. -/
def Response.Answers (d : Shared) (templateId : TemplateId) (r : Response) : Prop :=
  match d.requestedTemplate templateId with
  | .ok _ => ∃ txs, r = .requestTransactionDataSuccess templateId txs
  | .error code => r = .requestTransactionDataError templateId code

/-- The response answers a request of the run, as things were when the request was received. -/
def Asked (maxSameTipTemplates : Option Nat) (es : List State.Event) (r : Response) : Prop :=
  ∃ before templateId later,
    es = before ++ .incoming (.recv (.requestTransactionData templateId)) :: later ∧
      r.Answers (State.after maxSameTipTemplates before).shared templateId

def Outgoing.response? : Outgoing → Option Response
  | .response r => some r
  | _ => none

def Shared.responses (d : Shared) : List Response := d.outgoing.filterMap Outgoing.response?

theorem Shared.publishTemplate_responses {t : TemplateData} {future announce : Bool} {p : Publication}
    (h : d.publishTemplate t future announce = some (d', p)) : d'.responses = d.responses := by
  obtain ⟨-, -, rfl⟩ := Shared.publishTemplate_eq_some h
  rfl

theorem stepWork_responses {plan : Shared → TemplateData → Option Plan}
    (hplan : ∀ d t q, plan d t = some q → q.shared.responses = d.responses) {v : Work} {a : Answer}
    {r : Progress Work} (h : d.stepWork plan v a = some (d', r)) : d'.responses = d.responses := by
  unfold Shared.stepWork at h
  split at h
  · split at h <;> cases h
    rfl
  · cases h
    rfl
  · dsimp only at h
    split at h
    · cases h
      rfl
    next q hq =>
      split at h
      · cases h
        exact hplan _ _ q hq
      next hpublish =>
        cases h
        exact (Shared.publishTemplate_responses hpublish).trans (hplan _ _ q hq)
  · cases h
    rfl
  · dsimp only at h
    split at h <;> cases h <;> simp [Shared.responses, Shared.send, Shared.finish, Outgoing.response?]
  · cases h
    rfl
  · cases h
    simp [Shared.responses, Shared.send, Shared.finish, Outgoing.response?]
  · cases h

theorem planFirst_responses (d : Shared) (t : TemplateData) (q : Plan) (h : planFirst d t = some q) :
    q.shared.responses = d.responses := by
  cases h
  rfl

theorem planNext_responses (d : Shared) (t : TemplateData) (q : Plan) (h : planNext d t = some q) :
    q.shared.responses = d.responses := by
  unfold planNext at h
  split at h
  · cases h
  · split at h <;> cases h <;> rfl

theorem beginFetch_responses {request : Nat} {v : Option Work}
    (h : d.beginFetch request = (d', v)) : d'.responses = d.responses := by
  unfold Shared.beginFetch at h
  dsimp only at h
  split at h <;> cases h <;> rfl

theorem stepBootstrap_responses {b : Bootstrap} {a : Answer} {r : Progress Bootstrap}
    (h : d.stepBootstrap b a = some (d', r)) : d'.responses = d.responses := by
  unfold Shared.stepBootstrap at h
  split at h
  · cases h
    rfl
  · split at h <;> cases h
    rfl
  · split at h
    all_goals
      next hfetch =>
        cases h
        exact beginFetch_responses hfetch
  · cases h
    rfl
  · split at h
    · cases h
    all_goals
      next hwork =>
        cases h
        exact stepWork_responses planFirst_responses hwork
  · cases h

theorem stepMonitor_responses {token : Nat} {st : MonitorState} {a : Answer} {r : Option MonitorState}
    (h : d.stepMonitor token st a = (d', r)) : d'.responses = d.responses := by
  unfold Shared.stepMonitor at h
  split at h
  · cases h
    rfl
  · cases h
    rfl
  · split at h <;> cases h <;> rfl
  · cases h
    rfl
  · cases h
    rfl
  · split at h
    all_goals
      next hfetch =>
        cases h
        exact beginFetch_responses hfetch
  · cases h
    rfl
  · split at h
    · cases h
      rfl
    all_goals
      next hwork =>
        cases h
        have hsame := stepWork_responses planNext_responses hwork
        exact hsame
  · cases h
    rfl

/-- What the task of incoming messages is about to answer. -/
structure Answering (maxSameTipTemplates : Option Nat) (es : List State.Event) (s : State) : Prop where
  sent : ∀ r ∈ s.shared.responses, Asked maxSameTipTemplates es r
  responding : ∀ r, s.incoming = .responding r → Asked maxSameTipTemplates es r
  fetching : ∀ t, s.incoming = .fetchingTxData t →
    ∀ txs, Asked maxSameTipTemplates es (.requestTransactionDataSuccess t.templateId txs)

namespace Answering

variable {maxSameTipTemplates : Option Nat} {es : List State.Event}

theorem asked_later {r : Response} (h : Asked maxSameTipTemplates es r) (e : State.Event) :
    Asked maxSameTipTemplates (es ++ [e]) r := by
  obtain ⟨before, id, later, rfl, hanswers⟩ := h
  exact ⟨before, id, later ++ [e], by rw [List.append_assoc, List.cons_append], hanswers⟩

/-- A step after which the task answers nothing new. -/
theorem other (h : Answering maxSameTipTemplates es s) (e : State.Event)
    (hsent : s'.shared.responses = s.shared.responses)
    (hincoming : s'.incoming = s.incoming ∨
      (∀ r, s'.incoming ≠ .responding r) ∧ ∀ t, s'.incoming ≠ .fetchingTxData t) :
    Answering maxSameTipTemplates (es ++ [e]) s' := by
  constructor
  · rw [hsent]
    exact fun r hr => asked_later (h.sent r hr) e
  · intro r hr
    rcases hincoming with hsame | ⟨hnone, -⟩
    · exact asked_later (h.responding r (hsame.symm.trans hr)) e
    · exact absurd hr (hnone r)
  · intro t ht txs
    rcases hincoming with hsame | ⟨-, hnone⟩
    · exact asked_later (h.fetching t (hsame.symm.trans ht) txs) e
    · exact absurd ht (hnone t)

/-- The task ends. -/
theorem exited (h : Answering maxSameTipTemplates es s) (e : State.Event)
    (hsent : s'.shared.responses = s.shared.responses) (hexited : s'.incoming = .exited) :
    Answering maxSameTipTemplates (es ++ [e]) s' :=
  h.other e hsent (Or.inr ⟨by rw [hexited]; nofun, by rw [hexited]; nofun⟩)

theorem stepRun (h : Answering maxSameTipTemplates es s) (a : Answer) :
    Answering maxSameTipTemplates (es ++ [.run a]) (s.stepRun a) := by
  unfold State.stepRun
  split
  · split
    · exact h.other _ rfl (Or.inl rfl)
    · exact h.other _ rfl (Or.inl rfl)
  · exact h.other _ rfl (Or.inl rfl)
  · split
    · exact h.other _ rfl (Or.inl rfl)
    next hstep => exact h.other _ (stepBootstrap_responses hstep) (Or.inl rfl)
    next hstep => exact h.other _ (stepBootstrap_responses hstep) (Or.inr ⟨nofun, nofun⟩)
    next hstep =>
      have hsame := stepBootstrap_responses hstep
      exact h.other _ hsame (Or.inl rfl)
  · split
    · split
      · exact h.other _ rfl (Or.inl rfl)
      · exact h.other _ rfl (Or.inl rfl)
    · exact h.other _ rfl (Or.inl rfl)
  · split
    · exact h.other _ rfl (Or.inl rfl)
    · exact h.other _ rfl (Or.inl rfl)
  · exact h.other _ rfl (Or.inl rfl)

theorem stepMonitor (h : Answering maxSameTipTemplates es s) (id : TaskId) (a : Answer) :
    Answering maxSameTipTemplates (es ++ [.monitor id a]) (s.stepMonitor id a) := by
  unfold State.stepMonitor
  split
  · exact h.other _ rfl (Or.inl rfl)
  · split
    all_goals
      next hstep =>
        have hsame := stepMonitor_responses hstep
        exact h.other _ hsame (Or.inl rfl)

theorem stepRetirement (h : Answering maxSameTipTemplates es s) (a : Answer) :
    Answering maxSameTipTemplates (es ++ [.retirement a]) (s.stepRetirement a) := by
  have hdestroy : ∀ {s₁ : State} (due : List TemplateData), s₁.shared.responses = s.shared.responses →
      s₁.incoming = s.incoming →
      Answering maxSameTipTemplates (es ++ [.retirement a]) (s₁.destroyNext due) := by
    intro s₁ due hsent hincoming
    cases due with
    | nil => exact h.other _ hsent (Or.inl hincoming)
    | cons t due =>
      dsimp only [State.destroyNext]
      split
      · exact h.other _ hsent (Or.inl hincoming)
      · exact h.other _ hsent (Or.inl hincoming)
  have hsame : ∀ r, Answering maxSameTipTemplates (es ++ [.retirement a])
      { s with retirement := r } := fun r => h.other _ rfl (Or.inl rfl)
  have hcancel : ∀ r, Answering maxSameTipTemplates (es ++ [.retirement a])
      { s with shared := s.shared.cancel, retirement := r } := fun r => h.other _ rfl (Or.inl rfl)
  have hstay : Answering maxSameTipTemplates (es ++ [.retirement a]) s := h.other _ rfl (Or.inl rfl)
  unfold State.stepRetirement
  split
  · split
    · exact hsame _
    · exact hstay
  · exact hcancel _
  · exact hsame _
  · split
    · exact hsame _
    · exact hstay
  · exact hdestroy _ rfl rfl
  · split
    · exact hsame _
    · exact hstay
  · exact hcancel _
  · exact hdestroy _ rfl rfl
  · exact hstay

/-- A request is looked at as things are. -/
theorem requested (h : Answering maxSameTipTemplates es (State.after maxSameTipTemplates es))
    (hr : Retention (State.after maxSameTipTemplates es).shared w) (id : TemplateId) :
    Answering maxSameTipTemplates (es ++ [.incoming (.recv (.requestTransactionData id))])
      ((State.after maxSameTipTemplates es).handleMessage (.requestTransactionData id)) := by
  have hasked : ∀ r : Response,
      r.Answers (State.after maxSameTipTemplates es).shared id →
        Asked maxSameTipTemplates (es ++ [.incoming (.recv (.requestTransactionData id))]) r :=
    fun r hr => ⟨es, id, [], rfl, hr⟩
  have hsent : ∀ r ∈ (State.after maxSameTipTemplates es).shared.responses,
      Asked maxSameTipTemplates (es ++ [.incoming (.recv (.requestTransactionData id))]) r :=
    fun r hr => asked_later (h.sent r hr) _
  dsimp only [State.handleMessage]
  split
  · exact h.exited _ rfl rfl
  · split
    next code hcode =>
      refine ⟨hsent, ?_, nofun⟩
      intro r hr
      cases hr
      refine hasked _ ?_
      rw [Response.Answers, hcode]
    next t ht =>
      refine ⟨hsent, nofun, ?_⟩
      intro u hu txs
      cases hu
      refine hasked _ ?_
      rw [Response.Answers, ht]
      exact ⟨txs, by rw [(hr.requestedTemplate_eq_ok.mp ht).1.2]⟩

theorem stepIncoming (h : Answering maxSameTipTemplates es (State.after maxSameTipTemplates es))
    (hr : Retention (State.after maxSameTipTemplates es).shared w) (a : Answer) :
    Answering maxSameTipTemplates (es ++ [.incoming a])
      ((State.after maxSameTipTemplates es).stepIncoming a) := by
  have hstay := h.other (.incoming a) rfl (Or.inl rfl)
  have hspawn : ∀ {d : Shared} (c : CoinbaseOutputConstraints) (tokens : List Nat) (token : Nat),
      d.responses = (State.after maxSameTipTemplates es).shared.responses →
      Answering maxSameTipTemplates (es ++ [.incoming a])
        (State.rotate { State.after maxSameTipTemplates es with
          shared := { d with cancelledTokens := tokens }, token := token } c) :=
    fun c tokens token hsent => h.other _ hsent (Or.inr ⟨nofun, nofun⟩)
  unfold State.stepIncoming
  split
  · split
    · exact h.exited _ rfl rfl
    · exact hstay
  next m _ =>
    cases m with
    | coinbaseOutputConstraints c =>
      dsimp only [State.handleMessage, State.handleCoinbaseOutputConstraints]
      split
      · exact hspawn c _ _ rfl
      · exact h.other _ rfl (Or.inr ⟨nofun, nofun⟩)
    | requestTransactionData id => exact h.requested hr id
    | submitSolution id =>
      dsimp only [State.handleMessage]
      split
      · exact h.exited _ rfl rfl
      · split
        · exact hstay
        · exact h.other _ rfl (Or.inr ⟨nofun, nofun⟩)
  · split
    · exact hspawn _ _ _ rfl
    · exact hstay
  · split
    · exact hstay
    next hstep => exact h.other _ (stepBootstrap_responses hstep) (Or.inr ⟨nofun, nofun⟩)
    next hstep => exact h.other _ (stepBootstrap_responses hstep) (Or.inr ⟨nofun, nofun⟩)
    next hstep =>
      have hsame := stepBootstrap_responses hstep
      exact h.exited _ hsame rfl
  · split
    · exact h.exited _ rfl rfl
    · exact hstay
  · exact h.exited _ rfl rfl
  next t txs ht =>
    refine ⟨fun r hr => asked_later (h.sent r hr) _, ?_, nofun⟩
    intro r hr
    cases hr
    exact asked_later (h.fetching t ht txs) _
  · split
    · exact h.exited _ rfl rfl
    · exact hstay
  · exact h.exited _ rfl rfl
  next r hresponding =>
    refine ⟨?_, nofun, nofun⟩
    intro r' hr'
    rw [Shared.responses, Shared.send, List.filterMap_append, List.mem_append] at hr'
    rcases hr' with hr' | hr'
    · exact asked_later (h.sent r' hr') _
    · rw [List.mem_singleton.mp hr']
      exact asked_later (h.responding r hresponding) _
  · split
    · exact h.exited _ rfl rfl
    · exact hstay
  · exact h.other _ rfl (Or.inr ⟨nofun, nofun⟩)
  · exact h.other _ rfl (Or.inr ⟨nofun, nofun⟩)
  · exact hstay

end Answering

theorem answering_after (maxSameTipTemplates : Option Nat) (es : List State.Event) :
    Answering maxSameTipTemplates es (State.after maxSameTipTemplates es) := by
  induction es using List.reverseRecOn with
  | nil => exact ⟨nofun, nofun, nofun⟩
  | append_singleton es e ih =>
    have hstep : State.after maxSameTipTemplates (es ++ [e]) =
        (State.after maxSameTipTemplates es).step e := Runs.run_append _ _ _ _
    rw [hstep]
    cases e with
    | tick elapsed => exact ih.other _ rfl (Or.inl rfl)
    | cancel => exact ih.other _ rfl (Or.inl rfl)
    | run a => exact ih.stepRun a
    | incoming a => exact ih.stepIncoming (retention_after maxSameTipTemplates es).1 a
    | monitor id a => exact ih.stepMonitor id a
    | retirement a => exact ih.stepRetirement a

/-! ## The contract of the store -/

namespace Retention

/-- Bitcoin Core hands out a capability for one publication only. -/
theorem id_of_client (h : Retention d w) {p q : Publication} (hp : p ∈ d.published)
    (hq : q ∈ d.published)
    (hclient : p.template.templateIpcClient = q.template.templateIpcClient) :
    p.template.templateId = q.template.templateId := by
  have hne : ∀ {p q : Publication}, p.Before q →
      p.template.templateIpcClient ≠ q.template.templateIpcClient := by
    intro p q hbefore heq
    have hserial := hbefore.2.1
    rw [heq] at hserial
    exact Nat.lt_irrefl _ hserial
  have hall := List.Pairwise.forall_of_forall_of_flip
    (R := fun p q : Publication =>
      p.template.templateIpcClient = q.template.templateIpcClient →
        p.template.templateId = q.template.templateId)
    (fun _ _ _ => rfl)
    (h.order.imp fun hbefore heq => absurd heq (hne hbefore))
    (h.order.imp fun hbefore heq => absurd heq.symm (hne hbefore))
  exact hall hp hq hclient

end Retention

/-- A template is destroyed for its id, and the id says which capability it holds. -/
theorem Destruction.clients_nodup (h : Destruction s) (hr : Retention s.shared s.work?) :
    (s.shared.destroyed.map (·.2.templateIpcClient)).Nodup := by
  have hids : (s.shared.destroyed.map (·.2.templateId)).Nodup := by
    have honce := h.once
    rw [State.gone, List.map_append, List.nodup_append, List.map_map] at honce
    exact honce.1
  have hpublished : ∀ e ∈ s.shared.destroyed, ∃ p ∈ s.shared.published, p.template = e.2.unretired :=
    fun e he => h.published e.2 (List.mem_append_left _ (List.mem_map_of_mem he))
  rw [List.Nodup, List.pairwise_map] at hids ⊢
  refine hids.imp_of_mem ?_
  intro e f he hf hne hsame
  obtain ⟨p, hp, hpe⟩ := hpublished e he
  obtain ⟨q, hq, hqf⟩ := hpublished f hf
  refine hne ?_
  have hid := hr.id_of_client hp hq (by rw [hpe, hqf]; exact hsame)
  rw [hpe, hqf] at hid
  exact hid

/-- What `BitcoinCoreSv2TDP` promises about the templates that it keeps, whatever the tasks have done:
    the future template, the live templates, the deadlines, the monitor's template, destruction, and
    the answers to requests. -/
theorem templates_retained (maxSameTipTemplates : Option Nat) (es : List State.Event) :
    let s := State.after maxSameTipTemplates es
    let d := s.shared
    (∀ t, d.futureTemplate = some t →
      t.retireAt = none ∧ d.retainedTemplates.lookup t.templateId = none) ∧
    (d.liveTemplateIds.length ≤ Shared.retention maxSameTipTemplates ∧
      d.liveTemplateIds <:+ refreshIds d.published ∧
      ∀ id t, d.retainedTemplates.lookup id = some t → t.retireAt = none →
        t.templateId = id ∧ d.currentPrevHash = some t.prevHash ∧
          (d.globalCancelled = false →
            t.templateIpcClient.request + 1 = d.createNewBlockRequests.length)) ∧
    (∀ e id t retireAt, d.retainedTemplates.lookup id = some t → t.retireAt = some retireAt →
      (s.step e).shared.retainedTemplates.lookup id = some t ∨
        (s.step e).shared.retainedTemplates.lookup id = none ∧ retireAt ≤ d.now) ∧
    (∀ m ∈ s.monitors, ∀ c, m.state = .waiting c →
      (d.globalCancelled = false → ∃ t, d.Held t ∧ t.templateIpcClient = c ∧ t.retireAt = none) ∧
      ∀ e, (s.step e).shared.published = d.published) ∧
    ((d.destroyed.map (·.2.templateIpcClient)).Nodup ∧
      (∀ e ∈ d.destroyed, ∃ retireAt, e.2.retireAt = some retireAt ∧ retireAt ≤ e.1) ∧
      ∀ e ∈ d.destroyed, ∀ t, d.Held t → t.templateIpcClient ≠ e.2.templateIpcClient) ∧
    (∀ id,
      ((∃ t, d.requestedTemplate id = .ok t) ↔
        ∃ t, (d.Held t ∧ t.templateId = id) ∧ t.retireAt = none) ∧
      (d.requestedTemplate id = .error .staleTemplateId ↔
        ∃ t, (d.Held t ∧ t.templateId = id) ∧ t.retireAt ≠ none) ∧
      (d.requestedTemplate id = .error .templateIdNotFound ↔
        ∀ t, ¬ (d.Held t ∧ t.templateId = id)) ∧
      (s.incoming = .idle → d.globalCancelled = false →
        (s.step (.incoming (.recv (.requestTransactionData id)))).incoming =
          match d.requestedTemplate id with
          | .ok t => .fetchingTxData t
          | .error code => .responding (.requestTransactionDataError id code))) ∧
    ∀ r, .response r ∈ d.outgoing → Asked maxSameTipTemplates es r := by
  intro s d
  have htasks := tasks_after maxSameTipTemplates es
  obtain ⟨hr, hdestruction⟩ := retention_after maxSameTipTemplates es
  refine ⟨hr.future, ⟨?_, hr.liveTemplateIds_suffix, ?_⟩, ?_, ?_, ⟨hdestruction.clients_nodup hr, ?_, ?_⟩,
    ?_, ?_⟩
  · rw [← maxSameTipTemplates_after maxSameTipTemplates es]
    exact hr.liveTemplateIds_length
  · intro id t ht hlive
    exact ⟨hr.keyed id t ht, hr.current t (Or.inr ⟨id, ht⟩) hlive⟩
  · intro e id t retireAt ht hretired
    exact hr.deadline (htasks.step_sound e).1 ht hretired
  · intro m hm c hwaiting
    refine ⟨?_, ?_⟩
    · intro hactive
      have hnewest := htasks.monitorNewest m hm c (by rw [hwaiting]; rfl)
      obtain ⟨p, hp, rfl⟩ := Option.map_eq_some_iff.mp hnewest.client
      obtain ⟨hheld, hlive⟩ := (lastLive_after maxSameTipTemplates es p hp).resolve_left
        (hnewest.uncleared hactive)
      exact ⟨p.template, hheld, rfl, hlive⟩
    · intro e
      have hsound := (htasks.step_sound e).1
      rw [htasks.idle_of_waiting hm hwaiting] at hsound
      exact published_of_idle hsound
  · exact fun e he => Retention.isDue_eq_true.mp (hdestruction.inTime e he)
  · intro e he t ht hsame
    have hgone : e.2 ∈ State.gone s := List.mem_append_left _ (List.mem_map_of_mem he)
    obtain ⟨p, hp, hpe⟩ := hdestruction.published e.2 hgone
    obtain ⟨q, hq, hqt⟩ := hr.held t ht
    have hid := hr.id_of_client hq hp (by rw [hpe, hqt]; exact hsame)
    rw [hpe, hqt] at hid
    exact hdestruction.unheld e.2 hgone t ht hid
  · intro id
    refine ⟨?_, hr.requestedTemplate_eq_stale, hr.requestedTemplate_eq_notFound, ?_⟩
    · exact exists_congr fun t => hr.requestedTemplate_eq_ok
    · intro hidle hactive
      have hactive' : s.shared.globalCancelled = false := hactive
      simp only [State.step, State.stepIncoming, hidle, State.handleMessage, hactive',
        Bool.false_eq_true, if_false]
      dsimp only [d]
      cases s.shared.requestedTemplate id <;> rfl
  · intro r hmem
    exact (answering_after maxSameTipTemplates es).sent r (List.mem_filterMap.mpr ⟨_, hmem, rfl⟩)

end Sv2Apps.BitcoinCore.TemplateDistribution
