/-
  BitcoinCore/TemplateTasks.lean
  ==============================
  **The tasks of the template distribution** — at most one of them is publishing at any time, and what
  one step of any task does to the state that they share (`Effect`).

  A monitor is spawned when the one before it has ended: the handler of constraints takes its handle
  and joins it.  Only after the global token is cancelled can the handle be gone, taken by the
  shutdown; a bootstrap that begins then gets no further than `createNewBlock`.
-/
import Sv2Apps.BitcoinCore.TemplateDistribution

namespace Sv2Apps.BitcoinCore.TemplateDistribution

open Bitcoin

variable {s s' : State} {d d' : Shared}

/-! ## Who is publishing -/

def Work.client : Work → BlockTemplate
  | .fetch c _ | .sendNewTemplate c _ _ | .sendSetNewPrevHash c _ => c

def Work.isFetch : Work → Bool
  | .fetch _ _ => true
  | _ => false

/-- The template that is stored already. -/
def Work.stored? : Work → Option BlockTemplate
  | .fetch _ _ => none
  | .sendNewTemplate c _ _ | .sendSetNewPrevHash c _ => some c

def Bootstrap.work? : Bootstrap → Option Work
  | .work w => some w
  | _ => none

/-- No template has been stored by this bootstrap yet. -/
def Bootstrap.preparing : Bootstrap → Bool
  | .work w => w.isFetch
  | _ => true

def RunTask.bootstrap? : RunTask → Option Bootstrap
  | .bootstrapping b => some b
  | _ => none

def IncomingTask.bootstrap? : IncomingTask → Option Bootstrap
  | .bootstrapping b => some b
  | _ => none

theorem RunTask.not_bootstrapping {r : RunTask} (h : r.bootstrap? = none) :
    ¬∃ b, r = .bootstrapping b := by
  rintro ⟨b, rfl⟩
  cases h

theorem IncomingTask.not_bootstrapping {i : IncomingTask} (h : i.bootstrap? = none) :
    ¬∃ b, i = .bootstrapping b := by
  rintro ⟨b, rfl⟩
  cases h

/-- The task neither publishes nor waits for a monitor. -/
def IncomingTask.calm : IncomingTask → Bool
  | .idle | .fetchingTxData _ | .responding _ | .submitting _ | .exited => true
  | .notSpawned | .joining _ _ | .bootstrapping _ => false

def MonitorState.work? : MonitorState → Option Work
  | .work w => some w
  | _ => none

namespace State

/-- The bootstrap in progress: the first one, or that of new constraints. -/
def bootstrap? (s : State) : Option Bootstrap := s.run.bootstrap?.or s.incoming.bootstrap?

theorem not_bootstrapping {s : State} (h : s.bootstrap? = none) :
    (¬∃ b, s.run = .bootstrapping b) ∧ ¬∃ b, s.incoming = .bootstrapping b := by
  obtain ⟨hrun, hincoming⟩ := Option.or_eq_none_iff.mp h
  exact ⟨RunTask.not_bootstrapping hrun, IncomingTask.not_bootstrapping hincoming⟩

def monitorState? (s : State) : Option MonitorState := s.monitors.head?.map (·.state)

/-- What is being published. -/
def work? (s : State) : Option Work :=
  (s.bootstrap?.bind (·.work?)).or (s.monitorState?.bind (·.work?))

end State

/-! ## What a step does -/

/-- Nothing is live: everything retained has a deadline, and there is no future template. -/
def Shared.Cleared (d : Shared) : Prop := d.futureTemplate = none ∧ d.refreshes = []

/-- A bootstrap that has stored nothing has nothing beside it, unless it has not been given its
    template when the token is cancelled. -/
def Bootstrap.Prepared (d : Shared) (b : Bootstrap) : Prop :=
  b.preparing = true → (b.work? = none → d.globalCancelled = false) → d.Cleared

/-- How one step changes the shared state and the work in progress.  Only the task that retires
    templates takes them out and destroys them. -/
inductive Effect (retiring : Bool) : Shared → Option Work → Shared → Option Work → Prop
  | quiet (d : Shared) (w : Option Work) (cancelled : Bool) (tokens : List Nat) :
      Effect retiring d w
        { d with globalCancelled := d.globalCancelled || cancelled, cancelledTokens := tokens } w
  | abandon (d : Shared) (w : Option Work) : Effect retiring d w d.cancel none
  | tick (d : Shared) (w : Option Work) (elapsed : Nat) :
      Effect retiring d w { d with now := d.now + elapsed } w
  | issue (d : Shared) (w : Option Work) (h : d.globalCancelled = true) :
      Effect retiring d w { d with issued := d.issued + 1 } w
  | fetch (d : Shared) (request : Nat) (h : d.globalCancelled = false)
      (hrequest : request + 1 = d.createNewBlockRequests.length) :
      Effect retiring d none
        { d with issued := d.issued + 1, templateIdFactory := d.templateIdFactory + 1 }
        (some (.fetch ⟨d.issued, request⟩ d.templateIdFactory))
  | firstRequest (d : Shared) (c : CoinbaseOutputConstraints)
      (h : d.createNewBlockRequests = []) :
      Effect retiring d none { d with createNewBlockRequests := [c.options] } none
  | rotate (d : Shared) (w : Option Work) (c : CoinbaseOutputConstraints) (tokens : List Nat)
      (h : w = none ∨ d.globalCancelled = true) :
      Effect retiring d w ({ d with cancelledTokens := tokens }.retireAllTemplates.beginBootstrap c).1 w
  | refresh (d d' : Shared) (c : BlockTemplate) (id : TemplateId) (f : Fetched) (p : Publication)
      (hrequest : d.globalCancelled = false → c.request + 1 = d.createNewBlockRequests.length)
      (htip : d.currentPrevHash = some (TemplateData.ofFetched id c f).prevHash)
      (hlive : d.globalCancelled = false → ¬ d.Cleared)
      (hpublish : d.publishTemplate (.ofFetched id c f) false false = some (d', p)) :
      Effect retiring d (some (.fetch c id)) d' (some (.sendNewTemplate c p false))
  | replace (d d₁ d' : Shared) (c : BlockTemplate) (id : TemplateId) (f : Fetched) (p : Publication)
      (hrequest : d.globalCancelled = false → c.request + 1 = d.createNewBlockRequests.length)
      (hcleared : d₁ = d.retireAllTemplates ∨ d₁ = d ∧ d.Cleared)
      (hpublish : d₁.publishTemplate (.ofFetched id c f) true true = some (d', p)) :
      Effect retiring d (some (.fetch c id)) d' (some (.sendNewTemplate c p true))
  | unpublishable (d : Shared) (w : Work) :
      Effect retiring d (some w) d.retireAllTemplates.cancel none
  | sendFuture (d : Shared) (c : BlockTemplate) (p : Publication) :
      Effect retiring d (some (.sendNewTemplate c p true)) (d.send (.newTemplate p))
        (some (.sendSetNewPrevHash c p))
  | sendRefresh (d : Shared) (c : BlockTemplate) (p : Publication) :
      Effect retiring d (some (.sendNewTemplate c p false)) ((d.send (.newTemplate p)).finish c) none
  | sendSetNewPrevHash (d : Shared) (c : BlockTemplate) (p : Publication) :
      Effect retiring d (some (.sendSetNewPrevHash c p))
        ((d.send (.setNewPrevHash p.template.getSetNewPrevHashMessage)).finish c) none
  | respond (d : Shared) (w : Option Work) (r : Response) : Effect retiring d w (d.send (.response r)) w
  | destroy (d : Shared) (w : Option Work) (destroyed : List (Instant × TemplateData))
      (h : retiring = true) :
      Effect retiring d w { d with destroyed := destroyed } w
  | sweep (d : Shared) (w : Option Work) (destroyed : List (Instant × TemplateData))
      (h : retiring = true) :
      Effect retiring d w { d.extractDue.1 with destroyed := destroyed } w

theorem Shared.cancel_of_cancelled (h : d.globalCancelled = true) : d.cancel = d := by
  unfold Shared.cancel
  rw [← h]

namespace Effect

variable {retiring : Bool} {w w' : Option Work}

theorem refl (d : Shared) (w : Option Work) : Effect retiring d w d w := by
  have h : Effect retiring d w _ w := quiet d w false d.cancelledTokens
  rwa [Bool.or_false] at h

theorem cancel (d : Shared) (w : Option Work) : Effect retiring d w d.cancel w := by
  have h : Effect retiring d w _ w := quiet d w true d.cancelledTokens
  rwa [Bool.or_true] at h

/-- The work can be dropped once the token is cancelled. -/
theorem drop (h : d.globalCancelled = true) (w : Option Work) : Effect retiring d w d none := by
  have habandon : Effect retiring d w d.cancel none := abandon d w
  rwa [Shared.cancel_of_cancelled h] at habandon

end Effect

/-! ## Publishing -/

theorem Shared.retireTemplatesBeyondCap_eq (d : Shared) :
    d.retireTemplatesBeyondCap =
      { d with retainedTemplates := d.retireTemplatesBeyondCap.retainedTemplates } := by
  unfold Shared.retireTemplatesBeyondCap
  dsimp only
  split
  · rfl
  · split <;> rfl

/-- Everything that `publish_template` has done when it waits for the first message. -/
theorem Shared.publishTemplate_eq_some {t : TemplateData} {future announce : Bool} {p : Publication}
    (h : d.publishTemplate t future announce = some (d', p)) :
    p.template = t ∧ p.futureTemplate = future ∧
      d' = { d with
        retainedTemplates :=
          (d.storeTemplateData t future).retireTemplatesBeyondCap.retainedTemplates
        futureTemplate := if future then some t else d.futureTemplate
        currentPrevHash := if announce then some t.prevHash else d.currentPrevHash
        published := d.published ++ [p]
        refreshes := if future then d.refreshes else t.templateId :: d.refreshes
        superseding := d.superseding.or (some d.now) } := by
  unfold Shared.publishTemplate at h
  split at h
  · cases h
  · dsimp only at h
    obtain ⟨rfl, rfl⟩ := Prod.mk.inj (Option.some.inj h)
    refine ⟨rfl, rfl, ?_⟩
    rw [Shared.retireTemplatesBeyondCap_eq]
    cases future <;> cases announce <;> rfl

/-- What is kept while something is published. -/
structure Shared.SameFrame (d d' : Shared) : Prop where
  requests : d'.createNewBlockRequests = d.createNewBlockRequests
  cancelled : d'.globalCancelled = d.globalCancelled

theorem Shared.SameFrame.refl (d : Shared) : d.SameFrame d := ⟨rfl, rfl⟩

def Shared.newestClient (d : Shared) : Option BlockTemplate :=
  d.published.getLast?.map (·.template.templateIpcClient)

/-- The template was stored last, and has not been retired with all the others. -/
structure Shared.Newest (d : Shared) (c : BlockTemplate) : Prop where
  client : d.newestClient = some c
  uncleared : d.globalCancelled = false → ¬ d.Cleared

theorem Shared.publishTemplate_newest {t : TemplateData} {future announce : Bool} {p : Publication}
    (h : d.publishTemplate t future announce = some (d', p)) :
    d.SameFrame d' ∧ d'.Newest t.templateIpcClient := by
  obtain ⟨rfl, rfl, rfl⟩ := Shared.publishTemplate_eq_some h
  refine ⟨⟨rfl, rfl⟩, ?_, ?_⟩
  · simp [Shared.newestClient]
  · rintro - ⟨hfuture, hrefreshes⟩
    cases hp : p.futureTemplate with
    | true =>
      rw [hp] at hfuture
      cases hfuture
    | false =>
      rw [hp] at hrefreshes
      cases hrefreshes

/-- The plans that publish what the effects allow. -/
def Allowed (d : Shared) (plan : Shared → TemplateData → Option Plan) : Prop :=
  ∀ t q, plan d t = some q →
    (q.shared = d ∧ q.futureTemplate = false ∧ q.sendSetNewPrevHash = false ∧
      d.currentPrevHash = some t.prevHash ∧ (d.globalCancelled = false → ¬ d.Cleared)) ∨
    q.futureTemplate = true ∧ q.sendSetNewPrevHash = true ∧
      (q.shared = d.retireAllTemplates ∨ q.shared = d ∧ d.Cleared)

theorem planFirst_allowed (h : d.Cleared) : Allowed d planFirst := by
  intro t q hq
  cases hq
  exact Or.inr ⟨rfl, rfl, Or.inr ⟨rfl, h⟩⟩

theorem planNext_allowed (h : d.globalCancelled = false → ¬ d.Cleared) : Allowed d planNext := by
  intro t q hq
  unfold planNext at hq
  split at hq
  · cases hq
  next prevHash hprevHash =>
    split at hq
    · cases hq
      exact Or.inr ⟨rfl, rfl, Or.inl rfl⟩
    next hsame =>
      cases hq
      exact Or.inl ⟨rfl, rfl, rfl, hprevHash.trans (congrArg some (not_not.mp hsame).symm), h⟩

/-- One wait while a template is published. -/
theorem stepWork_effect {plan : Shared → TemplateData → Option Plan} {w : Work} {a : Answer}
    (hplan : w.isFetch = true → Allowed d plan)
    (hrequest : d.globalCancelled = false → w.client.request + 1 = d.createNewBlockRequests.length)
    (hnewest : ∀ c, w.stored? = some c → d.Newest c) {r : Progress Work}
    (h : d.stepWork plan w a = some (d', r)) :
    d.SameFrame d' ∧
      match r with
      | .next w' =>
        Effect false d (some w) d' (some w') ∧ w'.client = w.client ∧ w'.isFetch = false ∧
          d'.Newest w.client
      | .finished c =>
        Effect false d (some w) d' none ∧ c = w.client ∧ d'.currentTemplateIpcClient = some c ∧
          d'.Newest c
      | .failed => Effect false d (some w) d'.cancel none := by
  cases w with
  | fetch c id =>
    cases a with
    | cancelled =>
      dsimp only [Shared.stepWork] at h
      split at h
      · cases h
        exact ⟨.refl d, .abandon d _⟩
      · cases h
    | failed =>
      cases h
      exact ⟨.refl d, .abandon d _⟩
    | fetched f =>
      dsimp only [Shared.stepWork] at h
      split at h
      · cases h
        exact ⟨.refl d, .abandon d _⟩
      next q hq =>
        have hallowed := hplan rfl _ q hq
        obtain ⟨dq, future, announce⟩ := q
        dsimp only at h hallowed
        split at h
        · cases h
          rcases hallowed with ⟨rfl, -, -, -, -⟩ | ⟨-, -, rfl | ⟨rfl, -⟩⟩
          · exact ⟨.refl _, .abandon _ _⟩
          · exact ⟨⟨rfl, rfl⟩, .unpublishable d _⟩
          · exact ⟨.refl _, .abandon _ _⟩
        next d'' p hpublish =>
          cases h
          obtain ⟨hframe, hstored⟩ := Shared.publishTemplate_newest hpublish
          rcases hallowed with ⟨rfl, rfl, rfl, htip, hlive⟩ | ⟨rfl, rfl, hcleared⟩
          · exact ⟨hframe, .refresh _ _ c id f p hrequest htip hlive hpublish, rfl, rfl, hstored⟩
          · refine ⟨?_, .replace d dq _ c id f p hrequest hcleared hpublish, rfl, rfl, hstored⟩
            rcases hcleared with rfl | ⟨rfl, -⟩
            · exact ⟨hframe.requests, hframe.cancelled⟩
            · exact hframe
    | _ => cases h
  | sendNewTemplate c p announce =>
    obtain ⟨hclient, huncleared⟩ := hnewest c rfl
    cases a with
    | failed =>
      cases h
      exact ⟨.refl d, .abandon d _⟩
    | done =>
      cases announce with
      | true =>
        cases h
        exact ⟨⟨rfl, rfl⟩, .sendFuture d c p, rfl, rfl, hclient, huncleared⟩
      | false =>
        cases h
        exact ⟨⟨rfl, rfl⟩, .sendRefresh d c p, rfl, rfl, hclient, huncleared⟩
    | _ => cases h
  | sendSetNewPrevHash c p =>
    obtain ⟨hclient, huncleared⟩ := hnewest c rfl
    cases a with
    | failed =>
      cases h
      exact ⟨.refl d, .abandon d _⟩
    | done =>
      cases h
      exact ⟨⟨rfl, rfl⟩, .sendSetNewPrevHash d c p, rfl, rfl, hclient, huncleared⟩
    | _ => cases h

/-- What steps keep that publish nothing. -/
structure Shared.Keeps (d d' : Shared) : Prop where
  requests : d'.createNewBlockRequests = d.createNewBlockRequests
  current : d'.currentTemplateIpcClient = d.currentTemplateIpcClient
  future : d'.futureTemplate = d.futureTemplate
  refreshes : d'.refreshes = d.refreshes
  published : d'.published = d.published
  cancelled : d.globalCancelled = true → d'.globalCancelled = true

namespace Shared.Keeps

theorem refl (d : Shared) : d.Keeps d := ⟨rfl, rfl, rfl, rfl, rfl, id⟩

theorem cancel (d : Shared) : d.Keeps d.cancel := ⟨rfl, rfl, rfl, rfl, rfl, fun _ => rfl⟩

theorem active (h : d.Keeps d') (hd' : d'.globalCancelled = false) : d.globalCancelled = false := by
  cases hd : d.globalCancelled with
  | false => rfl
  | true =>
    rw [h.cancelled hd] at hd'
    cases hd'

theorem cleared (h : d.Keeps d') (hd : d.Cleared) : d'.Cleared :=
  ⟨h.future.trans hd.1, h.refreshes.trans hd.2⟩

theorem of_cleared (h : d.Keeps d') (hd' : d'.Cleared) : d.Cleared :=
  ⟨h.future.symm.trans hd'.1, h.refreshes.symm.trans hd'.2⟩

theorem newest (h : d.Keeps d') {c : BlockTemplate} (hd : d.Newest c) : d'.Newest c := by
  refine ⟨?_, ?_⟩
  · rw [Shared.newestClient, h.published]
    exact hd.client
  · intro hactive hcleared
    exact hd.uncleared (h.active hactive) (h.of_cleared hcleared)

end Shared.Keeps

theorem Work.client_of_stored {w : Work} {c : BlockTemplate} (h : w.stored? = some c) :
    c = w.client := by
  cases w with
  | fetch _ _ => cases h
  | _ => exact (Option.some.inj h).symm

/-- A capability is handed out. -/
theorem beginFetch_effect {request : Nat}
    (hrequest : d.globalCancelled = false → request + 1 = d.createNewBlockRequests.length)
    {w₀ w : Option Work} (hw₀ : d.globalCancelled = false → w₀ = none)
    (h : d.beginFetch request = (d', w)) :
    d.SameFrame d' ∧ d.Keeps d' ∧
      (w = none ∧ d.globalCancelled = true ∧ Effect false d w₀ d' w₀ ∨
        ∃ w', w = some w' ∧ Effect false d w₀ d' w ∧ w'.client.request = request ∧ w'.stored? = none ∧
          d.globalCancelled = false) := by
  unfold Shared.beginFetch at h
  dsimp only at h
  split at h
  next hcancelled =>
    cases h
    exact ⟨⟨rfl, rfl⟩, ⟨rfl, rfl, rfl, rfl, rfl, id⟩,
      Or.inl ⟨rfl, hcancelled, .issue d w₀ hcancelled⟩⟩
  next hcancelled =>
    rw [Bool.not_eq_true] at hcancelled
    cases h
    rw [hw₀ hcancelled]
    exact ⟨⟨rfl, rfl⟩, ⟨rfl, rfl, rfl, rfl, rfl, id⟩,
      Or.inr ⟨_, rfl, .fetch d request hcancelled (hrequest hcancelled), rfl, rfl, hcancelled⟩⟩

/-- What a bootstrap relies on.  Once the token is cancelled, other work may be in progress until a
    capability is handed out. -/
structure Bootstrap.Ready (d : Shared) (b : Bootstrap) (w₀ : Option Work) : Prop where
  cleared : b.Prepared d
  request : ∀ r, b = .createNewBlock r → r + 1 = d.createNewBlockRequests.length
  work : b.work? = w₀ ∨ b.work? = none ∧ d.globalCancelled = true
  client : d.globalCancelled = false → ∀ w, b.work? = some w →
    w.client.request + 1 = d.createNewBlockRequests.length
  newest : ∀ w c, b.work? = some w → w.stored? = some c → d.Newest c

/-- One wait of a bootstrap. -/
theorem stepBootstrap_effect {b : Bootstrap} {a : Answer} {w₀ : Option Work}
    (hb : b.Ready d w₀)
    {r : Progress Bootstrap} (h : d.stepBootstrap b a = some (d', r)) :
    d.SameFrame d' ∧
      match r with
      | .next b' =>
        Effect false d w₀ d' (b'.work?.or w₀) ∧ b'.Prepared d' ∧
          (∀ r, b' ≠ .createNewBlock r) ∧
          (∀ w', b'.work? = some w' → (∃ w, b.work? = some w ∧ w'.client = w.client) ∨
            w'.client.request + 1 = d.createNewBlockRequests.length) ∧
          (b.work? = none → b'.work?.isSome → d.globalCancelled = false) ∧
          (b'.work? = none → b.work? = none) ∧
          (∀ w c, b'.work? = some w → w.stored? = some c → d'.Newest c) ∧
          (b.work? = none → d.Keeps d')
      | .finished c =>
        Effect false d w₀ d' none ∧ d'.currentTemplateIpcClient = some c ∧ d'.Newest c ∧
          ∃ w, b.work? = some w ∧ c = w.client
      | .failed =>
        Effect false d w₀ d'.cancel (if b.work?.isSome then none else w₀) ∧
          (b.work? = none → d.Keeps d') := by
  obtain ⟨hcleared, hrequest, hw₀, hclient, hnewest⟩ := hb
  cases b with
  | createNewBlock request =>
    cases a with
    | failed =>
      cases h
      exact ⟨.refl d, .cancel d w₀, fun _ => .refl d⟩
    | cancelled =>
      dsimp only [Shared.stepBootstrap] at h
      split at h
      · cases h
        refine ⟨.refl d, .refl d w₀, fun _ => hcleared rfl, nofun, ?_, ?_, fun _ => rfl, ?_,
          fun _ => .refl d⟩
        · intro _ hw
          cases hw
        · intro _ hw
          cases hw
        · intro _ _ hw
          cases hw
      · cases h
    | blockTemplate =>
      have hidle : d.globalCancelled = false → w₀ = none := by
        intro hcancelled
        rcases hw₀ with hw₀ | ⟨-, hcancelled'⟩
        · exact hw₀.symm
        · rw [hcancelled] at hcancelled'
          cases hcancelled'
      dsimp only [Shared.stepBootstrap] at h
      split at h
      next d₁ hfetch =>
        cases h
        obtain ⟨hframe, hkept, ⟨-, hcancelled, heffect⟩ | ⟨w', hw', -, -⟩⟩ :=
          beginFetch_effect (fun _ => hrequest request rfl) hidle hfetch
        · refine ⟨hframe, ?_, fun _ => hkept⟩
          rw [Shared.cancel_of_cancelled (hframe.cancelled.trans hcancelled)]
          exact heffect
        · cases hw'
      next d₁ w hfetch =>
        cases h
        obtain ⟨hframe, hkept, ⟨hw', -, -⟩ | ⟨w', hw', heffect, hclient, hfetching, hactive⟩⟩ :=
          beginFetch_effect (fun _ => hrequest request rfl) hidle hfetch
        · cases hw'
        · cases hw'
          refine ⟨hframe, heffect, fun _ _ => hkept.cleared (hcleared rfl fun _ => hactive), nofun,
            ?_, ?_,
            fun _ => rfl, ?_, fun _ => hkept⟩
          · intro w' hw'
            cases hw'
            exact Or.inr (hclient ▸ hrequest request rfl)
          · intro _ _
            exact hactive
          · intro w' c hw' hc
            cases hw'
            rw [hfetching] at hc
            cases hc
    | _ => cases h
  | interruptRequest =>
    cases a with
    | done =>
      cases h
      exact ⟨.refl d, .cancel d w₀, fun _ => .refl d⟩
    | _ => cases h
  | work w =>
    have hw₀ : w₀ = some w := by
      rcases hw₀ with hw₀ | ⟨hw, -⟩
      · exact hw₀.symm
      · cases hw
    subst hw₀
    have hplan := fun hw => planFirst_allowed (hcleared hw (fun hnone => nomatch hnone))
    have hw := fun hactive => hclient hactive w rfl
    have hstored := fun c => hnewest w c rfl
    dsimp only [Shared.stepBootstrap] at h
    split at h
    · cases h
    next d₁ w' hstep =>
      cases h
      obtain ⟨hframe, heffect, hsame, hfetch, hnew⟩ := stepWork_effect hplan hw hstored hstep
      refine ⟨hframe, heffect, ?_, nofun, ?_, (fun hw => nomatch hw), (fun hw => nomatch hw), ?_,
        (fun hw => nomatch hw)⟩
      · intro hpreparing
        rw [Bootstrap.preparing, hfetch] at hpreparing
        cases hpreparing
      · intro w'' hw''
        cases hw''
        exact Or.inl ⟨w, rfl, hsame⟩
      · intro w'' c hw'' hc
        cases hw''
        rw [Work.client_of_stored hc, hsame]
        exact hnew
    next d₁ c hstep =>
      cases h
      obtain ⟨hframe, heffect, hsame, hcurrent, hnew⟩ := stepWork_effect hplan hw hstored hstep
      exact ⟨hframe, heffect, hcurrent, hnew, w, rfl, hsame⟩
    next d₁ hstep =>
      cases h
      obtain ⟨hframe, heffect⟩ := stepWork_effect hplan hw hstored hstep
      exact ⟨hframe, heffect, nofun⟩

/-! ## Who waits for whom -/

/-- The template that a monitor goes on from. -/
def MonitorState.client? (d : Shared) : MonitorState → Option BlockTemplate
  | .starting => d.currentTemplateIpcClient
  | .waiting c => some c
  | .interrupting => none
  | .work w => some w.client

/-- The template that a monitor has stored and not gone on from. -/
def MonitorState.newest? (d : Shared) : MonitorState → Option BlockTemplate
  | .starting => d.currentTemplateIpcClient
  | .waiting c => some c
  | .interrupting => none
  | .work w => w.stored?

structure Tasks (s : State) : Prop where
  /-- The other tasks are spawned by the first bootstrap. -/
  booting : (s.run = .awaitingConstraints ∨ ∃ b, s.run = .bootstrapping b) →
    s.incoming = .notSpawned ∧ s.monitors = []
  awaiting : s.run = .awaitingConstraints →
    s.shared.createNewBlockRequests = [] ∧ s.shared.Cleared
  oneMonitor : s.monitors.length ≤ 1
  /-- Somebody can join the monitor, unless the shutdown took its handle. -/
  handle : ∀ m ∈ s.monitors, s.monitorHandle = some m.id ∨
    (∃ c, s.incoming = .joining m.id c) ∨ s.shared.globalCancelled = true
  taken : ((∃ id c, s.incoming = .joining id c) ∨ ∃ b, s.incoming = .bootstrapping b) →
    s.monitorHandle = none
  alone : ∀ b, s.bootstrap? = some b →
    s.monitors = [] ∨ b.work? = none ∧ s.shared.globalCancelled = true
  preparing : ∀ b, s.bootstrap? = some b → b.Prepared s.shared
  request : ∀ r, s.bootstrap? = some (.createNewBlock r) →
    r + 1 = s.shared.createNewBlockRequests.length
  /-- Everything goes on from the newest `createNewBlock`. -/
  bootstrapClient : s.shared.globalCancelled = false → ∀ b w, s.bootstrap? = some b →
    b.work? = some w → w.client.request + 1 = s.shared.createNewBlockRequests.length
  monitorClient : s.shared.globalCancelled = false → ∀ m ∈ s.monitors, ∀ c,
    m.state.client? s.shared = some c → c.request + 1 = s.shared.createNewBlockRequests.length
  bootstrapNewest : ∀ b w c, s.bootstrap? = some b → b.work? = some w → w.stored? = some c →
    s.shared.Newest c
  monitorNewest : ∀ m ∈ s.monitors, ∀ c, m.state.newest? s.shared = some c → s.shared.Newest c
  uncleared : s.shared.globalCancelled = false → s.monitors ≠ [] → ¬ s.shared.Cleared

theorem tasks_new (maxSameTipTemplates : Option Nat) : Tasks (.new maxSameTipTemplates) where
  booting _ := ⟨rfl, rfl⟩
  awaiting _ := ⟨rfl, rfl, rfl⟩
  oneMonitor := Nat.zero_le _
  handle _ hm := (List.not_mem_nil hm).elim
  taken _ := rfl
  alone _ hb := (Option.some_ne_none _ hb.symm).elim
  preparing _ hb := (Option.some_ne_none _ hb.symm).elim
  request _ hb := (Option.some_ne_none _ hb.symm).elim
  bootstrapClient _ _ _ hb := (Option.some_ne_none _ hb.symm).elim
  monitorClient _ _ hm := (List.not_mem_nil hm).elim
  bootstrapNewest _ _ _ hb := (Option.some_ne_none _ hb.symm).elim
  monitorNewest _ hm := (List.not_mem_nil hm).elim
  uncleared _ hmonitors := (hmonitors rfl).elim

namespace Tasks

theorem client?_keeps (hd : d.Keeps d') (st : MonitorState) : st.client? d' = st.client? d := by
  cases st with
  | starting => exact hd.current
  | _ => rfl

theorem newest?_keeps (hd : d.Keeps d') (st : MonitorState) : st.newest? d' = st.newest? d := by
  cases st with
  | starting => exact hd.current
  | _ => rfl

theorem keeps (h : Tasks s) (hd : s.shared.Keeps s'.shared) (hrun : s'.run = s.run)
    (hincoming : s'.incoming = s.incoming) (hmonitors : s'.monitors = s.monitors)
    (hhandle : s'.monitorHandle = s.monitorHandle) : Tasks s' := by
  have hboot : s'.bootstrap? = s.bootstrap? := by
    rw [State.bootstrap?, hrun, hincoming]
    rfl
  constructor
  · rw [hrun, hincoming, hmonitors]
    exact h.booting
  · rw [hrun, hd.requests]
    intro hawaiting
    exact ⟨(h.awaiting hawaiting).1, hd.cleared (h.awaiting hawaiting).2⟩
  · rw [hmonitors]
    exact h.oneMonitor
  · rw [hmonitors, hhandle, hincoming]
    intro m hm
    exact (h.handle m hm).imp_right fun h => h.imp_right hd.cancelled
  · rw [hhandle, hincoming]
    exact h.taken
  · rw [hboot, hmonitors]
    intro b hb
    exact (h.alone b hb).imp_right fun h => ⟨h.1, hd.cancelled h.2⟩
  · rw [hboot]
    intro b hb hpreparing hactive
    exact hd.cleared (h.preparing b hb hpreparing fun hw => hd.active (hactive hw))
  · rw [hboot, hd.requests]
    exact h.request
  · rw [hboot, hd.requests]
    intro hactive
    exact h.bootstrapClient (hd.active hactive)
  · rw [hmonitors, hd.requests]
    intro hactive m hm c hc
    rw [client?_keeps hd] at hc
    exact h.monitorClient (hd.active hactive) m hm c hc
  · rw [hboot]
    intro b w c hb hw hc
    exact hd.newest (h.bootstrapNewest b w c hb hw hc)
  · rw [hmonitors]
    intro m hm c hc
    rw [newest?_keeps hd] at hc
    exact hd.newest (h.monitorNewest m hm c hc)
  · rw [hmonitors]
    intro hactive hsome hcleared
    exact h.uncleared (hd.active hactive) hsome (hd.of_cleared hcleared)

end Tasks

/-! ## One step of each task -/

def State.Event.isRetirement : State.Event → Bool
  | .retirement _ => true
  | _ => false

/-- A step whose effect is known keeps the invariant. -/
def Sound (retiring : Bool) (s s' : State) : Prop :=
  Effect retiring s.shared s.work? s'.shared s'.work? ∧ Tasks s'

namespace Tasks

theorem unchanged {retiring : Bool} (h : Tasks s) : Sound retiring s s := ⟨.refl _ _, h⟩

/-! ### Retirement -/

/-- The tasks that publish are left alone. -/
theorem keeps_sound {retiring : Bool} (h : Tasks s) (hd : s.shared.Keeps s'.shared) (hrun : s'.run = s.run)
    (hincoming : s'.incoming = s.incoming) (hmonitors : s'.monitors = s.monitors)
    (hhandle : s'.monitorHandle = s.monitorHandle)
    (heffect : Effect retiring s.shared s.work? s'.shared s.work?) : Sound retiring s s' := by
  refine ⟨?_, h.keeps hd hrun hincoming hmonitors hhandle⟩
  have hwork : s'.work? = s.work? := by
    simp only [State.work?, State.bootstrap?, State.monitorState?, hrun, hincoming, hmonitors]
  rwa [hwork]

theorem destroyNext_sound (h : Tasks s) {d : Shared} (hd : s.shared.Keeps d)
    (heffect : ∀ destroyed, Effect true s.shared s.work? { d with destroyed := destroyed } s.work?)
    (due : List TemplateData) : Sound true s ({ s with shared := d }.destroyNext due) := by
  cases due with
  | nil => exact h.keeps_sound hd rfl rfl rfl rfl (heffect d.destroyed)
  | cons t due =>
    dsimp only [State.destroyNext]
    split
    · exact h.keeps_sound hd rfl rfl rfl rfl (heffect d.destroyed)
    · exact h.keeps_sound
        ⟨hd.requests, hd.current, hd.future, hd.refreshes, hd.published, hd.cancelled⟩ rfl rfl rfl
        rfl (heffect _)

theorem stepRetirement_sound (h : Tasks s) (a : Answer) : Sound true s (s.stepRetirement a) := by
  have hquiet : ∀ r, Sound true s { s with retirement := r } := by
    intro r
    exact h.keeps_sound (.refl _) rfl rfl rfl rfl (.refl _ _)
  have hcancel : ∀ r, Sound true s { s with shared := s.shared.cancel, retirement := r } := by
    intro r
    exact h.keeps_sound (.cancel _) rfl rfl rfl rfl (.cancel _ _)
  unfold State.stepRetirement
  split
  · split
    · exact hquiet _
    · exact h.unchanged
  · exact hcancel _
  · exact hquiet _
  · split
    · exact hquiet _
    · exact h.unchanged
  · exact h.destroyNext_sound (d := s.shared.extractDue.1)
      ⟨rfl, rfl, rfl, rfl, rfl, id⟩
      (fun destroyed => .sweep s.shared s.work? destroyed rfl) _
  · split
    · exact hquiet _
    · exact h.unchanged
  · exact hcancel _
  · exact h.destroyNext_sound (.refl _) (fun destroyed => .destroy s.shared s.work? destroyed rfl) _
  · exact h.unchanged

/-! ### Incoming messages -/

theorem run_of_spawned (h : Tasks s) (hincoming : s.incoming ≠ .notSpawned) :
    s.run ≠ .awaitingConstraints ∧ s.run.bootstrap? = none := by
  refine ⟨?_, ?_⟩
  · intro hrun
    exact hincoming (h.booting (Or.inl hrun)).1
  · cases hrun : s.run with
    | bootstrapping b => exact absurd (h.booting (Or.inr ⟨b, hrun⟩)).1 hincoming
    | _ => rfl

theorem spawned_of_calm (hcalm : s.incoming.calm = true) :
    s.incoming ≠ .notSpawned ∧ s.incoming.bootstrap? = none := by
  cases hincoming : s.incoming with
  | notSpawned | joining _ _ | bootstrapping _ =>
    rw [hincoming] at hcalm
    cases hcalm
  | _ => exact ⟨nofun, rfl⟩

theorem calm (h : Tasks s) (hcalm : s.incoming.calm = true) {d : Shared}
    {i : IncomingTask} (hi : i.calm = true) (hd : s.shared.Keeps d)
    (heffect : Effect false s.shared s.work? d s.work?) :
    Sound false s { s with shared := d, incoming := i } := by
  obtain ⟨hspawned, hnone⟩ := spawned_of_calm hcalm
  obtain ⟨hrun, hrunBoot⟩ := h.run_of_spawned hspawned
  have hboot : ({ s with shared := d, incoming := i } : State).bootstrap? = none := by
    unfold State.bootstrap?
    rw [hrunBoot, Option.none_or]
    exact (spawned_of_calm (s := { s with incoming := i }) hi).2
  have hwork : ({ s with shared := d, incoming := i } : State).work? = s.work? := by
    unfold State.work?
    rw [hboot, State.bootstrap?, hrunBoot, hnone]
    rfl
  refine ⟨by rw [hwork]; exact heffect, ?_⟩
  constructor
  · rintro (hawaiting | hb)
    · exact absurd hawaiting hrun
    · exact absurd hb (RunTask.not_bootstrapping hrunBoot)
  · intro hawaiting
    exact absurd hawaiting hrun
  · exact h.oneMonitor
  · intro m hm
    rcases h.handle m hm with hhandle | ⟨c, hjoining⟩ | hcancelled
    · exact Or.inl hhandle
    · rw [hjoining] at hcalm
      cases hcalm
    · exact Or.inr (Or.inr (hd.cancelled hcancelled))
  · rintro (⟨id, c, hjoining⟩ | ⟨b, hb⟩)
    · dsimp only at hjoining
      rw [hjoining] at hi
      cases hi
    · dsimp only at hb
      rw [hb] at hi
      cases hi
  · rw [hboot]
    intro _ hb
    cases hb
  · rw [hboot]
    intro _ hb
    cases hb
  · rw [hboot]
    intro _ hb
    cases hb
  · rw [hboot]
    intro _ _ _ hb
    cases hb
  · intro hactive m hm c hc
    rw [client?_keeps hd] at hc
    rw [hd.requests]
    exact h.monitorClient (hd.active hactive) m hm c hc
  · rw [hboot]
    intro _ _ _ hb
    cases hb
  · intro m hm c hc
    rw [newest?_keeps hd] at hc
    exact hd.newest (h.monitorNewest m hm c hc)
  · intro hactive hsome hcleared
    exact h.uncleared (hd.active hactive) hsome (hd.of_cleared hcleared)

/-- The old monitor has ended, or nothing can be published any more. -/
theorem rotate_sound (h : Tasks s) (hspawned : s.incoming ≠ .notSpawned)
    (hnone : s.incoming.bootstrap? = none) (hhandle : s.monitorHandle = none)
    (halone : s.monitors = [] ∨ s.shared.globalCancelled = true) (c : CoinbaseOutputConstraints)
    (tokens : List Nat) :
    Sound false s ({ s with shared := { s.shared with cancelledTokens := tokens } }.rotate c) := by
  generalize hs' : ({ s with shared := { s.shared with cancelledTokens := tokens } }.rotate c) = s'
  obtain ⟨hrun, hrunBoot⟩ := h.run_of_spawned hspawned
  have hboot : s'.bootstrap? = some (.createNewBlock s.shared.createNewBlockRequests.length) := by
    rw [← hs', State.bootstrap?, State.rotate]
    dsimp only
    rw [hrunBoot]
    rfl
  have hmonitors' : s'.monitors = s.monitors := by rw [← hs']; rfl
  have hrun' : s'.run = s.run := by rw [← hs']; rfl
  have hshared' : s'.shared =
      ({ s.shared with cancelledTokens := tokens }.retireAllTemplates.beginBootstrap c).1 := by
    rw [← hs']
    rfl
  have hwork : s'.work? = s.work? := by
    unfold State.work? State.monitorState?
    rw [hboot, hmonitors', State.bootstrap?, hrunBoot, hnone]
    rfl
  refine ⟨?_, ?_⟩
  · rw [hwork, hshared']
    refine .rotate s.shared s.work? c tokens ?_
    refine halone.imp_left ?_
    intro hmonitors
    simp [State.work?, State.bootstrap?, State.monitorState?, hrunBoot, hnone, hmonitors]
  constructor
  · rw [hrun']
    rintro (hawaiting | hb)
    · exact absurd hawaiting hrun
    · exact absurd hb (RunTask.not_bootstrapping hrunBoot)
  · rw [hrun']
    intro hawaiting
    exact absurd hawaiting hrun
  · rw [hmonitors']
    exact h.oneMonitor
  · rw [hmonitors', hshared']
    intro m hm
    rcases halone with hmonitors | hcancelled
    · rw [hmonitors] at hm
      cases hm
    · exact Or.inr (Or.inr hcancelled)
  · intro _
    rw [← hs']
    exact hhandle
  · rw [hboot, hmonitors', hshared']
    intro b hb
    cases hb
    exact halone.imp_right fun hcancelled => ⟨rfl, hcancelled⟩
  · rw [hshared']
    intro _ _ _ _
    exact ⟨rfl, rfl⟩
  · rw [hboot, hshared']
    intro r hr
    cases hr
    simp [Shared.beginBootstrap, Shared.retireAllTemplates, Shared.supersede]
  · rw [hboot]
    intro _ b w hb hw
    cases hb
    cases hw
  · rw [hmonitors', hshared']
    intro hactive m hm
    rcases halone with hmonitors | hcancelled
    · rw [hmonitors] at hm
      cases hm
    · exact absurd (hcancelled.symm.trans hactive) nofun
  · rw [hboot]
    intro b w c' hb hw
    cases hb
    cases hw
  · rw [hmonitors', hshared']
    intro m hm c' hc'
    rcases halone with hmonitors | hcancelled
    · rw [hmonitors] at hm
      cases hm
    · refine ⟨(h.monitorNewest m hm c' ?_).client, ?_⟩
      · exact hc'
      · exact fun hactive => absurd (hcancelled.symm.trans hactive) nofun
  · rw [hmonitors', hshared']
    intro hactive hsome
    rcases halone with hmonitors | hcancelled
    · exact absurd hmonitors hsome
    · exact absurd (hcancelled.symm.trans hactive) nofun

/-! ### Bootstraps -/

/-- The work of a bootstrap is all there is, unless it cannot get anywhere. -/
theorem bootstrap_work (h : Tasks s) {b : Bootstrap} (hb : s.bootstrap? = some b) :
    b.work? = s.work? ∨ b.work? = none ∧ s.shared.globalCancelled = true := by
  refine (h.alone b hb).imp_left ?_
  intro hmonitors
  simp [State.work?, State.monitorState?, hb, hmonitors]

theorem bootstrap_ready (h : Tasks s) {b : Bootstrap} (hb : s.bootstrap? = some b) :
    b.Ready s.shared s.work? where
  cleared := h.preparing b hb
  request r hr := h.request r (hr ▸ hb)
  work := h.bootstrap_work hb
  client hactive w := h.bootstrapClient hactive b w hb
  newest w c := h.bootstrapNewest b w c hb

/-- Around a bootstrap: nothing else has changed. -/
structure Around (s s' : State) : Prop where
  monitors : s'.monitors = s.monitors
  handle : s'.monitorHandle = s.monitorHandle
  booting : (∃ b, s'.run = .bootstrapping b) → s'.incoming = .notSpawned ∧ s'.monitors = []
  awaiting : s'.run ≠ .awaitingConstraints
  joining : ∀ id c, s.incoming ≠ .joining id c ∧ s'.incoming ≠ .joining id c
  taken : (∃ b, s'.incoming = .bootstrapping b) → s'.monitorHandle = none

theorem bootstrap_next (h : Tasks s) {b b' : Bootstrap} (hb : s.bootstrap? = some b) {a : Answer}
    (hstep : s.shared.stepBootstrap b a = some (d', .next b')) (hs : Around s s')
    (hshared : s'.shared = d') (hb' : s'.bootstrap? = some b') : Sound false s s' := by
  subst hshared
  obtain ⟨hframe, heffect, hcleared, hrequest, hclient, hactive, hidle, hnewest, hkeeps⟩ :=
    stepBootstrap_effect (h.bootstrap_ready hb) hstep
  have hmonitors : s'.monitors = [] ∨ b'.work? = none ∧ s'.shared.globalCancelled = true := by
    rw [hs.monitors, hframe.cancelled]
    rcases h.alone b hb with halone | ⟨hnone, hcancelled⟩
    · exact Or.inl halone
    · refine Or.inr ⟨?_, hcancelled⟩
      cases hwork : b'.work? with
      | none => rfl
      | some w =>
        rw [hactive hnone (by rw [hwork]; rfl)] at hcancelled
        cases hcancelled
  have hwork : s'.work? = b'.work?.or s.work? := by
    simp only [State.work?, State.monitorState?, hb, hb', hs.monitors, Option.bind_some]
    cases hb'work : b'.work? with
    | some w => rfl
    | none => rw [hidle hb'work]; rfl
  refine ⟨by rw [hwork]; exact heffect, ?_⟩
  constructor
  · rintro (hawaiting | hbooting)
    · exact absurd hawaiting hs.awaiting
    · exact hs.booting hbooting
  · intro hawaiting
    exact absurd hawaiting hs.awaiting
  · rw [hs.monitors]
    exact h.oneMonitor
  · rw [hs.monitors, hs.handle, hframe.cancelled]
    intro m hm
    rcases h.handle m hm with hhandle | ⟨c, hjoining⟩ | hcancelled
    · exact Or.inl hhandle
    · exact absurd hjoining (hs.joining _ _).1
    · exact Or.inr (Or.inr hcancelled)
  · rintro (⟨id, c, hjoining⟩ | hbootstrapping)
    · exact absurd hjoining (hs.joining id c).2
    · exact hs.taken hbootstrapping
  · rw [hb']
    intro b'' hb''
    cases hb''
    exact hmonitors
  · rw [hb']
    intro b'' hb''
    cases hb''
    exact hcleared
  · rw [hb']
    intro r hr
    exact absurd (Option.some.inj hr) (hrequest r)
  · rw [hb', hframe.requests, hframe.cancelled]
    intro hnot b'' w hb'' hw
    cases hb''
    rcases hclient w hw with ⟨w', hw', hsame⟩ | hnew
    · rw [hsame]
      exact h.bootstrapClient hnot b w' hb hw'
    · exact hnew
  · rw [hs.monitors, hframe.requests, hframe.cancelled]
    intro hnot m hm
    rcases hmonitors with halone | ⟨-, hcancelled⟩
    · rw [hs.monitors] at halone
      rw [halone] at hm
      cases hm
    · rw [hframe.cancelled, hnot] at hcancelled
      cases hcancelled
  · rw [hb']
    intro b'' w c hb'' hw hc
    cases hb''
    exact hnewest w c hw hc
  · rw [hs.monitors]
    intro m hm c hc
    rcases h.alone b hb with halone | ⟨hnone, -⟩
    · rw [halone] at hm
      cases hm
    · rw [newest?_keeps (hkeeps hnone)] at hc
      exact (hkeeps hnone).newest (h.monitorNewest m hm c hc)
  · intro hnot hsome
    rcases hmonitors with halone | ⟨-, hcancelled⟩
    · exact absurd halone hsome
    · exact absurd (hcancelled.symm.trans hnot) nofun

/-- The bootstrap is done, and its monitor is spawned. -/
theorem bootstrap_finished (h : Tasks s) {b : Bootstrap} (hb : s.bootstrap? = some b) {a : Answer}
    {c : BlockTemplate} (hstep : s.shared.stepBootstrap b a = some (d', .finished c))
    (hs : Around s s') (hshared : s'.shared = d') (hb' : s'.bootstrap? = none) :
    Sound false s s'.monitorIpcTemplates := by
  subst hshared
  obtain ⟨hframe, heffect, hcurrent, hnewest, w, hw, hclient⟩ :=
    stepBootstrap_effect (h.bootstrap_ready hb) hstep
  have halone : s'.monitors = [] := by
    rw [hs.monitors]
    rcases h.alone b hb with halone | ⟨hnone, -⟩
    · exact halone
    · rw [hnone] at hw
      cases hw
  have hmonitors : s'.monitorIpcTemplates.monitors = [⟨s'.nextTask, s'.token, .starting⟩] := by
    simp [State.monitorIpcTemplates, halone]
  have hboot : s'.monitorIpcTemplates.bootstrap? = none := hb'
  refine ⟨?_, ?_⟩
  · have hwork : s'.monitorIpcTemplates.work? = none := by
      unfold State.work? State.monitorState?
      rw [hboot, hmonitors]
      rfl
    rw [hwork]
    exact heffect
  constructor
  · rintro (hawaiting | hbooting)
    · exact absurd hawaiting hs.awaiting
    · exact absurd hbooting (State.not_bootstrapping hb').1
  · intro hawaiting
    exact absurd hawaiting hs.awaiting
  · rw [hmonitors]
    exact Nat.le_refl 1
  · rw [hmonitors]
    intro m hm
    rw [List.mem_singleton] at hm
    rw [hm]
    exact Or.inl rfl
  · rintro (⟨id, c', hjoining⟩ | hbootstrapping)
    · exact absurd hjoining (hs.joining id c').2
    · exact absurd hbootstrapping (State.not_bootstrapping hb').2
  · rw [hboot]
    intro _ hb
    cases hb
  · rw [hboot]
    intro _ hb
    cases hb
  · rw [hboot]
    intro _ hb
    cases hb
  · rw [hboot]
    intro _ _ _ hb
    cases hb
  · rw [hmonitors]
    intro hnot m hm c' hc'
    rw [List.mem_singleton] at hm
    subst hm
    have hcurrent' : some c = some c' := hcurrent.symm.trans hc'
    cases hcurrent'
    rw [show s'.monitorIpcTemplates.shared = s'.shared from rfl, hframe.requests, hclient]
    exact h.bootstrapClient (hframe.cancelled ▸ hnot) b w hb hw
  · rw [hboot]
    intro _ _ _ hb
    cases hb
  · rw [hmonitors]
    intro m hm c' hc'
    rw [List.mem_singleton] at hm
    subst hm
    have hcurrent' : some c = some c' := hcurrent.symm.trans hc'
    cases hcurrent'
    exact hnewest
  · intro hactive _
    exact hnewest.uncleared hactive

/-- The bootstrap has failed, which ends the connection. -/
theorem bootstrap_failed (h : Tasks s) {b : Bootstrap} (hb : s.bootstrap? = some b) {a : Answer}
    (hstep : s.shared.stepBootstrap b a = some (d', .failed)) (hs : Around s s')
    (hshared : s'.shared = d'.cancel) (hb' : s'.bootstrap? = none) : Sound false s s' := by
  obtain ⟨hframe, heffect, hkeeps⟩ :=
    stepBootstrap_effect (h.bootstrap_ready hb) hstep
  have hcancelled : s'.shared.globalCancelled = true := by
    rw [hshared]
    rfl
  refine ⟨?_, ?_⟩
  · have hwork : s'.work? = if b.work?.isSome then none else s.work? := by
      simp only [State.work?, State.monitorState?, hb, hb', hs.monitors, Option.bind_some,
        Option.bind_none, Option.none_or]
      cases hbwork : b.work? with
      | none => rfl
      | some w =>
        rcases h.alone b hb with halone | ⟨hnone, -⟩
        · rw [halone]
          rfl
        · rw [hnone] at hbwork
          cases hbwork
    rw [hwork, hshared]
    exact heffect
  constructor
  · rintro (hawaiting | hbooting)
    · exact absurd hawaiting hs.awaiting
    · exact absurd hbooting (State.not_bootstrapping hb').1
  · intro hawaiting
    exact absurd hawaiting hs.awaiting
  · rw [hs.monitors]
    exact h.oneMonitor
  · intro m _
    exact Or.inr (Or.inr hcancelled)
  · rintro (⟨id, c', hjoining⟩ | hbootstrapping)
    · exact absurd hjoining (hs.joining id c').2
    · exact hs.taken hbootstrapping
  · rw [hb']
    intro _ hb
    cases hb
  · rw [hb']
    intro _ hb
    cases hb
  · rw [hb']
    intro _ hb
    cases hb
  · rw [hcancelled]
    intro hactive
    cases hactive
  · rw [hcancelled]
    intro hactive
    cases hactive
  · rw [hb']
    intro _ _ _ hb
    cases hb
  · rw [hs.monitors]
    intro m hm c hc
    rcases h.alone b hb with halone | ⟨hnone, -⟩
    · rw [halone] at hm
      cases hm
    · rw [hshared] at hc ⊢
      have hc' : m.state.newest? s.shared = some c := by
        rw [← newest?_keeps (hkeeps hnone), ← newest?_keeps (.cancel d')]
        exact hc
      exact (Shared.Keeps.cancel d').newest ((hkeeps hnone).newest (h.monitorNewest m hm c hc'))
  · rw [hcancelled]
    intro hactive
    cases hactive

/-! ### The first bootstrap, and the shutdown -/

/-- The first task ends, or waits to be able to. -/
theorem run_idle (h : Tasks s) (hnone : s.run.bootstrap? = none) (r : RunTask)
    (hr : r.bootstrap? = none) (hawaiting : r ≠ .awaitingConstraints) {handle : Option TaskId}
    (hhandle : handle = s.monitorHandle ∨ handle = none ∧ s.shared.globalCancelled = true) :
    Sound false s { s with run := r, monitorHandle := handle } := by
  have hboot : ({ s with run := r, monitorHandle := handle } : State).bootstrap? = s.bootstrap? := by
    unfold State.bootstrap?
    rw [hr, hnone]
  refine ⟨?_, ?_⟩
  · have hwork : ({ s with run := r, monitorHandle := handle } : State).work? = s.work? := by
      unfold State.work?
      rw [hboot]
      rfl
    rw [hwork]
    exact .refl _ _
  constructor
  · rintro (hbooting | hbooting)
    · exact absurd hbooting hawaiting
    · exact absurd hbooting (RunTask.not_bootstrapping hr)
  · intro hbooting
    exact absurd hbooting hawaiting
  · exact h.oneMonitor
  · intro m hm
    rcases hhandle with rfl | ⟨-, hcancelled⟩
    · exact h.handle m hm
    · exact Or.inr (Or.inr hcancelled)
  · intro htaken
    rcases hhandle with rfl | ⟨rfl, -⟩
    · exact h.taken htaken
    · rfl
  · rw [hboot]
    exact h.alone
  · rw [hboot]
    exact h.preparing
  · rw [hboot]
    exact h.request
  · rw [hboot]
    exact h.bootstrapClient
  · exact h.monitorClient
  · rw [hboot]
    exact h.bootstrapNewest
  · exact h.monitorNewest
  · exact h.uncleared

theorem beginFirst_sound (h : Tasks s) (hawaiting : s.run = .awaitingConstraints)
    (c : CoinbaseOutputConstraints) :
    Sound false s { s with
      shared := (s.shared.beginBootstrap c).1
      run := .bootstrapping (s.shared.beginBootstrap c).2 } := by
  obtain ⟨hrequests, hcleared⟩ := h.awaiting hawaiting
  obtain ⟨hincoming, hmonitors⟩ := h.booting (Or.inl hawaiting)
  refine ⟨?_, ?_⟩
  · have hfirst : Effect false s.shared none _ none := .firstRequest s.shared c hrequests
    simp only [State.work?, State.bootstrap?, State.monitorState?, hawaiting, hincoming, hmonitors,
      Shared.beginBootstrap, hrequests]
    exact hfirst
  constructor
  · intro _
    exact ⟨hincoming, hmonitors⟩
  · intro hawaiting
    cases hawaiting
  · exact h.oneMonitor
  · rw [hmonitors]
    intro _ hm
    cases hm
  · rintro (⟨id, c', hjoining⟩ | ⟨b, hb⟩)
    · rw [show s.incoming = _ from hjoining] at hincoming
      cases hincoming
    · rw [show s.incoming = _ from hb] at hincoming
      cases hincoming
  · intro _ _
    exact Or.inl hmonitors
  · intro _ _ _ _
    exact hcleared
  · intro r hr
    cases hr
    simp [Shared.beginBootstrap]
  · intro _ b w hb hw
    cases hb
    cases hw
  · rw [hmonitors]
    intro _ _ hm
    cases hm
  · intro b w c hb hw
    cases hb
    cases hw
  · rw [hmonitors]
    intro _ hm
    cases hm
  · exact fun _ hsome => absurd hmonitors hsome

theorem stepRun_sound (h : Tasks s) (a : Answer) : Sound false s (s.stepRun a) := by
  unfold State.stepRun
  split
  next hrun =>
    split
    · exact h.run_idle (by rw [hrun]; rfl) .exited rfl nofun (Or.inl rfl)
    · exact h.unchanged
  next hrun => exact h.beginFirst_sound hrun _
  next b hrun =>
    have hb : s.bootstrap? = some b := by
      unfold State.bootstrap?
      rw [hrun]
      rfl
    obtain ⟨hincoming, hmonitors⟩ := h.booting (Or.inr ⟨b, hrun⟩)
    have hquiet : s.incoming.bootstrap? = none := by
      rw [hincoming]
      rfl
    have hjoining : ∀ id c, s.incoming ≠ .joining id c := by
      rw [hincoming]
      nofun
    split
    · exact h.unchanged
    next d' b' hstep =>
      exact h.bootstrap_next hb hstep
        ⟨rfl, rfl, fun _ => ⟨hincoming, hmonitors⟩, nofun, fun id c => ⟨hjoining id c, hjoining id c⟩,
          fun hb => absurd hb (IncomingTask.not_bootstrapping hquiet)⟩
        rfl rfl
    next d' c hstep =>
      exact h.bootstrap_finished hb hstep
        ⟨rfl, rfl, fun hb => absurd hb (RunTask.not_bootstrapping rfl), nofun,
          fun id c => ⟨hjoining id c, nofun⟩,
          fun hb => absurd hb (IncomingTask.not_bootstrapping rfl)⟩
        rfl rfl
    next d' hstep =>
      exact h.bootstrap_failed hb hstep
        ⟨rfl, rfl, fun hb => absurd hb (RunTask.not_bootstrapping rfl), nofun,
          fun id c => ⟨hjoining id c, hjoining id c⟩,
          fun hb => absurd hb (IncomingTask.not_bootstrapping hquiet)⟩
        rfl hquiet
  next hrun =>
    split
    next hcancelled =>
      split
      · exact h.run_idle (by rw [hrun]; rfl) .exited rfl nofun (Or.inl rfl)
      · exact h.run_idle (by rw [hrun]; rfl) (.joining _) rfl nofun (Or.inr ⟨rfl, hcancelled⟩)
    · exact h.unchanged
  next hrun =>
    split
    · exact h.run_idle (by rw [hrun]; rfl) .exited rfl nofun (Or.inl rfl)
    · exact h.unchanged
  · exact h.unchanged

/-! ### Incoming messages -/

/-- The old monitor is told to end, and joined. -/
theorem handleCoinbaseOutputConstraints_sound (h : Tasks s) (hidle : s.incoming = .idle)
    (c : CoinbaseOutputConstraints) : Sound false s (s.handleCoinbaseOutputConstraints c) := by
  have hspawned : s.incoming ≠ .notSpawned := by
    rw [hidle]
    nofun
  unfold State.handleCoinbaseOutputConstraints
  dsimp only
  split
  next hhandle =>
    refine h.rotate_sound hspawned (by rw [hidle]; rfl) hhandle ?_ c _
    cases hmonitors : s.monitors with
    | nil => exact Or.inl rfl
    | cons m ms =>
      rcases h.handle m (hmonitors ▸ List.mem_cons_self) with hsome | ⟨c', hjoining⟩ | hcancelled
      · rw [hhandle] at hsome
        cases hsome
      · rw [hidle] at hjoining
        cases hjoining
      · exact Or.inr hcancelled
  next id hhandle =>
    obtain ⟨hrun, hrunBoot⟩ := h.run_of_spawned hspawned
    generalize hs' : ({ s with
      shared := { s.shared with cancelledTokens := s.token :: s.shared.cancelledTokens }
      monitorHandle := none
      incoming := .joining id c } : State) = s'
    have hboot : s'.bootstrap? = none := by
      rw [← hs', State.bootstrap?, hrunBoot]
      rfl
    have hwork : s'.work? = s.work? := by
      have hboot₀ : s.bootstrap? = none := by
        rw [State.bootstrap?, hrunBoot, hidle]
        rfl
      unfold State.work?
      rw [hboot, hboot₀, ← hs']
      rfl
    have hrun' : s'.run = s.run := by rw [← hs']
    have hmonitors : s'.monitors = s.monitors := by rw [← hs']
    have hkeeps : s.shared.Keeps s'.shared := by
      rw [← hs']
      exact ⟨rfl, rfl, rfl, rfl, rfl, fun hd => hd⟩
    refine ⟨?_, ?_⟩
    · have hquiet : Effect false s.shared s.work? _ s.work? :=
        .quiet s.shared s.work? false (s.token :: s.shared.cancelledTokens)
      rw [Bool.or_false] at hquiet
      rw [hwork, ← hs']
      exact hquiet
    constructor
    · rw [hrun']
      rintro (hawaiting | hb)
      · exact absurd hawaiting hrun
      · exact absurd hb (RunTask.not_bootstrapping hrunBoot)
    · rw [hrun']
      intro hawaiting
      exact absurd hawaiting hrun
    · rw [← hs']
      exact h.oneMonitor
    · rw [← hs']
      intro m hm
      rcases h.handle m hm with hsome | ⟨c', hjoining⟩ | hcancelled
      · rw [hhandle] at hsome
        cases hsome
        exact Or.inr (Or.inl ⟨c, rfl⟩)
      · rw [hidle] at hjoining
        cases hjoining
      · exact Or.inr (Or.inr hcancelled)
    · intro _
      rw [← hs']
    · rw [hboot]
      intro _ hb
      cases hb
    · rw [hboot]
      intro _ hb
      cases hb
    · rw [hboot]
      intro _ hb
      cases hb
    · rw [hboot]
      intro _ _ _ hb
      cases hb
    · rw [hkeeps.requests, hmonitors]
      intro hactive m hm client hclient
      rw [client?_keeps hkeeps] at hclient
      exact h.monitorClient (hkeeps.active hactive) m hm client hclient
    · rw [hboot]
      intro _ _ _ hb
      cases hb
    · rw [hmonitors]
      intro m hm client hclient
      rw [newest?_keeps hkeeps] at hclient
      exact hkeeps.newest (h.monitorNewest m hm client hclient)
    · rw [hmonitors]
      intro hactive hsome hcleared
      exact h.uncleared (hkeeps.active hactive) hsome (hkeeps.of_cleared hcleared)

theorem joined_sound (h : Tasks s) {id : TaskId} {c : CoinbaseOutputConstraints}
    (hjoining : s.incoming = .joining id c) (hended : s.ended id = true) : Sound false s (s.rotate c) := by
  have hhandle := h.taken (Or.inl ⟨id, c, hjoining⟩)
  refine h.rotate_sound (by rw [hjoining]; nofun) (by rw [hjoining]; rfl) hhandle ?_ c
    s.shared.cancelledTokens
  cases hmonitors : s.monitors with
  | nil => exact Or.inl rfl
  | cons m ms =>
    have hm : m ∈ s.monitors := hmonitors ▸ List.mem_cons_self
    rcases h.handle m hm with hsome | ⟨c', hjoining'⟩ | hcancelled
    · rw [hhandle] at hsome
      cases hsome
    · rw [hjoining] at hjoining'
      cases hjoining'
      have hne := of_decide_eq_true (List.all_eq_true.mp hended m hm)
      exact absurd rfl hne
    · exact Or.inr hcancelled

theorem stepIncoming_sound (h : Tasks s) (a : Answer) : Sound false s (s.stepIncoming a) := by
  have hcalm : s.incoming.calm = true → ∀ i : IncomingTask, i.calm = true →
      Sound false s { s with incoming := i } := by
    intro hcalm i hi
    exact h.calm hcalm hi (.refl _) (.refl _ _)
  have hcancel : s.incoming.calm = true → ∀ i : IncomingTask, i.calm = true →
      Sound false s { s with shared := s.shared.cancel, incoming := i } := by
    intro hcalm i hi
    exact h.calm hcalm hi (.cancel _) (.cancel _ _)
  unfold State.stepIncoming
  split
  next hi =>
    split
    · exact hcalm (by rw [hi]; rfl) _ rfl
    · exact h.unchanged
  next m hi =>
    have hidle : s.incoming.calm = true := by
      rw [hi]
      rfl
    cases m with
    | coinbaseOutputConstraints c => exact h.handleCoinbaseOutputConstraints_sound hi c
    | requestTransactionData templateId =>
      dsimp only [State.handleMessage]
      split
      · exact hcalm hidle _ rfl
      · split
        · exact hcalm hidle _ rfl
        · exact hcalm hidle _ rfl
    | submitSolution templateId =>
      dsimp only [State.handleMessage]
      split
      · exact hcalm hidle _ rfl
      · split
        · exact h.unchanged
        · exact hcalm hidle _ rfl
  next id c hi =>
    split
    next hended => exact h.joined_sound hi hended
    · exact h.unchanged
  next b hi =>
    have hspawned : s.incoming ≠ .notSpawned := by
      rw [hi]
      nofun
    obtain ⟨hrun, hrunBoot⟩ := h.run_of_spawned hspawned
    have hb : s.bootstrap? = some b := by
      rw [State.bootstrap?, hrunBoot, hi]
      rfl
    have hbooting := RunTask.not_bootstrapping hrunBoot
    have hjoining : ∀ id c, s.incoming ≠ .joining id c := by
      rw [hi]
      nofun
    split
    · exact h.unchanged
    next d' b' hstep =>
      refine h.bootstrap_next hb hstep
        ⟨rfl, rfl, fun hb => absurd hb hbooting, hrun, fun id c => ⟨hjoining id c, nofun⟩, ?_⟩
        rfl ?_
      · intro _
        exact h.taken (Or.inr ⟨b, hi⟩)
      · rw [State.bootstrap?, hrunBoot]
        rfl
    next d' c hstep =>
      refine h.bootstrap_finished hb hstep
        ⟨rfl, rfl, fun hb => absurd hb hbooting, hrun, fun id c => ⟨hjoining id c, nofun⟩,
          fun hb => absurd hb (IncomingTask.not_bootstrapping rfl)⟩
        rfl ?_
      rw [State.bootstrap?, hrunBoot]
      rfl
    next d' hstep =>
      refine h.bootstrap_failed hb hstep
        ⟨rfl, rfl, fun hb => absurd hb hbooting, hrun, fun id c => ⟨hjoining id c, nofun⟩,
          fun hb => absurd hb (IncomingTask.not_bootstrapping rfl)⟩
        rfl ?_
      rw [State.bootstrap?, hrunBoot]
      rfl
  next hi =>
    split
    · exact hcalm (by rw [hi]; rfl) _ rfl
    · exact h.unchanged
  next hi => exact hcancel (by rw [hi]; rfl) _ rfl
  next hi => exact hcalm (by rw [hi]; rfl) _ rfl
  next hi =>
    split
    · exact hcalm (by rw [hi]; rfl) _ rfl
    · exact h.unchanged
  next hi => exact hcancel (by rw [hi]; rfl) _ rfl
  next r hi => exact h.calm (by rw [hi]; rfl) rfl ⟨rfl, rfl, rfl, rfl, rfl, id⟩ (.respond _ _ r)
  next hi =>
    split
    · exact hcalm (by rw [hi]; rfl) _ rfl
    · exact h.unchanged
  next hi => exact hcalm (by rw [hi]; rfl) _ rfl
  next hi => exact hcalm (by rw [hi]; rfl) _ rfl
  · exact h.unchanged

/-! ### Monitors -/

/-- One wait of a monitor. -/
theorem stepMonitorState_effect {token : Nat} {st : MonitorState} {a : Answer}
    {r : Option MonitorState}
    (hclient : d.globalCancelled = false → ∀ c, st.client? d = some c →
      c.request + 1 = d.createNewBlockRequests.length)
    (hnewest : ∀ c, st.newest? d = some c → d.Newest c)
    (hlive : d.globalCancelled = false → ¬ d.Cleared)
    (h : d.stepMonitor token st a = (d', r)) :
    Effect false d st.work? d' (r.bind (·.work?)) ∧
      d'.createNewBlockRequests = d.createNewBlockRequests ∧
      (d.globalCancelled = true → d'.globalCancelled = true) ∧
      (∀ st', r = some st' →
        (d'.globalCancelled = false → ∀ c, st'.client? d' = some c →
          c.request + 1 = d.createNewBlockRequests.length) ∧
        (∀ c, st'.newest? d' = some c → d'.Newest c) ∧
        (d'.globalCancelled = false → ¬ d'.Cleared)) := by
  have hgone : ∀ {p : MonitorState → Prop} st', (none : Option MonitorState) = some st' → p st' := by
    intro p st' hst'
    cases hst'
  -- the monitor goes on as before, or the connection ends
  have hstay : ∀ {st' : MonitorState}, st'.work? = st.work? →
      (∀ c, st'.client? d = some c → st.client? d = some c) →
      (∀ c, st'.newest? d = some c → st.newest? d = some c) →
      Effect false d st.work? d ((some st').bind (·.work?)) ∧
      d.createNewBlockRequests = d.createNewBlockRequests ∧
      (d.globalCancelled = true → d.globalCancelled = true) ∧
      (∀ st'', some st' = some st'' →
        (d.globalCancelled = false → ∀ c, st''.client? d = some c →
          c.request + 1 = d.createNewBlockRequests.length) ∧
        (∀ c, st''.newest? d = some c → d.Newest c) ∧
        (d.globalCancelled = false → ¬ d.Cleared)) := by
    intro st' hwork hsame hstored
    refine ⟨?_, rfl, fun hd => hd, ?_⟩
    · rw [Option.bind_some, hwork]
      exact .refl d _
    · intro st'' hst''
      cases hst''
      exact ⟨fun hactive c hc => hclient hactive c (hsame c hc),
        fun c hc => hnewest c (hstored c hc), hlive⟩
  have hend : Effect false d st.work? d.cancel ((none : Option MonitorState).bind (·.work?)) ∧
      d.cancel.createNewBlockRequests = d.createNewBlockRequests ∧
      (d.globalCancelled = true → d.cancel.globalCancelled = true) ∧
      (∀ st', (none : Option MonitorState) = some st' →
        (d.cancel.globalCancelled = false → ∀ c, st'.client? d.cancel = some c →
          c.request + 1 = d.createNewBlockRequests.length) ∧
        (∀ c, st'.newest? d.cancel = some c → d.cancel.Newest c) ∧
        (d.cancel.globalCancelled = false → ¬ d.cancel.Cleared)) :=
    ⟨.abandon d _, rfl, fun _ => rfl, hgone⟩
  cases st with
  | starting =>
    cases a with
    | cancelled =>
      dsimp only [Shared.stepMonitor] at h
      split at h
      · cases h
        exact ⟨.refl d _, rfl, fun hd => hd, hgone⟩
      · cases h
        exact hstay rfl (fun _ hc => hc) fun _ hc => hc
    | failed =>
      cases h
      exact hend
    | done =>
      dsimp only [Shared.stepMonitor] at h
      split at h
      · cases h
        exact hend
      next c hc =>
        cases h
        exact hstay rfl (fun _ hc' => hc.trans hc') fun _ hc' => hc.trans hc'
    | _ =>
      cases h
      exact hstay rfl (fun _ hc => hc) fun _ hc => hc
  | waiting c =>
    cases a with
    | cancelled =>
      dsimp only [Shared.stepMonitor] at h
      cases h
      split
      · exact hstay rfl nofun nofun
      · exact hstay rfl (fun _ hc => hc) fun _ hc => hc
    | failed =>
      cases h
      exact hend
    | blockTemplate =>
      dsimp only [Shared.stepMonitor] at h
      split at h
      next d₁ hfetch =>
        cases h
        obtain ⟨hframe, -, ⟨-, -, heffect⟩ | ⟨w', hw', -, -⟩⟩ :=
          beginFetch_effect (fun hactive => hclient hactive c rfl) (fun _ => rfl) hfetch
        · exact ⟨heffect, hframe.requests, fun hd => hframe.cancelled.trans hd, hgone⟩
        · cases hw'
      next d₁ w hfetch =>
        cases h
        obtain ⟨hframe, hkeeps, ⟨hw', -, -⟩ | ⟨w', hw', heffect, hrequest, hstored, -⟩⟩ :=
          beginFetch_effect (fun hactive => hclient hactive c rfl) (fun _ => rfl) hfetch
        · cases hw'
        · cases hw'
          refine ⟨heffect, hframe.requests, fun hd => hframe.cancelled.trans hd, ?_⟩
          intro st' hst'
          cases hst'
          refine ⟨?_, ?_, ?_⟩
          · intro hactive c' hc'
            cases hc'
            rw [hrequest]
            exact hclient (hframe.cancelled.symm.trans hactive) c rfl
          · intro c' hc'
            rw [MonitorState.newest?, hstored] at hc'
            cases hc'
          · intro hactive hcleared
            exact hlive (hkeeps.active hactive) (hkeeps.of_cleared hcleared)
    | _ =>
      cases h
      exact hstay rfl (fun _ hc => hc) fun _ hc => hc
  | interrupting =>
    cases a with
    | done =>
      cases h
      exact ⟨.refl d _, rfl, fun hd => hd, hgone⟩
    | _ =>
      cases h
      exact hstay rfl (fun _ hc => hc) fun _ hc => hc
  | work w =>
    have hplan := fun (_ : w.isFetch = true) => planNext_allowed hlive
    have hw := fun hactive => hclient hactive w.client rfl
    dsimp only [Shared.stepMonitor] at h
    split at h
    · cases h
      exact hstay rfl (fun _ hc => hc) fun _ hc => hc
    next d₁ w' hstep =>
      cases h
      obtain ⟨hframe, heffect, hsame, -, hnew⟩ := stepWork_effect hplan hw hnewest hstep
      refine ⟨heffect, hframe.requests, fun hd => hframe.cancelled.trans hd, ?_⟩
      intro st' hst'
      cases hst'
      refine ⟨?_, ?_, hnew.uncleared⟩
      · intro hactive c hc
        cases hc
        rw [hsame]
        exact hclient (hframe.cancelled.symm.trans hactive) _ rfl
      · intro c hc
        rw [Work.client_of_stored hc, hsame]
        exact hnew
    next d₁ c hstep =>
      cases h
      obtain ⟨hframe, heffect, rfl, -, hnew⟩ := stepWork_effect hplan hw hnewest hstep
      refine ⟨heffect, hframe.requests, fun hd => hframe.cancelled.trans hd, ?_⟩
      intro st' hst'
      cases hst'
      refine ⟨?_, ?_, hnew.uncleared⟩
      · intro hactive c hc
        cases hc
        exact hclient (hframe.cancelled.symm.trans hactive) _ rfl
      · intro c hc
        cases hc
        exact hnew
    next d₁ hstep =>
      cases h
      obtain ⟨hframe, heffect⟩ := stepWork_effect hplan hw hnewest hstep
      exact ⟨heffect, hframe.requests, fun _ => rfl, hgone⟩

theorem stepMonitor_sound (h : Tasks s) (id : TaskId) (a : Answer) :
    Sound false s (s.stepMonitor id a) := by
  unfold State.stepMonitor
  split
  · exact h.unchanged
  next m hfind =>
    have hid : m.id = id := by simpa using List.find?_some hfind
    have hmonitors : s.monitors = [m] := by
      have hmem := List.mem_of_find?_eq_some hfind
      have hone := h.oneMonitor
      cases hm : s.monitors with
      | nil =>
        rw [hm] at hmem
        cases hmem
      | cons m' ms =>
        rw [hm, List.length_cons] at hone
        cases ms with
        | nil =>
          rw [hm, List.mem_singleton] at hmem
          rw [hmem]
        | cons m'' ms =>
          rw [List.length_cons] at hone
          omega
    have hmem : m ∈ s.monitors := by
      rw [hmonitors]
      exact List.mem_singleton_self m
    have hidle : ∀ b, s.bootstrap? = some b →
        b.work? = none ∧ s.shared.globalCancelled = true := by
      intro b hb
      refine (h.alone b hb).resolve_left ?_
      rw [hmonitors]
      nofun
    have hbootWork : s.bootstrap?.bind (·.work?) = none := by
      cases hb : s.bootstrap? with
      | none => rfl
      | some b => exact (hidle b hb).1
    have hwork : s.work? = m.state.work? := by
      simp [State.work?, State.monitorState?, hbootWork, hmonitors]
    -- what remains of the monitors
    have hrest : ∀ (d' : Shared) (r : Option MonitorState),
        s.shared.stepMonitor m.token m.state a = (d', r) →
        ∀ s' : State, s'.shared = d' → s'.monitors = (r.toList.map fun st => { m with state := st }) →
        s'.run = s.run → s'.incoming = s.incoming → s'.monitorHandle = s.monitorHandle →
        Sound false s s' := by
      rintro d' r hstep s' rfl hmonitors' hrun hincoming hhandle
      obtain ⟨heffect, hrequests, hcancelled, hnext⟩ :=
        stepMonitorState_effect (fun hactive => h.monitorClient hactive m hmem)
          (h.monitorNewest m hmem)
          (fun hactive => h.uncleared hactive (by rw [hmonitors]; nofun)) hstep
      have hboot : s'.bootstrap? = s.bootstrap? := by
        rw [State.bootstrap?, hrun, hincoming]
        rfl
      refine ⟨?_, ?_⟩
      · have hwork' : s'.work? = r.bind (·.work?) := by
          cases r <;> simp [State.work?, State.monitorState?, hboot, hbootWork, hmonitors']
        rw [hwork, hwork']
        exact heffect
      constructor
      · rw [hrun, hincoming]
        intro hbooting
        have hnone := (h.booting hbooting).2
        rw [hmonitors] at hnone
        cases hnone
      · rw [hrun]
        intro hawaiting
        have hnone := (h.booting (Or.inl hawaiting)).2
        rw [hmonitors] at hnone
        cases hnone
      · rw [hmonitors']
        cases r <;> simp
      · rw [hmonitors', hhandle, hincoming]
        intro m' hm'
        have hsame : m'.id = m.id := by
          obtain ⟨st, -, rfl⟩ := List.mem_map.mp hm'
          rfl
        rw [hsame]
        exact (h.handle m hmem).imp_right fun h => h.imp_right hcancelled
      · rw [hhandle, hincoming]
        exact h.taken
      · rw [hboot]
        intro b hb
        exact Or.inr ⟨(hidle b hb).1, hcancelled (hidle b hb).2⟩
      · rw [hboot]
        intro b hb _ hactive
        have hcancelled' := hcancelled (hidle b hb).2
        rw [hactive (hidle b hb).1] at hcancelled'
        cases hcancelled'
      · rw [hboot, hrequests]
        exact h.request
      · rw [hboot]
        intro _ b w hb hw
        rw [(hidle b hb).1] at hw
        cases hw
      · rw [hmonitors', hrequests]
        intro hactive m' hm' c hc
        obtain ⟨st, hst, rfl⟩ := List.mem_map.mp hm'
        exact (hnext st (Option.mem_toList.mp hst)).1 hactive c hc
      · rw [hboot]
        intro b w c hb hw
        rw [(hidle b hb).1] at hw
        cases hw
      · rw [hmonitors']
        intro m' hm' c hc
        obtain ⟨st, hst, rfl⟩ := List.mem_map.mp hm'
        exact (hnext st (Option.mem_toList.mp hst)).2.1 c hc
      · rw [hmonitors']
        intro hactive hsome
        cases hr : r with
        | none =>
          rw [hr] at hsome
          exact absurd rfl hsome
        | some st => exact (hnext st hr).2.2 hactive
    split
    next d' st hstep =>
      refine hrest d' (some st) hstep _ rfl ?_ rfl rfl rfl
      simp [State.setMonitor, hmonitors, hid]
    next d' hstep =>
      refine hrest d' none hstep _ rfl ?_ rfl rfl rfl
      simp [State.endMonitor, hmonitors, hid]

theorem step_sound (h : Tasks s) (e : State.Event) : Sound e.isRetirement s (s.step e) := by
  cases e with
  | tick elapsed => exact h.keeps_sound ⟨rfl, rfl, rfl, rfl, rfl, id⟩ rfl rfl rfl rfl (.tick _ _ elapsed)
  | cancel => exact h.keeps_sound (.cancel _) rfl rfl rfl rfl (.cancel _ _)
  | run a => exact h.stepRun_sound a
  | incoming a => exact h.stepIncoming_sound a
  | monitor id a => exact h.stepMonitor_sound id a
  | retirement a => exact h.stepRetirement_sound a

end Tasks

theorem tasks_after (maxSameTipTemplates : Option Nat) (es : List State.Event) :
    Tasks (State.after maxSameTipTemplates es) :=
  Runs.run_invariant Tasks (fun _ e h => (h.step_sound e).2) (tasks_new maxSameTipTemplates) es

end Sv2Apps.BitcoinCore.TemplateDistribution
