/-
  BitcoinCore/RetainedJobs.lean
  =============================
  **Templates and the jobs built from them** — a pool or job declarator client reads the queue of
  `BitcoinCoreSv2TDP` in order; its channels accept shares for their active job and the past jobs that
  `channels_sv2` keeps, each built from one template, and a solution names that template.

  The channels and the store belong to different components, which agree on one number:
  `max_past_jobs` bounds the past jobs, and one more templates are kept.  `Consumer` is what the
  channel managers of both applications do with templates; a channel lists the jobs of the current tip
  only.  `saturating_add` is written `+`, as there are fewer template ids than `usize::MAX`.
-/
import Sv2Apps.BitcoinCore.TemplateCoverage

namespace Sv2Apps.BitcoinCore.TemplateDistribution

open Bitcoin

variable {s s' : State} {d d' : Shared} {w w' : Option Work}

/-! ## The consumer -/

/-- `MAX_PAST_JOBS` of `channels_sv2`. -/
def defaultMaxPastJobs : Nat := 16

/-- The past jobs that a channel keeps; a zero asks for the default. -/
def pastJobsCap : Option Nat → Nat
  | none | some 0 => defaultMaxPastJobs
  | some jobs => jobs

/-- `max_same_tip_templates` of the pool's and the client's runtime. -/
def maxSameTipTemplates : Option Nat → Option Nat
  | none | some 0 => none
  | some jobs => some (jobs + 1)

theorem retention_eq (maxPastJobs : Option Nat) :
    Shared.retention (maxSameTipTemplates maxPastJobs) = pastJobsCap maxPastJobs + 1 := by
  rcases maxPastJobs with _ | _ | jobs
  · rfl
  · rfl
  · rfl

/-- The jobs of a channel, by the templates that they were built from; past jobs newest first. -/
structure Channel where
  futureJobs : List TemplateId
  activeJob : Option TemplateId
  pastJobs : List TemplateId
deriving DecidableEq

namespace Channel

def new : Channel := ⟨[], none, []⟩

/-- The jobs that the channel accepts a share for. -/
def jobs (c : Channel) : List TemplateId := c.activeJob.toList ++ c.pastJobs

def onNewTemplate (c : Channel) (pastJobsCap : Nat) (templateId : TemplateId) (futureTemplate : Bool) :
    Channel :=
  if futureTemplate then { c with futureJobs := templateId :: c.futureJobs }
  else { c with activeJob := some templateId, pastJobs := c.jobs.take pastJobsCap }

/-- The prev-hash of a template that has no future job is refused, unless there is none at all. -/
def onSetNewPrevHash (c : Channel) (templateId : TemplateId) : Option Channel :=
  if templateId ∈ c.futureJobs then some ⟨[], some templateId, []⟩
  else if c.futureJobs = [] then some new
  else none

end Channel

structure Consumer where
  pastJobsCap : Nat
  /-- How many messages of the queue have been handled. -/
  processed : Nat
  lastFutureTemplate : Option TemplateId
  lastNewPrevHash : Option TemplateId
  channels : List Channel
  stopped : Bool

namespace Consumer

def new (pastJobsCap : Nat) : Consumer := ⟨pastJobsCap, 0, none, none, [], false⟩

/-- An error of a template handler shuts the application down. -/
def stop (c : Consumer) : Consumer := { c with channels := [], stopped := true }

def handleNewTemplate (c : Consumer) (m : NewTemplate) : Consumer :=
  { c with
    lastFutureTemplate := if m.futureTemplate then some m.templateId else c.lastFutureTemplate
    channels := c.channels.map fun ch => ch.onNewTemplate c.pastJobsCap m.templateId m.futureTemplate }

def handleSetNewPrevHash (c : Consumer) (m : SetNewPrevHash) : Consumer :=
  let c := { c with lastNewPrevHash := some m.templateId }
  match c.channels.mapM (·.onSetNewPrevHash m.templateId) with
  | none => c.stop
  | some channels => { c with channels := channels }

def handle (c : Consumer) : Outgoing → Consumer
  | .newTemplate p => c.handleNewTemplate p.newTemplate
  | .setNewPrevHash m => c.handleSetNewPrevHash m
  | .response _ => c

/-- A new channel is given the last future template and the last prev-hash. -/
def openChannel (c : Consumer) : Consumer :=
  match c.lastFutureTemplate, c.lastNewPrevHash with
  | some template, some prevHash =>
    match (Channel.new.onNewTemplate c.pastJobsCap template true).onSetNewPrevHash prevHash with
    | none => c.stop
    | some ch => { c with channels := c.channels ++ [ch] }
  | _, _ => c

end Consumer

/-! ## The system -/

structure System where
  provider : State
  consumer : Consumer

namespace System

def start (maxPastJobs : Option Nat) : System :=
  ⟨.new (maxSameTipTemplates maxPastJobs), .new (pastJobsCap maxPastJobs)⟩

inductive Event where
  | provider (e : State.Event)
  | consume
  | openChannel
  | closeChannel (i : Nat)
deriving DecidableEq

def consume (s : System) : System :=
  match s.provider.shared.outgoing[s.consumer.processed]? with
  | none => s
  | some m => { s with consumer := { s.consumer.handle m with processed := s.consumer.processed + 1 } }

def step (s : System) : Event → System
  | .provider e => { s with provider := s.provider.step e }
  | .consume => if s.consumer.stopped then s else s.consume
  | .openChannel => if s.consumer.stopped then s else { s with consumer := s.consumer.openChannel }
  | .closeChannel i =>
    { s with consumer := { s.consumer with channels := s.consumer.channels.eraseIdx i } }

def after (maxPastJobs : Option Nat) (es : List Event) : System :=
  Runs.run step (start maxPastJobs) es

end System

def RetirementTask.isSleeping : RetirementTask → Bool
  | .sleeping => true
  | _ => false

namespace System

/-- A sweep does not come when a replacement has been under way for the grace period. -/
def InTime (s : System) (e : Event) : Prop :=
  e = .provider (.retirement .done) → s.provider.retirement.isSleeping = true →
    ∀ since ∈ s.provider.shared.superseding,
      s.provider.shared.now < since + staleTemplateGracePeriod

end System

/-! ## What the consumer has read -/

theorem mem_of_mapM {α β : Type} {f : α → Option β} {l : List α} {l' : List β}
    (h : l.mapM f = some l') {b : β} (hb : b ∈ l') : ∃ a ∈ l, f a = some b := by
  induction l generalizing l' with
  | nil =>
    cases h
    cases hb
  | cons a l ih =>
    rw [List.mapM_cons] at h
    obtain ⟨c, hc, h⟩ := Option.bind_eq_some_iff.mp h
    obtain ⟨l'', hl'', h⟩ := Option.bind_eq_some_iff.mp h
    cases h
    rcases List.mem_cons.mp hb with rfl | hb
    · exact ⟨a, List.mem_cons_self, hc⟩
    · obtain ⟨a', ha', hf⟩ := ih hl'' hb
      exact ⟨a', List.mem_cons_of_mem _ ha', hf⟩

/-- The `i`-th job of a channel is the `i`-th newest refresh, or that of the tip's future template. -/
structure Channel.OnTip (t : Tip) (cap : Nat) (ch : Channel) : Prop where
  jobs : ∀ (i : Nat) (id : TemplateId), ch.jobs[i]? = some id →
    t.template = some id ∨ t.refreshes[i]? = some id
  kept : ch.jobs.length ≤ cap + 1

namespace Channel.OnTip

variable {t : Tip} {cap : Nat} {ch ch' : Channel}

theorem single {id : TemplateId} (futureJobs : List TemplateId) (h : t.template = some id) :
    OnTip t cap ⟨futureJobs, some id, []⟩ := by
  refine ⟨?_, ?_⟩
  · intro i id' hi
    rcases i with _ | i
    · cases hi
      exact Or.inl h
    · cases hi
  · exact Nat.succ_le_succ (Nat.zero_le _)

theorem onFutureTemplate (h : OnTip t cap ch) (id : TemplateId) :
    OnTip t cap (ch.onNewTemplate cap id true) := ⟨h.jobs, h.kept⟩

theorem onRefresh (h : OnTip t cap ch) (id : TemplateId) :
    OnTip { t with refreshes := id :: t.refreshes } cap (ch.onNewTemplate cap id false) := by
  have hjobs : (ch.onNewTemplate cap id false).jobs = id :: ch.jobs.take cap := rfl
  refine ⟨?_, ?_⟩
  · rw [hjobs]
    intro i id' hi
    rcases i with _ | i
    · exact Or.inr hi
    · rw [List.getElem?_cons_succ, List.getElem?_take] at hi
      split at hi
      · exact h.jobs i id' hi
      · cases hi
  · rw [hjobs, List.length_cons]
    exact Nat.succ_le_succ (List.length_take_le _ _)

theorem onSetNewPrevHash {id : TemplateId} (h : ch.onSetNewPrevHash id = some ch') :
    OnTip ⟨some id, []⟩ cap ch' := by
  unfold Channel.onSetNewPrevHash at h
  split at h
  · cases h
    exact single [] rfl
  · split at h
    · cases h
      exact ⟨nofun, Nat.zero_le _⟩
    · cases h

end Channel.OnTip

structure Follows (l : List Outgoing) (c : Consumer) : Prop where
  prevHash : c.lastNewPrevHash = (Tip.read l).template
  channels : ∀ ch ∈ c.channels, ch.OnTip (Tip.read l) c.pastJobsCap

namespace Follows

variable {l : List Outgoing} {c : Consumer}

theorem handle (h : Follows l c) (m : Outgoing) : Follows (l ++ [m]) (c.handle m) := by
  cases m with
  | newTemplate p =>
    have hread : Tip.read (l ++ [.newTemplate p]) = (Tip.read l).note (.newTemplate p) :=
      Tip.read_concat _ _
    rw [Tip.note] at hread
    cases hfuture : p.newTemplate.futureTemplate with
    | true =>
      rw [hfuture, if_pos rfl] at hread
      refine ⟨by rw [hread]; exact h.prevHash, ?_⟩
      intro ch' hch'
      obtain ⟨ch, hch, rfl⟩ := List.mem_map.mp hch'
      rw [hread, hfuture]
      exact (h.channels ch hch).onFutureTemplate _
    | false =>
      rw [hfuture, if_neg Bool.false_ne_true] at hread
      refine ⟨by rw [hread]; exact h.prevHash, ?_⟩
      intro ch' hch'
      obtain ⟨ch, hch, rfl⟩ := List.mem_map.mp hch'
      rw [hread, hfuture]
      exact (h.channels ch hch).onRefresh _
  | setNewPrevHash m =>
    have hread : Tip.read (l ++ [.setNewPrevHash m]) = ⟨some m.templateId, []⟩ := Tip.read_concat _ _
    dsimp only [Consumer.handle, Consumer.handleSetNewPrevHash]
    split
    · exact ⟨by rw [hread]; rfl, List.forall_mem_nil _⟩
    next channels hchannels =>
      refine ⟨by rw [hread], ?_⟩
      intro ch' hch'
      obtain ⟨ch, -, hset⟩ := mem_of_mapM hchannels hch'
      rw [hread]
      exact .onSetNewPrevHash hset
  | response r =>
    have hread : Tip.read (l ++ [.response r]) = Tip.read l := Tip.read_concat _ _
    exact ⟨by rw [hread]; exact h.prevHash, by rw [hread]; exact h.channels⟩

theorem openChannel (h : Follows l c) : Follows l c.openChannel := by
  unfold Consumer.openChannel
  split
  next template prevHash _ hprevHash =>
    split
    · exact ⟨h.prevHash, nofun⟩
    next ch hopened =>
      refine ⟨h.prevHash, ?_⟩
      intro ch' hch'
      rcases List.mem_append.mp hch' with hch' | hch'
      · exact h.channels ch' hch'
      · cases List.mem_singleton.mp hch'
        have htip : ch.OnTip ⟨some prevHash, []⟩ c.pastJobsCap := .onSetNewPrevHash hopened
        refine ⟨?_, htip.kept⟩
        intro i id hi
        rcases htip.jobs i id hi with hid | hid
        · exact Or.inl (h.prevHash.symm.trans (hprevHash.trans hid))
        · cases hid
  · exact h

end Follows

/-! ## Every run -/

structure SystemInv (maxPastJobs : Option Nat) (s : System) : Prop where
  tasks : Tasks s.provider
  retention : Retention s.provider.shared s.provider.work?
  announced : Announced s.provider.shared s.provider.work?
  coverage : Coverage s.provider.shared s.provider.work?
  kept : s.provider.shared.maxSameTipTemplates = pastJobsCap maxPastJobs + 1
  cap : s.consumer.pastJobsCap = pastJobsCap maxPastJobs
  processed : s.consumer.processed ≤ s.provider.shared.outgoing.length
  follows : Follows (s.provider.shared.outgoing.take s.consumer.processed) s.consumer

theorem outgoing_grows {retiring : Bool} (he : Effect retiring d w d' w') :
    d.outgoing <+: d'.outgoing := by
  cases he with
  | refresh d' c id f p hrequest htip hlive hpublish =>
    obtain ⟨-, -, rfl⟩ := Shared.publishTemplate_eq_some hpublish
    exact List.prefix_rfl
  | replace d₁ d' c id f p hrequest hcleared hpublish =>
    obtain ⟨-, -, rfl⟩ := Shared.publishTemplate_eq_some hpublish
    rcases hcleared with rfl | ⟨rfl, -⟩
    · exact List.prefix_rfl
    · exact List.prefix_rfl
  | sendFuture | sendRefresh | sendSetNewPrevHash | respond => exact List.prefix_append _ _
  | _ => exact List.prefix_rfl

theorem destroyNext_cases (s : State) (due : List TemplateData) :
    (s.destroyNext due).work? = s.work? ∧ ∃ destroyed,
      (s.destroyNext due).shared = { s.shared with destroyed := destroyed } := by
  cases due with
  | nil => exact ⟨rfl, s.shared.destroyed, rfl⟩
  | cons t due =>
    dsimp only [State.destroyNext]
    split
    · exact ⟨rfl, s.shared.destroyed, rfl⟩
    · exact ⟨rfl, _, rfl⟩

/-- The task that retires templates sweeps, or leaves the store alone. -/
theorem stepRetirement_cases (s : State) (a : Answer) :
    (s.stepRetirement a).work? = s.work? ∧
      ((a = .done ∧ s.retirement.isSleeping = true ∧ ∃ destroyed,
          (s.stepRetirement a).shared = { s.shared.extractDue.1 with destroyed := destroyed }) ∨
        Coverage.Same s.shared (s.stepRetirement a).shared ∧
          (s.stepRetirement a).shared.outgoing = s.shared.outgoing) := by
  have hstay : s.work? = s.work? ∧ Coverage.Same s.shared s.shared ∧
      s.shared.outgoing = s.shared.outgoing :=
    ⟨rfl, ⟨rfl, rfl, rfl, rfl, rfl, rfl, Nat.le_refl _, id⟩, rfl⟩
  have hcancel : s.work? = s.work? ∧ Coverage.Same s.shared s.shared.cancel ∧
      s.shared.cancel.outgoing = s.shared.outgoing :=
    ⟨rfl, ⟨rfl, rfl, rfl, rfl, rfl, rfl, Nat.le_refl _, nofun⟩, rfl⟩
  unfold State.stepRetirement
  split
  · split
    · exact ⟨hstay.1, Or.inr hstay.2⟩
    · exact ⟨hstay.1, Or.inr hstay.2⟩
  · exact ⟨hcancel.1, Or.inr hcancel.2⟩
  · exact ⟨hstay.1, Or.inr hstay.2⟩
  · split
    · exact ⟨hstay.1, Or.inr hstay.2⟩
    · exact ⟨hstay.1, Or.inr hstay.2⟩
  next hsleeping =>
    obtain ⟨hwork, destroyed, hshared⟩ :=
      destroyNext_cases { s with shared := s.shared.extractDue.1 } s.shared.extractDue.2
    exact ⟨hwork, Or.inl ⟨rfl, by rw [hsleeping]; rfl, destroyed, hshared⟩⟩
  · split
    · exact ⟨hstay.1, Or.inr hstay.2⟩
    · exact ⟨hstay.1, Or.inr hstay.2⟩
  · exact ⟨hcancel.1, Or.inr hcancel.2⟩
  next due _ =>
    obtain ⟨hwork, destroyed, hshared⟩ := destroyNext_cases s due
    refine ⟨hwork, Or.inr ?_⟩
    rw [hshared]
    exact ⟨⟨rfl, rfl, rfl, rfl, rfl, rfl, Nat.le_refl _, id⟩, rfl⟩
  · exact ⟨hstay.1, Or.inr hstay.2⟩

namespace SystemInv

variable {maxPastJobs : Option Nat} {t : System}

theorem start (maxPastJobs : Option Nat) : SystemInv maxPastJobs (.start maxPastJobs) where
  tasks := tasks_new _
  retention := Retention.new _
  announced := Announced.new _
  coverage := Coverage.new _
  kept := retention_eq maxPastJobs
  cap := rfl
  processed := Nat.le_refl _
  follows := ⟨rfl, nofun⟩

theorem provider (h : SystemInv maxPastJobs t) (e : State.Event)
    (hintime : t.InTime (.provider e)) : SystemInv maxPastJobs (t.step (.provider e)) := by
  obtain ⟨hsound, htasks⟩ := h.tasks.step_sound e
  have hgrows := outgoing_grows hsound
  have hcoverage : Coverage (t.provider.step e).shared (t.provider.step e).work? := by
    cases e with
    | retirement a =>
      obtain ⟨hwork, ⟨rfl, hsleeping, destroyed, hshared⟩ | ⟨hsame, -⟩⟩ :=
        stepRetirement_cases t.provider a
      · have hswept := h.coverage.swept destroyed (hintime rfl hsleeping)
        rw [State.step, hwork, hshared]
        exact hswept
      · rw [State.step, hwork]
        exact h.coverage.same hsame
    | _ => exact h.coverage.effect h.retention h.announced hsound
  refine ⟨htasks, h.retention.effect hsound, h.announced.effect hsound, hcoverage,
    (maxSameTipTemplates_kept hsound).trans h.kept, h.cap,
    Nat.le_trans h.processed hgrows.length_le, ?_⟩
  have htake : (t.provider.step e).shared.outgoing.take t.consumer.processed =
      t.provider.shared.outgoing.take t.consumer.processed := by
    obtain ⟨later, hlater⟩ := hgrows
    rw [← hlater, List.take_append_of_le_length h.processed]
  have hfollows := h.follows
  rw [← htake] at hfollows
  exact hfollows

theorem consume (h : SystemInv maxPastJobs t) : SystemInv maxPastJobs t.consume := by
  unfold System.consume
  split
  · exact h
  next m hm =>
    obtain ⟨hlt, rfl⟩ := List.getElem?_eq_some_iff.mp hm
    have hcap : ∀ m, (t.consumer.handle m).pastJobsCap = t.consumer.pastJobsCap := by
      intro m
      cases m with
      | setNewPrevHash m =>
        dsimp only [Consumer.handle, Consumer.handleSetNewPrevHash]
        split <;> rfl
      | _ => rfl
    have hfollows := h.follows.handle t.provider.shared.outgoing[t.consumer.processed]
    rw [List.take_append_getElem hlt] at hfollows
    exact ⟨h.tasks, h.retention, h.announced, h.coverage, h.kept, (hcap _).trans h.cap, hlt,
      ⟨hfollows.prevHash, hfollows.channels⟩⟩

theorem step (h : SystemInv maxPastJobs t) (e : System.Event) (hintime : t.InTime e) :
    SystemInv maxPastJobs (t.step e) := by
  cases e with
  | provider e => exact h.provider e hintime
  | consume =>
    dsimp only [System.step]
    split
    · exact h
    · exact h.consume
  | openChannel =>
    dsimp only [System.step]
    split
    · exact h
    · have hopen : t.consumer.openChannel.pastJobsCap = t.consumer.pastJobsCap ∧
          t.consumer.openChannel.processed = t.consumer.processed := by
        unfold Consumer.openChannel
        split
        · split <;> exact ⟨rfl, rfl⟩
        · exact ⟨rfl, rfl⟩
      refine ⟨h.tasks, h.retention, h.announced, h.coverage, h.kept, hopen.1.trans h.cap, ?_, ?_⟩
      · dsimp only
        rw [hopen.2]
        exact h.processed
      · dsimp only
        rw [hopen.2]
        exact h.follows.openChannel
  | closeChannel i =>
    refine { h with follows := ⟨h.follows.prevHash, ?_⟩ }
    intro ch hch
    exact h.follows.channels ch (List.mem_of_mem_eraseIdx hch)

/-- What a consumer that has read everything may name is in store. -/
theorem found (h : SystemInv maxPastJobs t)
    (hread : t.consumer.processed = t.provider.shared.outgoing.length) {ch : Channel}
    (hch : ch ∈ t.consumer.channels) {id : TemplateId} (hid : id ∈ ch.jobs) :
    ∃ u, t.provider.shared.templateDataFor id = some u := by
  have hfollows := h.follows
  rw [hread, List.take_length] at hfollows
  have htip := hfollows.channels ch hch
  obtain ⟨i, hi⟩ := List.mem_iff_getElem?.mp hid
  have hsafe : t.provider.shared.Safe id := by
    rcases htip.jobs i id hi with htemplate | hrefresh
    · exact h.coverage.template id htemplate
    · refine h.coverage.refreshes id ?_
      have hlt := (List.getElem?_eq_some_iff.mp hi).1
      have hkept := htip.kept
      rw [h.cap] at hkept
      rw [h.kept]
      refine List.mem_iff_getElem?.mpr ⟨i, ?_⟩
      rw [List.getElem?_take, if_pos (Nat.lt_of_lt_of_le hlt hkept)]
      exact hrefresh
  obtain ⟨u, hheld, hu, -⟩ := hsafe
  exact ⟨u, h.retention.templateDataFor_eq_some.mpr ⟨hheld, hu⟩⟩

end SystemInv

/-- If no sweep comes while a replacement has been under way for the grace period, a consumer that has
    read everything published so far finds the template of every job that its channels accept shares
    for: `handle_submit_solution` submits the solution. -/
theorem job_templates_found (maxPastJobs : Option Nat) (es : List System.Event)
    (hintime : Runs.Guarded System.step System.InTime (.start maxPastJobs) es) :
    let t := System.after maxPastJobs es
    t.consumer.processed = t.provider.shared.outgoing.length →
      ∀ ch ∈ t.consumer.channels, ∀ id ∈ ch.jobs,
        ∃ u, t.provider.shared.templateDataFor id = some u ∧
          (t.provider.incoming = .idle → t.provider.shared.globalCancelled = false →
            (t.provider.step (.incoming (.recv (.submitSolution id)))).incoming = .submitting u) := by
  intro t hread ch hch id hid
  have hinv : SystemInv maxPastJobs t := Runs.run_invariant_of_guarded (SystemInv maxPastJobs)
    (fun _ e h hintime => h.step e hintime) (SystemInv.start maxPastJobs) es hintime
  obtain ⟨u, hu⟩ := hinv.found hread hch hid
  refine ⟨u, hu, ?_⟩
  intro hidle hactive
  simp only [State.step, State.stepIncoming, hidle, State.handleMessage, hactive,
    Bool.false_eq_true, if_false, hu]

namespace System

/-- Constraints arrive, Bitcoin Core answers, and the first template is announced. -/
def bootstrapRun (f : Fetched) : List Event :=
  [.provider (.run (.recv (.coinbaseOutputConstraints ⟨0, 0⟩))), .provider (.run .blockTemplate),
    .provider (.run (.fetched f)), .provider (.run .done), .provider (.run .done),
    .provider (.retirement .done), .provider (.monitor 0 .done)]

def sampleFetched : Fetched where
  header := ⟨0x20000000, ⟨List.replicate 32 1, rfl⟩, ⟨List.replicate 32 2, rfl⟩, 0, 0x1d00ffff, 0⟩
  coinbaseTx := ⟨2, 0, [3, 1, 2, 3], 0xffffffff, [], []⟩
  blockRewardRemaining := 5000000000
  merklePath := []

/-- The monitor is handed the next template. -/
def refreshRun (f : Fetched) : List Event :=
  [.provider (.monitor 0 .blockTemplate), .provider (.monitor 0 (.fetched f)),
    .provider (.monitor 0 .done), .consume]

/-- New constraints end the monitor, and all templates are retired. -/
def rotationRun : List Event :=
  [.provider (.incoming (.recv (.coinbaseOutputConstraints ⟨100, 0⟩))),
    .provider (.monitor 0 .cancelled), .provider (.monitor 0 .done), .provider (.incoming .done)]

/-- A channel is opened, the template is refreshed twice, and a rotation takes five seconds. -/
def sampleRun : List Event :=
  bootstrapRun sampleFetched ++ [.consume, .consume, .openChannel] ++ refreshRun sampleFetched ++
    refreshRun sampleFetched ++ rotationRun ++
    [.provider (.tick (seconds 5)), .provider (.retirement .done)]

/-- Bitcoin Core takes eleven seconds to answer after a rotation. -/
def slowRotationRun : List Event :=
  bootstrapRun sampleFetched ++ [.consume, .consume, .openChannel] ++ rotationRun ++
    [.provider (.tick (seconds 11)), .provider (.retirement .done)]

instance (s : System) (e : Event) : Decidable (s.InTime e) := by
  unfold InTime
  infer_instance

end System

theorem job_templates_found_sample :
    (System.after (some 2) System.sampleRun).consumer.channels = [⟨[], some 2, [1, 0]⟩] ∧
      ∃ u, (System.after (some 2) System.sampleRun).provider.shared.templateDataFor 0 = some u := by
  have hchannels : (System.after (some 2) System.sampleRun).consumer.channels =
      [⟨[], some 2, [1, 0]⟩] := by decide +kernel
  refine ⟨hchannels, ?_⟩
  obtain ⟨u, hu, -⟩ := job_templates_found (some 2) System.sampleRun (by decide +kernel)
    (by decide +kernel) ⟨[], some 2, [1, 0]⟩ (by rw [hchannels]; exact List.mem_singleton_self _) 0
    (by decide)
  exact ⟨u, hu⟩

/-- The channel's active job is still good, and its template is gone. -/
theorem active_job_template_destroyed :
    ¬ ∀ (maxPastJobs : Option Nat) (es : List System.Event),
      let t := System.after maxPastJobs es
      t.consumer.processed = t.provider.shared.outgoing.length →
        ∀ ch ∈ t.consumer.channels, ∀ id ∈ ch.jobs,
          (t.provider.shared.templateDataFor id).isSome = true := by
  intro h
  have hrun := h none System.slowRotationRun (by decide +kernel) ⟨[], some 0, []⟩ (by decide +kernel) 0
    (by decide)
  exact absurd hrun (by decide +kernel)

end Sv2Apps.BitcoinCore.TemplateDistribution
