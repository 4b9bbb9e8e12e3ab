/-
  Jdc/Runtime.lean
  ================
  **The life of a JD-client** — `start`: `initialize_jd` tries the configured pairs of a pool and a
  job declarator server, the connections are set up with the pair that answers, the services are
  started, and a fallback tears the session down and starts the search again.  When no pair is left,
  or the search is cut short by a shutdown, the client mines solo.

  What the network does, and when the two tokens are cancelled, is the action.  An attempt asks for
  a shutdown only when the shutdown token is cancelled, and then the search is over in any case.
  The tasks of a session do not outlast `trigger_fallback_and_wait`.
-/
import Sv2Apps.Lib.Failover
import Sv2Apps.Lib.Runs
import Sv2Apps.SetupConnection

namespace Sv2Apps.Jdc.Runtime

/-- `MAX_RETRIES`. -/
def MAX_RETRIES : Nat := 3

/-- What is used of the configuration. -/
structure Config where
  mode : JDMode
  /-- The identities of the upstreams, in their order. -/
  upstreams : List String

inductive JDCErrorKind where
  | templateProvider
  | channelManager
  | noUpstreamConfig (mode : JDMode)
  | services
deriving DecidableEq

inductive Phase where
  | templateProvider
  | channelManager
  | connecting
  /-- Both connections stand; `upstream.start` sets up the one to the pool. -/
  | poolSetup
  /-- `job_declarator.start` sets up the one to the job declarator server. -/
  | jdsSetup
  | startingServices
  | running
  | cleaningUp
  | stopped (r : Except JDCErrorKind Unit)
deriving DecidableEq

structure JdcRuntime where
  phase : Phase
  /-- The flags are `tried_or_flagged` of the upstreams. -/
  upstreams : Failover.State
  /-- `JDMode::inner` -/
  mode : JDMode
  /-- The shutdown token. -/
  cancelled : Bool
  /-- The token of the session's fallback coordinator. -/
  fallback : Bool
  /-- `channel_manager.set_user_identity`, with the upstream that it is taken from. -/
  userIdentity : Option (Nat × String)
  /-- The job declarator server of the session has accepted the setup. -/
  jdsAccepted : Bool

/-- How a setup ends: with a success, or with an error that asks for one of the two actions. -/
inductive SetupOutcome where
  | success
  | fallback
  | shutdown
deriving DecidableEq

inductive Action where
  /-- `bootstrap_template_provider`, `bootstrap_channel_manager`, `start_services` return. -/
  | templateProvider (ok : Bool)
  | channelManager (ok : Bool)
  | services (ok : Bool)
  /-- `try_initialize_single` returns. -/
  | attempt (connected : Bool)
  /-- The checks of the shutdown token between the attempts. -/
  | checkShutdown
  | poolSetup (o : SetupOutcome)
  | jdsSetup (o : SetupOutcome)
  /-- The job declarator server sends `SetupConnectionSuccess` once more. -/
  | jdsSetupSuccess
  /-- Somebody cancels a token. -/
  | cancel
  | requestFallback
  /-- `wait` returns. -/
  | event
  /-- `trigger_fallback_and_wait` returns. -/
  | cleanedUp
deriving DecidableEq

variable (c : Config)

/-- `JDMode::activate`. -/
def activate (r : JdcRuntime) : JdcRuntime := { r with mode := c.mode }

/-- `JDMode::set_solo_mining`. -/
def setSoloMining (r : JdcRuntime) : JdcRuntime := { r with mode := .soloMining }

/-- `JdcRuntime::new` and `bootstrap_io`. -/
def new : JdcRuntime :=
  { phase := .templateProvider
    upstreams := Failover.start c.upstreams.length
    mode := .soloMining
    cancelled := false
    fallback := false
    userIdentity := none
    jdsAccepted := false }

def intoSoloMining (r : JdcRuntime) : JdcRuntime :=
  { setSoloMining r with phase := .startingServices }

/-- The loop of `initialize_jd` goes on, or is left because no upstream is left. -/
def initializeJd (r : JdcRuntime) (upstreams : Failover.State) : JdcRuntime :=
  if upstreams.search = .exhausted then intoSoloMining { r with upstreams }
  else { r with upstreams, phase := .connecting }

/-- `bootstrap_mining`, after the channel manager. -/
def bootstrapMining (r : JdcRuntime) : JdcRuntime :=
  if c.mode = .soloMining then intoSoloMining r
  else if c.upstreams.isEmpty then
    { r with phase := .stopped (.error (.noUpstreamConfig c.mode)) }
  else initializeJd r (Failover.beginSearch r.upstreams)

def attempt (r : JdcRuntime) (connected : Bool) : JdcRuntime :=
  match r.phase, r.upstreams.search with
  | .connecting, .trying i _ =>
    if connected then
      { r with
        phase := .poolSetup
        upstreams := Failover.succeed r.upstreams
        userIdentity := some (i, c.upstreams.getD i "") }
    else if r.cancelled then
      intoSoloMining { r with upstreams := Failover.abandon (some false) r.upstreams }
    else initializeJd r (Failover.fail MAX_RETRIES r.upstreams)
  | _, _ => r

/-- `handle_error_action` for an error of a setup. -/
def handleSetupError (r : JdcRuntime) (o : SetupOutcome) : JdcRuntime :=
  if r.cancelled || r.fallback then r
  else
    match o with
    | .success => r
    | .fallback => { r with fallback := true }
    | .shutdown => { r with cancelled := true }

/-- A step of `start`. -/
def step (r : JdcRuntime) : Action → JdcRuntime
  | .templateProvider ok =>
    match r.phase with
    | .templateProvider =>
      if ok then { r with phase := .channelManager }
      else { r with phase := .stopped (.error .templateProvider) }
    | _ => r
  | .channelManager ok =>
    match r.phase with
    | .channelManager =>
      if ok then bootstrapMining c r else { r with phase := .stopped (.error .channelManager) }
    | _ => r
  | .services ok =>
    match r.phase with
    | .startingServices =>
      if ok then { r with phase := .running } else { r with phase := .stopped (.error .services) }
    | _ => r
  | .attempt connected => attempt c r connected
  | .checkShutdown =>
    match r.phase with
    | .connecting =>
      if r.cancelled then
        intoSoloMining { r with upstreams := Failover.abandon none r.upstreams }
      else r
    | _ => r
  | .poolSetup o =>
    match r.phase with
    | .poolSetup => { handleSetupError r o with phase := .jdsSetup }
    | _ => r
  | .jdsSetup o =>
    match r.phase with
    | .jdsSetup =>
      if o = .success then
        { activate c r with jdsAccepted := true, phase := .startingServices }
      else { handleSetupError r o with phase := .startingServices }
    | _ => r
  | .jdsSetupSuccess =>
    -- only the loop that `job_declarator.start` has spawned reads it
    if r.jdsAccepted && (r.phase = .startingServices || r.phase = .running) then activate c r else r
  | .cancel => { r with cancelled := true }
  | .requestFallback =>
    match r.phase with
    | .jdsSetup => { r with fallback := true }
    | .startingServices => { r with fallback := true }
    | .running => { r with fallback := true }
    | _ => r
  | .event =>
    match r.phase with
    | .running =>
      if r.cancelled then { r with phase := .stopped (.ok ()) }
      else if r.fallback then { r with phase := .cleaningUp }
      else r
    | _ => r
  | .cleanedUp =>
    match r.phase with
    | .cleaningUp =>
      { setSoloMining r with
        phase := .channelManager
        fallback := false
        userIdentity := none
        jdsAccepted := false }
    | _ => r

/-- The state after a run. -/
def after (as : List Action) : JdcRuntime := Runs.run (step c) (new c) as

/-! ## Every run -/

variable {c : Config} {r : JdcRuntime}

/-- A session with upstream `i` has its identity. -/
def Serves (c : Config) (r : JdcRuntime) : Prop :=
  ∃ i identity, r.upstreams.search = .found i ∧ c.upstreams[i]? = some identity ∧
    r.userIdentity = some (i, identity)

/-- No upstream of the session has been found yet. -/
def Phase.searching : Phase → Bool
  | .templateProvider => true
  | .channelManager => true
  | .connecting => true
  | _ => false

/-- What every step keeps. -/
structure Sound (c : Config) (r : JdcRuntime) : Prop where
  orderly : Failover.Orderly MAX_RETRIES c.upstreams.length r.upstreams
  mode : r.mode = if r.jdsAccepted then c.mode else .soloMining
  /-- The session has an upstream, or none has been found and no setup has been accepted. -/
  identity : Serves c r ∨ r.userIdentity = none ∧ r.jdsAccepted = false
  unserved : r.phase.searching = true → r.userIdentity = none
  settingUp : r.phase = .poolSetup ∨ r.phase = .jdsSetup → Serves c r
  noUpstream : ∀ m, r.phase = .stopped (.error (.noUpstreamConfig m)) → c.upstreams = []
  /-- Without an upstream: solo by configuration, none left, or a shutdown. -/
  solo : r.userIdentity = none → r.phase = .startingServices ∨ r.phase = .running →
    c.mode = .soloMining ∨ r.upstreams.search = .exhausted ∨ r.cancelled = true

/-- The session has not found an upstream. -/
structure Alone (r : JdcRuntime) : Prop where
  userIdentity : r.userIdentity = none
  jdsAccepted : r.jdsAccepted = false
  mode : r.mode = .soloMining

theorem Sound.alone (h : Sound c r) (hphase : r.phase.searching = true) : Alone r := by
  have hnone := h.unserved hphase
  rcases h.identity with ⟨i, identity, _, _, hsome⟩ | ⟨_, haccepted⟩
  · rw [hnone] at hsome
    cases hsome
  · refine ⟨hnone, haccepted, ?_⟩
    have hmode := h.mode
    simpa [haccepted] using hmode

theorem intoSoloMining_sound (ha : Alone r)
    (ho : Failover.Orderly MAX_RETRIES c.upstreams.length r.upstreams)
    (hsolo : c.mode = .soloMining ∨ r.upstreams.search = .exhausted ∨ r.cancelled = true) :
    Sound c (intoSoloMining r) where
  orderly := ho
  mode := by simp [intoSoloMining, setSoloMining, ha.jdsAccepted]
  identity := .inr ⟨ha.userIdentity, ha.jdsAccepted⟩
  unserved := by simp [intoSoloMining, Phase.searching]
  settingUp := by simp [intoSoloMining]
  noUpstream := by simp [intoSoloMining]
  solo := fun _ _ => hsolo

theorem initializeJd_sound (ha : Alone r) {upstreams : Failover.State}
    (ho : Failover.Orderly MAX_RETRIES c.upstreams.length upstreams) :
    Sound c (initializeJd r upstreams) := by
  unfold initializeJd
  split
  next hex =>
    exact intoSoloMining_sound ⟨ha.userIdentity, ha.jdsAccepted, ha.mode⟩ ho (.inr (.inl hex))
  · exact {
      orderly := ho
      mode := by simp [ha.jdsAccepted, ha.mode]
      identity := .inr ⟨ha.userIdentity, ha.jdsAccepted⟩
      unserved := fun _ => ha.userIdentity
      settingUp := by simp
      noUpstream := by simp
      solo := by simp }

theorem bootstrapMining_sound (ha : Alone r)
    (ho : Failover.Orderly MAX_RETRIES c.upstreams.length r.upstreams) :
    Sound c (bootstrapMining c r) := by
  unfold bootstrapMining
  split
  next hmode => exact intoSoloMining_sound ha ho (.inl hmode)
  · split
    next hempty =>
      exact {
        orderly := ho
        mode := by simp [ha.jdsAccepted, ha.mode]
        identity := .inr ⟨ha.userIdentity, ha.jdsAccepted⟩
        unserved := by simp [Phase.searching]
        settingUp := by simp
        noUpstream := fun _ _ => List.isEmpty_iff.mp hempty
        solo := by simp }
    · exact initializeJd_sound ha (ho.beginSearch (by decide))

theorem attempt_sound (h : Sound c r) (connected : Bool) : Sound c (attempt c r connected) := by
  unfold attempt
  split
  next i k hphase hs =>
    have ha := h.alone (by rw [hphase]; rfl)
    split
    · have hi : i < c.upstreams.length := h.orderly.trying_lt hs
      have hserves : Serves c { r with
          phase := .poolSetup
          upstreams := Failover.succeed r.upstreams
          userIdentity := some (i, c.upstreams.getD i "") } := by
        refine ⟨i, c.upstreams.getD i "", ?_, ?_, rfl⟩
        · simp [Failover.succeed, hs]
        · simp [List.getD, hi]
      exact {
        orderly := h.orderly.succeed
        mode := by simp [ha.jdsAccepted, ha.mode]
        identity := .inl hserves
        unserved := by simp [Phase.searching]
        settingUp := fun _ => hserves
        noUpstream := by simp
        solo := by simp }
    · split
      next hcancelled =>
        exact intoSoloMining_sound ⟨ha.userIdentity, ha.jdsAccepted, ha.mode⟩
          (h.orderly.abandon _) (.inr (.inr hcancelled))
      · exact initializeJd_sound ha (h.orderly.fail (by decide))
  · exact h

/-- A step that leaves the upstreams, the identity, the mode and the answer of the job declarator
    server alone. -/
theorem Sound.of_phase (h : Sound c r) {r' : JdcRuntime} (hup : r'.upstreams = r.upstreams)
    (hmode : r'.mode = r.mode) (hid : r'.userIdentity = r.userIdentity)
    (hacc : r'.jdsAccepted = r.jdsAccepted)
    (hunserved : r'.phase.searching = true → r.userIdentity = none)
    (hsettingUp : r'.phase = .poolSetup ∨ r'.phase = .jdsSetup → Serves c r)
    (hno : ∀ m, r'.phase = .stopped (.error (.noUpstreamConfig m)) → c.upstreams = [])
    (hsolo : r.userIdentity = none → r'.phase = .startingServices ∨ r'.phase = .running →
      c.mode = .soloMining ∨ r.upstreams.search = .exhausted ∨ r'.cancelled = true) :
    Sound c r' := by
  have hserves : Serves c r → Serves c r' := by
    rintro ⟨i, identity, hs, hget, hsome⟩
    exact ⟨i, identity, by rw [hup]; exact hs, hget, by rw [hid]; exact hsome⟩
  exact {
    orderly := by rw [hup]; exact h.orderly
    mode := by rw [hmode, hacc]; exact h.mode
    identity := by
      rw [hid, hacc]
      exact h.identity.imp hserves id
    unserved := by rw [hid]; exact hunserved
    settingUp := fun hphase => hserves (hsettingUp hphase)
    noUpstream := hno
    solo := by rw [hid, hup]; exact hsolo }

theorem Serves.ne_none (h : Serves c r) : r.userIdentity ≠ none := by
  obtain ⟨i, identity, _, _, hsome⟩ := h
  simp [hsome]

theorem new_sound (c : Config) : Sound c (new c) where
  orderly := Failover.start_orderly _ _
  mode := by simp [new]
  identity := .inr ⟨rfl, rfl⟩
  unserved := fun _ => rfl
  settingUp := by simp [new]
  noUpstream := by simp [new]
  solo := by simp [new]

/-- A phase that ends the process, for a reason other than the configuration. -/
theorem Sound.stopped (h : Sound c r) {res : Except JDCErrorKind Unit}
    (hres : ∀ m, res ≠ .error (.noUpstreamConfig m)) : Sound c { r with phase := .stopped res } := by
  refine h.of_phase rfl rfl rfl rfl ?_ ?_ ?_ ?_
  · simp [Phase.searching]
  · simp
  · intro m hm
    exact absurd (Phase.stopped.inj hm) (hres m)
  · simp

/-- A token is cancelled. -/
theorem Sound.tokens (h : Sound c r) {cancelled fallback : Bool}
    (hc : r.cancelled = true → cancelled = true) : Sound c { r with cancelled, fallback } := by
  refine h.of_phase rfl rfl rfl rfl h.unserved h.settingUp h.noUpstream ?_
  intro hnone hphase
  exact (h.solo hnone hphase).imp id (Or.imp id hc)

theorem handleSetupError_sound (h : Sound c r) (o : SetupOutcome) :
    Sound c (handleSetupError r o) := by
  unfold handleSetupError
  split
  · exact h
  · split
    · exact h
    · exact h.tokens id
    · exact h.tokens fun _ => rfl

theorem handleSetupError_phase (r : JdcRuntime) (o : SetupOutcome) :
    (handleSetupError r o).phase = r.phase := by
  unfold handleSetupError
  split
  · rfl
  · split
    · rfl
    · rfl
    · rfl

/-- The mode of the configuration is active while the job declarator server has accepted. -/
theorem activate_sound (h : Sound c r) (hserves : Serves c r) :
    Sound c { activate c r with jdsAccepted := true } where
  orderly := h.orderly
  mode := rfl
  identity := .inl hserves
  unserved := h.unserved
  settingUp := fun _ => hserves
  noUpstream := h.noUpstream
  solo := fun hnone _ => absurd hnone hserves.ne_none

/-- The services are started for the upstream that was found. -/
theorem Sound.serve (h : Sound c r) (hserves : Serves c r) {phase : Phase}
    (hphase : phase = .jdsSetup ∨ phase = .startingServices) : Sound c { r with phase } := by
  refine h.of_phase rfl rfl rfl rfl ?_ ?_ ?_ ?_
  · rcases hphase with rfl | rfl
    · simp [Phase.searching]
    · simp [Phase.searching]
  · exact fun _ => hserves
  · rcases hphase with rfl | rfl
    · simp
    · simp
  · exact fun hnone _ => absurd hnone hserves.ne_none

theorem step_sound (h : Sound c r) (a : Action) : Sound c (step c r a) := by
  cases a with
  | templateProvider ok =>
    simp only [step]
    split
    next hphase =>
      have hnone := h.unserved (by rw [hphase]; rfl)
      split
      · exact h.of_phase rfl rfl rfl rfl (fun _ => hnone) (by simp) (by simp) (by simp)
      · exact h.stopped (by simp)
    · exact h
  | channelManager ok =>
    simp only [step]
    split
    next hphase =>
      split
      · exact bootstrapMining_sound (h.alone (by rw [hphase]; rfl)) h.orderly
      · exact h.stopped (by simp)
    · exact h
  | services ok =>
    simp only [step]
    split
    next hphase =>
      split
      · exact h.of_phase rfl rfl rfl rfl (by simp [Phase.searching]) (by simp) (by simp)
          (fun hnone _ => h.solo hnone (.inl hphase))
      · exact h.stopped (by simp)
    · exact h
  | attempt connected => exact attempt_sound h connected
  | checkShutdown =>
    simp only [step]
    split
    next hphase =>
      have ha := h.alone (by rw [hphase]; rfl)
      split
      next hcancelled =>
        exact intoSoloMining_sound ⟨ha.userIdentity, ha.jdsAccepted, ha.mode⟩
          (h.orderly.abandon _) (.inr (.inr hcancelled))
      · exact h
    · exact h
  | poolSetup o =>
    simp only [step]
    split
    next hphase =>
      have hs := handleSetupError_sound h o
      exact hs.serve (hs.settingUp (.inl (by rw [handleSetupError_phase, hphase]))) (.inl rfl)
    · exact h
  | jdsSetup o =>
    simp only [step]
    split
    next hphase =>
      split
      · have hs := activate_sound h (h.settingUp (.inr hphase))
        exact hs.serve (hs.settingUp (.inr hphase)) (.inr rfl)
      · have hs := handleSetupError_sound h o
        exact hs.serve (hs.settingUp (.inr (by rw [handleSetupError_phase, hphase]))) (.inr rfl)
    · exact h
  | jdsSetupSuccess =>
    simp only [step]
    split
    next hacc =>
      rw [Bool.and_eq_true] at hacc
      have hserves : Serves c r := by
        rcases h.identity with hserves | ⟨_, hnot⟩
        · exact hserves
        · rw [hacc.1] at hnot
          cases hnot
      have hs := activate_sound h hserves
      rw [← hacc.1] at hs
      exact hs
    · exact h
  | cancel => exact h.tokens fun _ => rfl
  | requestFallback =>
    simp only [step]
    split
    · exact h.tokens id
    · exact h.tokens id
    · exact h.tokens id
    · exact h
  | event =>
    simp only [step]
    split
    · split
      · exact h.stopped (by simp)
      · split
        · exact h.of_phase rfl rfl rfl rfl (by simp [Phase.searching]) (by simp) (by simp) (by simp)
        · exact h
    · exact h
  | cleanedUp =>
    simp only [step]
    split
    · exact {
        orderly := h.orderly
        mode := rfl
        identity := .inr ⟨rfl, rfl⟩
        unserved := fun _ => rfl
        settingUp := by simp
        noUpstream := by simp
        solo := by simp }
    · exact h

theorem after_sound (c : Config) (as : List Action) : Sound c (after c as) :=
  Runs.run_invariant (Sound c) (fun _ a h => step_sound h a) (new_sound c) as

/-- Over the whole life of the process the pairs are tried in order, at most three times each, and
    connected to at most once.  The mode of the configuration is active exactly in a session whose
    job declarator server has accepted the setup.  The services of a session run with the identity
    of the pair it is connected to, or solo: by configuration, after a shutdown, or because every
    pair has been connected to or has failed three times. -/
theorem pairs_tried_fairly (c : Config) (as : List Action) :
    Failover.Fair MAX_RETRIES (after c as).upstreams.log ∧
    (after c as).mode = (if (after c as).jdsAccepted then c.mode else .soloMining) ∧
    ((after c as).phase = .startingServices ∨ (after c as).phase = .running →
      (∃ i identity, (after c as).upstreams.search = .found i ∧ c.upstreams[i]? = some identity ∧
        (after c as).userIdentity = some (i, identity)) ∨
      (after c as).mode = .soloMining ∧ (c.mode = .soloMining ∨ (after c as).cancelled = true ∨
        ∀ i, i < c.upstreams.length →
          (∃ a ∈ (after c as).upstreams.log, a.index = i ∧ a.succeeded = true) ∨
            (after c as).upstreams.log.countP (·.index = i) = MAX_RETRIES)) := by
  have h := after_sound c as
  refine ⟨h.orderly.fair, h.mode, ?_⟩
  intro hphase
  rcases h.identity with hserves | ⟨hnone, hacc⟩
  · exact .inl hserves
  · right
    constructor
    · have hmode := h.mode
      simpa [hacc] using hmode
    · rcases h.solo hnone hphase with hmode | hex | hcancelled
      · exact .inl hmode
      · exact .inr (.inr fun i hi => h.orderly.spent hex hi)
      · exact .inr (.inl hcancelled)

/-! ## Solo for good -/

/-- No upstream is left. -/
structure Spent (c : Config) (r : JdcRuntime) : Prop where
  search : r.upstreams.search = .exhausted
  userIdentity : r.userIdentity = none
  jdsAccepted : r.jdsAccepted = false

theorem Sound.spent (h : Sound c r) (hs : r.upstreams.search = .exhausted) : Spent c r := by
  rcases h.identity with ⟨i, identity, hfound, _, _⟩ | ⟨hnone, hacc⟩
  · rw [hs] at hfound
    cases hfound
  · exact ⟨hs, hnone, hacc⟩

theorem Spent.not_serves (h : Spent c r) : ¬Serves c r :=
  fun hserves => hserves.ne_none h.userIdentity

theorem step_spent (hsound : Sound c r) (h : Spent c r) (a : Action) : Spent c (step c r a) := by
  apply (step_sound hsound a).spent
  have hs := h.search
  cases a with
  | templateProvider ok =>
    simp only [step]
    split
    · split
      · exact hs
      · exact hs
    · exact hs
  | channelManager ok =>
    have hbegin := hsound.orderly.beginSearch_exhausted hs
    simp only [step]
    split
    · split
      · unfold bootstrapMining
        split
        · exact hs
        · split
          · exact hs
          · simp [initializeJd, intoSoloMining, setSoloMining, hbegin]
      · exact hs
    · exact hs
  | services ok =>
    simp only [step]
    split
    · split
      · exact hs
      · exact hs
    · exact hs
  | attempt connected => simp [step, attempt, hs]
  | checkShutdown =>
    simp only [step]
    split
    · split
      · simp [intoSoloMining, setSoloMining, Failover.abandon, hs]
      · exact hs
    · exact hs
  | poolSetup o =>
    simp only [step]
    split
    next hphase => exact absurd (hsound.settingUp (.inl hphase)) h.not_serves
    · exact hs
  | jdsSetup o =>
    simp only [step]
    split
    next hphase => exact absurd (hsound.settingUp (.inr hphase)) h.not_serves
    · exact hs
  | jdsSetupSuccess => simp [step, h.jdsAccepted, hs]
  | cancel => exact hs
  | requestFallback =>
    simp only [step]
    split
    · exact hs
    · exact hs
    · exact hs
    · exact hs
  | event =>
    simp only [step]
    split
    · split
      · exact hs
      · split
        · exact hs
        · exact hs
    · exact hs
  | cleanedUp =>
    simp only [step]
    split
    · exact hs
    · exact hs

/-- Once no pair is left the client mines solo for the rest of its life, through any number of
    fallbacks. -/
theorem solo_for_good (c : Config) (as bs : List Action)
    (h : (after c as).upstreams.search = .exhausted) :
    (after c (as ++ bs)).upstreams.search = .exhausted ∧
      (after c (as ++ bs)).mode = .soloMining ∧ (after c (as ++ bs)).userIdentity = none := by
  have hsound := after_sound c as
  have hrun := Runs.run_invariant (fun r => Sound c r ∧ Spent c r)
    (fun _ a hr => ⟨step_sound hr.1 a, step_spent hr.1 hr.2 a⟩) ⟨hsound, hsound.spent h⟩ bs
  have heq : after c (as ++ bs) = Runs.run (step c) (after c as) bs := Runs.run_append _ _ _ _
  rw [heq]
  obtain ⟨hs, hspent⟩ := hrun
  refine ⟨hspent.search, ?_, hspent.userIdentity⟩
  have hmode := hs.mode
  simpa [hspent.jdsAccepted] using hmode

/-! ## The servers of this repository -/

/-- The answer of a job declarator server of this repository. -/
def jdsAnswer (c : Config) : SetupOutcome :=
  if Setup.accepts (Setup.Jds.handleSetupConnection (Setup.Jdc.getSetupConnectionMessageJds c.mode))
  then .success else .fallback

/-- Every job declarator server of the run is one of this repository: it answers the setup as its
    handler does, and sends nothing of the kind later. -/
def FromThisRepository (c : Config) (a : Action) : Prop :=
  (∀ o, a = .jdsSetup o → o = jdsAnswer c) ∧ a ≠ .jdsSetupSuccess

theorem jdsAnswer_success (c : Config) : jdsAnswer c = .success ↔ c.mode = .fullTemplate := by
  rw [← Setup.jds_accepts_jdc]
  unfold jdsAnswer
  split
  next h => simp [h]
  next h => simp [h]

theorem initializeJd_jdsAccepted (r : JdcRuntime) (upstreams : Failover.State) :
    (initializeJd r upstreams).jdsAccepted = r.jdsAccepted := by
  unfold initializeJd
  split
  · rfl
  · rfl

theorem bootstrapMining_jdsAccepted (c : Config) (r : JdcRuntime) :
    (bootstrapMining c r).jdsAccepted = r.jdsAccepted := by
  unfold bootstrapMining
  split
  · rfl
  · split
    · rfl
    · exact initializeJd_jdsAccepted _ _

theorem attempt_jdsAccepted (c : Config) (r : JdcRuntime) (connected : Bool) :
    (attempt c r connected).jdsAccepted = r.jdsAccepted := by
  unfold attempt
  split
  · split
    · rfl
    · split
      · rfl
      · exact initializeJd_jdsAccepted _ _
  · rfl

theorem handleSetupError_jdsAccepted (r : JdcRuntime) (o : SetupOutcome) :
    (handleSetupError r o).jdsAccepted = r.jdsAccepted := by
  unfold handleSetupError
  split
  · rfl
  · split
    · rfl
    · rfl
    · rfl

/-- Only the answer of a job declarator server has the setup accepted. -/
theorem jdsAccepted_of_step {a : Action} (h : (step c r a).jdsAccepted = true) :
    r.jdsAccepted = true ∨ a = .jdsSetup .success := by
  cases a with
  | templateProvider ok =>
    simp only [step] at h
    split at h
    · split at h
      · exact .inl h
      · exact .inl h
    · exact .inl h
  | channelManager ok =>
    simp only [step] at h
    split at h
    · split at h
      · rw [bootstrapMining_jdsAccepted] at h
        exact .inl h
      · exact .inl h
    · exact .inl h
  | services ok =>
    simp only [step] at h
    split at h
    · split at h
      · exact .inl h
      · exact .inl h
    · exact .inl h
  | attempt connected =>
    simp only [step, attempt_jdsAccepted] at h
    exact .inl h
  | checkShutdown =>
    simp only [step] at h
    split at h
    · split at h
      · exact .inl h
      · exact .inl h
    · exact .inl h
  | poolSetup o =>
    simp only [step] at h
    split at h
    · simp only [handleSetupError_jdsAccepted] at h
      exact .inl h
    · exact .inl h
  | jdsSetup o =>
    simp only [step] at h
    split at h
    · split at h
      next ho => exact .inr (by rw [ho])
      · simp only [handleSetupError_jdsAccepted] at h
        exact .inl h
    · exact .inl h
  | jdsSetupSuccess =>
    simp only [step] at h
    split at h
    · exact .inl h
    · exact .inl h
  | cancel => exact .inl h
  | requestFallback =>
    simp only [step] at h
    split at h
    · exact .inl h
    · exact .inl h
    · exact .inl h
    · exact .inl h
  | event =>
    simp only [step] at h
    split at h
    · split at h
      · exact .inl h
      · split at h
        · exact .inl h
        · exact .inl h
    · exact .inl h
  | cleanedUp =>
    simp only [step] at h
    split at h
    · cases h
    · exact .inl h

/-- With the job declarator servers of this repository only a client in full-template mode ever
    declares jobs: in any other mode (coinbase-only in particular) it mines solo in every state. -/
theorem solo_unless_fullTemplate (c : Config) (hmode : c.mode ≠ .fullTemplate) (as : List Action)
    (hown : ∀ a ∈ as, FromThisRepository c a) : (after c as).mode = .soloMining := by
  have hg : Runs.Guarded (step c) (fun _ a => FromThisRepository c a) (new c) as :=
    Runs.guarded_of_forall hown
  have hnot := Runs.run_invariant_of_guarded (fun r => r.jdsAccepted = false) (by
    intro r a hr ha
    by_contra hacc
    rw [Bool.not_eq_false] at hacc
    rcases jdsAccepted_of_step hacc with hold | heq
    · rw [hr] at hold
      cases hold
    · exact hmode ((jdsAnswer_success c).mp (ha.1 _ heq).symm)) rfl as hg
  have hsound := (after_sound c as).mode
  have hnot' : (after c as).jdsAccepted = false := hnot
  simpa [hnot'] using hsound

/-- One pair, coinbase-only. -/
def coinbaseOnlyConfig : Config := { mode := .coinbaseOnly, upstreams := ["pool"] }

/-- The pair is connected, the pool accepts the setup and the job declarator server does not. -/
def refusedSetup : List Action :=
  [.templateProvider true, .channelManager true, .attempt true, .poolSetup .success,
    .jdsSetup .fallback, .services true, .event, .cleanedUp, .channelManager true, .services true]

theorem solo_unless_fullTemplate_refused :
    (after coinbaseOnlyConfig refusedSetup).mode = .soloMining := by
  have hanswer : jdsAnswer coinbaseOnlyConfig = .fallback := by
    have hnot := mt (jdsAnswer_success coinbaseOnlyConfig).mp (by decide)
    unfold jdsAnswer at hnot ⊢
    split
    next h => simp [h] at hnot
    · rfl
  apply solo_unless_fullTemplate coinbaseOnlyConfig (by decide) refusedSetup
  intro a ha
  constructor
  · rintro o rfl
    rw [hanswer]
    simpa [refusedSetup] using ha
  · rintro rfl
    simp [refusedSetup] at ha

theorem solo_for_good_refused :
    (after coinbaseOnlyConfig (refusedSetup ++ [.requestFallback, .event])).mode = .soloMining :=
  (solo_for_good coinbaseOnlyConfig refusedSetup [.requestFallback, .event] (by decide)).2.1

end Sv2Apps.Jdc.Runtime
