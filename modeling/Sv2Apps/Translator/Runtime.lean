/-
  Translator/Runtime.lean
  =======================
  **The life of a translator** — `start` of the proxy: `initialize_upstream` tries the configured
  upstreams, the services are started for the one that answers, and a fallback tears the session
  down and starts the search again.

  What the network does (an attempt, the start of the services, the event that ends a session) is
  the action.  Over the whole life of the process no upstream is tried more than three times or
  connected to twice, and they are tried in the order of the configuration; in every session the
  identity and the payout that is verified are those of the upstream it is connected to
  (`failover_fair`).
-/
import Sv2Apps.Lib.Failover
import Sv2Apps.Lib.Runs
import Sv2Apps.Payout

namespace Sv2Apps.Translator.Runtime

open Bitcoin

/-- `MAX_RETRIES`. -/
def MAX_RETRIES : Nat := 3

inductive MissingMinerPayoutMode where
  | fullDonation
  | noPayoutMode
deriving DecidableEq

/-- `PayoutModeError`, with the variant that only the configuration gives. -/
inductive ExpectedPayoutError where
  | mode (e : PayoutModeError)
  | missingMinerPayout (userIdentity : String) (mode : MissingMinerPayoutMode)
deriving DecidableEq

/-- What is used of the configuration; `scriptFromAddress` stands for `script_from_address`. -/
structure Config where
  scriptFromAddress : String → Option Bytes
  verifyPayout : Bool
  /-- The identities of the upstreams, in their order. -/
  upstreams : List String

/-- `expected_payout_distribution`. -/
def Config.expectedPayoutDistribution (c : Config) (userIdentity : String) :
    Except ExpectedPayoutError (Option PayoutMode) :=
  if !c.verifyPayout then .ok none
  else
    match PayoutMode.tryFrom c.scriptFromAddress userIdentity with
    | .ok .fullDonation => .error (.missingMinerPayout userIdentity .fullDonation)
    | .ok payoutMode => .ok (some payoutMode)
    | .error (.noPayoutMode _) => .error (.missingMinerPayout userIdentity .noPayoutMode)
    | .error e => .error (.mode e)

inductive TproxyErrorKind where
  | couldNotInitiateSystem
  | invalidUserIdentity (userIdentity : String) (e : ExpectedPayoutError)
  /-- The error of an attempt that asks for a shutdown. -/
  | setup
  /-- The error of a service that does not start. -/
  | services
deriving DecidableEq

inductive Phase where
  | connecting
  | upstreamReady
  | running
  | cleaningUp
  | stopped (r : Except TproxyErrorKind Unit)

/-- What the objects of one session are told once their upstream is connected. -/
structure Session where
  upstream : Nat
  /-- `sv1_server.set_user_identity` -/
  userIdentity : String
  /-- `channel_manager.set_expected_payout_distribution` -/
  expectedPayout : Option PayoutMode
deriving DecidableEq

structure TranslatorRuntime where
  phase : Phase
  /-- The flags are `tried_or_flagged` of the upstreams. -/
  upstreams : Failover.State
  session : Option Session

inductive AttemptOutcome where
  | connected
  | failed
  | shutdown
deriving DecidableEq

inductive Action where
  /-- `try_initialize_upstream_single` returns. -/
  | attempt (o : AttemptOutcome)
  /-- `start_services` returns. -/
  | servicesStarted (ok : Bool)
  /-- `wait` returns. -/
  | shutdownEvent
  | fallbackEvent
  /-- `trigger_fallback_and_wait` returns. -/
  | cleanedUp
deriving DecidableEq

variable (c : Config)

/-- The loop over the upstreams begins, or is left because none is left. -/
def initializeUpstream (r : TranslatorRuntime) (upstreams : Failover.State) : TranslatorRuntime :=
  { r with
    upstreams
    phase :=
      if upstreams.search = .exhausted then .stopped (.error .couldNotInitiateSystem)
      else .connecting }

/-- `TranslatorRuntime::new`, and the stages before `try_upstream`. -/
def bootstrap : TranslatorRuntime :=
  initializeUpstream
    { phase := .connecting, upstreams := Failover.start c.upstreams.length, session := none }
    (Failover.beginSearch (Failover.start c.upstreams.length))

/-- An attempt on upstream `i` has succeeded. -/
def connected (r : TranslatorRuntime) (i : Nat) : TranslatorRuntime :=
  let userIdentity := c.upstreams.getD i ""
  match c.expectedPayoutDistribution userIdentity with
  | .error e =>
    { r with
      phase := .stopped (.error (.invalidUserIdentity userIdentity e))
      upstreams := Failover.abandon (some true) r.upstreams }
  | .ok expectedPayout =>
    { phase := .upstreamReady
      upstreams := Failover.succeed r.upstreams
      session := some { upstream := i, userIdentity, expectedPayout } }

def attempt (r : TranslatorRuntime) (o : AttemptOutcome) : TranslatorRuntime :=
  match r.phase, r.upstreams.search with
  | .connecting, .trying i _ =>
    match o with
    | .connected => connected c r i
    | .failed => initializeUpstream r (Failover.fail MAX_RETRIES r.upstreams)
    | .shutdown =>
      { r with
        phase := .stopped (.error .setup)
        upstreams := Failover.abandon (some false) r.upstreams }
  | _, _ => r

/-- A step of `start`. -/
def step (r : TranslatorRuntime) : Action → TranslatorRuntime
  | .attempt o => attempt c r o
  | .servicesStarted ok =>
    match r.phase with
    | .upstreamReady =>
      if ok then { r with phase := .running }
      else { r with phase := .stopped (.error .services) }
    | _ => r
  | .shutdownEvent =>
    match r.phase with
    | .running => { r with phase := .stopped (.ok ()) }
    | _ => r
  | .fallbackEvent =>
    match r.phase with
    | .running => { r with phase := .cleaningUp }
    | _ => r
  | .cleanedUp =>
    match r.phase with
    | .cleaningUp =>
      -- the channel manager and the SV1 server are built anew
      initializeUpstream { r with session := none } (Failover.beginSearch r.upstreams)
    | _ => r

/-- The state after a run. -/
def after (as : List Action) : TranslatorRuntime := Runs.run (step c) (bootstrap c) as

/-! ## Every run -/

variable {c : Config} {r : TranslatorRuntime}

/-- The session belongs to the upstream that the search has found. -/
def Serves (c : Config) (upstreams : Failover.State) (s : Session) : Prop :=
  upstreams.search = .found s.upstream ∧ c.upstreams[s.upstream]? = some s.userIdentity ∧
    c.expectedPayoutDistribution s.userIdentity = .ok s.expectedPayout

/-- There is a session, and it serves the upstream that was found. -/
def InSession (c : Config) (r : TranslatorRuntime) : Prop := ∃ s, r.session = some s ∧ Serves c r.upstreams s

/-- What every step keeps. -/
structure Sound (c : Config) (r : TranslatorRuntime) : Prop where
  orderly : Failover.Orderly MAX_RETRIES c.upstreams.length r.upstreams
  connecting : r.phase = .connecting → r.session = none
  serving : r.phase = .upstreamReady ∨ r.phase = .running ∨ r.phase = .cleaningUp → InSession c r
  exhausted : r.phase = .stopped (.error .couldNotInitiateSystem) →
    r.upstreams.search = .exhausted

theorem initializeUpstream_sound {upstreams : Failover.State}
    (h : Failover.Orderly MAX_RETRIES c.upstreams.length upstreams) (hs : r.session = none) :
    Sound c (initializeUpstream r upstreams) := by
  unfold initializeUpstream
  split
  next hex => exact ⟨h, fun _ => hs, by simp, fun _ => hex⟩
  · exact ⟨h, fun _ => hs, by simp, by simp⟩

theorem bootstrap_sound (c : Config) : Sound c (bootstrap c) := by
  apply initializeUpstream_sound _ rfl
  exact (Failover.start_orderly _ _).beginSearch (by decide)

theorem connected_sound (h : Sound c r) {i k : Nat} (hs : r.upstreams.search = .trying i k) :
    Sound c (connected c r i) := by
  have hi : i < c.upstreams.length := h.orderly.trying_lt hs
  have hget : c.upstreams[i]? = some (c.upstreams.getD i "") := by
    simp [List.getD, hi]
  simp only [connected]
  split
  · exact ⟨h.orderly.abandon _, by simp, by simp, by simp⟩
  next expectedPayout hok =>
    refine ⟨h.orderly.succeed, by simp, ?_, by simp⟩
    intro _
    refine ⟨_, rfl, ?_, hget, hok⟩
    simp [Failover.succeed, hs]

theorem attempt_sound (h : Sound c r) (o : AttemptOutcome) : Sound c (attempt c r o) := by
  unfold attempt
  split
  next i k hphase hs =>
    split
    · exact connected_sound h hs
    · exact initializeUpstream_sound (h.orderly.fail (by decide)) (h.connecting hphase)
    · exact ⟨h.orderly.abandon _, by simp, by simp, by simp⟩
  · exact h

theorem step_sound (h : Sound c r) (a : Action) : Sound c (step c r a) := by
  cases a with
  | attempt o => exact attempt_sound h o
  | servicesStarted ok =>
    simp only [step]
    split
    next hphase =>
      split
      · exact ⟨h.orderly, by simp, fun _ => h.serving (.inl hphase), by simp⟩
      · exact ⟨h.orderly, by simp, by simp, by simp⟩
    · exact h
  | shutdownEvent =>
    simp only [step]
    split
    · exact ⟨h.orderly, by simp, by simp, by simp⟩
    · exact h
  | fallbackEvent =>
    simp only [step]
    split
    next hphase =>
      exact ⟨h.orderly, by simp, fun _ => h.serving (.inr (.inl hphase)), by simp⟩
    · exact h
  | cleanedUp =>
    simp only [step]
    split
    · exact initializeUpstream_sound (h.orderly.beginSearch (by decide)) rfl
    · exact h

theorem after_sound (c : Config) (as : List Action) : Sound c (after c as) :=
  Runs.run_invariant (Sound c) (fun _ a h => step_sound h a) (bootstrap_sound c) as

/-- Over the whole life of the process the upstreams are tried in order, at most three times each,
    and connected to at most once; a session has the identity and the payout of the upstream it is
    connected to; and the process gives up only when each upstream has been connected to or has
    failed three times. -/
theorem failover_fair (c : Config) (as : List Action) :
    Failover.Fair MAX_RETRIES (after c as).upstreams.log ∧
    ((after c as).phase = .upstreamReady ∨ (after c as).phase = .running →
      ∃ s, (after c as).session = some s ∧ (after c as).upstreams.search = .found s.upstream ∧
        c.upstreams[s.upstream]? = some s.userIdentity ∧
        c.expectedPayoutDistribution s.userIdentity = .ok s.expectedPayout) ∧
    ((after c as).phase = .stopped (.error .couldNotInitiateSystem) →
      ∀ i, i < c.upstreams.length →
        (∃ a ∈ (after c as).upstreams.log, a.index = i ∧ a.succeeded = true) ∨
          (after c as).upstreams.log.countP (·.index = i) = MAX_RETRIES) := by
  have h := after_sound c as
  refine ⟨h.orderly.fair, ?_, ?_⟩
  · rintro (hphase | hphase)
    · exact h.serving (.inl hphase)
    · exact h.serving (.inr (.inl hphase))
  · intro hphase i hi
    exact h.orderly.spent (h.exhausted hphase) hi

end Sv2Apps.Translator.Runtime
