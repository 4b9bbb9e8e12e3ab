/-
  Translator/Downstream.lean
  ==========================
  **One miner's connection** — `translator/src/lib/sv1/downstream.rs`: what the translator keeps for
  a miner, and the task that takes the server's events in order and writes to the miner.

  The server task shares the data; it changes it under the same lock, between any two steps of
  the event task.  A step of the event task takes an event together with the first access that is
  made for it; sending a job is one access, and each message that it writes a step.

  A difficulty is represented by the target that it was built from.  `written` is what was written
  to the miner, oldest first; a job stands there with the context that was recorded for it.  Left
  out: names, hashrates and the version rolling mask, which no step here reads; the time of the
  last job; and the errors of a connection that is closed.
-/
import Sv2Apps.Translator.Sv1Jobs

namespace Sv2Apps.Translator

open Bitcoin

/-- What a share for one job is validated with. -/
structure Sv1JobValidationContext where
  extranonce : Bytes
  extranonce2Len : Nat
  target : Target
deriving DecidableEq

inductive Sv1SetupRequest where
  | subscribe
  | authorize
deriving DecidableEq

inductive Sv1SessionState where
  /-- Setup responses are pending, or cached notifications are being delivered. -/
  | starting (subscribed authorized : Bool)
  | ready
deriving DecidableEq

namespace Sv1SessionState

/-- Whether both responses have been sent now, for the first time. -/
def recordResponse (state : Sv1SessionState) (request : Sv1SetupRequest) :
    Sv1SessionState × Bool :=
  match state with
  | .starting subscribed authorized =>
    let subscribed' := subscribed || decide (request = .subscribe)
    let authorized' := authorized || decide (request = .authorize)
    (.starting subscribed' authorized',
      !(subscribed && authorized) && (subscribed' && authorized'))
  | .ready => (.ready, false)

def isReady : Sv1SessionState → Bool
  | .ready => true
  | .starting _ _ => false

def isSubscribed : Sv1SessionState → Bool
  | .ready => true
  | .starting subscribed _ => subscribed

def setupComplete : Sv1SessionState → Bool
  | .ready => true
  | .starting subscribed authorized => subscribed && authorized

end Sv1SessionState

/-- `mining.set_extranonce`. -/
structure SetExtranonce where
  extraNonce1 : Bytes
  extraNonce2Size : Nat
deriving DecidableEq

/-- What the server queues for a miner. -/
inductive Sv1ServerEvent where
  | setupComplete
  | setDifficulty (target : Target)
  | notify (notify : Notify)
  | setExtranonce (message : SetExtranonce) (notifyMiner : Bool)
deriving DecidableEq

/-- What is written to a miner. -/
inductive MinerMessage where
  | subscribeResponse (extranonce1 : Bytes)
  | setDifficulty (target : Target)
  | setExtranonce (message : SetExtranonce)
  | notify (notify : Notify) (context : Sv1JobValidationContext)
deriving DecidableEq

/-- Where the event task of a miner is. -/
inductive EventTask where
  | idle
  /-- `send_job`; `enabling`: the session becomes ready afterwards. -/
  | sending (notify : Notify) (enabling : Bool)
  | writing (messages : List MinerMessage) (enabling : Bool)
  /-- The last step of `enable_notification_forwarding`. -/
  | enabled
deriving DecidableEq

structure Downstream where
  extranonce1 : Bytes
  extranonce2Len : Nat
  target : Target
  cachedSetDifficulty : Option Target
  cachedNotify : Option Notify
  cachedSetExtranonce : Option SetExtranonce
  sessionState : Sv1SessionState
  jobValidationContexts : Sv1JobStore Sv1JobValidationContext
  acceptedShareHashes : List Hash256
  pendingSetExtranonceNotifications : Nat
  pendingTarget : Option Target
  supportsSetExtranonce : Bool
  /-- `sv1_server_receiver`. -/
  events : List Sv1ServerEvent
  eventTask : EventTask
  written : List MinerMessage
  /-- The connection is cancelled. -/
  disconnected : Bool

namespace Downstream

/-- `Downstream::new`. -/
def new (target : Target) (maxPastJobs : Option Nat) : Downstream where
  extranonce1 := List.replicate 8 0
  extranonce2Len := 4
  target := target
  cachedSetDifficulty := none
  cachedNotify := none
  cachedSetExtranonce := none
  sessionState := .starting false false
  jobValidationContexts := .new maxPastJobs
  acceptedShareHashes := []
  pendingSetExtranonceNotifications := 0
  pendingTarget := none
  supportsSetExtranonce := false
  events := []
  eventTask := .idle
  written := []
  disconnected := false

/-- The server queues an event. -/
def queue (m : Downstream) (e : Sv1ServerEvent) : Downstream := { m with events := m.events ++ [e] }

def setPendingTarget (m : Downstream) (target : Target) : Downstream :=
  { m with pendingTarget := some target }

/-- A setup request is answered; the last of the two responses completes the setup. -/
def respond (m : Downstream) (request : Sv1SetupRequest) : Downstream :=
  let (sessionState, completed) := m.sessionState.recordResponse request
  let responded : Downstream :=
    { m with
      sessionState := sessionState
      written := match request with
        | .subscribe => m.written ++ [.subscribeResponse m.extranonce1]
        | .authorize => m.written }
  if completed then responded.queue .setupComplete else responded

/-- `handle_extranonce_subscribe`. -/
def subscribeExtranonce (m : Downstream) : Downstream := { m with supportsSetExtranonce := true }

/-- `handle_upstream_extranonce_change`, up to the event that it queues. -/
def noteExtranonce (m : Downstream) (extranonce1 : Bytes) : Downstream :=
  { m with
    pendingSetExtranonceNotifications := m.pendingSetExtranonceNotifications + 1
    extranonce1 := if m.sessionState.isSubscribed then m.extranonce1 else extranonce1 }

/-- What a share for the next job is validated with. -/
def context (m : Downstream) : Sv1JobValidationContext := ⟨m.extranonce1, m.extranonce2Len, m.target⟩

def recordJobValidationContext (m : Downstream) (notify : Notify) : Downstream :=
  { m with
    acceptedShareHashes := if notify.cleanJobs then [] else m.acceptedShareHashes
    jobValidationContexts :=
      m.jobValidationContexts.activate notify.jobId m.context notify.cleanJobs }

/-- A cached difficulty comes with the job, and the pending target with it. -/
def applyDifficulty (m : Downstream) : Downstream :=
  match m.cachedSetDifficulty with
  | some _ =>
    { m with
      cachedSetDifficulty := none
      target := m.pendingTarget.getD m.target
      pendingTarget := none }
  | none => m

/-- The next job needs a `mining.set_extranonce`, which the miner has not announced. -/
def lacksSupport (m : Downstream) : Bool := m.cachedSetExtranonce.isSome && !m.supportsSetExtranonce

/-- `send_job`, up to the messages that it writes. -/
def sendJob (m : Downstream) (notify : Notify) (enabling : Bool) : Downstream :=
  if m.lacksSupport then
    -- nothing is written
    { m with disconnected := true, eventTask := .writing [] enabling }
  else
    let applied := m.applyDifficulty
    { applied.recordJobValidationContext notify with
      cachedSetExtranonce := none
      eventTask := .writing (m.cachedSetDifficulty.toList.map .setDifficulty ++
        m.cachedSetExtranonce.toList.map .setExtranonce ++ [.notify notify applied.context]) enabling }

/-- `handle_sv1_server_message`: the event and the first access. -/
def takeEvent (m : Downstream) : Downstream :=
  match m.events with
  | [] => m
  | e :: rest =>
    let m := { m with events := rest }
    match e with
    | .setupComplete =>
      -- `enable_notification_forwarding`
      if m.sessionState.isReady ∨ m.sessionState.setupComplete = false then m
      else { m with
        cachedNotify := none
        eventTask := match m.cachedNotify with
          | some notify => .sending notify true
          | none => .enabled }
    | .setDifficulty target => { m with cachedSetDifficulty := some target }
    | .notify notify =>
      if m.sessionState.isReady then { m with eventTask := .sending notify false }
      else { m with cachedNotify := some notify }
    | .setExtranonce message notifyMiner =>
      { m with
        pendingSetExtranonceNotifications := m.pendingSetExtranonceNotifications - 1
        extranonce1 := if notifyMiner then message.extraNonce1 else m.extranonce1
        extranonce2Len := if notifyMiner then message.extraNonce2Size else m.extranonce2Len
        cachedSetExtranonce := if notifyMiner then some message else m.cachedSetExtranonce
        -- a cached job is older than this change, and has not reached the miner
        cachedNotify := none }

/-- The event task goes on. -/
def eventStep (m : Downstream) : Downstream :=
  match m.eventTask with
  | .idle => m.takeEvent
  | .sending notify enabling => m.sendJob notify enabling
  | .writing (message :: rest) enabling =>
    { m with written := m.written ++ [message], eventTask := .writing rest enabling }
  | .writing [] enabling => { m with eventTask := if enabling then .enabled else .idle }
  | .enabled => { m with sessionState := .ready, eventTask := .idle }

end Downstream

end Sv2Apps.Translator
