/-
  Translator/DifficultyAgreement.lean
  ===================================
  **The difficulty that a miner is told, and the target of its jobs** — the server task with the
  event tasks of the miners, vardiff on or off, both modes.

  With vardiff on, what the server task does is in `Translator/VardiffTargets.lean`; a target that it
  computes becomes the pending target of the miner at once, and the message goes to the miner's
  queue whenever it is sent.  With vardiff off a `SetTarget` is passed on.  `send_job` pairs the
  message that is cached with the pending target of that moment.

  `sv1_advertised_target_from_sv2_target`, which is not part of this repository, is a parameter, and
  a `mining.set_difficulty` is taken to advertise its value at the target that the message was built
  from.  `recorded` is the last target that was recorded for a miner; no step reads it.
-/
import Sv2Apps.Translator.Downstream
import Sv2Apps.Translator.VardiffTargets

namespace Sv2Apps.Translator

open Bitcoin

/-! ## The property -/

/-- The last difficulty of a sequence of messages, after `last`. -/
def lastDifficulty : Option Target → List MinerMessage → Option Target
  | last, [] => last
  | _, .setDifficulty target :: rest => lastDifficulty (some target) rest
  | last, _ :: rest => lastDifficulty last rest

/-- Each job is validated at the target that the last difficulty at or before it advertises. -/
def Agrees (advertised : Target → Target) : Option Target → List MinerMessage → Prop
  | _, [] => True
  | _, .setDifficulty target :: rest => Agrees advertised (some target) rest
  | last, .notify _ context :: rest =>
    (∃ target, last = some target ∧ context.target = advertised target) ∧
      Agrees advertised last rest
  | last, _ :: rest => Agrees advertised last rest

section Messages

variable {advertised : Target → Target}

theorem lastDifficulty_append (last : Option Target) (l l' : List MinerMessage) :
    lastDifficulty last (l ++ l') = lastDifficulty (lastDifficulty last l) l' := by
  induction l generalizing last with
  | nil => rfl
  | cons m l ih =>
    cases m with
    | setDifficulty target => exact ih (some target)
    | _ => exact ih last

theorem agrees_append (last : Option Target) (l l' : List MinerMessage) :
    Agrees advertised last (l ++ l') ↔
      Agrees advertised last l ∧ Agrees advertised (lastDifficulty last l) l' := by
  induction l generalizing last with
  | nil => exact ⟨fun h => ⟨trivial, h⟩, fun h => h.2⟩
  | cons m l ih =>
    cases m with
    | setDifficulty target => exact ih (some target)
    | notify n context =>
      constructor
      · rintro ⟨hn, h⟩
        obtain ⟨hl, hl'⟩ := (ih last).mp h
        exact ⟨⟨hn, hl⟩, hl'⟩
      · rintro ⟨⟨hn, hl⟩, hl'⟩
        exact ⟨hn, (ih last).mpr ⟨hl, hl'⟩⟩
    | _ => exact ih last

/-- A job with the extranonce that goes before it. -/
theorem agrees_job (advertised : Target → Target) (last : Option Target)
    (message : Option SetExtranonce) (n : Notify) (context : Sv1JobValidationContext) :
    Agrees advertised last (message.toList.map .setExtranonce ++ [.notify n context]) ↔
      ∃ target, last = some target ∧ context.target = advertised target := by
  cases message with
  | none => exact ⟨fun h => h.1, fun h => ⟨h, trivial⟩⟩
  | some e => exact ⟨fun h => h.1, fun h => ⟨h, trivial⟩⟩

theorem lastDifficulty_job (last : Option Target) (message : Option SetExtranonce) (n : Notify)
    (context : Sv1JobValidationContext) :
    lastDifficulty last (message.toList.map .setExtranonce ++ [.notify n context]) = last := by
  cases message with
  | none => rfl
  | some e => rfl

end Messages

/-! ## The system -/

structure DifficultyConfig where
  vardiff : VardiffConfig
  enableVardiff : Bool
  maxPastJobs : Option Nat
  /-- The target of the difficulty that is built from a target. -/
  advertised : Target → Target

/-- Where the server task is in `handle_set_target_without_vardiff`. -/
inductive Forwarding where
  | idle
  /-- `send_set_difficulty_to_specific_downstream`. -/
  | routed (d : DownstreamId) (target : Target)
  | recorded (d : DownstreamId) (target : Target)
  /-- `send_set_difficulty_to_all_downstreams`. -/
  | visiting (visited : Finset DownstreamId) (senders : List DownstreamId) (target : Target)
  | sending (senders : List DownstreamId) (target : Target)
deriving DecidableEq

structure DifficultySystem where
  manager : DifficultyManager
  forwarding : Forwarding
  miners : DownstreamId → Downstream
  recorded : DownstreamId → Option Target

namespace DifficultySystem

def start (cfg : DifficultyConfig) : DifficultySystem where
  manager := .start
  forwarding := .idle
  miners := fun _ => .new cfg.vardiff.firstTarget cfg.maxPastJobs
  recorded := fun _ => none

def modifyMiner (s : DifficultySystem) (d : DownstreamId) (f : Downstream → Downstream) :
    DifficultySystem :=
  { s with miners := Function.update s.miners d (f (s.miners d)) }

/-- The server task is free. -/
def isFree (s : DifficultySystem) : Bool :=
  decide (s.manager.task = .idle) && decide (s.forwarding = .idle)

section Steps

variable (cfg : DifficultyConfig)

/-- A target becomes the pending target of a miner. -/
def record (s : DifficultySystem) (d : DownstreamId) (target : Target) : DifficultySystem :=
  { s.modifyMiner d (·.setPendingTarget (cfg.advertised target)) with
    recorded := Function.update s.recorded d (some target) }

/-- The messages go to the queues of the miners. -/
def deliver (s : DifficultySystem) (messages : List SetDifficulty) : DifficultySystem :=
  messages.foldl (fun s m => s.modifyMiner m.downstreamId (·.queue (.setDifficulty m.target))) s

/-- What the server task does here and not in the vardiff loop, or only with vardiff on. -/
def admits (s : DifficultySystem) : DifficultyManager.Action → Bool
  | .disconnect _ | .cleanup _ => true
  | .setTarget _ _ | .tick | .visit _ _ | .endVisits =>
    cfg.enableVardiff && decide (s.forwarding = .idle)
  | _ => decide (s.forwarding = .idle)

/-- The vardiff loop has computed a target for a registered miner. -/
def recordComputed (s : DifficultySystem) : DifficultyManager.Action → DifficultySystem
  | .task _ =>
    match s.manager.task with
    | .adjusting _ _ d newTarget _ =>
      if d ∈ s.manager.downstreams then record cfg s d newTarget else s
    | _ => s
  | _ => s

/-- A step of the server task or of a disconnect.  Without vardiff, no miner has a vardiff state. -/
def serverStep (s : DifficultySystem) (a : DifficultyManager.Action) : DifficultySystem :=
  if admits cfg s a then
    let manager := DifficultyManager.step cfg.vardiff s.manager a
    { recordComputed cfg s a with
      manager := if cfg.enableVardiff then manager else { manager with vardiff := ∅ }
      }.deliver (manager.queued.drop s.manager.queued.length)
  else s

/-- `handle_set_target_without_vardiff`. -/
def forwardTarget (s : DifficultySystem) (c : ChannelId) (target : Target) : DifficultySystem :=
  if cfg.enableVardiff = false ∧ s.isFree then
    if cfg.vardiff.aggregated then { s with forwarding := .visiting ∅ [] target }
    else
      match s.manager.channelIdToDownstreamId.lookup c with
      | some d => { s with forwarding := .routed d target }
      | none => s
  else s

def setUpstreamTarget (s : DifficultySystem) (d : DownstreamId) (target : Target) :
    DifficultySystem :=
  let data : MinerTargets := ⟨(s.manager.downstreamData d).channelId, some target⟩
  { s with manager :=
    { s.manager with downstreamData := Function.update s.manager.downstreamData d data } }

/-- The iteration over all miners comes to `d`. -/
def forwardVisit (s : DifficultySystem) (d : DownstreamId) : DifficultySystem :=
  match s.forwarding with
  | .visiting visited senders target =>
    if d ∈ s.manager.downstreams ∧ d ∉ visited then
      if (s.manager.downstreamData d).channelId.isSome then
        { (record cfg s d target).setUpstreamTarget d target with
          forwarding := .visiting (insert d visited)
            (if d ∈ s.manager.sv1ServerToDownstreamSender then senders ++ [d] else senders) target }
      else { s with forwarding := .visiting (insert d visited) senders target }
    else s
  | _ => s

/-- The server task goes on with its `SetTarget`. -/
def forward (s : DifficultySystem) : DifficultySystem :=
  match s.forwarding with
  | .idle => s
  | .routed d target =>
    if d ∈ s.manager.downstreams then
      { (record cfg s d target).setUpstreamTarget d target with forwarding := .recorded d target }
    else { s with forwarding := .idle }
  | .recorded d target =>
    { s with forwarding :=
      .sending (if d ∈ s.manager.sv1ServerToDownstreamSender then [d] else []) target }
  | .visiting visited senders target =>
    if s.manager.downstreams ⊆ visited then { s with forwarding := .sending senders target } else s
  | .sending (d :: rest) target =>
    if cfg.vardiff.builds target then
      { s.modifyMiner d (·.queue (.setDifficulty target)) with forwarding := .sending rest target }
    else { s with forwarding := .idle }
  | .sending [] _ => { s with forwarding := .idle }

/-- A setup request is processed: one that waited for the channel, or a later one. -/
def respond (s : DifficultySystem) (d : DownstreamId) (request : Sv1SetupRequest) :
    DifficultySystem :=
  if d ∈ s.manager.downstreams ∧ (s.manager.task = .replaying d ∨
      (s.isFree ∧ (s.manager.downstreamData d).channelId.isSome)) then
    s.modifyMiner d (·.respond request)
  else s

/-- `handle_upstream_extranonce_change`. -/
def changeExtranonce (s : DifficultySystem) (d : DownstreamId) (extranonce1 : Bytes) :
    DifficultySystem :=
  if d ∈ s.manager.downstreams ∧ s.isFree then
    s.modifyMiner d fun m => (m.noteExtranonce extranonce1).queue
      (.setExtranonce ⟨extranonce1, m.extranonce2Len⟩ m.sessionState.isSubscribed)
  else s

end Steps

inductive Action where
  | server (a : DifficultyManager.Action)
  | forwardTarget (c : ChannelId) (target : Target)
  | forwardVisit (d : DownstreamId)
  | forward
  /-- A job, a bootstrap or a keepalive is queued for a miner that has connected. -/
  | notify (d : DownstreamId) (notify : Notify)
  | respond (d : DownstreamId) (request : Sv1SetupRequest)
  | subscribeExtranonce (d : DownstreamId)
  | changeExtranonce (d : DownstreamId) (extranonce1 : Bytes)
  /-- The event task of a miner goes on. -/
  | event (d : DownstreamId)
deriving DecidableEq

section Run

variable (cfg : DifficultyConfig)

def step (s : DifficultySystem) : Action → DifficultySystem
  | .server a => serverStep cfg s a
  | .forwardTarget c target => forwardTarget cfg s c target
  | .forwardVisit d => forwardVisit cfg s d
  | .forward => forward cfg s
  | .notify d notify =>
    if s.isFree ∧ d ∈ s.manager.sv1ServerToDownstreamSender then
      s.modifyMiner d (·.queue (.notify notify))
    else s
  | .respond d request => s.respond d request
  | .subscribeExtranonce d => s.modifyMiner d (·.subscribeExtranonce)
  | .changeExtranonce d extranonce1 => s.changeExtranonce d extranonce1
  | .event d => s.modifyMiner d (·.eventStep)

/-- The state after a run. -/
def after (as : List Action) : DifficultySystem := Runs.run (step cfg) (start cfg) as

end Run

/-! ## The condition -/

/-- The target of the miner once what was recorded for it applies. -/
def current (cfg : DifficultyConfig) : Option Target → Target
  | some target => cfg.advertised target
  | none => cfg.vardiff.firstTarget

/-- A job comes with a difficulty that advertises the last target that was recorded, or after one
    was written. -/
def inStep (cfg : DifficultyConfig) (recorded : Option Target) (m : Downstream) : Prop :=
  match m.cachedSetDifficulty with
  | some target => current cfg recorded = cfg.advertised target
  | none => lastDifficulty none m.written ≠ none

instance (cfg : DifficultyConfig) (recorded : Option Target) (m : Downstream) :
    Decidable (inStep cfg recorded m) := by
  unfold inStep
  split <;> infer_instance

/-- The condition on a step: a job that is sent is in step. -/
def agrees (cfg : DifficultyConfig) (s : DifficultySystem) : Action → Prop
  | .event d =>
    match (s.miners d).eventTask with
    | .sending _ _ => (s.miners d).lacksSupport = true ∨ inStep cfg (s.recorded d) (s.miners d)
    | _ => True
  | _ => True

instance (cfg : DifficultyConfig) (s : DifficultySystem) (a : Action) :
    Decidable (agrees cfg s a) := by
  unfold agrees
  split
  · split <;> infer_instance
  · infer_instance

/-! ## One miner -/

/-- What the event task has still to write. -/
def inFlight : EventTask → List MinerMessage
  | .writing messages _ => messages
  | _ => []

/-- The last difficulty that was written, or is about to be. -/
def told (m : Downstream) : Option Target :=
  lastDifficulty (lastDifficulty none m.written) (inFlight m.eventTask)

structure MinerInv (cfg : DifficultyConfig) (recorded : Option Target) (m : Downstream) : Prop where
  pending : ∀ target, m.pendingTarget = some target → target = current cfg recorded
  applied : m.pendingTarget = none → m.target = current cfg recorded
  written : Agrees cfg.advertised none m.written
  inFlight : Agrees cfg.advertised (lastDifficulty none m.written) (inFlight m.eventTask)
  told : ∀ target, told m = some target → m.target = cfg.advertised target

section Miner

variable {cfg : DifficultyConfig} {recorded : Option Target} {m m' : Downstream}

theorem minerInv_new (cfg : DifficultyConfig) (maxPastJobs : Option Nat) :
    MinerInv cfg none (.new cfg.vardiff.firstTarget maxPastJobs) := by
  constructor
  · intro target h
    cases h
  · intro _
    rfl
  · trivial
  · trivial
  · intro target h
    cases h

/-- Targets and messages stay. -/
theorem MinerInv.congr (h : MinerInv cfg recorded m) (htarget : m'.target = m.target)
    (hpending : m'.pendingTarget = m.pendingTarget) (hwritten : m'.written = m.written)
    (htask : DifficultySystem.inFlight m'.eventTask = DifficultySystem.inFlight m.eventTask) :
    MinerInv cfg recorded m' := by
  have htold : DifficultySystem.told m' = DifficultySystem.told m := by
    unfold DifficultySystem.told
    rw [hwritten, htask]
  constructor
  · rw [hpending]
    exact h.pending
  · rw [hpending, htarget]
    exact h.applied
  · rw [hwritten]
    exact h.written
  · rw [hwritten, htask]
    exact h.inFlight
  · rw [htold, htarget]
    exact h.told

theorem MinerInv.queue (h : MinerInv cfg recorded m) (e : Sv1ServerEvent) :
    MinerInv cfg recorded (m.queue e) :=
  h.congr rfl rfl rfl rfl

/-- The response to a setup request is no difficulty and no job. -/
theorem MinerInv.respond (h : MinerInv cfg recorded m) (request : Sv1SetupRequest) :
    MinerInv cfg recorded (m.respond request) := by
  unfold Downstream.respond
  cases request with
  | authorize =>
    have hresponded : ∀ sessionState, MinerInv cfg recorded { m with
        sessionState := sessionState } := fun _ => h.congr rfl rfl rfl rfl
    dsimp only
    split
    · exact (hresponded _).queue .setupComplete
    · exact hresponded _
  | subscribe =>
    -- the response to `subscribe` tells the miner no difficulty
    have hresponded : ∀ sessionState, MinerInv cfg recorded { m with
        sessionState := sessionState
        written := m.written ++ [.subscribeResponse m.extranonce1] } := by
      intro sessionState
      have hlast : lastDifficulty none (m.written ++ [.subscribeResponse m.extranonce1]) =
          lastDifficulty none m.written := lastDifficulty_append none m.written _
      refine ⟨h.pending, h.applied, ?_, ?_, ?_⟩
      · exact (agrees_append none m.written _).mpr ⟨h.written, trivial⟩
      · dsimp only
        rw [hlast]
        exact h.inFlight
      · unfold DifficultySystem.told
        dsimp only
        rw [hlast]
        exact h.told
    dsimp only
    split
    · exact (hresponded _).queue .setupComplete
    · exact hresponded _

theorem MinerInv.record (h : MinerInv cfg recorded m) (target : Target) :
    MinerInv cfg (some target) (m.setPendingTarget (cfg.advertised target)) := by
  refine ⟨?_, ?_, h.written, h.inFlight, h.told⟩
  · intro pending hpending
    cases hpending
    rfl
  · intro hnone
    cases hnone

theorem MinerInv.takeEvent (h : MinerInv cfg recorded m) (hidle : m.eventTask = .idle) :
    MinerInv cfg recorded m.takeEvent := by
  have hempty : DifficultySystem.inFlight m.eventTask = [] := by rw [hidle]; rfl
  unfold Downstream.takeEvent
  split
  · exact h
  next e rest hevents =>
    cases e with
    | setupComplete =>
      dsimp only
      split
      · exact h.congr rfl rfl rfl rfl
      · refine h.congr rfl rfl rfl ?_
        rw [hempty]
        dsimp only
        split <;> rfl
    | setDifficulty target => exact h.congr rfl rfl rfl rfl
    | notify n =>
      dsimp only
      split
      · refine h.congr rfl rfl rfl ?_
        rw [hempty]
        rfl
      · exact h.congr rfl rfl rfl rfl
    | setExtranonce message notifyMiner => exact h.congr rfl rfl rfl rfl

/-- The target of a miner after a cached difficulty has been applied. -/
theorem MinerInv.applyDifficulty (h : MinerInv cfg recorded m) {target : Target}
    (hcached : m.cachedSetDifficulty = some target) :
    m.applyDifficulty.target = current cfg recorded := by
  unfold Downstream.applyDifficulty
  rw [hcached]
  dsimp only
  cases hpending : m.pendingTarget with
  | some pending => exact h.pending pending hpending
  | none => exact h.applied hpending

theorem MinerInv.told_written (h : MinerInv cfg recorded m)
    (hempty : DifficultySystem.inFlight m.eventTask = []) {target : Target}
    (hlast : lastDifficulty none m.written = some target) : m.target = cfg.advertised target := by
  apply h.told
  unfold DifficultySystem.told
  rw [hempty]
  exact hlast

/-- A job that is sent is validated at the target that the miner was told if and only if it is in
    step. -/
theorem sendJob_agrees_iff (h : MinerInv cfg recorded m) (notify : Notify) (enabling : Bool)
    (hempty : DifficultySystem.inFlight m.eventTask = []) (hsupport : m.lacksSupport = false) :
    Agrees cfg.advertised (lastDifficulty none m.written)
      (DifficultySystem.inFlight (m.sendJob notify enabling).eventTask) ↔
      inStep cfg recorded m := by
  unfold Downstream.sendJob inStep
  rw [hsupport, if_neg Bool.false_ne_true]
  cases hcached : m.cachedSetDifficulty with
  | some target =>
    have htarget := h.applyDifficulty hcached
    refine (agrees_job cfg.advertised (some target) m.cachedSetExtranonce notify
      m.applyDifficulty.context).trans ?_
    constructor
    · rintro ⟨told, heq, hcontext⟩
      cases heq
      exact htarget.symm.trans hcontext
    · intro hstep
      exact ⟨target, rfl, htarget.trans hstep⟩
  | none =>
    have happlied : m.applyDifficulty = m := by
      unfold Downstream.applyDifficulty
      rw [hcached]
    rw [happlied]
    refine (agrees_job cfg.advertised _ m.cachedSetExtranonce notify m.context).trans ?_
    constructor
    · rintro ⟨told, heq, -⟩
      dsimp only
      rw [heq]
      exact Option.some_ne_none told
    · intro hsome
      obtain ⟨target, hlast⟩ := Option.ne_none_iff_exists'.mp hsome
      exact ⟨target, hlast, h.told_written hempty hlast⟩

theorem MinerInv.sendJob (h : MinerInv cfg recorded m) {notify : Notify} {enabling : Bool}
    (hempty : DifficultySystem.inFlight m.eventTask = [])
    (hok : m.lacksSupport = true ∨ inStep cfg recorded m) :
    MinerInv cfg recorded (m.sendJob notify enabling) := by
  cases hsupport : m.lacksSupport with
  | true =>
    unfold Downstream.sendJob
    rw [hsupport, if_pos rfl]
    refine h.congr rfl rfl rfl ?_
    rw [hempty]
    rfl
  | false =>
    have hstep : inStep cfg recorded m := hok.resolve_left (by rw [hsupport]; exact Bool.false_ne_true)
    have hagrees := (sendJob_agrees_iff h notify enabling hempty hsupport).mpr hstep
    unfold inStep at hstep
    unfold Downstream.sendJob at hagrees ⊢
    rw [hsupport, if_neg Bool.false_ne_true] at hagrees ⊢
    cases hcached : m.cachedSetDifficulty with
    | some target =>
      rw [hcached] at hstep hagrees
      have htarget := h.applyDifficulty hcached
      obtain ⟨hnone, hwritten⟩ : m.applyDifficulty.pendingTarget = none ∧
          m.applyDifficulty.written = m.written := by
        unfold Downstream.applyDifficulty
        rw [hcached]
        exact ⟨rfl, rfl⟩
      constructor
      · intro pending hpending
        have hsome : m.applyDifficulty.pendingTarget = some pending := hpending
        rw [hnone] at hsome
        cases hsome
      · intro _
        exact htarget
      · dsimp only [Downstream.recordJobValidationContext]
        rw [hwritten]
        exact h.written
      · dsimp only [Downstream.recordJobValidationContext]
        rw [hwritten]
        exact hagrees
      · intro target' htold
        have heq : some target = some target' :=
          (lastDifficulty_job (some target) m.cachedSetExtranonce notify
            m.applyDifficulty.context).symm.trans htold
        cases heq
        exact htarget.trans hstep
    | none =>
      rw [hcached] at hstep hagrees
      have happlied : m.applyDifficulty = m := by
        unfold Downstream.applyDifficulty
        rw [hcached]
      rw [happlied] at hagrees ⊢
      refine ⟨h.pending, h.applied, h.written, hagrees, ?_⟩
      intro target htold
      exact h.told_written hempty
        ((lastDifficulty_job _ m.cachedSetExtranonce notify m.context).symm.trans htold)

theorem MinerInv.eventStep (h : MinerInv cfg recorded m)
    (hok : ∀ notify enabling, m.eventTask = .sending notify enabling →
      m.lacksSupport = true ∨ inStep cfg recorded m) :
    MinerInv cfg recorded m.eventStep := by
  unfold Downstream.eventStep
  cases htask : m.eventTask with
  | idle => exact h.takeEvent htask
  | sending notify enabling => exact h.sendJob (by rw [htask]; rfl) (hok notify enabling htask)
  | writing messages enabling =>
    cases messages with
    | nil =>
      refine h.congr rfl rfl rfl ?_
      rw [htask]
      dsimp only
      split <;> rfl
    | cons message rest =>
      -- the message moves from what is in flight to what is written
      have hinFlight := h.inFlight
      have htold := h.told
      unfold DifficultySystem.told at htold
      rw [htask] at hinFlight htold
      have hcons := (agrees_append (lastDifficulty none m.written) [message] rest).mp hinFlight
      refine ⟨h.pending, h.applied, ?_, ?_, ?_⟩
      · exact (agrees_append none m.written [message]).mpr ⟨h.written, hcons.1⟩
      · dsimp only [DifficultySystem.inFlight]
        rw [lastDifficulty_append]
        exact hcons.2
      · intro target ht
        apply htold target
        unfold DifficultySystem.told at ht
        dsimp only [DifficultySystem.inFlight] at ht ⊢
        rw [lastDifficulty_append] at ht
        rw [← ht]
        exact lastDifficulty_append _ [message] rest
  | enabled =>
    refine h.congr rfl rfl rfl ?_
    rw [htask]
    rfl

end Miner

/-! ## Runs -/

/-- Each job of each miner is validated at the target that the miner was told last. -/
def DifficultyAgrees (cfg : DifficultyConfig) (s : DifficultySystem) : Prop :=
  ∀ d, Agrees cfg.advertised none (s.miners d).written

def SystemInv (cfg : DifficultyConfig) (s : DifficultySystem) : Prop :=
  ∀ d, MinerInv cfg (s.recorded d) (s.miners d)

section Runs

variable {cfg : DifficultyConfig} {s : DifficultySystem}

theorem SystemInv.modifyMiner (h : SystemInv cfg s) {d : DownstreamId}
    {f : Downstream → Downstream} (hf : MinerInv cfg (s.recorded d) (f (s.miners d))) :
    SystemInv cfg (s.modifyMiner d f) := by
  intro e
  unfold DifficultySystem.modifyMiner
  by_cases he : e = d
  · subst he
    simp only [Function.update_self]
    exact hf
  · simp only [Function.update_of_ne he]
    exact h e

theorem SystemInv.record (h : SystemInv cfg s) (d : DownstreamId) (target : Target) :
    SystemInv cfg (record cfg s d target) := by
  intro e
  unfold DifficultySystem.record DifficultySystem.modifyMiner
  by_cases he : e = d
  · subst he
    simp only [Function.update_self]
    exact (h e).record target
  · simp only [Function.update_of_ne he]
    exact h e

theorem SystemInv.deliver (h : SystemInv cfg s) (messages : List SetDifficulty) :
    SystemInv cfg (s.deliver messages) := by
  induction messages generalizing s with
  | nil => exact h
  | cons message rest ih => exact ih (h.modifyMiner ((h message.downstreamId).queue _))

theorem SystemInv.recordComputed (h : SystemInv cfg s) (a : DifficultyManager.Action) :
    SystemInv cfg (recordComputed cfg s a) := by
  unfold DifficultySystem.recordComputed
  split
  · split
    · split
      · exact h.record _ _
      · exact h
    · exact h
  · exact h

theorem SystemInv.serverStep (h : SystemInv cfg s) (a : DifficultyManager.Action) :
    SystemInv cfg (serverStep cfg s a) := by
  unfold DifficultySystem.serverStep
  split
  · have hrecorded : SystemInv cfg { DifficultySystem.recordComputed cfg s a with
        manager := if cfg.enableVardiff then DifficultyManager.step cfg.vardiff s.manager a
          else { DifficultyManager.step cfg.vardiff s.manager a with vardiff := ∅ } } :=
      h.recordComputed a
    exact hrecorded.deliver _
  · exact h

theorem SystemInv.forwardTarget (h : SystemInv cfg s) (c : ChannelId) (target : Target) :
    SystemInv cfg (forwardTarget cfg s c target) := by
  unfold DifficultySystem.forwardTarget
  split
  · split
    · exact h
    · split <;> exact h
  · exact h

theorem SystemInv.forwardVisit (h : SystemInv cfg s) (d : DownstreamId) :
    SystemInv cfg (forwardVisit cfg s d) := by
  unfold DifficultySystem.forwardVisit
  split
  next visited senders target _ =>
    split
    · split
      · exact h.record d target
      · exact h
    · exact h
  · exact h

theorem SystemInv.forward (h : SystemInv cfg s) : SystemInv cfg (forward cfg s) := by
  unfold DifficultySystem.forward
  cases s.forwarding with
  | idle => exact h
  | routed d target =>
    dsimp only
    split
    · exact h.record d target
    · exact h
  | recorded d target => exact h
  | visiting visited senders target =>
    dsimp only
    split <;> exact h
  | sending senders target =>
    cases senders with
    | nil => exact h
    | cons d rest =>
      dsimp only
      split
      · have hqueued : SystemInv cfg (s.modifyMiner d (·.queue (.setDifficulty target))) :=
          h.modifyMiner ((h d).queue _)
        exact hqueued
      · exact h

theorem systemInv_step (s : DifficultySystem) (a : Action) (h : SystemInv cfg s)
    (hok : agrees cfg s a) : SystemInv cfg (step cfg s a) := by
  cases a with
  | server a => exact h.serverStep a
  | forwardTarget c target => exact h.forwardTarget c target
  | forwardVisit d => exact h.forwardVisit d
  | forward => exact h.forward
  | notify d n =>
    dsimp only [step]
    split
    · refine h.modifyMiner ?_
      exact (h d).queue (.notify n)
    · exact h
  | respond d request =>
    dsimp only [step, DifficultySystem.respond]
    split
    · exact h.modifyMiner ((h d).respond request)
    · exact h
  | subscribeExtranonce d => exact h.modifyMiner ((h d).congr rfl rfl rfl rfl)
  | changeExtranonce d extranonce1 =>
    dsimp only [step, DifficultySystem.changeExtranonce]
    split
    · exact h.modifyMiner ((h d).congr rfl rfl rfl rfl)
    · exact h
  | event d =>
    refine h.modifyMiner ((h d).eventStep ?_)
    intro n enabling htask
    unfold agrees at hok
    dsimp only at hok
    rw [htask] at hok
    exact hok

/-- In a run whose jobs are sent in step, the difficulties agree. -/
theorem difficulty_agrees (cfg : DifficultyConfig) (as : List Action)
    (hg : Runs.Guarded (step cfg) (agrees cfg) (start cfg) as) :
    DifficultyAgrees cfg (after cfg as) := by
  have hstart : SystemInv cfg (start cfg) := fun _ => minerInv_new cfg cfg.maxPastJobs
  have h := Runs.run_invariant_of_guarded (SystemInv cfg) systemInv_step hstart as hg
  exact fun d => (h d).written

end Runs

/-! ## A system to try things on -/

/-- The target of difficulty one. -/
def difficultyOneTarget : Target := 0xffff * 2 ^ 208

/-- A difficulty is rounded to a power of two. -/
def sampleAdvertised (target : Target) : Target :=
  difficultyOneTarget / 2 ^ (difficultyOneTarget / target).log2

def sampleDifficultyConfig (firstTarget : Target) : DifficultyConfig :=
  ⟨⟨false, firstTarget, fun _ => true⟩, true, none, sampleAdvertised⟩

def sampleNotify : Notify :=
  ⟨⟨1, none⟩, Hash256.allZeros, 100, true, ⟨5, 1, none, true, [], [], 0⟩⟩

/-- The first miner connects, its channel is opened at difficulty 512, its setup requests are
    processed, and the first difficulty is queued and cached. -/
def openedRun : List Action :=
  [.server .accept, .server (.openSuccess 1 5 (difficultyOneTarget / 512)), .server (.task true),
   .respond 1 .subscribe, .respond 1 .authorize, .server (.task true), .event 1, .event 1, .event 1]

/-- A job is queued, sent and written. -/
def deliveredRun : List Action :=
  [.notify 1 sampleNotify, .event 1, .event 1, .event 1, .event 1, .event 1]

/-- The vardiff loop computes difficulty 1024, which has to wait for a `SetTarget`. -/
def parkedRun : List Action :=
  [.server .tick, .server (.visit 1 (.computed (difficultyOneTarget / 1024))), .server (.task true),
   .server (.task true), .server .endVisits, .server (.task true)]

/-- The first target is that of a power of two, and the first job comes before the vardiff loop. -/
theorem difficulty_agrees_openedRun :
    ((after (sampleDifficultyConfig (difficultyOneTarget / 512))
        (openedRun ++ deliveredRun ++ parkedRun)).miners 1).written =
      [.subscribeResponse (List.replicate 8 0), .setDifficulty (difficultyOneTarget / 512),
        .notify sampleNotify ⟨List.replicate 8 0, 4, difficultyOneTarget / 512⟩] ∧
      DifficultyAgrees (sampleDifficultyConfig (difficultyOneTarget / 512))
        (after (sampleDifficultyConfig (difficultyOneTarget / 512))
          (openedRun ++ deliveredRun ++ parkedRun)) := by
  constructor
  · decide +kernel
  · apply difficulty_agrees
    decide +kernel

/-- The vardiff loop comes before the first job, or the first target is that of difficulty 1000. -/
theorem not_difficultyAgrees :
    ¬DifficultyAgrees (sampleDifficultyConfig (difficultyOneTarget / 512))
      (after (sampleDifficultyConfig (difficultyOneTarget / 512))
        (openedRun ++ parkedRun ++ deliveredRun)) ∧
    ¬DifficultyAgrees (sampleDifficultyConfig (difficultyOneTarget / 1000))
      (after (sampleDifficultyConfig (difficultyOneTarget / 1000)) (openedRun ++ deliveredRun)) := by
  constructor
  · intro h
    have hwritten : ((after (sampleDifficultyConfig (difficultyOneTarget / 512))
        (openedRun ++ parkedRun ++ deliveredRun)).miners 1).written =
        [.subscribeResponse (List.replicate 8 0), .setDifficulty (difficultyOneTarget / 512),
          .notify sampleNotify ⟨List.replicate 8 0, 4, difficultyOneTarget / 1024⟩] := by
      decide +kernel
    have hagrees := h 1
    rw [hwritten] at hagrees
    obtain ⟨⟨target, htold, htarget⟩, -⟩ := hagrees
    cases htold
    exact absurd htarget (by decide +kernel)
  · intro h
    have hwritten : ((after (sampleDifficultyConfig (difficultyOneTarget / 1000))
        (openedRun ++ deliveredRun)).miners 1).written =
        [.subscribeResponse (List.replicate 8 0), .setDifficulty (difficultyOneTarget / 1000),
          .notify sampleNotify ⟨List.replicate 8 0, 4, difficultyOneTarget / 1000⟩] := by
      decide +kernel
    have hagrees := h 1
    rw [hwritten] at hagrees
    obtain ⟨⟨target, htold, htarget⟩, -⟩ := hagrees
    cases htold
    exact absurd htarget (by decide +kernel)

end DifficultySystem

end Sv2Apps.Translator
