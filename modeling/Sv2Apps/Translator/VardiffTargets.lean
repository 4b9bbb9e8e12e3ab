/-
  Translator/VardiffTargets.lean
  ==============================
  **The targets of the vardiff loop** — `translator/src/lib/sv1/sv1_server/difficulty_manager.rs`
  with the parts of `sv1_server/mod.rs` that touch the same data, vardiff enabled, both modes.

  The server task handles one thing at a time: a miner that connects, an open success, a close or
  a `SetTarget` from upstream, a tick of the vardiff loop.  All its sends go to unbounded channels,
  so it does not wait in between.  Any number of calls of `handle_downstream_disconnect` run beside
  it.  A step is one access to a map or to a miner's data, or one message.

  What the vardiff algorithm decides for a miner (`Adjustment`) is left to the action; the messages
  `UpdateChannel` and the hashrates they carry are left out.  `computed` and the last two fields of
  `SetDifficulty` are read by no step.
-/
import Sv2Apps.Translator.Channels
import Sv2Apps.Lib.Runs
import Mathlib.Data.Finset.Erase
import Mathlib.Data.Finset.Insert

namespace Sv2Apps.Translator

structure VardiffConfig where
  /-- `mode.is_aggregated()`. -/
  aggregated : Bool
  /-- Built from the smallest hashrate of a miner. -/
  firstTarget : Target
  /-- Whether `build_sv1_set_difficulty_from_sv2_target…` makes a message for a target. -/
  builds : Target → Bool

/-- The data of a miner, which outlives its entry. -/
structure MinerTargets where
  channelId : Option ChannelId
  upstreamTarget : Option Target
deriving DecidableEq

/-- A `mining.set_difficulty` on its way to a miner. -/
structure SetDifficulty where
  downstreamId : DownstreamId
  /-- It is the one of an open success. -/
  initial : Bool
  /-- What the difficulty was built from. -/
  target : Target
  /-- The last target that the vardiff loop had computed for the miner. -/
  mostRecent : Option Target
  /-- The upstream target of the miner. -/
  upstreamTarget : Option Target
deriving DecidableEq

/-- `try_vardiff`, and `hash_rate_to_target` for the new hashrate. -/
inductive Adjustment where
  | unchanged
  | failed
  | computed (newTarget : Target)
deriving DecidableEq

namespace DifficultyManager

/-- Where the server task is. -/
inductive Task where
  | idle
  /-- An open success: the miner's data is set, the route inserted. -/
  | opened (d : DownstreamId)
  /-- The queued handshake messages, then the first difficulty. -/
  | replaying (d : DownstreamId)
  /-- A close from upstream, the route being gone. -/
  | clearing (c : ChannelId) (d : DownstreamId)
  /-- A tick: the miners that were visited, the updates that do not wait. -/
  | visiting (visited : Finset DownstreamId) (immediate : List (DownstreamId × Target))
  /-- A target is computed, against the upstream target that was read. -/
  | adjusting (visited : Finset DownstreamId) (immediate : List (DownstreamId × Target))
      (d : DownstreamId) (newTarget : Target) (upstreamTarget : Option Target)
  /-- The miner's data has it as its pending target. -/
  | deciding (visited : Finset DownstreamId) (immediate : List (DownstreamId × Target))
      (d : DownstreamId) (newTarget : Target) (upstreamTarget : Option Target)
  /-- A `SetTarget` for the channel of a miner. -/
  | routed (d : DownstreamId) (target : Target)
  /-- The upstream targets are set; of one miner or of all. -/
  | retargeted (d : Option DownstreamId) (target : Target)
  /-- Messages are sent. -/
  | sending (updates : List (DownstreamId × Target))
deriving DecidableEq

/-- Where a call of `handle_downstream_disconnect` is. -/
inductive Cleanup where
  | started
  | vardiffRemoved
  | targetsRemoved
  | senderRemoved
  | removed
  | channelRead (c : ChannelId)
deriving DecidableEq

end DifficultyManager

structure DifficultyManager where
  downstreamIdFactory : Nat
  downstreams : Finset DownstreamId
  downstreamData : DownstreamId → MinerTargets
  sv1ServerToDownstreamSender : Finset DownstreamId
  channelIdToDownstreamId : KeyMap ChannelId DownstreamId
  vardiff : Finset DownstreamId
  pendingTargetUpdates : KeyMap DownstreamId Target
  task : DifficultyManager.Task
  cleanups : List (DownstreamId × DifficultyManager.Cleanup)
  queued : List SetDifficulty
  /-- The last target that was computed for a miner. -/
  computed : DownstreamId → Option Target

namespace DifficultyManager

def start : DifficultyManager where
  downstreamIdFactory := 1
  downstreams := ∅
  downstreamData := fun _ => ⟨none, none⟩
  sv1ServerToDownstreamSender := ∅
  channelIdToDownstreamId := ∅
  vardiff := ∅
  pendingTargetUpdates := ∅
  task := .idle
  cleanups := []
  queued := []
  computed := fun _ => none

/-- The miner whose entry in `vardiff` is guarded. -/
def Task.adjusts : Task → Option DownstreamId
  | .adjusting _ _ d _ _ => some d
  | .deciding _ _ d _ _ => some d
  | _ => none

/-- Send a difficulty to a miner.  Without a sender nothing is sent. -/
def queue (s : DifficultyManager) (d : DownstreamId) (initial : Bool) (target : Target) :
    DifficultyManager :=
  if d ∈ s.sv1ServerToDownstreamSender then
    { s with queued := s.queued ++
        [⟨d, initial, target, s.computed d, (s.downstreamData d).upstreamTarget⟩] }
  else s

section Steps

variable (cfg : VardiffConfig)

/-- A miner connects. -/
def accept (s : DifficultyManager) : DifficultyManager :=
  match s.task with
  | .idle =>
    { s with
      downstreamIdFactory := s.downstreamIdFactory + 1
      sv1ServerToDownstreamSender := insert s.downstreamIdFactory s.sv1ServerToDownstreamSender
      downstreams := insert s.downstreamIdFactory s.downstreams }
  | _ => s

/-- `OpenExtendedMiningChannelSuccess` for a request of `d`. -/
def openSuccess (s : DifficultyManager) (d : DownstreamId) (c : ChannelId) (target : Target) :
    DifficultyManager :=
  match s.task with
  | .idle =>
    if d ∈ s.downstreams then
      { s with
        task := .opened d
        downstreamData := Function.update s.downstreamData d ⟨some c, some target⟩
        channelIdToDownstreamId := s.channelIdToDownstreamId.insert c d }
    else s
  | _ => s

/-- `disconnect_downstream_for_upstream_close`. -/
def closeChannel (s : DifficultyManager) (c : ChannelId) : DifficultyManager :=
  match s.task with
  | .idle =>
    match s.channelIdToDownstreamId.lookup c with
    | some d =>
      { s with
        task := .clearing c d
        channelIdToDownstreamId := s.channelIdToDownstreamId.erase c }
    | none => s
  | _ => s

/-- `handle_set_target_message`. -/
def setTarget (s : DifficultyManager) (c : ChannelId) (target : Target) : DifficultyManager :=
  match s.task with
  | .idle =>
    if cfg.aggregated then
      { s with
        task := .retargeted none target
        downstreamData := fun d =>
          if d ∈ s.downstreams then ⟨(s.downstreamData d).channelId, some target⟩
          else s.downstreamData d }
    else
      match s.channelIdToDownstreamId.lookup c with
      | some d => { s with task := .routed d target }
      | none => s
  | _ => s

/-- `handle_vardiff_updates` begins. -/
def tick (s : DifficultyManager) : DifficultyManager :=
  match s.task with
  | .idle => { s with task := .visiting ∅ [] }
  | _ => s

/-- The iteration comes to the entry of `d`. -/
def visit (s : DifficultyManager) (d : DownstreamId) (a : Adjustment) : DifficultyManager :=
  match s.task with
  | .visiting visited immediate =>
    if d ∈ s.vardiff ∧ d ∉ visited then
      if d ∈ s.downstreams ∧ (s.downstreamData d).channelId.isSome then
        match a with
        | .computed newTarget =>
          { s with
            task := .adjusting visited immediate d newTarget (s.downstreamData d).upstreamTarget
            computed := Function.update s.computed d (some newTarget) }
        | _ => { s with task := .visiting (insert d visited) immediate }
      else { s with task := .visiting (insert d visited) immediate }
    else s
  | _ => s

/-- The iteration is over when no entry is left. -/
def endVisits (s : DifficultyManager) : DifficultyManager :=
  match s.task with
  | .visiting visited immediate =>
    if s.vardiff ⊆ visited then { s with task := .sending immediate } else s
  | _ => s

/-- Whether a `SetTarget` of `target` releases the update that is parked for `d`. -/
def releases (scope : Option DownstreamId) (target : Target) (d : DownstreamId)
    (pending : Target) : Bool :=
  (match scope with
    | some d' => decide (d = d')
    | none => true) && decide (target ≤ pending)

/-- `get_pending_difficulty_updates`. -/
def pendingDifficultyUpdates (s : DifficultyManager) (scope : Option DownstreamId)
    (target : Target) : List (DownstreamId × Target) :=
  (s.pendingTargetUpdates.entries.filter fun e => releases scope target e.1 e.2).map
    fun e => (e.1, e.2)

/-- The server task goes on.  `ok`: the queued handshake messages are processed without an error,
    or the receiver of the message that is sent is there. -/
def taskStep (s : DifficultyManager) (ok : Bool) : DifficultyManager :=
  match s.task with
  | .opened d => { s with task := .replaying d, vardiff := insert d s.vardiff }
  | .replaying d =>
    if ok ∧ cfg.builds cfg.firstTarget then { s.queue d true cfg.firstTarget with task := .idle }
    else { s with task := .idle }
  | .clearing c d =>
    { s with
      task := .idle
      downstreamData :=
        if d ∈ s.downstreams ∧ (s.downstreamData d).channelId = some c then
          Function.update s.downstreamData d ⟨none, (s.downstreamData d).upstreamTarget⟩
        else s.downstreamData }
  | .adjusting visited immediate d newTarget upstreamTarget =>
    if d ∈ s.downstreams then
      { s with task := .deciding visited immediate d newTarget upstreamTarget }
    else { s with task := .visiting (insert d visited) immediate }
  | .deciding visited immediate d newTarget upstreamTarget =>
    let advertise : DifficultyManager :=
      { s with
        task := .visiting (insert d visited) (immediate ++ [(d, newTarget)])
        pendingTargetUpdates := s.pendingTargetUpdates.erase d }
    match upstreamTarget with
    | some upstream =>
      if upstream ≤ newTarget then advertise
      else
        { s with
          task := .visiting (insert d visited) immediate
          pendingTargetUpdates := s.pendingTargetUpdates.insert d newTarget }
    | none => advertise
  | .routed d target =>
    if d ∈ s.downstreams then
      { s with
        task := .retargeted (some d) target
        downstreamData := Function.update s.downstreamData d
          ⟨(s.downstreamData d).channelId, some target⟩ }
    else { s with task := .idle }
  | .retargeted scope target =>
    { s with
      task := .sending (s.pendingDifficultyUpdates scope target)
      pendingTargetUpdates := s.pendingTargetUpdates.retain fun d pending =>
        !releases scope target d pending }
  | .sending ((d, target) :: rest) =>
    if ok ∧ cfg.builds target then { s.queue d false target with task := .sending rest }
    else { s with task := .sending rest }
  | .sending [] => { s with task := .idle }
  | _ => s

def moveCleanup (s : DifficultyManager) (k : DownstreamId × Cleanup) (next : Cleanup) :
    DifficultyManager :=
  { s with cleanups := (k.1, next) :: s.cleanups.erase k }

/-- A call of `handle_downstream_disconnect` goes on. -/
def cleanupStep (s : DifficultyManager) (k : DownstreamId × Cleanup) : DifficultyManager :=
  match k.2 with
  | .started =>
    -- the entry is guarded while the vardiff loop works on it
    if s.task.adjusts = some k.1 then s
    else { s.moveCleanup k .vardiffRemoved with vardiff := s.vardiff.erase k.1 }
  | .vardiffRemoved =>
    { s.moveCleanup k .targetsRemoved with
      pendingTargetUpdates := s.pendingTargetUpdates.erase k.1 }
  | .targetsRemoved =>
    { s.moveCleanup k .senderRemoved with
      sv1ServerToDownstreamSender := s.sv1ServerToDownstreamSender.erase k.1 }
  | .senderRemoved =>
    { (if k.1 ∈ s.downstreams then s.moveCleanup k .removed
        else { s with cleanups := s.cleanups.erase k }) with
      downstreams := s.downstreams.erase k.1 }
  | .removed =>
    match (s.downstreamData k.1).channelId with
    | some c => s.moveCleanup k (.channelRead c)
    | none => { s with cleanups := s.cleanups.erase k }
  | .channelRead c =>
    { s with
      cleanups := s.cleanups.erase k
      channelIdToDownstreamId := s.channelIdToDownstreamId.erase c }

end Steps

inductive Action where
  | accept
  | openSuccess (d : DownstreamId) (c : ChannelId) (target : Target)
  | closeChannel (c : ChannelId)
  | setTarget (c : ChannelId) (target : Target)
  | tick
  | visit (d : DownstreamId) (a : Adjustment)
  | endVisits
  | task (ok : Bool)
  /-- `handle_downstream_disconnect` is called for a miner that has connected. -/
  | disconnect (d : DownstreamId)
  | cleanup (k : DownstreamId × Cleanup)
deriving DecidableEq

section Run

variable (cfg : VardiffConfig)

def step (s : DifficultyManager) : Action → DifficultyManager
  | .accept => s.accept
  | .openSuccess d c target => s.openSuccess d c target
  | .closeChannel c => s.closeChannel c
  | .setTarget c target => setTarget cfg s c target
  | .tick => s.tick
  | .visit d a => s.visit d a
  | .endVisits => s.endVisits
  | .task ok => taskStep cfg s ok
  | .disconnect d =>
    if d < s.downstreamIdFactory then { s with cleanups := (d, .started) :: s.cleanups } else s
  | .cleanup k => if k ∈ s.cleanups then s.cleanupStep k else s

/-- The state after a run. -/
def after (as : List Action) : DifficultyManager := Runs.run (step cfg) start as

end Run

/-! ## The property -/

/-- The target that is parked for a miner. -/
def parked (s : DifficultyManager) (d : DownstreamId) : Option Target :=
  s.pendingTargetUpdates.lookup d

/-- The parked target `pending` of `d` is taken out of the map by this step: a later update of `d`
    is decided, a `SetTarget` that it satisfies is applied, or the disconnect removes it. -/
def Ends (s : DifficultyManager) (d : DownstreamId) (pending : Target) : Action → Prop
  | .task _ =>
    match s.task with
    | .deciding _ _ e _ _ => e = d
    | .retargeted scope target => releases scope target d pending = true
    | _ => False
  | .cleanup k => k ∈ s.cleanups ∧ k = (d, .vardiffRemoved)
  | _ => False

/-- What a miner is told, and what waits for it. -/
structure TargetsSafe (cfg : VardiffConfig) (s : DifficultyManager) : Prop where
  /-- Each difficulty after the initial one is the most recent, and no harder than upstream. -/
  queued : ∀ m ∈ s.queued, m.initial = false → m.mostRecent = some m.target ∧
    ∀ upstream, m.upstreamTarget = some upstream → upstream ≤ m.target
  /-- What is parked stays parked until a step ends it. -/
  stays : ∀ d pending as, s.parked d = some pending →
    Runs.Guarded (step cfg) (fun s a => ¬s.Ends d pending a) s as →
    (Runs.run (step cfg) s as).parked d = some pending
  /-- A later update takes the place of what is parked, or removes it. -/
  superseded : ∀ visited immediate d newTarget upstreamTarget ok,
    s.task = .deciding visited immediate d newTarget upstreamTarget →
    (step cfg s (.task ok)).parked d =
      if ∃ upstream, upstreamTarget = some upstream ∧ newTarget < upstream then some newTarget
      else none
  /-- A `SetTarget` that it satisfies releases it. -/
  released : ∀ scope target d pending ok, s.task = .retargeted scope target →
    s.parked d = some pending → releases scope target d pending = true →
    (step cfg s (.task ok)).parked d = none ∧
      ∃ updates, (step cfg s (.task ok)).task = .sending updates ∧ (d, pending) ∈ updates
  /-- What is parked belongs to a miner that the vardiff loop visits, or whose disconnect is about
      to remove it. -/
  alive : ∀ d pending, s.parked d = some pending →
    d ∈ s.vardiff ∨ (d, .vardiffRemoved) ∈ s.cleanups
  /-- The disconnect removes it. -/
  removed : ∀ d, (d, .vardiffRemoved) ∈ s.cleanups →
    (step cfg s (.cleanup (d, .vardiffRemoved))).parked d = none

/-! ## What waits -/

section Parked

variable {cfg : VardiffConfig} {s : DifficultyManager} {d : DownstreamId} {pending : Target}

@[simp] theorem parked_queue (s : DifficultyManager) (e d : DownstreamId) (initial : Bool)
    (target : Target) : (s.queue e initial target).parked d = s.parked d := by
  unfold queue
  split
  · rfl
  · rfl

theorem taskStep_parked (hp : s.parked d = some pending) (ok : Bool)
    (hends : ¬s.Ends d pending (.task ok)) : (taskStep cfg s ok).parked d = some pending := by
  unfold Ends at hends
  unfold taskStep
  cases htask : s.task with
  | deciding visited immediate e newTarget upstreamTarget =>
    rw [htask] at hends
    have hne : d ≠ e := fun h => hends h.symm
    have herase : (s.pendingTargetUpdates.erase e).lookup d = some pending := by
      rw [KeyMap.lookup_erase_eq, if_neg hne]
      exact hp
    cases upstreamTarget with
    | none => exact herase
    | some upstream =>
      dsimp only
      by_cases hle : upstream ≤ newTarget
      · rw [if_pos hle]
        exact herase
      · rw [if_neg hle]
        unfold parked
        rw [KeyMap.lookup_insert_eq, if_neg hne]
        exact hp
  | retargeted scope target =>
    rw [htask] at hends
    have hkeep : (!releases scope target d pending) = true := by simpa using hends
    unfold parked
    dsimp only
    rw [KeyMap.lookup_retain]
    have hlook : s.pendingTargetUpdates.lookup d = some pending := hp
    rw [hlook, Option.filter_some, if_pos hkeep]
  | replaying e =>
    dsimp only
    split
    · exact (parked_queue _ _ _ _ _).trans hp
    · exact hp
  | adjusting visited immediate e newTarget upstreamTarget =>
    dsimp only
    split
    · exact hp
    · exact hp
  | routed e target =>
    dsimp only
    split
    · exact hp
    · exact hp
  | sending updates =>
    cases updates with
    | nil => exact hp
    | cons u rest =>
      dsimp only
      split
      · exact (parked_queue _ _ _ _ _).trans hp
      · exact hp
  | _ => exact hp

theorem cleanupStep_parked (hp : s.parked d = some pending) {k : DownstreamId × Cleanup}
    (hne : k ≠ (d, .vardiffRemoved)) : (s.cleanupStep k).parked d = some pending := by
  obtain ⟨e, stage⟩ := k
  cases stage with
  | started =>
    unfold cleanupStep
    dsimp only
    split
    · exact hp
    · exact hp
  | vardiffRemoved =>
    have hd : d ≠ e := by
      rintro rfl
      exact hne rfl
    unfold cleanupStep parked
    dsimp only
    rw [KeyMap.lookup_erase_eq, if_neg hd]
    exact hp
  | targetsRemoved => exact hp
  | senderRemoved =>
    unfold cleanupStep
    dsimp only
    split
    · exact hp
    · exact hp
  | removed =>
    unfold cleanupStep
    dsimp only
    split
    · exact hp
    · exact hp
  | channelRead c => exact hp

/-- No step but those of `Ends` touches what is parked. -/
theorem step_parked (hp : s.parked d = some pending) (a : Action) (hends : ¬s.Ends d pending a) :
    (step cfg s a).parked d = some pending := by
  cases a with
  | task ok => exact taskStep_parked hp ok hends
  | cleanup k =>
    simp only [step]
    by_cases hk : k ∈ s.cleanups
    · rw [if_pos hk]
      exact cleanupStep_parked hp fun h => hends ⟨hk, h⟩
    · rw [if_neg hk]
      exact hp
  | accept =>
    simp only [step, accept]
    split
    · exact hp
    · exact hp
  | openSuccess e c target =>
    simp only [step, openSuccess]
    split
    · split
      · exact hp
      · exact hp
    · exact hp
  | closeChannel c =>
    simp only [step, closeChannel]
    split
    · split
      · exact hp
      · exact hp
    · exact hp
  | setTarget c target =>
    simp only [step, setTarget]
    split
    · split
      · exact hp
      · split
        · exact hp
        · exact hp
    · exact hp
  | tick =>
    simp only [step, tick]
    split
    · exact hp
    · exact hp
  | visit e adj =>
    simp only [step, visit]
    split
    · split
      · split
        · split
          · exact hp
          · exact hp
        · exact hp
      · exact hp
    · exact hp
  | endVisits =>
    simp only [step, endVisits]
    split
    · split
      · exact hp
      · exact hp
    · exact hp
  | disconnect e =>
    simp only [step]
    split
    · exact hp
    · exact hp

theorem run_parked (hp : s.parked d = some pending) (as : List Action)
    (h : Runs.Guarded (step cfg) (fun s a => ¬s.Ends d pending a) s as) :
    (Runs.run (step cfg) s as).parked d = some pending :=
  Runs.run_invariant_of_guarded (fun s => s.parked d = some pending)
    (fun _ a hs hends => step_parked hs a hends) hp as h

theorem deciding_parked {visited : Finset DownstreamId}
    {immediate : List (DownstreamId × Target)} {newTarget : Target}
    {upstreamTarget : Option Target}
    (htask : s.task = .deciding visited immediate d newTarget upstreamTarget) (ok : Bool) :
    (step cfg s (.task ok)).parked d =
      if ∃ upstream, upstreamTarget = some upstream ∧ newTarget < upstream then some newTarget
      else none := by
  simp only [step, taskStep, htask]
  cases upstreamTarget with
  | none =>
    rw [if_neg (by simp)]
    exact AList.lookup_erase d s.pendingTargetUpdates
  | some upstream =>
    dsimp only
    by_cases hle : upstream ≤ newTarget
    · rw [if_pos hle, if_neg (by simpa using hle)]
      exact AList.lookup_erase d s.pendingTargetUpdates
    · rw [if_neg hle, if_pos ⟨upstream, rfl, Nat.lt_of_not_le hle⟩]
      exact AList.lookup_insert _

theorem mem_pendingDifficultyUpdates {scope : Option DownstreamId} {target : Target} :
    (d, pending) ∈ s.pendingDifficultyUpdates scope target ↔
      s.parked d = some pending ∧ releases scope target d pending = true := by
  unfold pendingDifficultyUpdates parked
  rw [List.mem_map]
  constructor
  · rintro ⟨e, he, heq⟩
    obtain ⟨hmem, hrel⟩ := List.mem_filter.mp he
    cases heq
    exact ⟨(KeyMap.mem_entries_iff _ _ _).mp hmem, hrel⟩
  · rintro ⟨hlook, hrel⟩
    exact ⟨⟨d, pending⟩, List.mem_filter.mpr ⟨(KeyMap.mem_entries_iff _ _ _).mpr hlook, hrel⟩, rfl⟩

theorem retargeted_parked {scope : Option DownstreamId} {target : Target}
    (htask : s.task = .retargeted scope target) (hp : s.parked d = some pending)
    (hrel : releases scope target d pending = true) (ok : Bool) :
    (step cfg s (.task ok)).parked d = none ∧
      ∃ updates, (step cfg s (.task ok)).task = .sending updates ∧ (d, pending) ∈ updates := by
  simp only [step, taskStep, htask]
  constructor
  · have hlook : s.pendingTargetUpdates.lookup d = some pending := hp
    unfold parked
    dsimp only
    rw [KeyMap.lookup_retain, hlook, Option.filter_some, if_neg (by simp [hrel])]
  · exact ⟨_, rfl, mem_pendingDifficultyUpdates.mpr ⟨hp, hrel⟩⟩

theorem cleanup_parked (hk : (d, Cleanup.vardiffRemoved) ∈ s.cleanups) :
    (step cfg s (.cleanup (d, .vardiffRemoved))).parked d = none := by
  simp only [step]
  rw [if_pos hk]
  exact AList.lookup_erase d s.pendingTargetUpdates

end Parked

/-! ## What is queued -/

/-- `target` is the last that was computed for `d`, and no harder than upstream asks. -/
def Current (s : DifficultyManager) (u : DownstreamId × Target) : Prop :=
  s.computed u.1 = some u.2 ∧
    ∀ upstream, (s.downstreamData u.1).upstreamTarget = some upstream → upstream ≤ u.2

/-- A miner that was connected and is no more.  It has no sender. -/
def Gone (s : DifficultyManager) (d : DownstreamId) : Prop :=
  d < s.downstreamIdFactory ∧ d ∉ s.downstreams

/-- The updates of a tick that do not wait. -/
def TickInv (s : DifficultyManager) (visited : Finset DownstreamId)
    (immediate : List (DownstreamId × Target)) : Prop :=
  ∀ u ∈ immediate, u.1 ∈ visited ∧ s.Current u

/-- An entry of the tick is being worked on. -/
structure AdjustInv (s : DifficultyManager) (visited : Finset DownstreamId)
    (immediate : List (DownstreamId × Target)) (d : DownstreamId) (newTarget : Target)
    (upstreamTarget : Option Target) : Prop where
  tick : s.TickInv visited immediate
  unvisited : d ∉ visited
  computed : s.computed d = some newTarget
  upstream : upstreamTarget = (s.downstreamData d).upstreamTarget
  known : d < s.downstreamIdFactory

/-- What the server task has at hand. -/
def TaskInv (s : DifficultyManager) : Prop :=
  match s.task with
  | .visiting visited immediate => s.TickInv visited immediate
  | .adjusting visited immediate d newTarget upstreamTarget =>
    s.AdjustInv visited immediate d newTarget upstreamTarget
  | .deciding visited immediate d newTarget upstreamTarget =>
    s.AdjustInv visited immediate d newTarget upstreamTarget
  | .retargeted scope target =>
    ∀ d, d < s.downstreamIdFactory → (scope = none ∨ scope = some d) →
      (s.downstreamData d).upstreamTarget = some target ∨ d ∉ s.downstreams
  | .sending updates => ∀ u ∈ updates, s.Current u ∨ s.Gone u.1
  | _ => True

structure TargetsInv (s : DifficultyManager) : Prop where
  known : ∀ d ∈ s.downstreams, d < s.downstreamIdFactory
  cleanups : ∀ k ∈ s.cleanups, k.1 < s.downstreamIdFactory
  /-- A disconnect takes the sender before the miner. -/
  senders : ∀ d ∈ s.sv1ServerToDownstreamSender, d ∈ s.downstreams
  senderRemoved : ∀ d, (d, .senderRemoved) ∈ s.cleanups → d ∉ s.sv1ServerToDownstreamSender
  parked : ∀ d pending, s.parked d = some pending → d < s.downstreamIdFactory ∧
    (s.computed d = some pending ∨ d ∉ s.downstreams ∨ s.task.adjusts = some d)
  alive : ∀ d pending, s.parked d = some pending →
    d ∈ s.vardiff ∨ (d, .vardiffRemoved) ∈ s.cleanups
  listed : ∀ d, s.task.adjusts = some d → d ∈ s.vardiff
  task : s.TaskInv
  queued : ∀ m ∈ s.queued, m.initial = false → m.mostRecent = some m.target ∧
    ∀ upstream, m.upstreamTarget = some upstream → upstream ≤ m.target

theorem targetsInv_start : TargetsInv start := by
  constructor
  · intro d hd
    cases hd
  · intro k hk
    cases hk
  · intro d hd
    cases hd
  · intro d hd
    cases hd
  · intro d pending hd
    cases hd
  · intro d pending hd
    cases hd
  · intro d hd
    cases hd
  · exact trivial
  · intro m hm
    cases hm

/-- Fewer miners, the same data. -/
theorem TaskInv.shrink {s s' : DifficultyManager} (h : s.TaskInv) (htask : s'.task = s.task)
    (hfac : s'.downstreamIdFactory = s.downstreamIdFactory)
    (hcomp : s'.computed = s.computed) (hdata : s'.downstreamData = s.downstreamData)
    (hsub : s'.downstreams ⊆ s.downstreams) : s'.TaskInv := by
  have hcurrent : ∀ u, s.Current u → s'.Current u := by
    intro u hu
    unfold Current
    rw [hcomp, hdata]
    exact hu
  have htick : ∀ visited immediate, s.TickInv visited immediate → s'.TickInv visited immediate :=
    fun visited immediate ht u hu => ⟨(ht u hu).1, hcurrent u (ht u hu).2⟩
  have hadjust : ∀ visited immediate d newTarget upstreamTarget,
      s.AdjustInv visited immediate d newTarget upstreamTarget →
      s'.AdjustInv visited immediate d newTarget upstreamTarget := by
    intro visited immediate d newTarget upstreamTarget ha
    exact ⟨htick _ _ ha.tick, ha.unvisited, by rw [hcomp]; exact ha.computed,
      by rw [hdata]; exact ha.upstream, by rw [hfac]; exact ha.known⟩
  unfold TaskInv at h ⊢
  rw [htask]
  cases hs : s.task with
  | visiting visited immediate =>
    rw [hs] at h
    exact htick _ _ h
  | adjusting visited immediate d newTarget upstreamTarget =>
    rw [hs] at h
    exact hadjust _ _ _ _ _ h
  | deciding visited immediate d newTarget upstreamTarget =>
    rw [hs] at h
    exact hadjust _ _ _ _ _ h
  | retargeted scope target =>
    rw [hs] at h
    intro d hd hscope
    rw [hfac] at hd
    rw [hdata]
    exact (h d hd hscope).imp_right fun hnot hd => hnot (hsub hd)
  | sending updates =>
    rw [hs] at h
    intro u hu
    rcases h u hu with hc | ⟨hlt, hnot⟩
    · exact Or.inl (hcurrent u hc)
    · exact Or.inr ⟨by rw [hfac]; exact hlt, fun hd => hnot (hsub hd)⟩
  | _ => exact trivial

/-- A difficulty that is sent from the list of a tick or of a `SetTarget`. -/
theorem TargetsInv.queue {s : DifficultyManager} (h : TargetsInv s) {u : DownstreamId × Target}
    (hu : s.Current u ∨ s.Gone u.1) :
    ∀ m ∈ (s.queue u.1 false u.2).queued, m.initial = false → m.mostRecent = some m.target ∧
      ∀ upstream, m.upstreamTarget = some upstream → upstream ≤ m.target := by
  unfold DifficultyManager.queue
  by_cases hsender : u.1 ∈ s.sv1ServerToDownstreamSender
  · rw [if_pos hsender]
    intro m hm
    rcases List.mem_append.mp hm with hm | hm
    · exact h.queued m hm
    · rw [List.mem_singleton.mp hm]
      intro _
      rcases hu with hc | hg
      · exact hc
      · exact absurd (h.senders u.1 hsender) hg.2
  · rw [if_neg hsender]
    exact h.queued

section Events

variable {cfg : VardiffConfig} {s : DifficultyManager}

/-- What is parked for a miner that the loop is not at is its most recent target. -/
theorem TargetsInv.parked_of_free (h : TargetsInv s) {d : DownstreamId}
    (hfree : s.task.adjusts ≠ some d) {pending : Target} (hp : s.parked d = some pending) :
    d < s.downstreamIdFactory ∧ (s.computed d = some pending ∨ d ∉ s.downstreams) := by
  obtain ⟨hlt, hc | hg | ha⟩ := h.parked d pending hp
  · exact ⟨hlt, Or.inl hc⟩
  · exact ⟨hlt, Or.inr hg⟩
  · exact absurd ha hfree

theorem TargetsInv.accept (h : TargetsInv s) : TargetsInv s.accept := by
  unfold DifficultyManager.accept
  cases hs : s.task with
  | idle =>
    constructor
    · intro d hd
      rcases Finset.mem_insert.mp hd with rfl | hd
      · exact Nat.lt_succ_self _
      · exact Nat.lt_succ_of_lt (h.known d hd)
    · exact fun k hk => Nat.lt_succ_of_lt (h.cleanups k hk)
    · intro d hd
      rcases Finset.mem_insert.mp hd with rfl | hd
      · exact Finset.mem_insert_self _ _
      · exact Finset.mem_insert_of_mem (h.senders d hd)
    · intro d hd hsender
      rcases Finset.mem_insert.mp hsender with rfl | hsender
      · exact Nat.lt_irrefl _ (h.cleanups _ hd)
      · exact h.senderRemoved d hd hsender
    · intro d pending hp
      obtain ⟨hlt, hc⟩ := h.parked_of_free (by rw [hs]; nofun) hp
      refine ⟨Nat.lt_succ_of_lt hlt, ?_⟩
      rcases hc with hc | hg
      · exact Or.inl hc
      · refine Or.inr (Or.inl fun hd => ?_)
        rcases Finset.mem_insert.mp hd with rfl | hd
        · exact Nat.lt_irrefl _ hlt
        · exact hg hd
    · exact h.alive
    · intro d hd
      cases hd
    · exact trivial
    · exact h.queued
  | _ => exact h

/-- A step of an idle server that only sets the data of miners and its task. -/
theorem TargetsInv.setData (h : TargetsInv s) (hidle : s.task = .idle)
    {data : DownstreamId → MinerTargets} {routes : KeyMap ChannelId DownstreamId} {task : Task}
    (hadjust : task.adjusts = none)
    (htask : ({ s with downstreamData := data, channelIdToDownstreamId := routes,
                       task := task } : DifficultyManager).TaskInv) :
    TargetsInv { s with
      downstreamData := data, channelIdToDownstreamId := routes, task := task } :=
  { h with
    parked := fun _ _ hp =>
      have hold := h.parked_of_free (by rw [hidle]; nofun) hp
      ⟨hold.1, hold.2.imp_right Or.inl⟩
    listed := by
      intro d hd
      rw [hadjust] at hd
      cases hd
    task := htask }

theorem TargetsInv.openSuccess (h : TargetsInv s) (d : DownstreamId) (c : ChannelId)
    (target : Target) : TargetsInv (s.openSuccess d c target) := by
  unfold DifficultyManager.openSuccess
  cases hs : s.task with
  | idle =>
    dsimp only
    split
    · exact h.setData hs rfl trivial
    · exact h
  | _ => exact h

theorem TargetsInv.closeChannel (h : TargetsInv s) (c : ChannelId) :
    TargetsInv (s.closeChannel c) := by
  unfold DifficultyManager.closeChannel
  cases hs : s.task with
  | idle =>
    dsimp only
    split
    · exact h.setData hs rfl trivial
    · exact h
  | _ => exact h

theorem TargetsInv.setTarget (h : TargetsInv s) (c : ChannelId) (target : Target) :
    TargetsInv (setTarget cfg s c target) := by
  unfold DifficultyManager.setTarget
  cases hs : s.task with
  | idle =>
    dsimp only
    split
    · refine h.setData hs rfl ?_
      intro d _ _
      dsimp only
      by_cases hd : d ∈ s.downstreams
      · rw [if_pos hd]
        exact Or.inl rfl
      · exact Or.inr hd
    · split
      · exact h.setData hs rfl trivial
      · exact h
  | _ => exact h

theorem TargetsInv.tick (h : TargetsInv s) : TargetsInv s.tick := by
  unfold DifficultyManager.tick
  cases hs : s.task with
  | idle =>
    refine h.setData hs rfl ?_
    intro u hu
    cases hu
  | _ => exact h

/-- A step inside a tick, or at its end, that leaves the entry it was at. -/
theorem TargetsInv.setTask (h : TargetsInv s) {task : Task}
    (hnone : task.adjusts = none) (hadjust : ∀ d, s.task.adjusts = some d → d ∉ s.downstreams)
    (htask : ({ s with task := task } : DifficultyManager).TaskInv) :
    TargetsInv { s with task := task } := by
  refine { h with parked := ?_, listed := ?_, task := htask }
  · intro d pending hp
    obtain ⟨hlt, hc | hg | ha⟩ := h.parked d pending hp
    · exact ⟨hlt, Or.inl hc⟩
    · exact ⟨hlt, Or.inr (Or.inl hg)⟩
    · exact ⟨hlt, Or.inr (Or.inl (hadjust d ha))⟩
  · intro d hd
    rw [hnone] at hd
    cases hd

/-- What is known in the middle of a tick. -/
theorem TargetsInv.midTick (h : TargetsInv s) {visited : Finset DownstreamId}
    {immediate : List (DownstreamId × Target)} (hs : s.task = .visiting visited immediate) :
    s.TickInv visited immediate := by
  have ht := h.task
  unfold TaskInv at ht
  rw [hs] at ht
  exact ht

theorem TargetsInv.visit (h : TargetsInv s) (d : DownstreamId) (a : Adjustment) :
    TargetsInv (s.visit d a) := by
  unfold DifficultyManager.visit
  cases hs : s.task with
  | visiting visited immediate =>
    have htick := h.midTick hs
    have hskip : TargetsInv { s with task := .visiting (insert d visited) immediate } := by
      refine h.setTask rfl ?_ ?_
      · intro e he
        rw [hs] at he
        cases he
      · exact fun u hu => ⟨Finset.mem_insert_of_mem (htick u hu).1, (htick u hu).2⟩
    dsimp only
    by_cases hv : d ∈ s.vardiff ∧ d ∉ visited
    · rw [if_pos hv]
      by_cases hreg : d ∈ s.downstreams ∧ (s.downstreamData d).channelId.isSome
      · rw [if_pos hreg]
        cases a with
        | computed newTarget =>
          refine { h with parked := ?_, listed := ?_, task := ?_ }
          · intro e pending hp
            obtain ⟨hlt, hc⟩ := h.parked e pending hp
            refine ⟨hlt, ?_⟩
            by_cases he : e = d
            · subst he
              exact Or.inr (Or.inr rfl)
            · rcases hc with hc | hg | ha
              · apply Or.inl
                dsimp only
                rw [Function.update_of_ne he]
                exact hc
              · exact Or.inr (Or.inl hg)
              · rw [hs] at ha
                cases ha
          · intro e he
            cases he
            exact hv.1
          · refine ⟨?_, hv.2, Function.update_self _ _ _, rfl, h.known d hreg.1⟩
            intro u hu
            obtain ⟨hvis, hcomp, hup⟩ := htick u hu
            have hne : u.1 ≠ d := fun he => hv.2 (he ▸ hvis)
            refine ⟨hvis, ?_, hup⟩
            dsimp only
            rw [Function.update_of_ne hne]
            exact hcomp
        | _ => exact hskip
      · rw [if_neg hreg]
        exact hskip
    · rw [if_neg hv]
      exact h
  | _ => exact h

theorem TargetsInv.endVisits (h : TargetsInv s) : TargetsInv s.endVisits := by
  unfold DifficultyManager.endVisits
  cases hs : s.task with
  | visiting visited immediate =>
    have htick := h.midTick hs
    dsimp only
    split
    · refine h.setTask rfl ?_ ?_
      · intro e he
        rw [hs] at he
        cases he
      · exact fun u hu => Or.inl (htick u hu).2
    · exact h
  | _ => exact h

/-- What the server knows when it decides about an update. -/
theorem adjustInv_of_task (h : TargetsInv s) {visited : Finset DownstreamId}
    {immediate : List (DownstreamId × Target)} {d : DownstreamId} {newTarget : Target}
    {upstreamTarget : Option Target}
    (hs : s.task = .adjusting visited immediate d newTarget upstreamTarget ∨
      s.task = .deciding visited immediate d newTarget upstreamTarget) :
    s.AdjustInv visited immediate d newTarget upstreamTarget := by
  have ht := h.task
  unfold TaskInv at ht
  rcases hs with hs | hs
  · rw [hs] at ht
    exact ht
  · rw [hs] at ht
    exact ht

theorem TargetsInv.adjusting (h : TargetsInv s) {visited : Finset DownstreamId}
    {immediate : List (DownstreamId × Target)} {d : DownstreamId} {newTarget : Target}
    {upstreamTarget : Option Target}
    (hs : s.task = .adjusting visited immediate d newTarget upstreamTarget) (ok : Bool) :
    TargetsInv (taskStep cfg s ok) := by
  have ha := adjustInv_of_task h (Or.inl hs)
  unfold taskStep
  rw [hs]
  dsimp only
  by_cases hd : d ∈ s.downstreams
  · rw [if_pos hd]
    have hadj : s.task.adjusts = some d := by rw [hs]; rfl
    refine { h with parked := ?_, listed := ?_,
                    task := ⟨ha.tick, ha.unvisited, ha.computed, ha.upstream, ha.known⟩ }
    · intro e pending hp
      obtain ⟨hlt, hc | hg | hadj'⟩ := h.parked e pending hp
      · exact ⟨hlt, Or.inl hc⟩
      · exact ⟨hlt, Or.inr (Or.inl hg)⟩
      · rw [hadj] at hadj'
        exact ⟨hlt, Or.inr (Or.inr hadj')⟩
    · intro e he
      cases he
      exact h.listed d hadj
  · rw [if_neg hd]
    refine h.setTask rfl ?_ ?_
    · intro e he
      rw [hs] at he
      cases he
      exact hd
    · exact fun u hu => ⟨Finset.mem_insert_of_mem (ha.tick u hu).1, (ha.tick u hu).2⟩

/-- The update of `d` is advertised, or parked. -/
theorem TargetsInv.deciding (h : TargetsInv s) {visited : Finset DownstreamId}
    {immediate : List (DownstreamId × Target)} {d : DownstreamId} {newTarget : Target}
    {upstreamTarget : Option Target}
    (hs : s.task = .deciding visited immediate d newTarget upstreamTarget) (ok : Bool) :
    TargetsInv (taskStep cfg s ok) := by
  have ha := adjustInv_of_task h (Or.inr hs)
  have htick : s.TickInv (insert d visited) immediate :=
    fun u hu => ⟨Finset.mem_insert_of_mem (ha.tick u hu).1, (ha.tick u hu).2⟩
  have hothers : ∀ e pending, e ≠ d → s.parked e = some pending →
      e < s.downstreamIdFactory ∧ (s.computed e = some pending ∨ e ∉ s.downstreams) := by
    intro e pending he hp
    refine h.parked_of_free ?_ hp
    rw [hs]
    intro hadj
    cases hadj
    exact he rfl
  have hadvertise : (∀ upstream, upstreamTarget = some upstream → upstream ≤ newTarget) →
      TargetsInv { s with
        task := .visiting (insert d visited) (immediate ++ [(d, newTarget)])
        pendingTargetUpdates := s.pendingTargetUpdates.erase d } := by
    intro hle
    refine { h with parked := ?_, alive := ?_, listed := ?_, task := ?_ }
    · intro e pending hp
      unfold DifficultyManager.parked at hp
      dsimp only at hp
      rw [KeyMap.lookup_erase_eq] at hp
      by_cases he : e = d
      · rw [if_pos he] at hp
        cases hp
      · rw [if_neg he] at hp
        have hold := hothers e pending he hp
        exact ⟨hold.1, hold.2.imp_right Or.inl⟩
    · exact fun e pending hp => h.alive e pending (KeyMap.lookup_erase_some hp)
    · intro e he
      cases he
    · intro u hu
      rcases List.mem_append.mp hu with hu | hu
      · exact htick u hu
      · rw [List.mem_singleton.mp hu]
        refine ⟨Finset.mem_insert_self _ _, ha.computed, ?_⟩
        intro upstream hup
        exact hle upstream (ha.upstream.trans hup)
  unfold taskStep
  rw [hs]
  dsimp only
  cases hup : upstreamTarget with
  | none =>
    apply hadvertise
    intro upstream hu
    rw [hup] at hu
    cases hu
  | some upstream =>
    dsimp only
    by_cases hle : upstream ≤ newTarget
    · rw [if_pos hle]
      apply hadvertise
      intro upstream' hu
      rw [hup] at hu
      cases hu
      exact hle
    · rw [if_neg hle]
      refine { h with parked := ?_, alive := ?_, listed := ?_, task := htick }
      · intro e pending hp
        unfold DifficultyManager.parked at hp
        dsimp only at hp
        rw [KeyMap.lookup_insert_eq] at hp
        by_cases he : e = d
        · rw [if_pos he] at hp
          cases hp
          subst he
          exact ⟨ha.known, Or.inl ha.computed⟩
        · rw [if_neg he] at hp
          have hold := hothers e pending he hp
          exact ⟨hold.1, hold.2.imp_right Or.inl⟩
      · intro e pending hp
        unfold DifficultyManager.parked at hp
        dsimp only at hp
        rw [KeyMap.lookup_insert_eq] at hp
        by_cases he : e = d
        · subst he
          exact Or.inl (h.listed e (by rw [hs]; rfl))
        · rw [if_neg he] at hp
          exact h.alive e pending hp
      · intro e he
        cases he

/-- A `SetTarget` takes out what it satisfies: the most recent targets of miners that are there. -/
theorem TargetsInv.retargeted (h : TargetsInv s) {scope : Option DownstreamId} {target : Target}
    (hs : s.task = .retargeted scope target) (ok : Bool) : TargetsInv (taskStep cfg s ok) := by
  have ht : ∀ d, d < s.downstreamIdFactory → (scope = none ∨ scope = some d) →
      (s.downstreamData d).upstreamTarget = some target ∨ d ∉ s.downstreams := by
    have ht := h.task
    unfold TaskInv at ht
    rw [hs] at ht
    exact ht
  have hparked : ∀ d pending, s.parked d = some pending →
      d < s.downstreamIdFactory ∧ (s.computed d = some pending ∨ d ∉ s.downstreams) := by
    intro d pending hp
    exact h.parked_of_free (by rw [hs]; nofun) hp
  unfold taskStep
  rw [hs]
  refine { h with parked := ?_, alive := ?_, listed := ?_, task := ?_ }
  · intro d pending hp
    have hold := hparked d pending (KeyMap.lookup_retain_some hp)
    exact ⟨hold.1, hold.2.imp_right Or.inl⟩
  · exact fun d pending hp => h.alive d pending (KeyMap.lookup_retain_some hp)
  · intro d hd
    cases hd
  · rintro ⟨d, pending⟩ hu
    obtain ⟨hp, hrel⟩ := mem_pendingDifficultyUpdates.mp hu
    obtain ⟨hlt, hc⟩ := hparked d pending hp
    have hscope : scope = none ∨ scope = some d := by
      cases scope with
      | none => exact Or.inl rfl
      | some e =>
        unfold releases at hrel
        simp only [Bool.and_eq_true, decide_eq_true_eq] at hrel
        rw [hrel.1]
        exact Or.inr rfl
    have hle : target ≤ pending := by
      unfold releases at hrel
      rw [Bool.and_eq_true] at hrel
      exact of_decide_eq_true hrel.2
    rcases hc with hc | hg
    · rcases ht d hlt hscope with hup | hg
      · refine Or.inl ⟨hc, ?_⟩
        intro upstream hu
        dsimp only at hu
        rw [hup] at hu
        cases hu
        exact hle
      · exact Or.inr ⟨hlt, hg⟩
    · exact Or.inr ⟨hlt, hg⟩

theorem TargetsInv.sendingCons (h : TargetsInv s) {u : DownstreamId × Target}
    {rest : List (DownstreamId × Target)} (hs : s.task = .sending (u :: rest)) (ok : Bool) :
    TargetsInv (taskStep cfg s ok) := by
  have ht : ∀ v ∈ u :: rest, s.Current v ∨ s.Gone v.1 := by
    have ht := h.task
    unfold TaskInv at ht
    rw [hs] at ht
    exact ht
  have hrest : TargetsInv { s with task := .sending rest } := by
    refine h.setTask rfl ?_ ?_
    · intro e he
      rw [hs] at he
      cases he
    · exact fun v hv => ht v (List.mem_cons_of_mem _ hv)
  unfold taskStep
  rw [hs]
  dsimp only
  split
  · have hq := h.queue (ht u List.mem_cons_self)
    unfold DifficultyManager.queue at hq ⊢
    by_cases hsender : u.1 ∈ s.sv1ServerToDownstreamSender
    · rw [if_pos hsender] at hq ⊢
      exact { hrest with queued := hq }
    · rw [if_neg hsender] at hq ⊢
      exact hrest
  · exact hrest

theorem TargetsInv.replaying (h : TargetsInv s) {d : DownstreamId} (hs : s.task = .replaying d)
    (ok : Bool) : TargetsInv (taskStep cfg s ok) := by
  have hidle : TargetsInv { s with task := .idle } := by
    refine h.setTask rfl ?_ trivial
    intro e he
    rw [hs] at he
    cases he
  unfold taskStep
  rw [hs]
  dsimp only
  split
  · unfold DifficultyManager.queue
    split
    · refine { hidle with queued := ?_ }
      intro m hm hinit
      rcases List.mem_append.mp hm with hm | hm
      · exact h.queued m hm hinit
      · rw [List.mem_singleton.mp hm] at hinit
        cases hinit
    · exact hidle
  · exact hidle

theorem TargetsInv.routed (h : TargetsInv s) {d : DownstreamId} {target : Target}
    (hs : s.task = .routed d target) (ok : Bool) : TargetsInv (taskStep cfg s ok) := by
  have hadjust : ∀ e, s.task.adjusts ≠ some e := by
    intro e he
    rw [hs] at he
    cases he
  unfold taskStep
  rw [hs]
  dsimp only
  split
  · refine { h with parked := ?_, listed := ?_, task := ?_ }
    · intro e pending hp
      have hold := h.parked_of_free (hadjust e) hp
      exact ⟨hold.1, hold.2.imp_right Or.inl⟩
    · intro e he
      cases he
    · rintro e - (he | he)
      · cases he
      · cases he
        refine Or.inl ?_
        dsimp only
        rw [Function.update_self]
  · exact h.setTask rfl (fun e he => absurd he (hadjust e)) trivial

theorem TargetsInv.clearing (h : TargetsInv s) {c : ChannelId} {d : DownstreamId}
    (hs : s.task = .clearing c d) (ok : Bool) : TargetsInv (taskStep cfg s ok) := by
  unfold taskStep
  rw [hs]
  refine { h with parked := ?_, listed := ?_, task := trivial }
  · intro e pending hp
    have hold := h.parked_of_free (by rw [hs]; nofun) hp
    exact ⟨hold.1, hold.2.imp_right Or.inl⟩
  · intro e he
    cases he

theorem TargetsInv.taskStep (h : TargetsInv s) (ok : Bool) : TargetsInv (taskStep cfg s ok) := by
  cases hs : s.task with
  | opened d =>
    have hnext : TargetsInv { s with task := .replaying d } := by
      refine h.setTask rfl ?_ trivial
      intro e he
      rw [hs] at he
      cases he
    unfold DifficultyManager.taskStep
    rw [hs]
    refine { hnext with alive := ?_, listed := ?_ }
    · intro e pending hp
      exact (h.alive e pending hp).imp_left (Finset.mem_insert_of_mem ·)
    · intro e he
      cases he
  | replaying d => exact h.replaying hs ok
  | clearing c d => exact h.clearing hs ok
  | adjusting visited immediate d newTarget upstreamTarget => exact h.adjusting hs ok
  | deciding visited immediate d newTarget upstreamTarget => exact h.deciding hs ok
  | routed d target => exact h.routed hs ok
  | retargeted scope target => exact h.retargeted hs ok
  | sending updates =>
    cases updates with
    | nil =>
      unfold DifficultyManager.taskStep
      rw [hs]
      refine h.setTask rfl ?_ trivial
      intro e he
      rw [hs] at he
      cases he
    | cons u rest => exact h.sendingCons hs ok
  | _ =>
    unfold DifficultyManager.taskStep
    rw [hs]
    exact h

/-- A disconnect goes on: entries are removed, in its order. -/
theorem TargetsInv.cleanupStep (h : TargetsInv s) {k : DownstreamId × Cleanup}
    (hk : k ∈ s.cleanups) : TargetsInv (s.cleanupStep k) := by
  have hsame : ∀ s' : DifficultyManager, s'.task = s.task →
      s'.downstreamIdFactory = s.downstreamIdFactory → s'.computed = s.computed →
      s'.downstreamData = s.downstreamData → s'.downstreams = s.downstreams → s'.TaskInv := by
    intro s' htask hfac hcomp hdata hdown
    exact h.task.shrink htask hfac hcomp hdata (by rw [hdown])
  have hstay : k.2 ≠ .vardiffRemoved → ∀ e, (e, Cleanup.vardiffRemoved) ∈ s.cleanups →
      (e, Cleanup.vardiffRemoved) ∈ s.cleanups.erase k := by
    intro hne e he
    refine (List.mem_erase_of_ne ?_).mpr he
    rintro rfl
    exact hne rfl
  have hmove : ∀ next, next ≠ .senderRemoved → k.2 ≠ .vardiffRemoved →
      TargetsInv (s.moveCleanup k next) := by
    intro next hnext hk2
    refine { h with cleanups := ?_, senderRemoved := ?_, alive := ?_,
                    task := hsame _ rfl rfl rfl rfl rfl }
    · intro j hj
      rcases List.mem_cons.mp hj with rfl | hj
      · exact h.cleanups k hk
      · exact h.cleanups j (List.mem_of_mem_erase hj)
    · intro d hd
      rcases List.mem_cons.mp hd with hd | hd
      · cases hd
        exact absurd rfl hnext
      · exact h.senderRemoved d (List.mem_of_mem_erase hd)
    · intro d pending hp
      exact (h.alive d pending hp).imp_right fun hd => List.mem_cons_of_mem _ (hstay hk2 d hd)
  have hend : k.2 ≠ .vardiffRemoved → TargetsInv { s with cleanups := s.cleanups.erase k } := by
    intro hk2
    exact { h with
      cleanups := fun j hj => h.cleanups j (List.mem_of_mem_erase hj)
      senderRemoved := fun d hd => h.senderRemoved d (List.mem_of_mem_erase hd)
      alive := fun d pending hp => (h.alive d pending hp).imp_right (hstay hk2 d)
      task := hsame _ rfl rfl rfl rfl rfl }
  obtain ⟨d, stage⟩ := k
  cases stage with
  | started =>
    have hnext := hmove .vardiffRemoved (by decide) (by simp)
    unfold DifficultyManager.cleanupStep
    dsimp only
    split
    · exact h
    · rename_i hfree
      refine { hnext with alive := ?_, listed := ?_, task := hsame _ rfl rfl rfl rfl rfl }
      · intro e pending hp
        by_cases he : e = d
        · subst he
          exact Or.inr List.mem_cons_self
        · exact (hnext.alive e pending hp).imp_left fun hv => Finset.mem_erase.mpr ⟨he, hv⟩
      · intro e he
        refine Finset.mem_erase.mpr ⟨?_, h.listed e he⟩
        rintro rfl
        exact hfree he
  | vardiffRemoved =>
    refine { h with
      cleanups := ?_, senderRemoved := ?_, parked := ?_, alive := ?_,
      task := hsame _ rfl rfl rfl rfl rfl }
    · intro j hj
      rcases List.mem_cons.mp hj with rfl | hj
      · exact h.cleanups (d, .vardiffRemoved) hk
      · exact h.cleanups j (List.mem_of_mem_erase hj)
    · intro e he
      rcases List.mem_cons.mp he with he | he
      · cases he
      · exact h.senderRemoved e (List.mem_of_mem_erase he)
    · intro e pending hp
      exact h.parked e pending (KeyMap.lookup_erase_some hp)
    · intro e pending hp
      refine (h.alive e pending (KeyMap.lookup_erase_some hp)).imp_right fun hm => ?_
      refine List.mem_cons_of_mem _ ((List.mem_erase_of_ne ?_).mpr hm)
      rintro heq
      cases heq
      have hnone : (s.pendingTargetUpdates.erase d).lookup d = none :=
        AList.lookup_erase d s.pendingTargetUpdates
      exact absurd (hp.symm.trans hnone) (by simp)
  | targetsRemoved =>
    refine { h with cleanups := ?_, senders := ?_, senderRemoved := ?_, alive := ?_,
                    task := hsame _ rfl rfl rfl rfl rfl }
    · intro j hj
      rcases List.mem_cons.mp hj with rfl | hj
      · exact h.cleanups (d, .targetsRemoved) hk
      · exact h.cleanups j (List.mem_of_mem_erase hj)
    · exact fun e he => h.senders e (Finset.mem_of_mem_erase he)
    · intro e he
      rcases List.mem_cons.mp he with he | he
      · cases he
        exact Finset.notMem_erase _ _
      · exact fun hs => h.senderRemoved e (List.mem_of_mem_erase he) (Finset.mem_of_mem_erase hs)
    · intro e pending hp
      exact (h.alive e pending hp).imp_right fun hm =>
        List.mem_cons_of_mem _ (hstay (by simp) e hm)
  | senderRemoved =>
    have hgone : ∀ s' : DifficultyManager, TargetsInv s' →
        d ∉ s'.sv1ServerToDownstreamSender →
        TargetsInv { s' with downstreams := s'.downstreams.erase d } := by
      intro s' h' hsender
      refine { h' with known := ?_, senders := ?_, parked := ?_, task := ?_ }
      · exact fun e he => h'.known e (Finset.mem_of_mem_erase he)
      · intro e he
        refine Finset.mem_erase.mpr ⟨?_, h'.senders e he⟩
        rintro rfl
        exact hsender he
      · intro e pending hp
        obtain ⟨hlt, hc | hg | ha⟩ := h'.parked e pending hp
        · exact ⟨hlt, Or.inl hc⟩
        · exact ⟨hlt, Or.inr (Or.inl fun he => hg (Finset.mem_of_mem_erase he))⟩
        · exact ⟨hlt, Or.inr (Or.inr ha)⟩
      · exact h'.task.shrink rfl rfl rfl rfl (Finset.erase_subset _ _)
    have hsender := h.senderRemoved d hk
    unfold DifficultyManager.cleanupStep
    dsimp only
    split
    · exact hgone _ (hmove .removed (by decide) (by simp)) hsender
    · exact hgone _ (hend (by simp)) hsender
  | removed =>
    unfold DifficultyManager.cleanupStep
    dsimp only
    split
    · exact hmove _ (by simp) (by simp)
    · exact hend (by simp)
  | channelRead c => exact { hend (by simp) with task := hsame _ rfl rfl rfl rfl rfl }

theorem targetsInv_step (cfg : VardiffConfig) (s : DifficultyManager) (a : Action)
    (h : TargetsInv s) : TargetsInv (step cfg s a) := by
  cases a with
  | accept => exact h.accept
  | openSuccess d c target => exact h.openSuccess d c target
  | closeChannel c => exact h.closeChannel c
  | setTarget c target => exact h.setTarget c target
  | tick => exact h.tick
  | visit d adj => exact h.visit d adj
  | endVisits => exact h.endVisits
  | task ok => exact h.taskStep ok
  | disconnect d =>
    simp only [step]
    split
    · rename_i hlt
      refine { h with cleanups := ?_, senderRemoved := ?_, alive := ?_,
                      task := h.task.shrink rfl rfl rfl rfl (Finset.Subset.refl _) }
      · intro k hk
        rcases List.mem_cons.mp hk with rfl | hk
        · exact hlt
        · exact h.cleanups k hk
      · intro e he
        rcases List.mem_cons.mp he with he | he
        · cases he
        · exact h.senderRemoved e he
      · exact fun e pending hp => (h.alive e pending hp).imp_right (List.mem_cons_of_mem _)
    · exact h
  | cleanup k =>
    simp only [step]
    by_cases hk : k ∈ s.cleanups
    · rw [if_pos hk]
      exact h.cleanupStep hk
    · rw [if_neg hk]
      exact h

end Events

/-- In every run, each difficulty after the initial one carries the most recent target of its
    miner, no harder than upstream asks, and what is parked is parked until the `SetTarget` that it
    satisfies, a later update or the disconnect. -/
theorem vardiff_targetsSafe (cfg : VardiffConfig) (as : List Action) :
    TargetsSafe cfg (after cfg as) where
  queued := (Runs.run_invariant TargetsInv (targetsInv_step cfg) targetsInv_start as).queued
  stays := fun _ _ _ hp h => run_parked hp _ h
  superseded := fun _ _ _ _ _ ok htask => deciding_parked htask ok
  alive := (Runs.run_invariant TargetsInv (targetsInv_step cfg) targetsInv_start as).alive
  released := fun _ _ _ _ ok htask hp hrel => retargeted_parked htask hp hrel ok
  removed := fun _ hk => cleanup_parked hk

/-- A harder target waits for the second `SetTarget`, which it satisfies. -/
def parkedTargetRun : List Action :=
  [.accept, .openSuccess 1 7 100, .task true, .task true, .tick, .visit 1 (.computed 50),
   .task true, .task true, .endVisits, .task true,
   .setTarget 7 80, .task true, .task true, .task true,
   .setTarget 7 40, .task true, .task true, .task true]

theorem vardiff_targetsSafe_parked :
    let cfg : VardiffConfig := ⟨false, 200, fun _ => true⟩
    (after cfg (parkedTargetRun.take 14)).parked 1 = some 50 ∧
    (after cfg parkedTargetRun).parked 1 = none ∧
    (after cfg parkedTargetRun).queued =
      [⟨1, true, 200, none, some 100⟩, ⟨1, false, 50, some 50, some 40⟩] ∧
    TargetsSafe cfg (after cfg (parkedTargetRun.take 14)) := by
  intro cfg
  refine ⟨?_, ?_, ?_, vardiff_targetsSafe cfg (parkedTargetRun.take 14)⟩
  · decide +kernel
  · decide +kernel
  · decide +kernel

end DifficultyManager

end Sv2Apps.Translator
