/-
  Translator/Sv1Server.lean
  =========================
  **The `Sv1Server` and its maps** — `translator/src/lib/sv1/sv1_server/mod.rs` and
  `difficulty_manager.rs`, without aggregation.

  One server task takes a message of a miner, a message of the channel manager, a tick of the
  keepalive loop or a tick of the vardiff loop, and finishes it before the next.  Any number of
  calls of `handle_downstream_disconnect` run beside it, from the tasks of the miners, which have
  closed their channels by then, and from the error handling of the server; that the server waits
  for the calls of its own is not modelled.  A step is one access to a map or to a miner's data, or
  one message sent.  The server takes a message from its queue together with the first access that
  it makes for it.

  The setup messages that a miner has queued are replayed when its channel is open.  The first of
  them has a response, which cannot be sent to a miner that is gone: the replay fails, and the
  server calls `handle_downstream_disconnect` for the miner.

  Two entry guards are held across accesses: a miner's entry in `downstreams` while
  `with_registered_downstream` runs on it, and its entry in `vardiff` while the vardiff loop works
  on it.

  Left out: what is sent to the miners, shares, the messages `UpdateChannel` and
  `SubmitSharesExtended`, and the clearing of all maps when the server ends.  Ids of miners never
  wrap.  `disconnected` records the miners for which a call of `handle_downstream_disconnect` has
  returned; no step reads it.
-/
import Sv2Apps.Translator.Sv1Jobs
import Sv2Apps.Translator.ChannelManager
import Mathlib.Data.Finset.Erase
import Mathlib.Data.Finset.Insert

namespace Sv2Apps.Translator

open Bitcoin

/-- The configuration of the server. -/
structure Sv1Config where
  enableVardiff : Bool
  jobKeepaliveIntervalSecs : UInt16
  downstreamExtranonce2Size : UInt16
  maxPastJobs : Option Nat
  userIdentity : Identity
  buildNotify : NotifyBuilder

/-- The data of a miner, which outlives its entry. -/
structure DownstreamData where
  channelId : Option ChannelId
  /-- Handshake messages that wait for the channel. -/
  queuedSv1HandshakeMessages : Nat
deriving DecidableEq

def maxQueuedSv1HandshakeMessages : Nat := 8

namespace Sv1Server

/-- Where the server task is: what it does next. -/
inductive Task where
  | idle
  /-- A setup message of a miner without a channel. -/
  | queueing (d : DownstreamId) (opening : Bool)
  /-- `handle_open_channel_request`. -/
  | checking (d : DownstreamId)
  | registering (d : DownstreamId)
  /-- `open_extended_mining_channel`. -/
  | registered (r : RequestId) (d : DownstreamId)
  | forwarding (r : RequestId) (d : DownstreamId)
  | withdrawing (r : RequestId) (d : DownstreamId)
  /-- `OpenExtendedMiningChannelSuccess`, the request id being gone. -/
  | orphaned (c : ChannelId)
  | claimed (c : ChannelId) (d : DownstreamId)
  /-- In `with_registered_downstream`: channel id, queued messages, route. -/
  | guarded (c : ChannelId) (d : DownstreamId)
  | assigned (c : ChannelId) (d : DownstreamId)
  | queueTaken (c : ChannelId) (d : DownstreamId) (queued : Nat)
  /-- Out of the guard: the vardiff state. -/
  | opened (d : DownstreamId) (queued : Nat)
  /-- The queued messages and the first difficulty. -/
  | replaying (d : DownstreamId) (queued : Nat)
  /-- `CloseChannel` is about to be sent. -/
  | closing (c : ChannelId)
  /-- `store_notify`. -/
  | storing (c : ChannelId) (job : StoredSv1Job) (cleanJobs : Bool)
  /-- `SetTarget`: the pending update of the miner. -/
  | retargeting (d : DownstreamId) (target : Target)
  /-- `disconnect_downstream_for_upstream_close`, the route being gone. -/
  | clearing (c : ChannelId) (d : DownstreamId)
  /-- `create_keepalive_job` for a channel that was collected. -/
  | keptAlive (c : ChannelId)
  /-- The vardiff loop, on the entry of a miner. -/
  | adjusting (d : DownstreamId) (target : Target) (parked : Bool)

/-- Where a call of `handle_downstream_disconnect` is. -/
inductive Cleanup where
  | started
  | vardiffRemoved
  | targetsRemoved
  | senderRemoved
  | removed (present : Bool)
  | retained
  | channelRead (c : ChannelId)
  | unrouted (c : ChannelId)
deriving DecidableEq

end Sv1Server

structure Sv1Server where
  downstreamIdFactory : Nat
  requestIdFactory : RequestId
  minerCounter : UInt32
  keepaliveJobIdCounter : UInt32
  downstreams : Finset DownstreamId
  downstreamData : DownstreamId → DownstreamData
  /-- The miners whose channels have been closed, `DownstreamIo::close`. -/
  closed : Finset DownstreamId
  sv1ServerToDownstreamSender : Finset DownstreamId
  requestIdToDownstreamId : KeyMap RequestId DownstreamId
  channelIdToDownstreamId : KeyMap ChannelId DownstreamId
  vardiff : Finset DownstreamId
  pendingTargetUpdates : KeyMap DownstreamId Target
  prevhashes : KeyMap ChannelId SetNewPrevHash
  validSv1Jobs : KeyMap ChannelId (Sv1JobStore StoredSv1Job)
  task : Sv1Server.Task
  cleanups : List (DownstreamId × Sv1Server.Cleanup)
  toManager : List ChannelManager.Event
  disconnected : Finset DownstreamId

namespace Sv1Server

def start : Sv1Server where
  downstreamIdFactory := 1
  requestIdFactory := 1
  minerCounter := 0
  keepaliveJobIdCounter := 0
  downstreams := ∅
  downstreamData := fun _ => ⟨none, 0⟩
  closed := ∅
  sv1ServerToDownstreamSender := ∅
  requestIdToDownstreamId := ∅
  channelIdToDownstreamId := ∅
  vardiff := ∅
  pendingTargetUpdates := ∅
  prevhashes := ∅
  validSv1Jobs := ∅
  task := .idle
  cleanups := []
  toManager := []
  disconnected := ∅

/-- The miner whose entry in `downstreams` is guarded. -/
def Task.guards : Task → Option DownstreamId
  | .guarded _ d => some d
  | .assigned _ d => some d
  | .queueTaken _ d _ => some d
  | _ => none

/-- The miner whose entry in `vardiff` is guarded. -/
def Task.adjusts : Task → Option DownstreamId
  | .adjusting d _ _ => some d
  | _ => none

def send (s : Sv1Server) (m : ChannelManager.Event) : Sv1Server :=
  { s with toManager := s.toManager ++ [m] }

def sendClose (s : Sv1Server) (c : ChannelId) : Sv1Server := s.send (.closeDownstreamChannel c)

/-- A response can be sent to the miner. -/
def listens (s : Sv1Server) (d : DownstreamId) : Prop := d ∈ s.downstreams ∧ d ∉ s.closed

instance (s : Sv1Server) (d : DownstreamId) : Decidable (s.listens d) :=
  inferInstanceAs (Decidable (_ ∧ _))

/-- `handle_downstream_disconnect` is called. -/
def callDisconnect (s : Sv1Server) (d : DownstreamId) : Sv1Server :=
  { s with cleanups := (d, .started) :: s.cleanups }

def setData (s : Sv1Server) (d : DownstreamId) (x : DownstreamData) : Sv1Server :=
  { s with downstreamData := Function.update s.downstreamData d x }

/-- The identity of a miner; a payout pattern is kept. -/
def minerIdentity (identity : Identity) (minerId : UInt32) : Identity :=
  if identity.startsWith "sri/" then identity
  else identity ++ ".miner" ++ toString minerId.toNat

section Steps

variable (cfg : Sv1Config)

/-- A miner connects: its sender, its entry. -/
def accept (s : Sv1Server) : Sv1Server :=
  { s with
    downstreamIdFactory := s.downstreamIdFactory + 1
    sv1ServerToDownstreamSender := insert s.downstreamIdFactory s.sv1ServerToDownstreamSender
    downstreams := insert s.downstreamIdFactory s.downstreams }

/-- `handle_downstream_message`: a setup message of a registered miner without a channel. -/
def takeSetupMessage (s : Sv1Server) (d : DownstreamId) : Sv1Server :=
  match s.task with
  | .idle =>
    if d ∈ s.downstreams ∧ (s.downstreamData d).channelId = none then
      { s with task := .queueing d (decide (0 < (s.downstreamData d).queuedSv1HandshakeMessages)) }
    else s
  | _ => s

/-- `handle_upstream_message`: the message and the first access that is made for it. -/
def takeUpstreamMessage (s : Sv1Server) (m : Sv1Message) : Sv1Server :=
  match s.task with
  | .idle =>
    match m with
    | .openExtendedMiningChannelSuccess m =>
      { s with
        task := match s.requestIdToDownstreamId.lookup m.requestId with
          | some d => .claimed m.channelId d
          | none => .orphaned m.channelId
        requestIdToDownstreamId := s.requestIdToDownstreamId.erase m.requestId }
    | .openMiningChannelError r _ =>
      { s with requestIdToDownstreamId := s.requestIdToDownstreamId.erase r }
    | .setExtranoncePrefix _ _ => s
    | .newExtendedMiningJob m =>
      match s.prevhashes.lookup m.channelId with
      | some prevhash =>
        let cleanJobs := decide (m.jobId = prevhash.jobId)
        let job := StoredSv1Job.upstream (cfg.buildNotify prevhash m cleanJobs)
        { s with task := .storing m.channelId job cleanJobs }
      | none => s
    | .setNewPrevHash m => { s with prevhashes := s.prevhashes.insert m.channelId m }
    | .setTarget c target =>
      match s.channelIdToDownstreamId.lookup c with
      | some d => if cfg.enableVardiff then { s with task := .retargeting d target } else s
      -- `send_set_difficulty_to_specific_downstream`
      | none => if cfg.enableVardiff then s else { s with task := .closing c }
    | .closeChannel c =>
      match s.channelIdToDownstreamId.lookup c with
      | some d =>
        { s with
          task := .clearing c d
          channelIdToDownstreamId := s.channelIdToDownstreamId.erase c }
      | none => s
  | _ => s

/-- `send_keepalive_jobs` collects the channel of a miner. -/
def collectKeepalive (s : Sv1Server) (d : DownstreamId) : Sv1Server :=
  match s.task with
  | .idle =>
    match (s.downstreamData d).channelId with
    | some c => if d ∈ s.downstreams then { s with task := .keptAlive c } else s
    | none => s
  | _ => s

/-- `create_keepalive_job`; a history that was removed is not made again. -/
def createKeepaliveJob (s : Sv1Server) (c : ChannelId) : Sv1Server :=
  match s.validSv1Jobs.lookup c with
  | none => s
  | some jobs =>
    match jobs.active.bind fun last =>
        keepaliveJob last cfg.jobKeepaliveIntervalSecs s.keepaliveJobIdCounter with
    | none => s
    | some job =>
      { s with
        keepaliveJobIdCounter := s.keepaliveJobIdCounter + 1
        validSv1Jobs := s.validSv1Jobs.modify c fun jobs => jobs.activate job.notify.jobId job false }

/-- `handle_vardiff_updates` comes to a registered miner with a channel, and a new target is due. -/
def adjust (s : Sv1Server) (d : DownstreamId) (target : Target) (parked : Bool) : Sv1Server :=
  match s.task with
  | .idle =>
    if d ∈ s.vardiff ∧ d ∈ s.downstreams ∧ (s.downstreamData d).channelId.isSome then
      { s with task := .adjusting d target parked }
    else s
  | _ => s

/-- The server task goes on with its message. -/
def taskStep (s : Sv1Server) : Sv1Server :=
  match s.task with
  | .idle => s
  | .queueing d opening =>
    let data := s.downstreamData d
    if d ∈ s.downstreams ∧ data.queuedSv1HandshakeMessages < maxQueuedSv1HandshakeMessages then
      { s.setData d ⟨data.channelId, data.queuedSv1HandshakeMessages + 1⟩ with
        task := if opening then .idle else .checking d }
    else { s with task := .idle }
  | .checking d => { s with task := if d ∈ s.downstreams then .registering d else .idle }
  | .registering d =>
    { s with
      task := .registered s.requestIdFactory d
      requestIdToDownstreamId := s.requestIdToDownstreamId.insert s.requestIdFactory d
      requestIdFactory := s.requestIdFactory + 1 }
  | .registered r d =>
    { s with task := if d ∈ s.downstreams then .forwarding r d else .withdrawing r d }
  | .forwarding r _ =>
    { s.send (.openExtendedMiningChannel ⟨r, minerIdentity cfg.userIdentity (s.minerCounter + 1),
        cfg.downstreamExtranonce2Size⟩) with
      task := .idle
      minerCounter := s.minerCounter + 1 }
  | .withdrawing r _ =>
    { s with task := .idle, requestIdToDownstreamId := s.requestIdToDownstreamId.erase r }
  | .orphaned c =>
    { s with task := if (s.channelIdToDownstreamId.lookup c).isSome then .idle else .closing c }
  | .claimed c d => { s with task := if d ∈ s.downstreams then .guarded c d else .closing c }
  | .guarded c d =>
    { s.setData d ⟨some c, (s.downstreamData d).queuedSv1HandshakeMessages⟩ with
      task := .assigned c d }
  | .assigned c d =>
    let data := s.downstreamData d
    { s.setData d ⟨data.channelId, 0⟩ with
      task := .queueTaken c d data.queuedSv1HandshakeMessages }
  | .queueTaken c d queued =>
    { s with
      task := .opened d queued
      channelIdToDownstreamId := s.channelIdToDownstreamId.insert c d }
  | .opened d queued =>
    { s with
      task := .replaying d queued
      vardiff := if cfg.enableVardiff then insert d s.vardiff else s.vardiff }
  | .replaying d queued =>
    -- `process_sv1_message` of the first queued message asks for a disconnect
    { (if 0 < queued ∧ ¬s.listens d then s.callDisconnect d else s) with task := .idle }
  | .closing c => { s.sendClose c with task := .idle }
  | .storing c job cleanJobs =>
    let jobs := (s.validSv1Jobs.lookup c).getD (.new cfg.maxPastJobs)
    { s with
      task := .idle
      validSv1Jobs := s.validSv1Jobs.insert c (jobs.activate job.notify.jobId job cleanJobs) }
  | .retargeting d target =>
    { s with
      task := .idle
      pendingTargetUpdates :=
        if d ∈ s.downstreams then
          s.pendingTargetUpdates.retain fun d' pending => d' ≠ d || decide (pending < target)
        else s.pendingTargetUpdates }
  | .clearing c d =>
    let data := s.downstreamData d
    { (if d ∈ s.downstreams ∧ data.channelId = some c then
        s.setData d ⟨none, data.queuedSv1HandshakeMessages⟩ else s) with task := .idle }
  | .keptAlive c => { createKeepaliveJob cfg s c with task := .idle }
  | .adjusting d target parked =>
    { s with
      task := .idle
      pendingTargetUpdates :=
        if d ∈ s.downstreams then
          if parked then s.pendingTargetUpdates.insert d target
          else s.pendingTargetUpdates.erase d
        else s.pendingTargetUpdates }

/-- A call of `handle_downstream_disconnect` is at another place. -/
def moveCleanup (s : Sv1Server) (k : DownstreamId × Cleanup) (next : Cleanup) : Sv1Server :=
  { s with cleanups := (k.1, next) :: s.cleanups.erase k }

/-- A call of `handle_downstream_disconnect` returns. -/
def endCleanup (s : Sv1Server) (k : DownstreamId × Cleanup) : Sv1Server :=
  { s with cleanups := s.cleanups.erase k, disconnected := insert k.1 s.disconnected }

/-- A call of `handle_downstream_disconnect` goes on. -/
def cleanupStep (s : Sv1Server) (k : DownstreamId × Cleanup) : Sv1Server :=
  match k.2 with
  | .started =>
    if cfg.enableVardiff then
      if s.task.adjusts = some k.1 then s
      else { s.moveCleanup k .vardiffRemoved with vardiff := s.vardiff.erase k.1 }
    else s.moveCleanup k .targetsRemoved
  | .vardiffRemoved =>
    { s.moveCleanup k .targetsRemoved with
      pendingTargetUpdates := s.pendingTargetUpdates.erase k.1 }
  | .targetsRemoved =>
    { s.moveCleanup k .senderRemoved with
      sv1ServerToDownstreamSender := s.sv1ServerToDownstreamSender.erase k.1 }
  | .senderRemoved =>
    if s.task.guards = some k.1 then s
    else { s.moveCleanup k (.removed (decide (k.1 ∈ s.downstreams))) with
      downstreams := s.downstreams.erase k.1 }
  | .removed present =>
    { (if present then s.moveCleanup k .retained else s.endCleanup k) with
      requestIdToDownstreamId := s.requestIdToDownstreamId.retain fun _ d => d ≠ k.1 }
  | .retained =>
    match (s.downstreamData k.1).channelId with
    | some c => s.moveCleanup k (.channelRead c)
    | none => s.endCleanup k
  | .channelRead c =>
    { s.moveCleanup k (.unrouted c) with
      channelIdToDownstreamId := s.channelIdToDownstreamId.erase c }
  | .unrouted c => (s.endCleanup k).sendClose c

end Steps

inductive Action where
  | accept
  | setupMessage (d : DownstreamId)
  | upstreamMessage (m : Sv1Message)
  | keepalive (d : DownstreamId)
  | adjust (d : DownstreamId) (target : Target) (parked : Bool)
  | task
  /-- The task of a miner ends: it closes its channels and calls `handle_downstream_disconnect`. -/
  | disconnect (d : DownstreamId)
  | cleanup (k : DownstreamId × Cleanup)

section Run

variable (cfg : Sv1Config)

def step (s : Sv1Server) : Action → Sv1Server
  | .accept => s.accept
  | .setupMessage d => s.takeSetupMessage d
  | .upstreamMessage m => takeUpstreamMessage cfg s m
  | .keepalive d => s.collectKeepalive d
  | .adjust d target parked => s.adjust d target parked
  | .task => taskStep cfg s
  | .disconnect d =>
    if d < s.downstreamIdFactory then { s.callDisconnect d with closed := insert d s.closed } else s
  | .cleanup k => if k ∈ s.cleanups then cleanupStep cfg s k else s

/-- The state after a run. -/
def after (as : List Action) : Sv1Server := Runs.run (step cfg) start as

end Run

end Sv1Server

end Sv2Apps.Translator
