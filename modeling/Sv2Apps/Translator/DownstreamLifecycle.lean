/-
  Translator/DownstreamLifecycle.lean
  ===================================
  **Opening and disconnecting a miner** — the tasks of `translator/src/lib/sv1/sv1_server/mod.rs`
  that share the maps of the `Sv1Server`: the server task, which requests a channel for a miner and
  handles the answer, and any number of calls of `handle_downstream_disconnect`, from the miner's
  own task or from the server's.  One step of a task is one access to a map or to a miner's data,
  or one message sent; steps of different tasks come in any order.

  Of the channel manager there is what concerns this race: the ids of the channels that are live.
  It opens a channel with an id that is not live, as the manager does in both modes, drops it when
  it is told to, and may use the id again.  Ids of miners are counted up; those of requests are 32
  bits wide and wrap.  A message carries, besides what the receiver reads of it, which request and
  which opening it is about; only proofs look at that.

  The shared maps have one entry guard: a miner's entry in `downstreams` cannot be removed while
  `with_registered_downstream` runs on it.  A channel that the upstream closes is left out.
-/
import Sv2Apps.Messages
import Sv2Apps.Lib.KeyMap
import Sv2Apps.Lib.Runs
import Mathlib.Algebra.BigOperators.Group.Finset.Basic

namespace Sv2Apps.Translator.DownstreamLifecycle

open Sv2Apps

/-- A request for a channel, with the miner that it is for. -/
structure Request where
  requestId : RequestId
  downstreamId : DownstreamId
deriving DecidableEq

/-- A channel that was opened; ids are used again, serial numbers are not. -/
structure Opening where
  channelId : ChannelId
  request : Request
  serial : Nat
deriving DecidableEq

/-- The queue to the channel manager. -/
inductive ManagerMessage where
  | openExtendedMiningChannel (q : Request)
  | closeChannel (o : Opening)
deriving DecidableEq

/-- The queue to the server. -/
inductive ServerMessage where
  | openExtendedMiningChannelSuccess (o : Opening)
  | openMiningChannelError (q : Request)
deriving DecidableEq

/-- The data of a miner, which outlives its entry; `opening` says that handshake messages wait for
    the channel. -/
structure DownstreamData where
  channelId : Option Opening
  opening : Bool
deriving DecidableEq

/-- Where the server task is: what it does next. -/
inductive ServerTask where
  | idle
  /-- `handle_open_channel_request`: is the miner registered? -/
  | checking (d : DownstreamId)
  | registering (d : DownstreamId)
  /-- `open_extended_mining_channel`: is the miner still registered? -/
  | registered (q : Request)
  | forwarding (q : Request)
  | withdrawing (q : Request)
  /-- `OpenMiningChannelError`: remove the request id. -/
  | refused (q : Request)
  /-- `OpenExtendedMiningChannelSuccess`: remove the request id. -/
  | received (o : Opening)
  /-- The request id was gone: is the channel routed? -/
  | orphaned (o : Opening)
  | orphanUnrouted (o : Opening)
  /-- The miner of the request: is it registered? -/
  | claimed (o : Opening) (d : DownstreamId)
  /-- In `with_registered_downstream`: channel id, queued messages, route. -/
  | guarded (o : Opening) (d : DownstreamId)
  | assigned (o : Opening) (d : DownstreamId)
  | queueTaken (o : Opening) (d : DownstreamId)
  | unregistered (o : Opening)
deriving DecidableEq

/-- Where a call of `handle_downstream_disconnect` is. -/
inductive Cleanup where
  | started
  | removed (present : Bool)
  | retained
  | channelRead (o : Opening)
  | unrouted (o : Opening)
deriving DecidableEq

structure State where
  nextDownstreamId : Nat
  nextRequestId : RequestId
  downstreams : Finset DownstreamId
  data : DownstreamId → DownstreamData
  requestIdToDownstreamId : KeyMap RequestId DownstreamId
  channelIdToDownstreamId : KeyMap ChannelId DownstreamId
  server : ServerTask
  cleanups : List (DownstreamId × Cleanup)
  toManager : List ManagerMessage
  pending : List Request
  live : KeyMap ChannelId Opening
  toServer : List ServerMessage
  /-- The channels that were opened, and those that the server has asked to close. -/
  openings : List Opening
  closed : List Opening

def start : State :=
  ⟨1, 1, ∅, fun _ => ⟨none, false⟩, ∅, ∅, .idle, [], [], [], ∅, [], [], []⟩

/-- The miner whose entry is guarded. -/
def ServerTask.guards : ServerTask → Option DownstreamId
  | .guarded _ d => some d
  | .assigned _ d => some d
  | .queueTaken _ d => some d
  | _ => none

namespace State

def sendManager (s : State) (m : ManagerMessage) : State := { s with toManager := s.toManager ++ [m] }

def sendClose (s : State) (o : Opening) : State :=
  { s.sendManager (.closeChannel o) with closed := s.closed ++ [o] }

def sendServer (s : State) (m : ServerMessage) : State := { s with toServer := s.toServer ++ [m] }

def setData (s : State) (d : DownstreamId) (x : DownstreamData) : State :=
  { s with data := Function.update s.data d x }

/-- A setup message of a miner without a channel is queued, and the first one asks for a channel. -/
def startRequest (s : State) (d : DownstreamId) : State :=
  if s.server = .idle ∧ d ∈ s.downstreams ∧ s.data d = ⟨none, false⟩ then
    { s.setData d ⟨none, true⟩ with server := .checking d }
  else s

/-- The server task goes on, or takes the next message. -/
def serverStep (s : State) : State :=
  match s.server with
  | .idle =>
    match s.toServer with
    | [] => s
    | .openExtendedMiningChannelSuccess o :: rest => { s with server := .received o, toServer := rest }
    | .openMiningChannelError q :: rest => { s with server := .refused q, toServer := rest }
  | .checking d => { s with server := if d ∈ s.downstreams then .registering d else .idle }
  | .registering d =>
    { s with
      server := .registered ⟨s.nextRequestId, d⟩
      requestIdToDownstreamId := s.requestIdToDownstreamId.insert s.nextRequestId d
      nextRequestId := s.nextRequestId + 1 }
  | .registered q =>
    { s with server := if q.downstreamId ∈ s.downstreams then .forwarding q else .withdrawing q }
  | .forwarding q => { s.sendManager (.openExtendedMiningChannel q) with server := .idle }
  | .withdrawing q | .refused q =>
    { s with
      server := .idle
      requestIdToDownstreamId := s.requestIdToDownstreamId.erase q.requestId }
  | .received o =>
    { s with
      server := match s.requestIdToDownstreamId.lookup o.request.requestId with
        | some d => .claimed o d
        | none => .orphaned o
      requestIdToDownstreamId := s.requestIdToDownstreamId.erase o.request.requestId }
  | .orphaned o =>
    { s with server :=
      if (s.channelIdToDownstreamId.lookup o.channelId).isSome then .idle else .orphanUnrouted o }
  | .orphanUnrouted o | .unregistered o => { s.sendClose o with server := .idle }
  | .claimed o d => { s with server := if d ∈ s.downstreams then .guarded o d else .unregistered o }
  | .guarded o d => { s.setData d { s.data d with channelId := some o } with server := .assigned o d }
  | .assigned o d => { s.setData d { s.data d with opening := false } with server := .queueTaken o d }
  | .queueTaken o d =>
    { s with
      server := .idle
      channelIdToDownstreamId := s.channelIdToDownstreamId.insert o.channelId d }

/-- A call of `handle_downstream_disconnect` is at another place, or has returned. -/
def moveCleanup (s : State) (c : DownstreamId × Cleanup) (next : Option Cleanup) : State :=
  { s with cleanups := (next.map fun p => (c.1, p)).toList ++ s.cleanups.erase c }

/-- A call of `handle_downstream_disconnect` goes on. -/
def cleanupStep (s : State) (c : DownstreamId × Cleanup) : State :=
  match c with
  | (d, .started) =>
    if s.server.guards = some d then s
    else { s.moveCleanup c (some (.removed (d ∈ s.downstreams))) with
      downstreams := s.downstreams.erase d }
  | (d, .removed present) =>
    { s.moveCleanup c (if present then some .retained else none) with
      requestIdToDownstreamId := s.requestIdToDownstreamId.retain fun _ d' => d' ≠ d }
  | (d, .retained) => s.moveCleanup c ((s.data d).channelId.map .channelRead)
  | (_, .channelRead o) =>
    { s.moveCleanup c (some (.unrouted o)) with
      channelIdToDownstreamId := s.channelIdToDownstreamId.erase o.channelId }
  | (_, .unrouted o) => (s.moveCleanup c none).sendClose o

/-- The channel manager takes a message. -/
def managerReceive (s : State) : State :=
  match s.toManager with
  | [] => s
  | .openExtendedMiningChannel q :: rest => { s with toManager := rest, pending := q :: s.pending }
  | .closeChannel o :: rest => { s with toManager := rest, live := s.live.erase o.channelId }

/-- A channel is opened, with an id that is not live. -/
def managerOpen (s : State) (q : Request) (channelId : ChannelId) : State :=
  if q ∈ s.pending ∧ s.live.lookup channelId = none then
    let o : Opening := ⟨channelId, q, s.openings.length⟩
    { s.sendServer (.openExtendedMiningChannelSuccess o) with
      pending := s.pending.erase q
      live := s.live.insert channelId o
      openings := s.openings ++ [o] }
  else s

def managerRefuse (s : State) (q : Request) : State :=
  if q ∈ s.pending then
    { s.sendServer (.openMiningChannelError q) with pending := s.pending.erase q }
  else s

end State

inductive Action where
  | connect
  | startRequest (d : DownstreamId)
  | server
  /-- `handle_downstream_disconnect` is called for a miner that has connected. -/
  | disconnect (d : DownstreamId)
  | cleanup (c : DownstreamId × Cleanup)
  | managerReceive
  | managerOpen (q : Request) (channelId : ChannelId)
  | managerRefuse (q : Request)
deriving DecidableEq

def step (s : State) : Action → State
  | .connect =>
    { s with
      nextDownstreamId := s.nextDownstreamId + 1
      downstreams := insert s.nextDownstreamId s.downstreams }
  | .startRequest d => s.startRequest d
  | .server => s.serverStep
  | .disconnect d =>
    if d < s.nextDownstreamId then { s with cleanups := (d, .started) :: s.cleanups } else s
  | .cleanup c => if c ∈ s.cleanups then s.cleanupStep c else s
  | .managerReceive => s.managerReceive
  | .managerOpen q channelId => s.managerOpen q channelId
  | .managerRefuse q => s.managerRefuse q

/-- The state after a run. -/
def after (as : List Action) : State := Runs.run step start as

end Sv2Apps.Translator.DownstreamLifecycle
