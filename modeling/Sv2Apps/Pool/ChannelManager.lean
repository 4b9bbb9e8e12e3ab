/-
  Pool/ChannelManager.lean
  ========================
  **The pool's channel manager** — `channel_manager/mod.rs`,
  `mining_message_handler.rs` and `template_distribution_message_handler.rs`, as far as
  jobs are concerned.

  One loop handles the messages of the template provider and of the miners.  A template
  message goes through the connections one at a time (`visit`), in any order and with
  other tasks moving in between; a connection that is registered meanwhile may be visited
  or not.  Each accepted connection has a task of its own, which reads the last future
  template, then the last prev-hash, builds its group channel and then registers the
  connection; the `SetupConnection` that says what kind of connection it is comes after
  that.  What the extranonce allocator and the channel constructors answer is part of the
  action.

  Every handler sends its messages as a batch.  `sent` keeps the batches, each message with
  the identities of the open channels it is for, and `current` the template that is being
  mined; no step reads them.
-/
import Sv2Apps.ChannelsSv2
import Sv2Apps.Payout
import Sv2Apps.Lib.Runs

namespace Sv2Apps.Pool.ChannelManager

open Bitcoin

/-- What the code around the channel manager provides. -/
structure Env (Ch : Type) where
  channels : ChannelsSv2 Ch
  /-- `coinbase_reward_script.script_pubkey()`. -/
  poolScript : Bytes
  scriptFromAddress : String → Option Bytes
  /-- `FULL_EXTRANONCE_SIZE`, the constant of the pool. -/
  fullExtranonceSize : Nat

inductive OpenMiningChannelErrorCode where
  | standardChannelsNotSupportedForCustomWork
  | extendedChannelsNotSupportedForStandardJobs
  | invalidUserIdentity
  | incompatiblePayoutMode
  /-- A code of the allocator or of a channel constructor. -/
  | channel (code : String)
deriving DecidableEq

inductive MiningMessage where
  | openMiningChannelError (requestId : RequestId) (code : OpenMiningChannelErrorCode)
  | openStandardMiningChannelSuccess (requestId : RequestId) (channelId groupChannelId : ChannelId)
  | openExtendedMiningChannelSuccess (requestId : RequestId) (channelId groupChannelId : ChannelId)
  | newMiningJob (channelId : ChannelId) (job : Job)
  | newExtendedMiningJob (channelId : ChannelId) (job : Job)
  | setNewPrevHash (channelId : ChannelId) (jobId : JobId) (prevHash : SetNewPrevHash)
deriving DecidableEq

def MiningMessage.job : MiningMessage → Option Job
  | .newMiningJob _ job => some job
  | .newExtendedMiningJob _ job => some job
  | _ => none

/-- An `OpenStandardMiningChannel` or `OpenExtendedMiningChannel`. -/
structure OpenMiningChannel where
  requestId : RequestId
  userIdentity : Identity
deriving DecidableEq

/-- What the extranonce allocator answers: a length of the allocated bytes, an error that has
    an error code, or another error. -/
inductive AllocationAnswer where
  | allocated (length : Nat)
  | refused (code : String)
  | fault

/-- What a channel constructor answers. -/
inductive ConstructionAnswer where
  | built
  | refused (code : String)
  | fault

/-- A standard or extended channel. -/
structure OpenChannel (Ch : Type) where
  userIdentity : Identity
  channel : Ch

structure Downstream (Ch : Type) where
  groupChannelId : ChannelId
  groupChannel : Ch
  standardChannels : KeyMap ChannelId (OpenChannel Ch)
  extendedChannels : KeyMap ChannelId (OpenChannel Ch)
  channelIdFactory : ChannelId
  payoutMode : Option PayoutMode
  requiresStandardJobs : Bool
  requiresCustomWork : Bool
  /-- The connection has sent its `SetupConnection`. -/
  setUp : Bool

/-- How a handler ends for a connection: with messages, each with the identities it is for, or
    with an error action. -/
inductive Reply where
  | messages (ms : List (List Identity × MiningMessage))
  | disconnect
  | shutdown
  | panic

inductive Fault where
  | shutdown
  | panic

structure Batch where
  downstreamId : DownstreamId
  /-- Sent by the opening of a channel. -/
  opening : Bool
  messages : List (List Identity × MiningMessage)
deriving DecidableEq

inductive TemplateMessage where
  | newTemplate (t : NewTemplate)
  | setNewPrevHash (p : SetNewPrevHash)
deriving DecidableEq

inductive LoopTask where
  | idle
  /-- A template message on its way through the connections that were there at its start. -/
  | visiting (msg : TemplateMessage) (present visited : List DownstreamId) (batches : List Batch)
  | stopped
deriving DecidableEq

inductive AcceptTask (Ch : Type) where
  | readTemplate (t : NewTemplate)
  | bootstrapped (groupChannel : Ch)

end ChannelManager

open ChannelManager in
structure ChannelManager (Ch : Type) where
  downstreams : KeyMap DownstreamId (Downstream Ch)
  lastNewPrevHash : Option SetNewPrevHash
  lastFutureTemplate : Option NewTemplate
  downstreamIdFactory : DownstreamId
  accepting : KeyMap DownstreamId (AcceptTask Ch)
  loop : LoopTask
  /-- The global cancellation token. -/
  cancelled : Bool
  sent : List Batch
  current : Option NewTemplate

namespace ChannelManager

open Bitcoin

variable {Ch : Type}

def new : ChannelManager Ch := ⟨∅, none, none, 1, ∅, .idle, false, [], none⟩

/-! ## One connection -/

namespace Downstream

/-- `Downstream::new`, with the group channel that the accept task built. -/
def new (groupChannel : Ch) : Downstream Ch :=
  ⟨1, groupChannel, ∅, ∅, 2, none, false, false, false⟩

/-- The identities of the open channels. -/
def identities (ds : Downstream Ch) : List Identity :=
  ds.standardChannels.entries.map (fun e => e.2.userIdentity) ++
    ds.extendedChannels.entries.map fun e => e.2.userIdentity

def payoutIsCompatible (env : Env Ch) (ds : Downstream Ch) (mode : PayoutMode) : Bool :=
  match ds.payoutMode with
  | none => true
  | some current => current.hasSameCoinbaseOutputsAs mode env.poolScript

def openError (ds : Downstream Ch) (msg : OpenMiningChannel) (code : OpenMiningChannelErrorCode) :
    Downstream Ch × Reply :=
  (ds, .messages [([], .openMiningChannelError msg.requestId code)])

/-- The allocation of an extranonce prefix and the construction of the channel; on success the
    rest of the handler goes on with the channel id and the length of the prefix. -/
def construct (ds : Downstream Ch) (msg : OpenMiningChannel) (allocation : AllocationAnswer)
    (construction : ConstructionAnswer)
    (rest : Downstream Ch → ChannelId → Nat → Downstream Ch × Reply) : Downstream Ch × Reply :=
  match allocation with
  | .fault => (ds, .shutdown)
  | .refused code => ds.openError msg (.channel code)
  | .allocated length =>
    let channelId := ds.channelIdFactory
    let ds := { ds with channelIdFactory := ds.channelIdFactory + 1 }
    match construction with
    | .refused code => ds.openError msg (.channel code)
    | .fault => (ds, .disconnect)
    | .built => rest ds channelId length

/-- A fresh channel is given the last future template and the last prev-hash. -/
def bootstrapChannel (env : Env Ch) (channel : Ch) (t : NewTemplate) (outs : List TxOut)
    (p : SetNewPrevHash) : Except Fault (Ch × Job) :=
  match env.channels.onNewTemplate channel t outs with
  | none => .error .shutdown
  | some c =>
    match env.channels.getFutureJob c t.templateId with
    | none => .error .panic
    | some job =>
      match env.channels.onSetNewPrevHash c p with
      | none => .error .shutdown
      | some c' => .ok (c', job)

def fault (ds : Downstream Ch) : Fault → Downstream Ch × Reply
  | .shutdown => (ds, .shutdown)
  | .panic => (ds, .panic)

/-- Add a new channel to the group channel. -/
def addToGroup (env : Env Ch) (ds : Downstream Ch) (channelId : ChannelId) (size : Nat) :
    Option (Downstream Ch) :=
  (env.channels.addChannelId ds.groupChannel channelId size).map fun g =>
    { ds with groupChannel := g }

/-- The messages that announce a channel, its job and the prev-hash that activates it. -/
def announce (identity : Identity) (success : MiningMessage) (job : MiningMessage)
    (channelId : ChannelId) (jobId : JobId) (p : SetNewPrevHash) : Reply :=
  .messages [([identity], success), ([identity], job),
    ([identity], .setNewPrevHash channelId jobId p)]

def handleOpenStandardMiningChannel (env : Env Ch) (lastFutureTemplate : Option NewTemplate)
    (lastNewPrevHash : Option SetNewPrevHash) (ds : Downstream Ch) (msg : OpenMiningChannel)
    (allocation : AllocationAnswer) (construction : ConstructionAnswer) :
    Downstream Ch × Reply :=
  if ds.requiresCustomWork then
    ds.openError msg .standardChannelsNotSupportedForCustomWork
  else match lastFutureTemplate with
    | none => (ds, .disconnect)
    | some t => match lastNewPrevHash with
      | none => (ds, .disconnect)
      | some p => match PayoutMode.ofIdentity env.scriptFromAddress msg.userIdentity with
        | .error _ => ds.openError msg .invalidUserIdentity
        | .ok mode =>
          if !ds.payoutIsCompatible env mode then ds.openError msg .incompatiblePayoutMode
          else ds.construct msg allocation construction fun ds channelId length =>
            let outs := mode.coinbaseOutputs t.coinbaseTxValueRemaining env.poolScript
            match bootstrapChannel env (env.channels.newChannel channelId length) t outs p with
            | .error f => ds.fault f
            | .ok (c, job) =>
              let ds := { ds with
                standardChannels := ds.standardChannels.insert channelId ⟨msg.userIdentity, c⟩
                payoutMode := some mode }
              let reply := announce msg.userIdentity
                (.openStandardMiningChannelSuccess msg.requestId channelId ds.groupChannelId)
                (.newMiningJob channelId job) channelId job.jobId p
              if ds.requiresStandardJobs then (ds, reply)
              else match ds.addToGroup env channelId length with
                | none => (ds, .shutdown)
                | some ds => (ds, reply)

/-- `CLIENT_SEARCH_SPACE_BYTES`. -/
def clientSearchSpaceBytes : Nat := 16

/-- The channel of a connection that selects its own work only gets the prev-hash. -/
def handleOpenExtendedMiningChannel (env : Env Ch) (lastFutureTemplate : Option NewTemplate)
    (lastNewPrevHash : Option SetNewPrevHash) (ds : Downstream Ch) (msg : OpenMiningChannel)
    (allocation : AllocationAnswer) (construction : ConstructionAnswer) :
    Downstream Ch × Reply :=
  if ds.requiresStandardJobs then
    ds.openError msg .extendedChannelsNotSupportedForStandardJobs
  else match PayoutMode.ofIdentity env.scriptFromAddress msg.userIdentity with
    | .error _ => ds.openError msg .invalidUserIdentity
    | .ok mode =>
      if !ds.payoutIsCompatible env mode then ds.openError msg .incompatiblePayoutMode
      else ds.construct msg allocation construction fun ds channelId length =>
        let size := length + clientSearchSpaceBytes
        let success : MiningMessage :=
          .openExtendedMiningChannelSuccess msg.requestId channelId ds.groupChannelId
        match lastNewPrevHash with
        | none => (ds, .disconnect)
        | some p => match lastFutureTemplate with
          | none => (ds, .disconnect)
          | some t =>
            if ds.requiresCustomWork then
              match env.channels.onSetNewPrevHash (env.channels.newChannel channelId size) p with
              | none => (ds, .shutdown)
              | some c =>
                ({ ds with
                  extendedChannels := ds.extendedChannels.insert channelId ⟨msg.userIdentity, c⟩
                  payoutMode := some mode }, .messages [([msg.userIdentity], success)])
            else
              let outs := mode.coinbaseOutputs t.coinbaseTxValueRemaining env.poolScript
              match bootstrapChannel env (env.channels.newChannel channelId size) t outs p with
              | .error f => ds.fault f
              | .ok (c, job) =>
                match ds.addToGroup env channelId size with
                | none => (ds, .shutdown)
                | some ds =>
                  ({ ds with
                    extendedChannels := ds.extendedChannels.insert channelId ⟨msg.userIdentity, c⟩
                    payoutMode := some mode },
                  announce msg.userIdentity success (.newExtendedMiningJob channelId job)
                    channelId job.jobId p)

def handleCloseChannel (env : Env Ch) (ds : Downstream Ch) (channelId : ChannelId) :
    Downstream Ch :=
  let ds := { ds with
    groupChannel := env.channels.removeChannelId ds.groupChannel channelId
    standardChannels := ds.standardChannels.erase channelId
    extendedChannels := ds.extendedChannels.erase channelId }
  if ds.standardChannels.keys = [] ∧ ds.extendedChannels.keys = [] then
    { ds with payoutMode := none }
  else ds

/-- The outputs of a template's jobs on this connection. -/
def coinbaseOutputs (env : Env Ch) (ds : Downstream Ch) (t : NewTemplate) : List TxOut :=
  match ds.payoutMode with
  | some mode => mode.coinbaseOutputs t.coinbaseTxValueRemaining env.poolScript
  | none => [⟨t.coinbaseTxValueRemaining, env.poolScript⟩]

def onGroupChannelJob (env : Env Ch) (job : Job) (_ : ChannelId) (c : OpenChannel Ch) :
    Except Fault (OpenChannel Ch) :=
  match env.channels.onGroupChannelJob c.channel job with
  | none => .error .shutdown
  | some ch => .ok { c with channel := ch }

/-- A standard channel with jobs of its own; also returns the job. -/
def onNewTemplate (env : Env Ch) (t : NewTemplate) (outs : List TxOut) (_ : ChannelId)
    (c : OpenChannel Ch) : Except Fault (OpenChannel Ch × Job) :=
  match env.channels.onNewTemplate c.channel t outs with
  | none => .error .shutdown
  | some ch =>
    match env.channels.templateJob ch t with
    | none => .error .panic
    | some job => .ok ({ c with channel := ch }, job)

def onSetNewPrevHash (env : Env Ch) (p : SetNewPrevHash) (_ : ChannelId) (c : OpenChannel Ch) :
    Except Fault (OpenChannel Ch) :=
  match env.channels.onSetNewPrevHash c.channel p with
  | none => .error .shutdown
  | some ch => .ok { c with channel := ch }

/-- The standard channels take over the group's job, or get a job and a message each. -/
def standardOnNewTemplate (env : Env Ch) (ds : Downstream Ch) (t : NewTemplate)
    (outs : List TxOut) (groupJob : Job) :
    Except Fault (KeyMap ChannelId (OpenChannel Ch) × List (List Identity × MiningMessage)) :=
  if !ds.requiresStandardJobs then
    match KeyMap.tryMap (onGroupChannelJob env groupJob) ds.standardChannels with
    | .error f => .error f
    | .ok std => .ok (std, [])
  else
    match KeyMap.tryMap (onNewTemplate env t outs) ds.standardChannels with
    | .error f => .error f
    | .ok std => .ok (KeyMap.mapValues (fun _ c => c.1) std,
        std.entries.map fun e => ([e.2.1.userIdentity], .newMiningJob e.1 e.2.2))

/-- One connection in `handle_new_template`.  After an error the pool stops. -/
def visitNewTemplate (env : Env Ch) (ds : Downstream Ch) (t : NewTemplate) :
    Except Fault (Downstream Ch × List (List Identity × MiningMessage)) :=
  if ds.requiresCustomWork then .ok (ds, [])
  else
    let outs := ds.coinbaseOutputs env t
    match env.channels.onNewTemplate ds.groupChannel t outs with
    | none => .error .shutdown
    | some g =>
      match env.channels.templateJob g t with
      | none => .error .shutdown
      | some groupJob =>
        let groupMessages :=
          if !ds.requiresStandardJobs && !env.channels.isEmpty g then
            [(ds.identities, MiningMessage.newExtendedMiningJob ds.groupChannelId groupJob)]
          else []
        match ds.standardOnNewTemplate env t outs groupJob with
        | .error f => .error f
        | .ok (std, messages) =>
          match KeyMap.tryMap (onGroupChannelJob env groupJob) ds.extendedChannels with
          | .error f => .error f
          | .ok ext =>
            .ok ({ ds with groupChannel := g, standardChannels := std, extendedChannels := ext },
              groupMessages ++ messages)

/-- One connection in `handle_set_new_prev_hash`. -/
def visitSetNewPrevHash (env : Env Ch) (ds : Downstream Ch) (p : SetNewPrevHash) :
    Except Fault (Downstream Ch × List (List Identity × MiningMessage)) :=
  if ds.requiresCustomWork then .ok (ds, [])
  else match env.channels.onSetNewPrevHash ds.groupChannel p with
    | none => .error .shutdown
    | some g =>
      let activeJobId := (env.channels.getActiveJob g).map Job.jobId
      let groupNeedsMessage := !ds.requiresStandardJobs && !env.channels.isEmpty g
      if groupNeedsMessage && activeJobId.isNone then .error .panic
      else
        let groupMessages :=
          if groupNeedsMessage then activeJobId.toList.map fun id =>
            (ds.identities, MiningMessage.setNewPrevHash ds.groupChannelId id p)
          else []
        match KeyMap.tryMap (onSetNewPrevHash env p) ds.extendedChannels with
        | .error f => .error f
        | .ok ext =>
          match KeyMap.tryMap (onSetNewPrevHash env p) ds.standardChannels with
          | .error f => .error f
          | .ok std =>
            let active := std.entries.map fun e => (e.1, e.2.userIdentity,
              (env.channels.getActiveJob e.2.channel).map Job.jobId)
            if ds.requiresStandardJobs && active.any (fun e => e.2.2.isNone) then .error .shutdown
            else
              let messages := if ds.requiresStandardJobs then active.flatMap fun e =>
                  e.2.2.toList.map fun id => ([e.2.1], MiningMessage.setNewPrevHash e.1 id p)
                else []
              .ok ({ ds with groupChannel := g, standardChannels := std, extendedChannels := ext },
                groupMessages ++ messages)

def visit (env : Env Ch) (ds : Downstream Ch) :
    TemplateMessage → Except Fault (Downstream Ch × List (List Identity × MiningMessage))
  | .newTemplate t => ds.visitNewTemplate env t
  | .setNewPrevHash p => ds.visitSetNewPrevHash env p

end Downstream

/-! ## The channel manager -/

inductive Action where
  | templateMessage (msg : TemplateMessage)
  | visit (d : DownstreamId)
  | finish
  | openStandard (d : DownstreamId) (msg : OpenMiningChannel) (allocation : AllocationAnswer)
      (construction : ConstructionAnswer)
  | openExtended (d : DownstreamId) (msg : OpenMiningChannel) (allocation : AllocationAnswer)
      (construction : ConstructionAnswer)
  | closeChannel (d : DownstreamId) (channelId : ChannelId)
  | accept
  | bootstrap (d : DownstreamId)
  | register (d : DownstreamId)
  | setUpConnection (d : DownstreamId) (requiresStandardJobs requiresCustomWork : Bool)
  | removeDownstream (d : DownstreamId)

/-- The loop takes a template message: the cell is set before the connections are visited. -/
def receiveTemplateMessage (s : ChannelManager Ch) (msg : TemplateMessage) : ChannelManager Ch :=
  let s := { s with loop := .visiting msg s.downstreams.keys [] [] }
  match msg with
  | .newTemplate t =>
    if t.futureTemplate then { s with lastFutureTemplate := some t }
    else { s with current := some t }
  | .setNewPrevHash p =>
    { s with lastNewPrevHash := some p, current := s.lastFutureTemplate }

def visit (env : Env Ch) (s : ChannelManager Ch) (d : DownstreamId) : ChannelManager Ch :=
  match s.loop with
  | .visiting msg present visited batches =>
    if d ∈ visited then s
    else match s.downstreams.lookup d with
      | none => s
      | some ds => match ds.visit env msg with
        | .error .shutdown => { s with cancelled := true, loop := .idle }
        | .error .panic => { s with loop := .stopped }
        | .ok (ds', messages) =>
          { s with
            downstreams := s.downstreams.insert d ds'
            loop := .visiting msg present (d :: visited) (⟨d, false, messages⟩ :: batches) }
  | _ => s

/-- The messages go out when every connection that was there and still is has been visited. -/
def finish (s : ChannelManager Ch) : ChannelManager Ch :=
  match s.loop with
  | .visiting _ present visited batches =>
    if present.all fun d => decide (d ∈ visited) || (s.downstreams.lookup d).isNone then
      { s with loop := .idle, sent := batches ++ s.sent }
    else s
  | _ => s

/-- The end of a mining message. -/
def reply (s : ChannelManager Ch) (d : DownstreamId) (r : Downstream Ch × Reply) :
    ChannelManager Ch :=
  let s := { s with downstreams := s.downstreams.insert d r.1 }
  match r.2 with
  | .messages ms => { s with sent := ⟨d, true, ms⟩ :: s.sent }
  | .disconnect => { s with downstreams := s.downstreams.erase d }
  | .shutdown => { s with cancelled := true }
  | .panic => { s with loop := .stopped }

/-- A mining message of a connection that has been set up; the loop is idle. -/
def onMiningMessage (s : ChannelManager Ch) (d : DownstreamId)
    (handler : Downstream Ch → ChannelManager Ch) : ChannelManager Ch :=
  match s.loop with
  | .idle =>
    match s.downstreams.lookup d with
    | none => s
    | some ds => if ds.setUp then handler ds else s
  | _ => s

/-- The group channel of a new connection pays the pool until a channel says otherwise. -/
def bootstrapGroupChannel (env : Env Ch) (t : NewTemplate) (p : SetNewPrevHash) : Option Ch :=
  let group := env.channels.newChannel 1 env.fullExtranonceSize
  (env.channels.onNewTemplate group t
    [⟨t.coinbaseTxValueRemaining, env.poolScript⟩]).bind fun g =>
      env.channels.onSetNewPrevHash g p

/-- Connections are accepted once there are a future template and a prev-hash. -/
def accept (s : ChannelManager Ch) : ChannelManager Ch :=
  match s.lastFutureTemplate, s.lastNewPrevHash with
  | some t, some _ =>
    { s with
      accepting := s.accepting.insert s.downstreamIdFactory (.readTemplate t)
      downstreamIdFactory := s.downstreamIdFactory + 1 }
  | _, _ => s

/-- A failed bootstrap cancels the global token. -/
def bootstrap (env : Env Ch) (s : ChannelManager Ch) (d : DownstreamId) : ChannelManager Ch :=
  match s.accepting.lookup d, s.lastNewPrevHash with
  | some (.readTemplate t), some p =>
    match bootstrapGroupChannel env t p with
    | none => { s with cancelled := true, accepting := s.accepting.erase d }
    | some g => { s with accepting := s.accepting.insert d (.bootstrapped g) }
  | _, _ => s

def register (s : ChannelManager Ch) (d : DownstreamId) : ChannelManager Ch :=
  match s.accepting.lookup d with
  | some (.bootstrapped g) =>
    { s with
      downstreams := s.downstreams.insert d (Downstream.new g)
      accepting := s.accepting.erase d }
  | _ => s

/-- The first message of a connection. -/
def setUpConnection (s : ChannelManager Ch) (d : DownstreamId) (std custom : Bool) :
    ChannelManager Ch :=
  { s with downstreams := s.downstreams |> KeyMap.modify d fun ds =>
      if ds.setUp then ds
      else { ds with requiresStandardJobs := std, requiresCustomWork := custom, setUp := true } }

/-- A step that the loop takes; after the cancellation it takes none. -/
def loopStep (env : Env Ch) (s : ChannelManager Ch) : Action → ChannelManager Ch
  | .templateMessage msg =>
    match s.loop with
    | .idle => s.receiveTemplateMessage msg
    | _ => s
  | .visit d => s.visit env d
  | .finish => s.finish
  | .openStandard d msg allocation construction => s.onMiningMessage d fun ds =>
      s.reply d (ds.handleOpenStandardMiningChannel env s.lastFutureTemplate s.lastNewPrevHash msg
        allocation construction)
  | .openExtended d msg allocation construction => s.onMiningMessage d fun ds =>
      s.reply d (ds.handleOpenExtendedMiningChannel env s.lastFutureTemplate s.lastNewPrevHash msg
        allocation construction)
  | .closeChannel d channelId => s.onMiningMessage d fun ds =>
      { s with downstreams := s.downstreams.insert d (ds.handleCloseChannel env channelId) }
  | _ => s

def step (env : Env Ch) (s : ChannelManager Ch) (a : Action) : ChannelManager Ch :=
  match a with
  | .accept => s.accept
  | .bootstrap d => s.bootstrap env d
  | .register d => s.register d
  | .setUpConnection d std custom => s.setUpConnection d std custom
  | .removeDownstream d => { s with downstreams := s.downstreams.erase d }
  | a => if s.cancelled then s else s.loopStep env a

def after (env : Env Ch) (as : List Action) : ChannelManager Ch := Runs.run (step env) new as

/-! ## A pool to try things on -/

/-- No text is an address, and full extranonces have 20 bytes. -/
def sampleEnv : Env ReferenceChannel := ⟨referenceChannels, [0x51], fun _ => none, 20⟩

/-- The first template is activated and a miner connects. -/
def sampleConnection : List Action :=
  [.templateMessage (.newTemplate ⟨1, true, 4000⟩), .finish,
   .templateMessage (.setNewPrevHash ⟨1, Hash256.allZeros, 0, 0x207fffff⟩), .finish,
   .accept, .bootstrap 1, .register 1, .setUpConnection 1 false false]

end ChannelManager

end Sv2Apps.Pool
