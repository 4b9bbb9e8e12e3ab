/-
  Pool/Difficulty.lean
  ====================
  **Targets, vardiff and shares in the pool** — the rest of `channel_manager/mod.rs` and
  `mining_message_handler.rs`: the vardiff cycle, `UpdateChannel`, the submitted shares, and the
  removal of a connection, on top of the handlers of `Pool/ChannelManager`.

  The loop takes one message or one tick of the vardiff timer at a time.  A handler changes the
  connection while it holds its entry in the map; the messages it has collected are forwarded
  afterwards, one by one.  `remove_downstream` takes three maps in turn; it runs in the task of the
  connection, between any two steps of the loop, or in the loop after an error that disconnects.

  Hashrates, targets and share accounting of a channel come from `channels_sv2` and are parameters
  (`Mining`), as is the vardiff algorithm.  `downstreamSender` keeps all that was ever sent to a
  connection.
-/
import Sv2Apps.Pool.ChannelManager
import Sv2Apps.Lib.SeriesTable

namespace Sv2Apps.Pool.Difficulty

open Bitcoin ByteCodec
open ChannelManager (Downstream MiningMessage OpenMiningChannel AllocationAnswer
  ConstructionAnswer TemplateMessage Reply)

/-! ## The channels -/

abbrev Target := BitVec 256

def Target.toLeBytes (t : Target) : Bytes := leBytes 32 t.toNat

def Target.fromLeBytes (b : Bytes) : Target := BitVec.ofNat 256 (ofLe b)

inductive ChannelKind where
  | standard
  | extended
deriving DecidableEq

/-- `SubmitSharesStandard` or `SubmitSharesExtended`; `extranonce` is empty in the first. -/
structure SubmitShares where
  channelId : ChannelId
  sequenceNumber : UInt32
  jobId : JobId
  nonce : UInt32
  ntime : UInt32
  version : UInt32
  extranonce : Bytes
deriving DecidableEq

/-- What the handlers read of the share accounting. -/
structure ShareAccounting where
  shouldAcknowledge : Bool
  lastShareSequenceNumber : UInt32
  lastBatchAccepted : UInt32
  lastBatchWorkSum : UInt64
deriving DecidableEq

inductive ShareValidationResult where
  | valid
  | blockFound (templateId : Option TemplateId) (coinbase : Bytes)

inductive ShareValidationError where
  | invalid (code : String)
  | stale (code : String)
  | invalidJobId (code : String)
  | doesNotMeetTarget (code : String)
  | duplicateShare (code : String)
  | badExtranonceSize (code : String)
  | versionRollingNotAllowed (code : String)
  | seenSharesBudgetExhausted
  | other

/-- The errors that the miner is told; the others close the connection.  The size of the
    extranonce is no matter for a standard channel. -/
def ShareValidationError.reported : ChannelKind → ShareValidationError → Option String
  | _, .invalid code => some code
  | _, .stale code => some code
  | _, .invalidJobId code => some code
  | _, .doesNotMeetTarget code => some code
  | _, .duplicateShare code => some code
  | .extended, .badExtranonceSize code => some code
  | .standard, .badExtranonceSize _ => none
  | _, .versionRollingNotAllowed code => some code
  | _, .seenSharesBudgetExhausted => none
  | _, .other => none

inductive UpdateChannelFailure where
  | invalidNominalHashrate (code : String)
  | invalidMaxTarget (code : String)
  | other

/-- The operations of channels and vardiff states, `F32` being the hashrates. -/
structure Mining (Ch V F32 : Type) where
  /-- `new_for_pool`, with the extranonce size, the hashrate and the maximal target. -/
  newChannel : ChannelId → Nat → F32 → Target → Ch
  getTarget : Ch → Target
  getNominalHashrate : Ch → F32
  getSharesPerMinute : Ch → F32
  getShareAccounting : Ch → ShareAccounting
  setStableHashrate : Ch → Bool → Ch
  /-- The channel it leaves, and the error. -/
  updateChannel : Ch → F32 → Option Target → Ch × Option UpdateChannelFailure
  validateShare : Ch → SubmitShares → Ch × Except ShareValidationError ShareValidationResult
  /-- The new hashrate, if any; `none` when it fails.  The number is the time. -/
  tryVardiff : Nat → V → F32 → Target → F32 → V × Option (Option F32)
  incrementSharesSinceLastUpdate : V → V

/-- What a target depends on. -/
structure Mining.Lawful {Ch V F32 : Type} (api : Mining Ch V F32) (jobs : ChannelsSv2 Ch) :
    Prop where
  onNewTemplate : ∀ {c t outs c'}, jobs.onNewTemplate c t outs = some c' →
    api.getTarget c' = api.getTarget c
  onSetNewPrevHash : ∀ {c p c'}, jobs.onSetNewPrevHash c p = some c' →
    api.getTarget c' = api.getTarget c
  onGroupChannelJob : ∀ {c j c'}, jobs.onGroupChannelJob c j = some c' →
    api.getTarget c' = api.getTarget c
  setStableHashrate : ∀ c b, api.getTarget (api.setStableHashrate c b) = api.getTarget c
  validateShare : ∀ c share, api.getTarget (api.validateShare c share).1 = api.getTarget c
  /-- A refused update changes no target. -/
  updateChannel : ∀ {c hashrate max c' e}, api.updateChannel c hashrate max = (c', some e) →
    api.getTarget c' = api.getTarget c

/-! ## Messages -/

/-- What goes to a miner. -/
inductive ToMiner where
  /-- The success of an opening, with its target. -/
  | opened (m : MiningMessage) (target : Bytes)
  | mining (m : MiningMessage)
  | setTarget (channelId : ChannelId) (target : Bytes)
  | updateChannelError (channelId : ChannelId) (code : String)
  | submitSharesSuccess (channelId : ChannelId) (accounting : ShareAccounting)
  | submitSharesError (channelId : ChannelId) (sequenceNumber : UInt32) (code : String)
  | closeChannel (channelId : ChannelId) (reasonCode : String)
deriving DecidableEq

structure SubmitSolution where
  templateId : TemplateId
  version : UInt32
  ntime : UInt32
  nonce : UInt32
  coinbaseTx : Bytes
deriving DecidableEq

inductive RouteMessageTo where
  | templateProvider (solution : SubmitSolution)
  | downstream (d : DownstreamId) (m : ToMiner)
deriving DecidableEq

def ERROR_CODE_SUBMIT_SHARES_INVALID_CHANNEL_ID : String := "invalid-channel-id"
def ERROR_CODE_UPDATE_CHANNEL_INVALID_CHANNEL_ID : String := "invalid-channel-id"

/-- The channel that a message announces as open. -/
def openedChannel : MiningMessage → Option ChannelId
  | .openStandardMiningChannelSuccess _ channelId _ => some channelId
  | .openExtendedMiningChannelSuccess _ channelId _ => some channelId
  | _ => none

/-- The target that a message gives for a channel. -/
def ToMiner.told (channelId : ChannelId) : ToMiner → Option Bytes
  | .opened m target => if openedChannel m = some channelId then some target else none
  | .setTarget c target => if c = channelId then some target else none
  | _ => none

/-- An `OpenStandardMiningChannel` or `OpenExtendedMiningChannel` with what it asks for. -/
structure OpenRequest (F32 : Type) extends OpenMiningChannel where
  nominalHashRate : F32
  maxTarget : Bytes

structure UpdateChannel (F32 : Type) where
  channelId : ChannelId
  nominalHashRate : F32
  maxTarget : Bytes

/-! ## The state -/

abbrev VardiffKey := DownstreamId × ChannelId

/-- How far a call of `remove_downstream` has come: the map it takes next. -/
inductive RemovalStep where
  | downstreams
  | vardiff
  | downstreamSender
deriving DecidableEq

/-- What the loop is doing, apart from the template messages. -/
inductive Phase where
  | ready
  /-- `run_vardiff`, with the keys that are left and the messages so far. -/
  | vardiff (keys : List VardiffKey) (messages : List RouteMessageTo)
  /-- `handle_close_channel`, before it takes the vardiff map. -/
  | closing (key : VardiffKey)
  | forwarding (messages : List RouteMessageTo)
  | removing (d : DownstreamId) (step : RemovalStep)
deriving DecidableEq

/-- The messages that have been collected and not yet forwarded. -/
def Phase.pending : Phase → List RouteMessageTo
  | .vardiff _ messages => messages
  | .forwarding messages => messages
  | _ => []

structure PoolState (Ch V : Type) where
  manager : ChannelManager Ch
  vardiff : KeyMap VardiffKey V
  downstreamSender : KeyMap DownstreamId (List ToMiner)
  tpSender : List SubmitSolution
  phase : Phase
  /-- The calls of `remove_downstream` by the tasks of the connections. -/
  removals : KeyMap DownstreamId RemovalStep

/-- What the pool runs with. -/
structure Context (Ch V F32 : Type) where
  env : ChannelManager.Env Ch
  mining : Mining Ch V F32

variable {Ch V F32 : Type}

/-- The constructors of the channels for one request. -/
def Context.envFor (ctx : Context Ch V F32) (msg : OpenRequest F32) : ChannelManager.Env Ch :=
  { ctx.env with channels := { ctx.env.channels with
      newChannel := fun channelId size => ctx.mining.newChannel channelId size
        msg.nominalHashRate (Target.fromLeBytes msg.maxTarget) } }

/-! ## The handlers, on one connection -/

/-- The size that the constructor of a channel is given. -/
def extranonceSize : ChannelKind → Nat → Nat
  | .standard, length => length
  | .extended, length => length + Downstream.clientSearchSpaceBytes

/-- The target in the success of an opening: that of the channel as it is built. -/
def openingTarget (ctx : Context Ch V F32) (kind : ChannelKind) (channelId : ChannelId)
    (msg : OpenRequest F32) : AllocationAnswer → Bytes
  | .allocated length => (ctx.mining.getTarget ((ctx.envFor msg).channels.newChannel channelId
      (extranonceSize kind length))).toLeBytes
  | _ => []

/-- `handle_open_standard_mining_channel` and `handle_open_extended_mining_channel`. -/
def handleOpenMiningChannel (ctx : Context Ch V F32) (kind : ChannelKind)
    (lastFutureTemplate : Option NewTemplate) (lastNewPrevHash : Option SetNewPrevHash)
    (ds : Downstream Ch) (msg : OpenRequest F32) (allocation : AllocationAnswer)
    (construction : ConstructionAnswer) : Downstream Ch × Reply :=
  match kind with
  | .standard => ds.handleOpenStandardMiningChannel (ctx.envFor msg) lastFutureTemplate
      lastNewPrevHash msg.toOpenMiningChannel allocation construction
  | .extended => ds.handleOpenExtendedMiningChannel (ctx.envFor msg) lastFutureTemplate
      lastNewPrevHash msg.toOpenMiningChannel allocation construction

/-- A success is sent with its target. -/
def toMiner (target : Bytes) (m : MiningMessage) : ToMiner :=
  if (openedChannel m).isSome then .opened m target else .mining m

def channels (ds : Downstream Ch) :
    ChannelKind → KeyMap ChannelId (ChannelManager.OpenChannel Ch)
  | .standard => ds.standardChannels
  | .extended => ds.extendedChannels

/-- `with_mut` on a channel: put back what the closure leaves. -/
def setChannel (ds : Downstream Ch) (kind : ChannelKind) (channelId : ChannelId) (c : Ch) :
    Downstream Ch :=
  match kind with
  | .standard => { ds with
      standardChannels := ds.standardChannels |> KeyMap.modify channelId fun oc => { oc with channel := c } }
  | .extended => { ds with
      extendedChannels := ds.extendedChannels |> KeyMap.modify channelId fun oc => { oc with channel := c } }

/-- `run_vardiff_on_standard_channel` and `run_vardiff_on_extended_channel`: the channel, the
    vardiff state and the message. -/
def runVardiffOnChannel (api : Mining Ch V F32) (now : Nat) (d : DownstreamId)
    (channelId : ChannelId) (c : Ch) (v : V) : Ch × V × List RouteMessageTo :=
  match api.tryVardiff now v (api.getNominalHashrate c) (api.getTarget c)
      (api.getSharesPerMinute c) with
  | (v', none) => (c, v', [])
  | (v', some none) => (api.setStableHashrate c true, v', [])
  | (v', some (some newHashrate)) =>
    match api.updateChannel (api.setStableHashrate c false) newHashrate none with
    | (c', none) =>
      (c', v', [.downstream d (.setTarget channelId (api.getTarget c').toLeBytes)])
    | (c', some _) => (c', v', [])

def runVardiffOnStandardChannel (api : Mining Ch V F32) := runVardiffOnChannel api
def runVardiffOnExtendedChannel (api : Mining Ch V F32) := runVardiffOnChannel api

/-- Vardiff on the channel of one kind, when the miner has it. -/
def withChannel (kind : ChannelKind) (channelId : ChannelId)
    (run : Ch → V → Ch × V × List RouteMessageTo) (ds : Downstream Ch) (v : V) :
    Downstream Ch × V × List RouteMessageTo :=
  match (channels ds kind).lookup channelId with
  | none => (ds, v, [])
  | some oc =>
    let (c, v', messages) := run oc.channel v
    (setChannel ds kind channelId c, v', messages)

/-- What `run_vardiff` does for one key of a registered connection. -/
def runVardiffOn (api : Mining Ch V F32) (now : Nat) (d : DownstreamId) (channelId : ChannelId)
    (ds : Downstream Ch) (v : V) : Downstream Ch × V × List RouteMessageTo :=
  let (ds₁, v₁, messages₁) :=
    withChannel .standard channelId (runVardiffOnStandardChannel api now d channelId) ds v
  let (ds₂, v₂, messages₂) :=
    withChannel .extended channelId (runVardiffOnExtendedChannel api now d channelId) ds₁ v₁
  (ds₂, v₂, messages₁ ++ messages₂)

/-- The closure of `handle_update_channel` on a channel: the target is sent in any case.  `none`
    stands for the `unreachable!`. -/
def updateChannelIn (api : Mining Ch V F32) (d : DownstreamId) (msg : UpdateChannel F32) (c : Ch) :
    Option (Ch × List RouteMessageTo) :=
  let (c', failure) :=
    api.updateChannel c msg.nominalHashRate (some (Target.fromLeBytes msg.maxTarget))
  let setTarget : RouteMessageTo :=
    .downstream d (.setTarget msg.channelId (api.getTarget c').toLeBytes)
  match failure with
  | none => some (c', [setTarget])
  | some (.invalidNominalHashrate code) | some (.invalidMaxTarget code) =>
    some (c', [.downstream d (.updateChannelError msg.channelId code), setTarget])
  | some .other => none

/-- `handle_update_channel`: a standard channel, else an extended one, else an error. -/
def handleUpdateChannel (api : Mining Ch V F32) (d : DownstreamId) (msg : UpdateChannel F32)
    (ds : Downstream Ch) : Option (Downstream Ch × List RouteMessageTo) :=
  match ds.standardChannels.lookup msg.channelId with
  | some oc => (updateChannelIn api d msg oc.channel).map fun r =>
      (setChannel ds .standard msg.channelId r.1, r.2)
  | none =>
    match ds.extendedChannels.lookup msg.channelId with
    | some oc => (updateChannelIn api d msg oc.channel).map fun r =>
        (setChannel ds .extended msg.channelId r.1, r.2)
    | none => some (ds, [.downstream d (.updateChannelError msg.channelId
        ERROR_CODE_UPDATE_CHANNEL_INVALID_CHANNEL_ID)])

/-- How a share handler ends. -/
inductive ShareOutcome where
  | messages (ms : List RouteMessageTo)
  | disconnect
  | shutdown

/-- `B064K`: the longest coinbase that can be sent. -/
def maxCoinbaseLength : Nat := 65535

/-- The answer to a share that the channel has judged; `accounting` is the one after it. -/
def shareOutcome (kind : ChannelKind) (d : DownstreamId) (share : SubmitShares)
    (accounting : ShareAccounting) : Except ShareValidationError ShareValidationResult → ShareOutcome
  | .ok .valid =>
    .messages (if accounting.shouldAcknowledge then
      [.downstream d (.submitSharesSuccess share.channelId accounting)] else [])
  | .ok (.blockFound none _) =>
    .messages [.downstream d (.submitSharesSuccess share.channelId accounting)]
  | .ok (.blockFound (some templateId) coinbase) =>
    if coinbase.length ≤ maxCoinbaseLength then
      .messages [.templateProvider ⟨templateId, share.version, share.ntime, share.nonce, coinbase⟩,
        .downstream d (.submitSharesSuccess share.channelId accounting)]
    else .shutdown
  | .error e =>
    match e.reported kind with
    | some code =>
      .messages [.downstream d (.submitSharesError share.channelId share.sequenceNumber code)]
    | none => .disconnect

/-- `handle_submit_shares_standard` and `handle_submit_shares_extended`; `watched` says whether
    the vardiff map knows the channel, and the last part of the result whether the share is
    counted there. -/
def handleSubmitShares (api : Mining Ch V F32) (kind : ChannelKind) (d : DownstreamId)
    (share : SubmitShares) (watched : Bool) (ds : Downstream Ch) :
    Downstream Ch × ShareOutcome × Bool :=
  match (channels ds kind).lookup share.channelId with
  | none => (ds, .messages [.downstream d (.submitSharesError share.channelId share.sequenceNumber
      ERROR_CODE_SUBMIT_SHARES_INVALID_CHANNEL_ID)], false)
  | some oc =>
    if !watched then
      (ds, .messages [.downstream d (.closeChannel share.channelId
        ERROR_CODE_SUBMIT_SHARES_INVALID_CHANNEL_ID)], false)
    else
      let (c, verdict) := api.validateShare oc.channel share
      (setChannel ds kind share.channelId c,
        shareOutcome kind d share (api.getShareAccounting c) verdict, true)

def handleSubmitSharesStandard (api : Mining Ch V F32) := handleSubmitShares api .standard
def handleSubmitSharesExtended (api : Mining Ch V F32) := handleSubmitShares api .extended

/-! ## The steps -/

inductive Action (V F32 : Type) where
  | templateMessage (msg : TemplateMessage)
  | visit (d : DownstreamId)
  | finish
  | accept
  | bootstrap (d : DownstreamId)
  | openSender (d : DownstreamId)
  | register (d : DownstreamId)
  | setUpConnection (d : DownstreamId) (requiresStandardJobs requiresCustomWork : Bool)
  | openChannel (kind : ChannelKind) (d : DownstreamId) (msg : OpenRequest F32)
      (allocation : AllocationAnswer) (construction : ConstructionAnswer) (vardiff : Option V)
  | closeChannel (d : DownstreamId) (channelId : ChannelId)
  | updateChannel (d : DownstreamId) (msg : UpdateChannel F32)
  | submitShares (kind : ChannelKind) (d : DownstreamId) (share : SubmitShares)
  | tick
  | advance (now : Nat)
  | disconnected (d : DownstreamId)
  | advanceRemoval (d : DownstreamId)

namespace PoolState

def new : PoolState Ch V := ⟨ChannelManager.new, ∅, ∅, [], .ready, ∅⟩

/-- The connection has been registered at some time. -/
def knows (s : PoolState Ch V) (d : DownstreamId) : Bool :=
  decide (d < s.manager.downstreamIdFactory) && (s.manager.accepting.lookup d).isNone

/-- The loop waits for its next message. -/
def idle (s : PoolState Ch V) : Prop :=
  s.manager.cancelled = false ∧ s.manager.loop = .idle ∧ s.phase = .ready

instance (s : PoolState Ch V) : Decidable s.idle := inferInstanceAs (Decidable (_ ∧ _ ∧ _))

def cancel (s : PoolState Ch V) : PoolState Ch V := { s with manager := { s.manager with cancelled := true } }

/-- A panic ends the loop. -/
def panics (s : PoolState Ch V) : PoolState Ch V := { s with manager := { s.manager with loop := .stopped } }

def putDownstream (s : PoolState Ch V) (d : DownstreamId) (ds : Downstream Ch) : PoolState Ch V :=
  { s with manager := { s.manager with downstreams := s.manager.downstreams.insert d ds } }

/-- A mining message of a connection; the sender of a message that finds no connection any more
    is removed once more. -/
def onMiningMessage (s : PoolState Ch V) (d : DownstreamId) (handler : Downstream Ch → PoolState Ch V) :
    PoolState Ch V :=
  if s.idle then
    match s.manager.downstreams.lookup d with
    | none => if s.knows d then { s with phase := .removing d .downstreams } else s
    | some ds => if ds.setUp then handler ds else s
  else s

/-- The vardiff state is made and put into the map before the connection's entry is let go. -/
def openChannel (ctx : Context Ch V F32) (s : PoolState Ch V) (kind : ChannelKind) (d : DownstreamId)
    (msg : OpenRequest F32) (allocation : AllocationAnswer) (construction : ConstructionAnswer)
    (vardiff : Option V) : PoolState Ch V :=
  s.onMiningMessage d fun ds =>
    let r := handleOpenMiningChannel ctx kind s.manager.lastFutureTemplate
      s.manager.lastNewPrevHash ds msg allocation construction
    let target := openingTarget ctx kind ds.channelIdFactory msg allocation
    let s := s.putDownstream d r.1
    match r.2 with
    | .disconnect => { s with phase := .removing d .downstreams }
    | .shutdown => s.cancel
    | .panic => s.panics
    | .messages ms =>
      let messages := ms.map fun m => RouteMessageTo.downstream d (toMiner target m.2)
      match ms.findSome? fun m => openedChannel m.2 with
      | none => { s with phase := .forwarding messages }
      | some channelId =>
        match vardiff with
        | none => s.cancel
        | some v => { s with
            vardiff := s.vardiff.insert (d, channelId) v, phase := .forwarding messages }

def closeChannel (env : ChannelManager.Env Ch) (s : PoolState Ch V) (d : DownstreamId)
    (channelId : ChannelId) : PoolState Ch V :=
  s.onMiningMessage d fun ds =>
    { s.putDownstream d (ds.handleCloseChannel env channelId) with phase := .closing (d, channelId) }

def updateChannel (api : Mining Ch V F32) (s : PoolState Ch V) (d : DownstreamId)
    (msg : UpdateChannel F32) : PoolState Ch V :=
  s.onMiningMessage d fun ds =>
    match handleUpdateChannel api d msg ds with
    | none => s.panics
    | some (ds', messages) => { s.putDownstream d ds' with phase := .forwarding messages }

def submitShares (api : Mining Ch V F32) (s : PoolState Ch V) (kind : ChannelKind) (d : DownstreamId)
    (share : SubmitShares) : PoolState Ch V :=
  s.onMiningMessage d fun ds =>
    let key : VardiffKey := (d, share.channelId)
    let (ds', outcome, counted) :=
      handleSubmitShares api kind d share (s.vardiff.lookup key).isSome ds
    let s := s.putDownstream d ds'
    let s := if counted then { s with
        vardiff := s.vardiff |> KeyMap.modify key api.incrementSharesSinceLastUpdate }
      else s
    match outcome with
    | .messages messages => { s with phase := .forwarding messages }
    | .disconnect => { s with phase := .removing d .downstreams }
    | .shutdown => s.cancel

/-- A key whose connection is gone is dropped. -/
def visitVardiff (api : Mining Ch V F32) (now : Nat) (s : PoolState Ch V) (key : VardiffKey)
    (keys : List VardiffKey) (messages : List RouteMessageTo) : PoolState Ch V :=
  match s.manager.downstreams.lookup key.1 with
  | none => { s with vardiff := s.vardiff.erase key, phase := .vardiff keys messages }
  | some ds =>
    match s.vardiff.lookup key with
    | none => { s with phase := .vardiff keys messages }
    | some v =>
      let (ds', v', new) := runVardiffOn api now key.1 key.2 ds v
      { s.putDownstream key.1 ds' with
        vardiff := s.vardiff |> KeyMap.modify key fun _ => v'
        phase := .vardiff keys (messages ++ new) }

/-- `RouteMessageTo::forward`: what is for a miner without a sender is dropped. -/
def forward (s : PoolState Ch V) : RouteMessageTo → PoolState Ch V
  | .templateProvider solution => { s with tpSender := s.tpSender ++ [solution] }
  | .downstream d m => { s with
      downstreamSender := s.downstreamSender |> KeyMap.modify d fun sent => sent ++ [m] }

/-- One step of `remove_downstream`, and the one that is left. -/
def removeStep (s : PoolState Ch V) (d : DownstreamId) : RemovalStep → PoolState Ch V × Option RemovalStep
  | .downstreams =>
    ({ s with manager := { s.manager with downstreams := s.manager.downstreams.erase d } },
      some .vardiff)
  | .vardiff => ({ s with vardiff := s.vardiff |> KeyMap.retain fun key _ => key.1 ≠ d },
      some .downstreamSender)
  | .downstreamSender => ({ s with downstreamSender := s.downstreamSender.erase d }, none)

/-- The next step of what the loop is doing; a handler that has begun is finished. -/
def advance (api : Mining Ch V F32) (now : Nat) (s : PoolState Ch V) : PoolState Ch V :=
  match s.phase with
  | .ready => s
  | .vardiff [] messages => { s with phase := .forwarding messages }
  | .vardiff (key :: keys) messages => s.visitVardiff api now key keys messages
  | .closing key => { s with vardiff := s.vardiff.erase key, phase := .ready }
  | .forwarding [] => { s with phase := .ready }
  | .forwarding (m :: messages) => { s.forward m with phase := .forwarding messages }
  | .removing d step =>
    match s.removeStep d step with
    | (s, some step) => { s with phase := .removing d step }
    | (s, none) => { s with phase := .ready }

/-- The task of a connection ends. -/
def disconnected (s : PoolState Ch V) (d : DownstreamId) : PoolState Ch V :=
  if s.knows d ∧ (s.removals.lookup d).isNone then
    { s with removals := s.removals.insert d .downstreams }
  else s

def advanceRemoval (s : PoolState Ch V) (d : DownstreamId) : PoolState Ch V :=
  match s.removals.lookup d with
  | none => s
  | some step =>
    match s.removeStep d step with
    | (s, some step) => { s with removals := s.removals.insert d step }
    | (s, none) => { s with removals := s.removals.erase d }

/-- A step that `Pool/ChannelManager` models. -/
def managerStep (env : ChannelManager.Env Ch) (s : PoolState Ch V)
    (a : ChannelManager.Action) : PoolState Ch V :=
  { s with manager := s.manager.step env a }

def step (ctx : Context Ch V F32) (s : PoolState Ch V) : Action V F32 → PoolState Ch V
  | .templateMessage msg =>
    if s.idle then s.managerStep ctx.env (.templateMessage msg) else s
  | .visit d => s.managerStep ctx.env (.visit d)
  | .finish => s.managerStep ctx.env .finish
  | .accept => s.managerStep ctx.env .accept
  | .bootstrap d => s.managerStep ctx.env (.bootstrap d)
  | .openSender d =>
    match s.manager.accepting.lookup d with
    | some (.bootstrapped _) => { s with downstreamSender := s.downstreamSender |> KeyMap.ensure d [] }
    | _ => s
  | .register d =>
    if (s.downstreamSender.lookup d).isSome then s.managerStep ctx.env (.register d) else s
  | .setUpConnection d std custom => s.managerStep ctx.env (.setUpConnection d std custom)
  | .openChannel kind d msg allocation construction vardiff =>
    s.openChannel ctx kind d msg allocation construction vardiff
  | .closeChannel d channelId => s.closeChannel ctx.env d channelId
  | .updateChannel d msg => s.updateChannel ctx.mining d msg
  | .submitShares kind d share => s.submitShares ctx.mining kind d share
  | .tick => if s.idle then { s with phase := .vardiff s.vardiff.keys [] } else s
  | .advance now => s.advance ctx.mining now
  | .disconnected d => s.disconnected d
  | .advanceRemoval d => s.advanceRemoval d

def after (ctx : Context Ch V F32) (as : List (Action V F32)) : PoolState Ch V :=
  Runs.run (step ctx) new as

end PoolState

/-! ## A pool to try things on -/

/-- A channel and its nominal hashrate. -/
abbrev SampleChannel := ReferenceChannel × Nat

def sampleChannels : ChannelsSv2 SampleChannel where
  newChannel channelId size := (referenceChannels.newChannel channelId size, 0)
  onNewTemplate c t outs := (referenceChannels.onNewTemplate c.1 t outs).map (·, c.2)
  onSetNewPrevHash c p := (referenceChannels.onSetNewPrevHash c.1 p).map (·, c.2)
  onGroupChannelJob c job := (referenceChannels.onGroupChannelJob c.1 job).map (·, c.2)
  getFutureJob c := referenceChannels.getFutureJob c.1
  getActiveJob c := referenceChannels.getActiveJob c.1
  getChainTip c := referenceChannels.getChainTip c.1
  getFullExtranonceSize c := referenceChannels.getFullExtranonceSize c.1
  addChannelId c channelId size := (referenceChannels.addChannelId c.1 channelId size).map (·, c.2)
  removeChannelId c channelId := (referenceChannels.removeChannelId c.1 channelId, c.2)
  isEmpty c := referenceChannels.isEmpty c.1

def sampleTarget (hashrate : Nat) : Target := BitVec.ofNat 256 (2 ^ 255 / (hashrate + 1))

/-- A hashrate that is too low for the maximal target is refused; vardiff doubles the hashrate of
    a channel that has had shares. -/
def sampleMining : Mining SampleChannel Nat Nat where
  newChannel channelId size hashrate _ := (referenceChannels.newChannel channelId size, hashrate)
  getTarget c := sampleTarget c.2
  getNominalHashrate c := c.2
  getSharesPerMinute _ := 6
  getShareAccounting _ := ⟨true, 1, 1, 1⟩
  setStableHashrate c _ := c
  updateChannel c hashrate max :=
    match max with
    | some max =>
      if max < sampleTarget hashrate then (c, some (.invalidMaxTarget "max-target-out-of-range"))
      else ((c.1, hashrate), none)
    | none => ((c.1, hashrate), none)
  validateShare c _ := (c, .ok .valid)
  tryVardiff _ v hashrate _ _ := if v = 0 then (v, some none) else (0, some (some (2 * hashrate)))
  incrementSharesSinceLastUpdate v := v + 1

theorem sampleMining_lawful : sampleMining.Lawful sampleChannels where
  onNewTemplate h := by
    obtain ⟨c, -, rfl⟩ := Option.map_eq_some_iff.mp h
    rfl
  onSetNewPrevHash h := by
    obtain ⟨c, -, rfl⟩ := Option.map_eq_some_iff.mp h
    rfl
  onGroupChannelJob h := by
    obtain ⟨c, -, rfl⟩ := Option.map_eq_some_iff.mp h
    rfl
  setStableHashrate _ _ := rfl
  validateShare _ _ := rfl
  updateChannel {c hashrate max c' e} h := by
    simp only [sampleMining] at h
    split at h
    · split at h
      · cases h
        rfl
      · cases h
    · cases h

/-- No text is an address, and full extranonces have 20 bytes. -/
def sampleContext : Context SampleChannel Nat Nat :=
  ⟨⟨sampleChannels, [0x51], fun _ => none, 20⟩, sampleMining⟩

/-- A miner connects and opens an extended and a standard channel. -/
def sampleOpening : List (Action Nat Nat) :=
  [.templateMessage (.newTemplate ⟨1, true, 4000⟩), .finish,
   .templateMessage (.setNewPrevHash ⟨1, Hash256.allZeros, 0, 0x207fffff⟩), .finish,
   .accept, .bootstrap 1, .openSender 1, .register 1, .setUpConnection 1 false false,
   .openChannel .extended 1 ⟨⟨1, "farm_01"⟩, 10, List.replicate 32 0xff⟩ (.allocated 4) .built (some 0),
   .advance 0, .advance 0, .advance 0, .advance 0,
   .openChannel .standard 1 ⟨⟨2, "farm_01"⟩, 20, List.replicate 32 0xff⟩ (.allocated 20) .built (some 0),
   .advance 0, .advance 0, .advance 0, .advance 0]

/-- A share comes in, vardiff runs, the miner asks for a target in vain, and a channel is closed. -/
def sampleMiningRun : List (Action Nat Nat) :=
  sampleOpening ++
  [.submitShares .extended 1 ⟨2, 1, 1, 7, 0, 0, []⟩, .advance 0, .advance 0,
   .tick, .advance 1, .advance 1, .advance 1, .advance 1, .advance 1,
   .updateChannel 1 ⟨3, 1, List.replicate 32 0⟩, .advance 1, .advance 1, .advance 1]

end Sv2Apps.Pool.Difficulty
