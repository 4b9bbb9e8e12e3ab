/-
  BitcoinCore/TemplateDistribution.lean
  =====================================
  **Template distribution** — `unix_capnp/v31x/template_distribution_protocol`: `BitcoinCoreSv2TDP`
  asks Bitcoin Core for templates, publishes them, keeps them for requests and solutions, and
  destroys them some time after they were superseded.

  The tasks of one `LocalSet` share their `RefCell`s and run in any order, each from one `await` to
  the next: `run` (until the first template is published, and again at shutdown), the monitor of
  incoming messages, the monitor that waits for the next template, and the sweep over retired
  templates.  What a task waits for is its state; an `Answer` lets it go on.  An answer that a task
  does not wait for changes nothing.

  A `select!` takes any branch that is ready.  `run_until_cancelled` looks at the token before it
  begins; once the future is waited for, an answer that has come is taken even if the token has been
  cancelled meanwhile.  The look of a task that has just been spawned is part of its first wait.
  Fetching a template is one wait for three requests, as nothing is read between them.

  Left out: the throttling of `waitNext` (it only chooses the arguments of the request), the archive
  of solutions, and the wrap of the template ids after `2 ^ 64` templates.
-/
import Sv2Apps.BitcoinCore.MempoolMirror
import Mathlib.Data.List.Sort

namespace Sv2Apps.BitcoinCore.TemplateDistribution

open Bitcoin

/-- Nanoseconds. -/
abbrev Instant := Nat

def seconds (n : Nat) : Nat := n * 10 ^ 9

/-- `STALE_TEMPLATE_GRACE_PERIOD_SECS`. -/
def staleTemplateGracePeriod : Nat := seconds 10

def defaultMaxSameTipTemplates : Nat := 17

abbrev TemplateId := Nat

/-! ## Bitcoin Core -/

structure CoinbaseOutputConstraints where
  coinbaseOutputMaxAdditionalSize : UInt32
  coinbaseOutputMaxAdditionalSigops : UInt16
deriving DecidableEq

/-- The options of `createNewBlock`. -/
structure BlockCreateOptions where
  blockReservedWeight : Nat
  coinbaseOutputMaxAdditionalSigops : Nat
  useMempool : Bool
deriving DecidableEq

def weightFactor : Nat := 4

def fixedBlockReservedWeight : Nat := 1168

def minBlockReservedWeight : Nat := 2000

def CoinbaseOutputConstraints.options (c : CoinbaseOutputConstraints) : BlockCreateOptions :=
  let addedOutputsWeight := c.coinbaseOutputMaxAdditionalSize.toNat * weightFactor
  { blockReservedWeight := max (fixedBlockReservedWeight + addedOutputsWeight) minBlockReservedWeight
    coinbaseOutputMaxAdditionalSigops := c.coinbaseOutputMaxAdditionalSigops.toNat
    useMempool := true }

/-- A `BlockTemplate` capability: its number among those that Bitcoin Core handed out, and the
    `createNewBlock` whose options it was built with, directly or through `waitNext`. -/
structure BlockTemplate where
  serial : Nat
  request : Nat
deriving DecidableEq

/-- The coinbase of `coinbase_tx_from_ipc`, with the one input that it has. -/
structure CoinbaseTx where
  version : UInt32
  lockTime : UInt32
  scriptSig : Bytes
  sequence : UInt32
  witness : List Bytes
  output : List TxOut
deriving DecidableEq

/-- What Bitcoin Core answers about a template. -/
structure Fetched where
  header : Header
  coinbaseTx : CoinbaseTx
  blockRewardRemaining : UInt64
  merklePath : List Bytes
deriving DecidableEq

/-! ## Templates -/

structure TemplateData where
  templateId : TemplateId
  header : Header
  coinbaseTx : CoinbaseTx
  blockRewardRemaining : UInt64
  merklePath : List Bytes
  templateIpcClient : BlockTemplate
  retireAt : Option Instant
deriving DecidableEq

structure NewTemplate where
  templateId : TemplateId
  futureTemplate : Bool
  version : UInt32
  coinbaseTxVersion : UInt32
  coinbasePrefix : Bytes
  coinbaseTxInputSequence : UInt32
  coinbaseTxValueRemaining : UInt64
  coinbaseTxOutputsCount : UInt32
  coinbaseTxOutputs : Bytes
  coinbaseTxLocktime : UInt32
  merklePath : List Hash256
deriving DecidableEq

structure SetNewPrevHash where
  templateId : TemplateId
  prevHash : Hash256
  ntimeStart : UInt32
  nBits : UInt32
  target : Nat
deriving DecidableEq

/-- `Target::from` of the compact form. -/
def targetOfCompact (bits : UInt32) : Nat :=
  let unshiftedExpt := bits.toNat / 2 ^ 24
  let mantissa := bits.toNat % 2 ^ 24
  let (mant, expt) :=
    if unshiftedExpt ≤ 3 then (mantissa / 2 ^ (8 * (3 - unshiftedExpt)), 0)
    else (mantissa, 8 * (unshiftedExpt - 3))
  if mant > 0x7fffff then 0 else mant * 2 ^ expt % 2 ^ 256

/-- `try_into` of an `i32` to a `u32`. -/
def nonNegative (v : UInt32) : Option UInt32 := if v.toNat < 2 ^ 31 then some v else none

/-- `try_into` of bytes to a byte string of at most `n` bytes. -/
def atMost (n : Nat) (bytes : Bytes) : Option Bytes := if bytes.length ≤ n then some bytes else none

def toU256 (bytes : Bytes) : Option Hash256 := if h : bytes.length = 32 then some ⟨bytes, h⟩ else none

namespace TemplateData

def ofFetched (id : TemplateId) (c : BlockTemplate) (f : Fetched) : TemplateData :=
  ⟨id, f.header, f.coinbaseTx, f.blockRewardRemaining, f.merklePath, c, none⟩

def prevHash (t : TemplateData) : Hash256 := t.header.prevBlockhash

/-- A template already retired keeps the deadline it was given. -/
def retire (retireAt : Instant) (t : TemplateData) : TemplateData :=
  if t.retireAt.isSome then t else { t with retireAt := some retireAt }

def getMerklePath (t : TemplateData) : Option (List Hash256) :=
  match t.merklePath.mapM toU256 with
  | none => none
  | some path => if path.length ≤ 255 then some path else none

def getNewTemplateMessage (t : TemplateData) (futureTemplate : Bool) : Option NewTemplate := do
  let version ← nonNegative t.header.version
  let coinbaseTxVersion ← nonNegative t.coinbaseTx.version
  let coinbasePrefix ← atMost 255 t.coinbaseTx.scriptSig
  let coinbaseTxOutputs ← atMost 65535 (t.coinbaseTx.output.flatMap TxOut.encode)
  let merklePath ← t.getMerklePath
  some
    { templateId := t.templateId
      futureTemplate := futureTemplate
      version := version
      coinbaseTxVersion := coinbaseTxVersion
      coinbasePrefix := coinbasePrefix
      coinbaseTxInputSequence := t.coinbaseTx.sequence
      coinbaseTxValueRemaining := t.blockRewardRemaining
      coinbaseTxOutputsCount := UInt32.ofNat t.coinbaseTx.output.length
      coinbaseTxOutputs := coinbaseTxOutputs
      coinbaseTxLocktime := t.coinbaseTx.lockTime
      merklePath := merklePath }

def getSetNewPrevHashMessage (t : TemplateData) : SetNewPrevHash where
  templateId := t.templateId
  prevHash := t.prevHash
  ntimeStart := t.header.time
  nBits := t.header.bits
  target := targetOfCompact t.header.bits

end TemplateData

/-- A `NewTemplate` and the template that it was made from. -/
structure Publication where
  template : TemplateData
  futureTemplate : Bool
  newTemplate : NewTemplate
  made : template.getNewTemplateMessage futureTemplate = some newTemplate

/-! ## Messages -/

inductive Incoming where
  | coinbaseOutputConstraints (c : CoinbaseOutputConstraints)
  | requestTransactionData (templateId : TemplateId)
  | submitSolution (templateId : TemplateId)
deriving DecidableEq

/-- `ERROR_CODE_REQUEST_TRANSACTION_DATA_…`. -/
inductive RequestTransactionDataErrorCode where
  | templateIdNotFound
  | staleTemplateId
deriving DecidableEq

inductive Response where
  | requestTransactionDataSuccess (templateId : TemplateId) (transactionList : List Bytes)
  | requestTransactionDataError (templateId : TemplateId) (code : RequestTransactionDataErrorCode)
deriving DecidableEq

inductive Outgoing where
  | newTemplate (p : Publication)
  | setNewPrevHash (m : SetNewPrevHash)
  | response (r : Response)

/-! ## Tasks -/

/-- Publishing a template: the request for its data, then the two messages. -/
inductive Work where
  | fetch (c : BlockTemplate) (id : TemplateId)
  | sendNewTemplate (c : BlockTemplate) (p : Publication) (sendSetNewPrevHash : Bool)
  | sendSetNewPrevHash (c : BlockTemplate) (p : Publication)

/-- `bootstrap_template_ipc_client_from_coinbase_output_constraints`. -/
inductive Bootstrap where
  | createNewBlock (request : Nat)
  | interruptRequest
  | work (w : Work)

abbrev TaskId := Nat

inductive RunTask where
  | awaitingConstraints
  | bootstrapping (b : Bootstrap)
  /-- Blocked until the global token is cancelled. -/
  | blocked
  | joining (monitor : TaskId)
  | exited

/-- The task of `monitor_incoming_messages`. -/
inductive IncomingTask where
  | notSpawned
  | idle
  | joining (monitor : TaskId) (c : CoinbaseOutputConstraints)
  | bootstrapping (b : Bootstrap)
  | fetchingTxData (t : TemplateData)
  | responding (r : Response)
  | submitting (t : TemplateData)
  | exited

inductive MonitorState where
  | starting
  /-- `waitNext` on the template. -/
  | waiting (c : BlockTemplate)
  | interrupting
  | work (w : Work)

/-- A task of `monitor_ipc_templates`, with its clone of the cancellation token. -/
structure Monitor where
  id : TaskId
  token : Nat
  state : MonitorState

/-- The task of `monitor_template_retirement`. -/
inductive RetirementTask where
  | notSpawned
  | starting
  | sleeping
  /-- A template is being destroyed; these come next. -/
  | destroying (due : List TemplateData)
  | exited

/-- What the tasks share, the messages sent, and what Bitcoin Core has handed out and destroyed. -/
structure Shared where
  maxSameTipTemplates : Nat
  now : Instant
  globalCancelled : Bool
  cancelledTokens : List Nat
  templateIdFactory : Nat
  currentTemplateIpcClient : Option BlockTemplate
  currentPrevHash : Option Hash256
  retainedTemplates : KeyMap TemplateId TemplateData
  futureTemplate : Option TemplateData
  outgoing : List Outgoing
  /-- The capabilities handed out. -/
  issued : Nat
  createNewBlockRequests : List BlockCreateOptions
  /-- The templates whose destruction was requested, with the time. -/
  destroyed : List (Instant × TemplateData)
  /-- Every template stored so far; no task reads this or what follows. -/
  published : List Publication
  /-- Non-future templates stored since all templates were retired, newest first. -/
  refreshes : List TemplateId
  /-- Since when templates are retired whose successors have not been announced. -/
  superseding : Option Instant

namespace Shared

/-- A caller asking for no particular retention gets the default, and a zero is read the same way. -/
def retention : Option Nat → Nat
  | none | some 0 => defaultMaxSameTipTemplates
  | some requested => requested

def new (maxSameTipTemplates : Option Nat) : Shared where
  maxSameTipTemplates := retention maxSameTipTemplates
  now := 0
  globalCancelled := false
  cancelledTokens := []
  templateIdFactory := 0
  currentTemplateIpcClient := none
  currentPrevHash := none
  retainedTemplates := ∅
  futureTemplate := none
  outgoing := []
  issued := 0
  createNewBlockRequests := []
  destroyed := []
  published := []
  refreshes := []
  superseding := none

/-! ### Templates in store -/

def templateDataFor (d : Shared) (templateId : TemplateId) : Option TemplateData :=
  (d.futureTemplate.filter (·.templateId = templateId)).or (d.retainedTemplates.lookup templateId)

def storeTemplateData (d : Shared) (t : TemplateData) (futureTemplate : Bool) : Shared :=
  if futureTemplate then { d with futureTemplate := some t }
  else { d with retainedTemplates := d.retainedTemplates.insert t.templateId t }

/-- The retained templates without a deadline, oldest first. -/
def liveTemplateIds (d : Shared) : List TemplateId :=
  ((d.retainedTemplates.entries.filter fun e => e.2.retireAt.isNone).map (·.1)).insertionSort (· ≤ ·)

/-- A retention of zero, which `new` never hands on, would be an index out of range. -/
def retireTemplatesBeyondCap (d : Shared) : Shared :=
  let retireAt := d.now + staleTemplateGracePeriod
  let live := d.liveTemplateIds
  if live.length ≤ d.maxSameTipTemplates then d
  else match live[live.length - d.maxSameTipTemplates]? with
    | none => d
    | some oldestKept =>
      { d with
        retainedTemplates := d.retainedTemplates |> KeyMap.mapValues fun id t =>
          if id < oldestKept then t.retire retireAt else t }

/-- A period begins in which templates are retired that a channel may still use. -/
def supersede (d : Shared) : Shared := { d with superseding := d.superseding.or (some d.now) }

/-- The future template joins the others: only retained templates are ever swept. -/
def retireAllTemplates (d : Shared) : Shared :=
  let retireAt := d.now + staleTemplateGracePeriod
  let retained := d.retainedTemplates |> KeyMap.mapValues fun _ t => t.retire retireAt
  { d.supersede with
    retainedTemplates := match d.futureTemplate with
      | none => retained
      | some t => retained.insert t.templateId (t.retire retireAt)
    futureTemplate := none
    refreshes := [] }

/-! ### Publishing -/

/-- `publish_template` up to the first message. -/
def publishTemplate (d : Shared) (t : TemplateData) (futureTemplate sendSetNewPrevHash : Bool) :
    Option (Shared × Publication) :=
  match h : t.getNewTemplateMessage futureTemplate with
  | none => none
  | some m =>
    let p : Publication := ⟨t, futureTemplate, m, h⟩
    let d := (d.storeTemplateData t futureTemplate).retireTemplatesBeyondCap
    let d := { d.supersede with
      published := d.published ++ [p]
      refreshes := if futureTemplate then d.refreshes else t.templateId :: d.refreshes }
    some (if sendSetNewPrevHash then { d with currentPrevHash := some t.prevHash } else d, p)

def send (d : Shared) (m : Outgoing) : Shared := { d with outgoing := d.outgoing ++ [m] }

/-- The messages are sent; the next `waitNext` is on this template. -/
def finish (d : Shared) (c : BlockTemplate) : Shared :=
  { d with
    currentTemplateIpcClient := some c
    superseding := if d.globalCancelled then d.superseding else none }

def cancel (d : Shared) : Shared := { d with globalCancelled := true }

/-- Bitcoin Core hands out a capability, whose data is requested unless the token is cancelled. -/
def beginFetch (d : Shared) (request : Nat) : Shared × Option Work :=
  let c : BlockTemplate := ⟨d.issued, request⟩
  let d := { d with issued := d.issued + 1 }
  if d.globalCancelled then (d, none)
  else ({ d with templateIdFactory := d.templateIdFactory + 1 }, some (.fetch c d.templateIdFactory))

end Shared

/-! ## Waiting for a template -/

inductive Answer where
  | recv (m : Incoming)
  /-- A cancelled token is seen. -/
  | cancelled
  | failed
  | done
  | timedOut
  | blockTemplate
  | fetched (f : Fetched)
  | txData (transactionList : List Bytes)
deriving DecidableEq

/-- What becomes of a function that waits: it waits for something else, returns, or fails. -/
inductive Progress (ω : Type) where
  | next (w : ω)
  | finished (c : BlockTemplate)
  | failed

/-- How a fetched template is published: the state to go on from if it cannot be, whether it is a
    future template, and whether its prev-hash is announced. -/
structure Plan where
  shared : Shared
  futureTemplate : Bool
  sendSetNewPrevHash : Bool

/-- The bootstrap always announces a prev-hash. -/
def planFirst (d : Shared) (_t : TemplateData) : Option Plan := some ⟨d, true, true⟩

/-- The monitor compares the prev-hash with the current one. -/
def planNext (d : Shared) (t : TemplateData) : Option Plan :=
  match d.currentPrevHash with
  | none => none
  | some currentPrevHash =>
    if t.prevHash ≠ currentPrevHash then some ⟨d.retireAllTemplates, true, true⟩
    else some ⟨d, false, false⟩

namespace Shared

/-- One wait of `fetch_template_data` and `publish_template`; `none` if it does not wait for `a`. -/
def stepWork (plan : Shared → TemplateData → Option Plan) (d : Shared) (w : Work) (a : Answer) :
    Option (Shared × Progress Work) :=
  match w, a with
  | .fetch _ _, .cancelled => if d.globalCancelled then some (d, .failed) else none
  | .fetch _ _, .failed => some (d, .failed)
  | .fetch c id, .fetched f =>
    let t : TemplateData := .ofFetched id c f
    match plan d t with
    | none => some (d, .failed)
    | some q => match q.shared.publishTemplate t q.futureTemplate q.sendSetNewPrevHash with
      | none => some (q.shared, .failed)
      | some (d, p) => some (d, .next (.sendNewTemplate c p q.sendSetNewPrevHash))
  | .sendNewTemplate _ _ _, .failed => some (d, .failed)
  | .sendNewTemplate c p sendSetNewPrevHash, .done =>
    let d := d.send (.newTemplate p)
    some (if sendSetNewPrevHash then (d, .next (.sendSetNewPrevHash c p))
      else (d.finish c, .finished c))
  | .sendSetNewPrevHash _ _, .failed => some (d, .failed)
  | .sendSetNewPrevHash c p, .done =>
    some ((d.send (.setNewPrevHash p.template.getSetNewPrevHashMessage)).finish c, .finished c)
  | _, _ => none

def stepBootstrap (d : Shared) (b : Bootstrap) (a : Answer) : Option (Shared × Progress Bootstrap) :=
  match b, a with
  | .createNewBlock _, .failed => some (d, .failed)
  | .createNewBlock _, .cancelled =>
    if d.globalCancelled then some (d, .next .interruptRequest) else none
  | .createNewBlock request, .blockTemplate =>
    match d.beginFetch request with
    | (d, none) => some (d, .failed)
    | (d, some w) => some (d, .next (.work w))
  | .interruptRequest, .done => some (d, .failed)
  | .work w, a =>
    match d.stepWork planFirst w a with
    | none => none
    | some (d, .next w) => some (d, .next (.work w))
    | some (d, .finished c) => some (d, .finished c)
    | some (d, .failed) => some (d, .failed)
  | _, _ => none

/-- `createNewBlock` is sent. -/
def beginBootstrap (d : Shared) (c : CoinbaseOutputConstraints) : Shared × Bootstrap :=
  ({ d with createNewBlockRequests := d.createNewBlockRequests ++ [c.options] },
    .createNewBlock d.createNewBlockRequests.length)

/-- What a monitor does next; it ends with `none`. -/
def stepMonitor (d : Shared) (token : Nat) (st : MonitorState) (a : Answer) :
    Shared × Option MonitorState :=
  match st, a with
  | .starting, .cancelled => (d, if d.globalCancelled then none else some .starting)
  | .starting, .failed => (d.cancel, none)
  | .starting, .done =>
    match d.currentTemplateIpcClient with
    | none => (d.cancel, none)
    | some c => (d, some (.waiting c))
  | .waiting c, .cancelled =>
    (d, some (if d.globalCancelled || decide (token ∈ d.cancelledTokens) then .interrupting
      else .waiting c))
  | .waiting _, .failed => (d.cancel, none)
  | .waiting c, .blockTemplate =>
    match d.beginFetch c.request with
    | (d, none) => (d, none)
    | (d, some w) => (d, some (.work w))
  | .interrupting, .done => (d, none)
  | .work w, a =>
    match d.stepWork planNext w a with
    | none => (d, some (.work w))
    | some (d, .next w) => (d, some (.work w))
    | some (d, .finished c) => (d, some (.waiting c))
    | some (d, .failed) => (d.cancel, none)
  | st, _ => (d, some st)

/-- The answer that `handle_request_transaction_data` decides on. -/
def requestedTemplate (d : Shared) (templateId : TemplateId) :
    Except RequestTransactionDataErrorCode TemplateData :=
  match d.templateDataFor templateId with
  | none => .error .templateIdNotFound
  | some t => if t.retireAt.isSome then .error .staleTemplateId else .ok t

def isDue (now : Instant) (t : TemplateData) : Bool := t.retireAt.any fun retireAt => retireAt ≤ now

/-- `extract_if` of the sweep. -/
def extractDue (d : Shared) : Shared × List TemplateData :=
  ({ d with
      retainedTemplates := d.retainedTemplates |> KeyMap.retain fun _ t => !isDue d.now t },
    (d.retainedTemplates.entries.filter fun e => isDue d.now e.2).map (·.2))

end Shared

/-! ## The system -/

structure State where
  shared : Shared
  monitorHandle : Option TaskId
  /-- The cancellation tokens are numbered; this is the one of the incoming messages. -/
  token : Nat
  run : RunTask
  incoming : IncomingTask
  monitors : List Monitor
  nextTask : TaskId
  retirement : RetirementTask

namespace State

def new (maxSameTipTemplates : Option Nat) : State where
  shared := .new maxSameTipTemplates
  monitorHandle := none
  token := 0
  run := .awaitingConstraints
  incoming := .notSpawned
  monitors := []
  nextTask := 0
  retirement := .notSpawned

/-- `monitor_ipc_templates`. -/
def monitorIpcTemplates (s : State) : State :=
  { s with
    monitors := s.monitors ++ [⟨s.nextTask, s.token, .starting⟩]
    nextTask := s.nextTask + 1
    monitorHandle := some s.nextTask }

/-- The task has ended, so its handle is ready. -/
def ended (s : State) (id : TaskId) : Bool := s.monitors.all fun m => m.id ≠ id

def stepRun (s : State) (a : Answer) : State :=
  match s.run, a with
  | .awaitingConstraints, .cancelled =>
    if s.shared.globalCancelled then { s with run := .exited } else s
  | .awaitingConstraints, .recv (.coinbaseOutputConstraints c) =>
    let (d, b) := s.shared.beginBootstrap c
    { s with shared := d, run := .bootstrapping b }
  | .bootstrapping b, a =>
    match s.shared.stepBootstrap b a with
    | none => s
    | some (d, .next b) => { s with shared := d, run := .bootstrapping b }
    | some (d, .finished _) =>
      { s with shared := d, run := .blocked, incoming := .idle, retirement := .starting }
        |>.monitorIpcTemplates
    | some (d, .failed) => { s with shared := d.cancel, run := .exited }
  | .blocked, .cancelled =>
    if s.shared.globalCancelled then
      match s.monitorHandle with
      | none => { s with run := .exited }
      | some id => { s with run := .joining id, monitorHandle := none }
    else s
  | .joining id, .done => if s.ended id then { s with run := .exited } else s
  | _, _ => s

/-- `handle_coinbase_output_constraints` once the old monitor has ended. -/
def rotate (s : State) (c : CoinbaseOutputConstraints) : State :=
  let (d, b) := s.shared.retireAllTemplates.beginBootstrap c
  { s with shared := d, token := s.token + 1, incoming := .bootstrapping b }

def handleCoinbaseOutputConstraints (s : State) (c : CoinbaseOutputConstraints) : State :=
  let d := { s.shared with cancelledTokens := s.token :: s.shared.cancelledTokens }
  match s.monitorHandle with
  | none => { s with shared := d }.rotate c
  | some id => { s with shared := d, monitorHandle := none, incoming := .joining id c }

/-- A handler under `run_until_cancelled` begins with a look at the token. -/
def handleMessage (s : State) : Incoming → State
  | .coinbaseOutputConstraints c => s.handleCoinbaseOutputConstraints c
  | .requestTransactionData templateId =>
    if s.shared.globalCancelled then { s with incoming := .exited }
    else match s.shared.requestedTemplate templateId with
      | .error code =>
        { s with incoming := .responding (.requestTransactionDataError templateId code) }
      | .ok t => { s with incoming := .fetchingTxData t }
  | .submitSolution templateId =>
    if s.shared.globalCancelled then { s with incoming := .exited }
    else match s.shared.templateDataFor templateId with
      -- `TemplateNotFound` is only logged
      | none => s
      | some t => { s with incoming := .submitting t }

def stepIncoming (s : State) (a : Answer) : State :=
  match s.incoming, a with
  | .idle, .cancelled => if s.shared.globalCancelled then { s with incoming := .exited } else s
  | .idle, .recv m => s.handleMessage m
  | .joining id c, .done => if s.ended id then s.rotate c else s
  | .bootstrapping b, a =>
    match s.shared.stepBootstrap b a with
    | none => s
    | some (d, .next b) => { s with shared := d, incoming := .bootstrapping b }
    | some (d, .finished _) => { s with shared := d, incoming := .idle }.monitorIpcTemplates
    | some (d, .failed) => { s with shared := d.cancel, incoming := .exited }
  | .fetchingTxData _, .cancelled =>
    if s.shared.globalCancelled then { s with incoming := .exited } else s
  | .fetchingTxData _, .failed => { s with shared := s.shared.cancel, incoming := .exited }
  | .fetchingTxData t, .txData txs =>
    { s with incoming := .responding (.requestTransactionDataSuccess t.templateId txs) }
  | .responding _, .cancelled =>
    if s.shared.globalCancelled then { s with incoming := .exited } else s
  | .responding _, .failed => { s with shared := s.shared.cancel, incoming := .exited }
  | .responding r, .done => { s with shared := s.shared.send (.response r), incoming := .idle }
  | .submitting _, .cancelled =>
    if s.shared.globalCancelled then { s with incoming := .exited } else s
  -- so is every other error of a solution
  | .submitting _, .failed => { s with incoming := .idle }
  | .submitting _, .done => { s with incoming := .idle }
  | _, _ => s

def setMonitor (s : State) (id : TaskId) (st : MonitorState) : State :=
  { s with monitors := s.monitors.map fun m => if m.id = id then { m with state := st } else m }

def endMonitor (s : State) (id : TaskId) : State :=
  { s with monitors := s.monitors.filter fun m => m.id ≠ id }

def stepMonitor (s : State) (id : TaskId) (a : Answer) : State :=
  match s.monitors.find? (·.id = id) with
  | none => s
  | some m => match s.shared.stepMonitor m.token m.state a with
    | (d, some st) => { s with shared := d }.setMonitor id st
    | (d, none) => { s with shared := d }.endMonitor id

/-- The request that destroys the next template is sent. -/
def destroyNext (s : State) : List TemplateData → State
  | [] => { s with retirement := .sleeping }
  | t :: due =>
    if s.shared.globalCancelled then { s with retirement := .exited }
    else { s with
      shared := { s.shared with destroyed := s.shared.destroyed ++ [(s.shared.now, t)] }
      retirement := .destroying due }

def stepRetirement (s : State) (a : Answer) : State :=
  match s.retirement, a with
  | .starting, .cancelled => if s.shared.globalCancelled then { s with retirement := .exited } else s
  | .starting, .failed => { s with shared := s.shared.cancel, retirement := .exited }
  | .starting, .done => { s with retirement := .sleeping }
  | .sleeping, .cancelled => if s.shared.globalCancelled then { s with retirement := .exited } else s
  | .sleeping, .done =>
    let (d, due) := s.shared.extractDue
    { s with shared := d }.destroyNext due
  | .destroying _, .cancelled =>
    if s.shared.globalCancelled then { s with retirement := .exited } else s
  | .destroying _, .failed => { s with shared := s.shared.cancel, retirement := .exited }
  | .destroying due, .done => s.destroyNext due
  | _, _ => s

inductive Event where
  | tick (elapsed : Nat)
  /-- The global token is cancelled from outside. -/
  | cancel
  | run (a : Answer)
  | incoming (a : Answer)
  | monitor (id : TaskId) (a : Answer)
  | retirement (a : Answer)
deriving DecidableEq

def step (s : State) : Event → State
  | .tick elapsed => { s with shared := { s.shared with now := s.shared.now + elapsed } }
  | .cancel => { s with shared := s.shared.cancel }
  | .run a => s.stepRun a
  | .incoming a => s.stepIncoming a
  | .monitor id a => s.stepMonitor id a
  | .retirement a => s.stepRetirement a

/-- The state after `es`. -/
def after (maxSameTipTemplates : Option Nat) (es : List Event) : State :=
  Runs.run step (new maxSameTipTemplates) es

end State

end Sv2Apps.BitcoinCore.TemplateDistribution
