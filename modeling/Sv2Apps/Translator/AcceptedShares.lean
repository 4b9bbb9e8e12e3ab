/-
  Translator/AcceptedShares.lean
  ==============================
  **Shares that are credited twice** — the jobs of `sv1/sv1_server/mod.rs` on their way to the
  miners (broadcasts, bootstraps of late joiners, keepalives), and `handle_submit` of
  `sv1_server/downstream_message_handler.rs`, both modes.

  The server task handles a message of the channel manager, a request of a miner or a tick of the
  keepalive loop at a time; what it does to one miner's data is one access.  The event tasks of the
  miners run beside it.  Which keepalives are due, and whether the shared job is old enough for a
  new one, is left to the action.

  `merkle_root_from_path` and the hash of a header are not part of this repository; they are in the
  parameter `HeaderHashing`.  `tip` and `credited` record, for each miner, the prev-hash of the job
  that was delivered last and the shares that were accepted since it changed; no step reads them.
-/
import Sv2Apps.Translator.Downstream
import Sv2Apps.Lib.RecentWindow
import Sv2Apps.Lib.Runs
import Mathlib.Data.Finset.Erase
import Mathlib.Data.Finset.Insert

namespace Sv2Apps.Translator

open Bitcoin ByteCodec RecentWindow

/-! ## Shares -/

/-- `mining.submit`. -/
structure Submit where
  jobId : Sv1JobId
  extraNonce2 : Bytes
  time : UInt32
  nonce : UInt32
  versionBits : Option UInt32
deriving DecidableEq

inductive SubmitError where
  | other
  | jobNotFound
  | lowDifficultyShare
  | duplicateShare
  /-- The miner is not registered: an error of the server, not an answer. -/
  | downstreamNotPresent
deriving DecidableEq

/-- The version of a job, and the block hash of its header for an extranonce, a version, a time and
    a nonce; there is none without a merkle root. -/
structure HeaderHashing where
  version : NewExtendedMiningJob → UInt32
  blockHash : Notify → Bytes → UInt32 → UInt32 → UInt32 → Option Hash256

/-- The bits that may be rolled where nothing else was negotiated. -/
def sv1VersionRollingMask : UInt32 := 0x1fffe000

/-- `validate_sv1_share`. -/
def validateSv1Share (hashing : HeaderHashing) (share : Submit) (target : Target)
    (extranonce1 : Bytes) (mask : Option UInt32) (job : Notify) : Except SubmitError Hash256 :=
  let jobVersion := hashing.version job.job
  let shareVersion := share.versionBits.getD jobVersion
  let mask := mask.getD sv1VersionRollingMask
  let version := (jobVersion &&& ~~~mask) ||| (shareVersion &&& mask)
  match hashing.blockHash job (extranonce1 ++ share.extraNonce2) version share.time share.nonce with
  | none => .error .other
  | some hash => if ofLe hash.val < target then .ok hash else .error .lowDifficultyShare

structure ShareConfig where
  /-- `mode.is_aggregated()`. -/
  aggregated : Bool
  maxPastJobs : Option Nat
  jobKeepaliveIntervalSecs : UInt16
  firstTarget : Target
  buildNotify : NotifyBuilder
  hashing : HeaderHashing
  /-- `MAX_SEEN_SHARES` of `channels_sv2`. -/
  maxSeenShares : Nat

/-- `Sv1AcceptedShareCache::insert_if_new`. -/
def insertIfNew (maxSeenShares : Nat) (hashes : List Hash256) (hash : Hash256) :
    Option (List Hash256) :=
  if hash ∈ hashes then none else some (pushBounded maxSeenShares hashes hash)

/-! ## The server -/

structure ShareServer where
  downstreamIdFactory : Nat
  downstreams : Finset DownstreamId
  sv1ServerToDownstreamSender : Finset DownstreamId
  miners : DownstreamId → Downstream
  channelId : DownstreamId → Option ChannelId
  versionRollingMask : DownstreamId → Option UInt32
  channelIdToDownstreamId : KeyMap ChannelId DownstreamId
  prevhashes : KeyMap ChannelId SetNewPrevHash
  validSv1Jobs : KeyMap ChannelId (Sv1JobStore StoredSv1Job)
  keepaliveJobIdCounter : UInt32
  tip : DownstreamId → Option Hash256
  credited : DownstreamId → List Hash256

namespace ShareServer

section Steps

variable (cfg : ShareConfig)

def start : ShareServer where
  downstreamIdFactory := 1
  downstreams := ∅
  sv1ServerToDownstreamSender := ∅
  miners := fun _ => .new cfg.firstTarget cfg.maxPastJobs
  channelId := fun _ => none
  versionRollingMask := fun _ => none
  channelIdToDownstreamId := ∅
  prevhashes := ∅
  validSv1Jobs := ∅
  keepaliveJobIdCounter := 0
  tip := fun _ => none
  credited := fun _ => []

def modifyMiner (s : ShareServer) (d : DownstreamId) (f : Downstream → Downstream) : ShareServer :=
  { s with miners := Function.update s.miners d (f (s.miners d)) }

/-- A miner connects. -/
def accept (s : ShareServer) : ShareServer :=
  { s with
    downstreamIdFactory := s.downstreamIdFactory + 1
    sv1ServerToDownstreamSender := insert s.downstreamIdFactory s.sv1ServerToDownstreamSender
    downstreams := insert s.downstreamIdFactory s.downstreams }

/-- `OpenExtendedMiningChannelSuccess` for a request of `d`. -/
def openSuccess (s : ShareServer) (d : DownstreamId) (c : ChannelId) (extranonce1 : Bytes)
    (extranonce2Len : Nat) : ShareServer :=
  if d ∈ s.downstreams then
    { s.modifyMiner d fun m =>
        { m with extranonce1 := extranonce1, extranonce2Len := extranonce2Len } with
      channelId := Function.update s.channelId d (some c)
      channelIdToDownstreamId := s.channelIdToDownstreamId.insert c d }
  else s

/-- `disconnect_downstream_for_upstream_close`. -/
def closeChannel (s : ShareServer) (c : ChannelId) : ShareServer :=
  match s.channelIdToDownstreamId.lookup c with
  | none => s
  | some d =>
    let s := { s with channelIdToDownstreamId := s.channelIdToDownstreamId.erase c }
    if d ∈ s.downstreams then
      { s.modifyMiner d fun m => { m with disconnected := true } with
        channelId :=
          if s.channelId d = some c then Function.update s.channelId d none else s.channelId }
    else s

/-- The server queues a job, for one miner or for all that have connected. -/
def sendToChannel (s : ShareServer) (c : ChannelId) (notify : Notify) : ShareServer :=
  if c = aggregatedChannelId then
    { s with miners := fun d =>
        if d ∈ s.sv1ServerToDownstreamSender then (s.miners d).queue (.notify notify)
        else s.miners d }
  else
    match s.channelIdToDownstreamId.lookup c with
    | none => s
    | some d =>
      if d ∈ s.sv1ServerToDownstreamSender then s.modifyMiner d (·.queue (.notify notify)) else s

/-- `resolve_channel_id`. -/
def resolveChannelId (c : ChannelId) : ChannelId :=
  if cfg.aggregated then aggregatedChannelId else c

/-- `get_last_job`. -/
def getLastJob (s : ShareServer) (c : ChannelId) : Option StoredSv1Job :=
  (s.validSv1Jobs.lookup (resolveChannelId cfg c)).bind (·.active)

/-- The history of jobs goes on. -/
def storeNotify (s : ShareServer) (c : ChannelId) (notify : Notify) (reset : Bool) : ShareServer :=
  let jobs := (s.validSv1Jobs.lookup c).getD (.new cfg.maxPastJobs)
  { s with validSv1Jobs :=
      s.validSv1Jobs.insert c (jobs.activate notify.jobId (.upstream notify) reset) }

/-- `NewExtendedMiningJob`. -/
def newExtendedMiningJob (s : ShareServer) (m : NewExtendedMiningJob) : ShareServer :=
  match s.prevhashes.lookup (resolveChannelId cfg m.channelId) with
  | none => s
  | some prevhash =>
    let cleanJobs := decide (m.jobId = prevhash.jobId)
    let notify := cfg.buildNotify prevhash m cleanJobs
    let bootstrap := cfg.aggregated && decide (m.channelId ≠ aggregatedChannelId)
    match if bootstrap then getLastJob cfg s aggregatedChannelId else none with
    | some current =>
      if current.notify.jobId.original = m.jobId then
        s.sendToChannel m.channelId { current.notify with cleanJobs := true }
      else s
    | none =>
      let reset := cleanJobs && (!cfg.aggregated || decide (m.channelId = aggregatedChannelId))
      (storeNotify cfg s (resolveChannelId cfg m.channelId) notify reset).sendToChannel
        m.channelId notify

/-- `create_keepalive_job`. -/
def createKeepaliveJob (s : ShareServer) (c : ChannelId) : ShareServer × Option Notify :=
  match (getLastJob cfg s c).bind fun last =>
      keepaliveJob last cfg.jobKeepaliveIntervalSecs s.keepaliveJobIdCounter with
  | none => (s, none)
  | some job =>
    ({ s with
      keepaliveJobIdCounter := s.keepaliveJobIdCounter + 1
      validSv1Jobs := s.validSv1Jobs.modify (resolveChannelId cfg c) fun jobs =>
        jobs.activate job.notify.jobId job false }, some job.notify)

def sendKeepalive (s : ShareServer) (d : DownstreamId) (notify : Notify) : ShareServer :=
  if d ∈ s.sv1ServerToDownstreamSender then s.modifyMiner d (·.queue (.notify notify)) else s

/-- A miner whose keepalive is due by the clock gets one when it has a channel and is set up. -/
def keepaliveTarget (s : ShareServer) (d : DownstreamId) : Option (DownstreamId × ChannelId) :=
  if d ∈ s.downstreams ∧ (s.miners d).sessionState.isReady then (s.channelId d).map fun c => (d, c)
  else none

/-- `send_keepalive_jobs` for the miners that are due; `mutable`: the interval of the shared job is
    over. -/
def sendKeepaliveJobs (s : ShareServer) (due : List DownstreamId) (mutable : Bool) : ShareServer :=
  let targets := due.filterMap s.keepaliveTarget
  if targets = [] then s
  else if cfg.aggregated then
    let (s, notify) :=
      if mutable then createKeepaliveJob cfg s aggregatedChannelId
      else (s, ((getLastJob cfg s aggregatedChannelId).map (·.notify)).filter
        fun notify => notify.jobId.isKeepalive)
    match notify with
    | none => s
    | some notify => targets.foldl (fun s target => s.sendKeepalive target.1 notify) s
  else
    targets.foldl (fun s target =>
      match createKeepaliveJob cfg s target.2 with
      | (s, none) => s
      | (s, some notify) => s.sendKeepalive target.1 notify) s

/-- `handle_submit`, up to the check for duplicates. -/
def shareHash (s : ShareServer) (d : DownstreamId) (share : Submit) : Except SubmitError Hash256 :=
  if d ∈ s.downstreams then
    match s.channelId d with
    | none => .error .other
    | some c =>
      match (s.validSv1Jobs.lookup (resolveChannelId cfg c)).bind (·.get share.jobId) with
      | none => .error .jobNotFound
      | some job =>
        match (s.miners d).jobValidationContexts.get share.jobId with
        | none => .error .jobNotFound
        | some context =>
          validateSv1Share cfg.hashing share context.target context.extranonce
            (s.versionRollingMask d) job.notify
  else .error .downstreamNotPresent

/-- `handle_submit`. -/
def handleSubmit (s : ShareServer) (d : DownstreamId) (share : Submit) :
    Except SubmitError ShareServer :=
  match shareHash cfg s d share with
  | .error e => .error e
  | .ok hash =>
    match insertIfNew cfg.maxSeenShares (s.miners d).acceptedShareHashes hash with
    | none => .error .duplicateShare
    | some hashes =>
      .ok { s.modifyMiner d fun m => { m with acceptedShareHashes := hashes } with
        credited := Function.update s.credited d (s.credited d ++ [hash]) }

/-- A setup request is processed. -/
def respond (s : ShareServer) (d : DownstreamId) (request : Sv1SetupRequest) : ShareServer :=
  if d ∈ s.downstreams ∧ (s.channelId d).isSome then s.modifyMiner d (·.respond request) else s

/-- `handle_upstream_extranonce_change`. -/
def changeExtranonce (s : ShareServer) (c : ChannelId) (extranonce1 : Bytes) : ShareServer :=
  match s.channelIdToDownstreamId.lookup c with
  | none => s
  | some d =>
    if d ∈ s.downstreams then
      s.modifyMiner d fun m => (m.noteExtranonce extranonce1).queue
        (.setExtranonce ⟨extranonce1, m.extranonce2Len⟩ m.sessionState.isSubscribed)
    else s

/-- A job is delivered to a miner. -/
def recordDelivery (s : ShareServer) (d : DownstreamId) : ShareServer :=
  match (s.miners d).eventTask with
  | .sending notify _ =>
    if (s.miners d).lacksSupport ∨ s.tip d = some notify.prevHash then s
    else { s with
      tip := Function.update s.tip d (some notify.prevHash)
      credited := Function.update s.credited d [] }
  | _ => s

end Steps

inductive Action where
  | accept
  | openSuccess (d : DownstreamId) (c : ChannelId) (extranonce1 : Bytes) (extranonce2Len : Nat)
  | closeChannel (c : ChannelId)
  | newExtendedMiningJob (m : NewExtendedMiningJob)
  | setNewPrevHash (m : SetNewPrevHash)
  | changeExtranonce (c : ChannelId) (extranonce1 : Bytes)
  | keepalive (due : List DownstreamId) (mutable : Bool)
  /-- A pending target is recorded, or a difficulty queued. -/
  | pendingTarget (d : DownstreamId) (target : Target)
  | setDifficulty (d : DownstreamId) (target : Target)
  | respond (d : DownstreamId) (request : Sv1SetupRequest)
  | subscribeExtranonce (d : DownstreamId)
  | configure (d : DownstreamId) (mask : Option UInt32)
  | submit (d : DownstreamId) (share : Submit)
  /-- The event task of a miner goes on. -/
  | event (d : DownstreamId)
  /-- The two removals of `handle_downstream_disconnect` that concern jobs and shares. -/
  | removeSender (d : DownstreamId)
  | removeDownstream (d : DownstreamId)
deriving DecidableEq

section Run

variable (cfg : ShareConfig)

def step (s : ShareServer) : Action → ShareServer
  | .accept => s.accept
  | .openSuccess d c extranonce1 extranonce2Len => s.openSuccess d c extranonce1 extranonce2Len
  | .closeChannel c => s.closeChannel c
  | .newExtendedMiningJob m => newExtendedMiningJob cfg s m
  | .setNewPrevHash m => { s with prevhashes := s.prevhashes.insert m.channelId m }
  | .changeExtranonce c extranonce1 => s.changeExtranonce c extranonce1
  | .keepalive due mutable => sendKeepaliveJobs cfg s due mutable
  | .pendingTarget d target => s.modifyMiner d (·.setPendingTarget target)
  | .setDifficulty d target => s.modifyMiner d (·.queue (.setDifficulty target))
  | .respond d request => s.respond d request
  | .subscribeExtranonce d => s.modifyMiner d (·.subscribeExtranonce)
  | .configure d mask =>
    { s with versionRollingMask :=
        Function.update s.versionRollingMask d (mask.map (· &&& sv1VersionRollingMask)) }
  | .submit d share =>
    match handleSubmit cfg s d share with
    | .ok s => s
    | .error _ => s
  | .event d => (s.recordDelivery d).modifyMiner d (·.eventStep)
  | .removeSender d =>
    { s with sv1ServerToDownstreamSender := s.sv1ServerToDownstreamSender.erase d }
  | .removeDownstream d => { s with downstreams := s.downstreams.erase d }

/-- The state after a run. -/
def after (as : List Action) : ShareServer := Runs.run (step cfg) (start cfg) as

end Run

/-! ## The property -/

/-- A share that is credited twice has `max` others in between. -/
def CreditedOnce (max : Nat) (credited : List Hash256) : Prop :=
  ∀ hash before between after, credited = before ++ hash :: between ++ hash :: after →
    max ≤ (between.filter (· ≠ hash)).length

/-- The condition on a step: a clean job on the same prev-hash is not delivered to a miner that has
    shares to forget. -/
def keepsShares (s : ShareServer) : Action → Prop
  | .event d =>
    match (s.miners d).eventTask with
    | .sending notify _ => (s.miners d).lacksSupport = true ∨ notify.cleanJobs = false ∨
        s.tip d ≠ some notify.prevHash ∨ (s.miners d).acceptedShareHashes = []
    | _ => True
  | _ => True

instance (s : ShareServer) (a : Action) : Decidable (s.keepsShares a) := by
  unfold keepsShares
  split
  · split <;> infer_instance
  · infer_instance

/-! ## Steps that credit nothing -/

/-- What was accepted stays, and nothing is credited. -/
structure Uncredited (s t : ShareServer) : Prop where
  hashes : ∀ d, (t.miners d).acceptedShareHashes = (s.miners d).acceptedShareHashes
  credited : t.credited = s.credited

section Uncredited

variable {cfg : ShareConfig} {s t u : ShareServer}

theorem Uncredited.refl (s : ShareServer) : Uncredited s s := ⟨fun _ => rfl, rfl⟩

theorem Uncredited.trans (h : Uncredited s t) (h' : Uncredited t u) : Uncredited s u :=
  ⟨fun d => (h'.hashes d).trans (h.hashes d), h'.credited.trans h.credited⟩

theorem uncredited_modifyMiner (s : ShareServer) {d : DownstreamId} {f : Downstream → Downstream}
    (hf : (f (s.miners d)).acceptedShareHashes = (s.miners d).acceptedShareHashes) :
    Uncredited s (s.modifyMiner d f) := by
  refine ⟨?_, rfl⟩
  intro e
  unfold modifyMiner
  by_cases he : e = d
  · subst he
    simp only [Function.update_self]
    exact hf
  · simp only [Function.update_of_ne he]

theorem uncredited_sendToChannel (s : ShareServer) (c : ChannelId) (notify : Notify) :
    Uncredited s (s.sendToChannel c notify) := by
  unfold sendToChannel
  split
  · refine ⟨?_, rfl⟩
    intro d
    dsimp only
    split <;> rfl
  · split
    · exact .refl s
    · split
      · exact uncredited_modifyMiner s rfl
      · exact .refl s

theorem uncredited_newExtendedMiningJob (s : ShareServer) (m : NewExtendedMiningJob) :
    Uncredited s (newExtendedMiningJob cfg s m) := by
  unfold newExtendedMiningJob
  split
  · exact .refl s
  · dsimp only
    split
    · split
      · exact uncredited_sendToChannel s _ _
      · exact .refl s
    · have hstored : ∀ c notify reset, Uncredited s (storeNotify cfg s c notify reset) :=
        fun _ _ _ => ⟨fun _ => rfl, rfl⟩
      exact (hstored _ _ _).trans (uncredited_sendToChannel _ _ _)

theorem uncredited_createKeepaliveJob (s : ShareServer) (c : ChannelId) :
    Uncredited s (createKeepaliveJob cfg s c).1 := by
  unfold createKeepaliveJob
  split
  · exact .refl s
  · exact ⟨fun _ => rfl, rfl⟩

theorem uncredited_sendKeepalive (s : ShareServer) (d : DownstreamId) (notify : Notify) :
    Uncredited s (s.sendKeepalive d notify) := by
  unfold sendKeepalive
  split
  · exact uncredited_modifyMiner s rfl
  · exact .refl s

theorem uncredited_foldl {α : Type} {f : ShareServer → α → ShareServer}
    (hf : ∀ s a, Uncredited s (f s a)) (l : List α) (s : ShareServer) :
    Uncredited s (l.foldl f s) := by
  induction l generalizing s with
  | nil => exact .refl s
  | cons a l ih => exact (hf s a).trans (ih (f s a))

theorem uncredited_sendKeepaliveJobs (s : ShareServer) (due : List DownstreamId) (mutable : Bool) :
    Uncredited s (sendKeepaliveJobs cfg s due mutable) := by
  unfold sendKeepaliveJobs
  dsimp only
  split
  · exact .refl s
  · split
    · have hmade : Uncredited s (if mutable then createKeepaliveJob cfg s aggregatedChannelId
          else (s, ((getLastJob cfg s aggregatedChannelId).map (·.notify)).filter
            fun notify => notify.jobId.isKeepalive)).1 := by
        split
        · exact uncredited_createKeepaliveJob s _
        · exact .refl s
      split
      · exact hmade
      next notify _ =>
        exact hmade.trans (uncredited_foldl (fun s target => uncredited_sendKeepalive s _ notify) _ _)
    · apply uncredited_foldl
      intro s target
      have hmade : Uncredited s (createKeepaliveJob cfg s target.2).1 :=
        uncredited_createKeepaliveJob s target.2
      split
      next hjob =>
        rw [hjob] at hmade
        exact hmade
      next notify hjob =>
        rw [hjob] at hmade
        exact hmade.trans (uncredited_sendKeepalive _ _ notify)

end Uncredited

/-! ## Runs -/

/-- The shares that are remembered are at least the last ones that were credited, and these differ. -/
structure CreditInv (max : Nat) (hashes credited : List Hash256) : Prop where
  remembered : credited.rtake max <:+ hashes
  spaced : SpacedBy max credited

def SharesInv (cfg : ShareConfig) (s : ShareServer) : Prop :=
  ∀ d, CreditInv cfg.maxSeenShares (s.miners d).acceptedShareHashes (s.credited d)

section Runs

variable {cfg : ShareConfig} {s t : ShareServer}

theorem creditInv_nil (max : Nat) (hashes : List Hash256) : CreditInv max hashes [] := by
  refine ⟨?_, spacedBy_nil max⟩
  rw [List.rtake_nil]
  exact List.nil_suffix

/-- A new share is credited. -/
theorem CreditInv.insert {max : Nat} {hashes hashes' credited : List Hash256} {hash : Hash256}
    (h : CreditInv max hashes credited) (hnew : insertIfNew max hashes hash = some hashes') :
    CreditInv max hashes' (credited ++ [hash]) := by
  unfold insertIfNew at hnew
  split at hnew
  · cases hnew
  next hnot =>
    cases hnew
    refine ⟨rtake_suffix_pushBounded h.remembered hash, h.spaced.snoc ?_⟩
    intro hmem
    exact hnot (h.remembered.subset hmem)

theorem SharesInv.uncredited (h : SharesInv cfg s) (ht : Uncredited s t) : SharesInv cfg t := by
  intro d
  rw [ht.hashes d, ht.credited]
  exact h d

theorem SharesInv.handleSubmit (h : SharesInv cfg s) {d : DownstreamId} {share : Submit}
    (ht : handleSubmit cfg s d share = .ok t) : SharesInv cfg t := by
  unfold ShareServer.handleSubmit at ht
  split at ht
  · cases ht
  next hash _ =>
    split at ht
    · cases ht
    next hashes hnew =>
      cases ht
      intro e
      unfold modifyMiner
      by_cases he : e = d
      · subst he
        simp only [Function.update_self]
        exact (h e).insert hnew
      · simp only [Function.update_of_ne he]
        exact h e

/-- Outside `send_job`, the event task leaves the accepted shares. -/
theorem eventStep_hashes {m : Downstream} (htask : ∀ n enabling, m.eventTask ≠ .sending n enabling) :
    m.eventStep.acceptedShareHashes = m.acceptedShareHashes := by
  unfold Downstream.eventStep
  split
  · unfold Downstream.takeEvent
    split
    · rfl
    next e _ _ =>
      cases e with
      | setupComplete =>
        dsimp only
        split <;> rfl
      | notify n =>
        dsimp only
        split <;> rfl
      | _ => rfl
  next n enabling hsending => exact absurd hsending (htask n enabling)
  · rfl
  · rfl
  · rfl

theorem sendJob_hashes (m : Downstream) (n : Notify) (enabling : Bool) :
    (m.sendJob n enabling).acceptedShareHashes =
      if m.lacksSupport = false ∧ n.cleanJobs = true then [] else m.acceptedShareHashes := by
  have happlied : m.applyDifficulty.acceptedShareHashes = m.acceptedShareHashes := by
    unfold Downstream.applyDifficulty
    split <;> rfl
  unfold Downstream.sendJob
  cases m.lacksSupport with
  | true => rfl
  | false =>
    dsimp only [Downstream.recordJobValidationContext]
    rw [if_neg Bool.false_ne_true, happlied]
    cases n.cleanJobs <;> rfl

/-- A job on another prev-hash is delivered. -/
theorem credited_recordDelivery {d : DownstreamId} {n : Notify} {enabling : Bool}
    (htask : (s.miners d).eventTask = .sending n enabling) :
    (s.recordDelivery d).credited d =
      if (s.miners d).lacksSupport = true ∨ s.tip d = some n.prevHash then s.credited d else [] := by
  unfold recordDelivery
  rw [htask]
  dsimp only
  split
  · rfl
  · exact Function.update_self d [] s.credited

theorem recordDelivery_other {d e : DownstreamId} (he : e ≠ d) :
    (s.recordDelivery d).credited e = s.credited e := by
  unfold recordDelivery
  split
  · split
    · rfl
    · exact Function.update_of_ne he [] s.credited
  · rfl

theorem recordDelivery_miners (s : ShareServer) (d : DownstreamId) :
    (s.recordDelivery d).miners = s.miners := by
  unfold recordDelivery
  split
  · split <;> rfl
  · rfl

theorem SharesInv.event (h : SharesInv cfg s) (d : DownstreamId)
    (hok : s.keepsShares (.event d)) :
    SharesInv cfg ((s.recordDelivery d).modifyMiner d (·.eventStep)) := by
  intro e
  unfold modifyMiner
  dsimp only
  rw [recordDelivery_miners]
  by_cases he : e = d
  · subst he
    rw [Function.update_self]
    unfold keepsShares at hok
    dsimp only at hok
    cases htask : (s.miners e).eventTask with
    | sending n enabling =>
      rw [htask] at hok
      have hstep : (s.miners e).eventStep = (s.miners e).sendJob n enabling := by
        unfold Downstream.eventStep
        rw [htask]
      rw [hstep, sendJob_hashes, credited_recordDelivery htask]
      by_cases hsame : (s.miners e).lacksSupport = true ∨ s.tip e = some n.prevHash
      · -- nothing is delivered, or a job on the same prev-hash
        rw [if_pos hsame]
        split
        next hclears =>
          have hempty : (s.miners e).acceptedShareHashes = [] := by
            rcases hok with hlacks | hclean | htip | hempty
            · exact absurd (hlacks.symm.trans hclears.1) Bool.noConfusion
            · exact absurd (hclean.symm.trans hclears.2) Bool.noConfusion
            · rcases hsame with hlacks | hsame
              · exact absurd (hlacks.symm.trans hclears.1) Bool.noConfusion
              · exact absurd hsame htip
            · exact hempty
          rw [← hempty]
          exact h e
        · exact h e
      · rw [if_neg hsame]
        exact creditInv_nil _ _
    | _ =>
      have hcredited : (s.recordDelivery e).credited = s.credited := by
        unfold recordDelivery
        rw [htask]
      rw [hcredited, eventStep_hashes]
      · exact h e
      · intro n enabling hsending
        rw [htask] at hsending
        cases hsending
  · rw [Function.update_of_ne he, recordDelivery_other he]
    exact h e

theorem sharesInv_step (s : ShareServer) (a : Action) (h : SharesInv cfg s)
    (hok : s.keepsShares a) : SharesInv cfg (step cfg s a) := by
  cases a with
  | accept => exact h
  | openSuccess d c extranonce1 extranonce2Len =>
    dsimp only [step, openSuccess]
    split
    · have hset : Uncredited s (s.modifyMiner d fun m =>
          { m with extranonce1 := extranonce1, extranonce2Len := extranonce2Len }) :=
        uncredited_modifyMiner s rfl
      exact h.uncredited ⟨hset.hashes, hset.credited⟩
    · exact h
  | closeChannel c =>
    dsimp only [step, closeChannel]
    split
    · exact h
    next d _ =>
      split
      · have hset : Uncredited s (s.modifyMiner d fun m => { m with disconnected := true }) :=
          uncredited_modifyMiner s rfl
        exact h.uncredited ⟨hset.hashes, hset.credited⟩
      · exact h
  | newExtendedMiningJob m => exact h.uncredited (uncredited_newExtendedMiningJob s m)
  | setNewPrevHash m => exact h
  | changeExtranonce c extranonce1 =>
    dsimp only [step, changeExtranonce]
    split
    · exact h
    next d _ =>
      split
      · have hset : Uncredited s (s.modifyMiner d fun m => (m.noteExtranonce extranonce1).queue
            (.setExtranonce ⟨extranonce1, m.extranonce2Len⟩ m.sessionState.isSubscribed)) :=
          uncredited_modifyMiner s rfl
        exact h.uncredited hset
      · exact h
  | keepalive due mutable => exact h.uncredited (uncredited_sendKeepaliveJobs s due mutable)
  | pendingTarget d target =>
    have hset : Uncredited s (s.modifyMiner d (·.setPendingTarget target)) :=
      uncredited_modifyMiner s rfl
    exact h.uncredited hset
  | setDifficulty d target =>
    have hset : Uncredited s (s.modifyMiner d (·.queue (.setDifficulty target))) :=
      uncredited_modifyMiner s rfl
    exact h.uncredited hset
  | respond d request =>
    dsimp only [step, respond]
    split
    · have hset : Uncredited s (s.modifyMiner d (·.respond request)) := by
        apply uncredited_modifyMiner
        unfold Downstream.respond
        dsimp only
        split <;> rfl
      exact h.uncredited hset
    · exact h
  | subscribeExtranonce d =>
    have hset : Uncredited s (s.modifyMiner d (·.subscribeExtranonce)) :=
      uncredited_modifyMiner s rfl
    exact h.uncredited hset
  | configure d mask => exact h
  | submit d share =>
    dsimp only [step]
    split
    next t ht => exact h.handleSubmit ht
    · exact h
  | event d => exact h.event d hok
  | removeSender d => exact h
  | removeDownstream d => exact h

/-- In a run without early clean jobs, no share is credited twice under one prev-hash. -/
theorem credited_once (cfg : ShareConfig) (as : List Action)
    (hg : Runs.Guarded (step cfg) keepsShares (start cfg) as) (d : DownstreamId) :
    CreditedOnce cfg.maxSeenShares ((after cfg as).credited d) := by
  have hstart : SharesInv cfg (start cfg) := fun _ => creditInv_nil _ _
  have h := Runs.run_invariant_of_guarded (SharesInv cfg) sharesInv_step hstart as hg
  intro hash before between after hcredited
  exact (h d).spaced.between hcredited

end Runs

/-! ## A server to try things on -/

/-- Jobs without merkle path, of version 2 and for a test network. -/
def sampleHashing : HeaderHashing where
  version := fun _ => 0x20000000
  blockHash := fun job extranonce version time nonce =>
    let sha256d := referenceBitcoin.sha256d
    some (sha256d (encodeU32 version ++ job.prevHash.val ++
      (sha256d (job.job.coinbaseTxPrefix ++ extranonce ++ job.job.coinbaseTxSuffix)).val ++
      encodeU32 time ++ encodeU32 0x207fffff ++ encodeU32 nonce))

/-- Every hash meets the first target. -/
def sampleShareConfig : ShareConfig :=
  ⟨true, none, 60, 2 ^ 256, fun p m cleanJobs =>
    ⟨⟨m.jobId, none⟩, p.prevHash, p.minNtime, cleanJobs, m⟩, sampleHashing, 10000⟩

def sampleShareJob (c : ChannelId) (jobId : JobId) : NewExtendedMiningJob :=
  ⟨c, jobId, some 100, true, [1], [2], 0⟩

def sampleShare : Submit := ⟨⟨1, none⟩, [0, 0, 0, 0], 100, 7, none⟩

def sampleShareHash : Option Hash256 :=
  sampleHashing.blockHash ⟨⟨1, none⟩, Hash256.allZeros, 100, true, sampleShareJob aggregatedChannelId 1⟩
    ([9] ++ sampleShare.extraNonce2) 0x20000000 100 7

/-- Two miners connect, and a job is broadcast when the first has a channel.  The second gets its
    channel, takes the job that was cached for it and finds a share. -/
def lateJoinRun : List Action :=
  [.accept, .accept, .openSuccess 1 5 [8] 4,
   .setNewPrevHash ⟨aggregatedChannelId, 1, Hash256.allZeros, 100, 0x207fffff⟩,
   .newExtendedMiningJob (sampleShareJob aggregatedChannelId 1), .event 2,
   .openSuccess 2 6 [9] 4, .respond 2 .subscribe, .respond 2 .authorize,
   .event 2, .event 2, .event 2, .event 2, .event 2, .submit 2 sampleShare]

/-- The same share again. -/
def repeatedRun : List Action := lateJoinRun ++ [.submit 2 sampleShare]

/-- The same share again, after the job that the second miner joins with. -/
def bootstrapRun : List Action :=
  lateJoinRun ++
    [.newExtendedMiningJob (sampleShareJob 6 1), .event 2, .event 2, .submit 2 sampleShare]

theorem credited_once_repeatedRun :
    ((after sampleShareConfig repeatedRun).credited 2).map some = [sampleShareHash] ∧
      CreditedOnce sampleShareConfig.maxSeenShares
        ((after sampleShareConfig repeatedRun).credited 2) := by
  constructor
  · decide +kernel
  · apply credited_once
    decide +kernel

theorem not_creditedOnce :
    ¬CreditedOnce sampleShareConfig.maxSeenShares
      ((after sampleShareConfig bootstrapRun).credited 2) := by
  intro h
  have hcredited : ((after sampleShareConfig bootstrapRun).credited 2).map some =
      [sampleShareHash, sampleShareHash] := by
    decide +kernel
  obtain ⟨first, rest, hfirst, hone, hrest⟩ := List.map_eq_cons_iff.mp hcredited
  obtain ⟨second, nothing, hsecond, htwo, hnothing⟩ := List.map_eq_cons_iff.mp hrest
  have hsame : first = second := Option.some.inj (hone.trans htwo.symm)
  rw [hfirst, hsecond, List.map_eq_nil_iff.mp hnothing, hsame] at h
  have hothers : 10000 ≤ 0 := h second [] [] [] rfl
  exact absurd hothers (by decide)

end ShareServer

end Sv2Apps.Translator
