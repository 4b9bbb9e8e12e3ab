/-
  Jds/JobValidation.lean
  ======================
  **The job validation engine over Bitcoin Core** — `job_validation/bitcoin_core_ipc.rs`.

  A declared job is kept per downstream under its request id, with an entry that maps
  the allocated token to the request.  `handle_declare_mining_job` suspends on the
  node's answer, so it is three functions here: the checks before the request
  (`prepareDeclareMiningJob`), the two accesses to the shared state that precede the
  wait, and the treatment of the answer (`applyJdResponse`).
  `handle_set_custom_mining_job` takes the job out of the state and compares it with
  the message (`checkSetCustomMiningJob`).

  An index out of range, a subtraction below zero and an `expect` that fails end the
  task; they are the outcome `panic`.
-/
import Sv2Apps.Jds.TokenManagement

namespace Sv2Apps.Jds

open Bitcoin Codec

structure ValidationContext where
  prevHash : Hash256
  nbits : UInt32
deriving DecidableEq

/-- A declared job, kept for the comparison with a later `SetCustomMiningJob`. -/
structure DeclaredCustomJob where
  declareMiningJob : DeclareMiningJob
  validationContext : ValidationContext
  txidList : Option (List Hash256)
  validated : Bool
deriving DecidableEq

structure AllocatedTokenEntry where
  requestId : RequestId
  insertedAt : Instant
deriving DecidableEq

structure DownstreamState where
  declaredCustomJobs : KeyMap RequestId DeclaredCustomJob
  allocatedTokenEntries : KeyMap JdToken AllocatedTokenEntry

namespace DownstreamState

def default : DownstreamState := ⟨∅, ∅⟩

def insertDeclaredCustomJob (st : DownstreamState) (requestId : RequestId)
    (allocatedToken : JdToken) (job : DeclaredCustomJob) (now : Instant) : DownstreamState where
  declaredCustomJobs := st.declaredCustomJobs.insert requestId job
  allocatedTokenEntries := st.allocatedTokenEntries.insert allocatedToken ⟨requestId, now⟩

def removeDeclaredCustomJob (st : DownstreamState) (requestId : RequestId)
    (allocatedToken : JdToken) : DownstreamState where
  declaredCustomJobs := st.declaredCustomJobs.erase requestId
  allocatedTokenEntries := st.allocatedTokenEntries.erase allocatedToken

/-- The token entry goes even when the job it names is no longer there. -/
def takeDeclaredCustomJob (st : DownstreamState) (allocatedToken : JdToken) :
    Option DeclaredCustomJob × DownstreamState :=
  match st.allocatedTokenEntries.lookup allocatedToken with
  | none => (none, st)
  | some entry =>
    (st.declaredCustomJobs.lookup entry.requestId,
      { declaredCustomJobs := st.declaredCustomJobs.erase entry.requestId
        allocatedTokenEntries := st.allocatedTokenEntries.erase allocatedToken })

def expired (now : Instant) (entry : AllocatedTokenEntry) : Bool :=
  !decide (now - entry.insertedAt ≤ durationFromSecs allocatedTokenTimeoutSecs)

def pruneExpiredAllocations (st : DownstreamState) (now : Instant) : DownstreamState where
  declaredCustomJobs := st.allocatedTokenEntries.entries.foldl
    (fun jobs e => if expired now e.2 then jobs.erase e.2.requestId else jobs)
    st.declaredCustomJobs
  allocatedTokenEntries :=
    KeyMap.retain (fun _ entry => !expired now entry) st.allocatedTokenEntries

def validationContextForRequest (st : DownstreamState) (requestId : RequestId) :
    Option ValidationContext :=
  (st.declaredCustomJobs.lookup requestId).map DeclaredCustomJob.validationContext

end DownstreamState

/-! ## The declared coinbase -/

inductive CoinbaseFault where
  | invalid
  | panic
deriving DecidableEq

/-- version(4) + marker+flag(2) + input_count(1) + outpoint(32) + index(4). -/
def coinbasePrefixLen : Nat := 43

/-- The scriptSig size is read behind the 43 bytes; what the prefix does not hold of the
    scriptSig is the extranonce. -/
def fullExtranonceSize (rb : RustBitcoin) (dmj : DeclareMiningJob) :
    Except CoinbaseFault Nat :=
  if dmj.coinbaseTxPrefix.length < coinbasePrefixLen then .error .panic
  else match rb.decodeVarInt (dmj.coinbaseTxPrefix.drop coinbasePrefixLen) with
    | none => .error .invalid
    | some scriptSigSize =>
      let scriptSigOffset := coinbasePrefixLen + compactSizeLength scriptSigSize
      if dmj.coinbaseTxPrefix.length < scriptSigOffset then .error .panic
      else
        let scriptSigBytesInPrefix := dmj.coinbaseTxPrefix.length - scriptSigOffset
        if scriptSigSize < scriptSigBytesInPrefix then .error .panic
        else .ok (scriptSigSize - scriptSigBytesInPrefix)

/-- The declared coinbase with an extranonce in the gap. -/
def declaredCoinbaseBytes (dmj : DeclareMiningJob) (extranonce : Bytes) : Bytes :=
  dmj.coinbaseTxPrefix ++ extranonce ++ dmj.coinbaseTxSuffix

/-- The coinbase is parsed with zeros in the gap. -/
def getCoinbaseTx (rb : RustBitcoin) (dmj : DeclareMiningJob) :
    Except CoinbaseFault Transaction :=
  match fullExtranonceSize rb dmj with
  | .error e => .error e
  | .ok n =>
    match rb.decodeTransaction (declaredCoinbaseBytes dmj (List.replicate n 0)) with
    | none => .error .invalid
    | some tx => .ok tx

def DeclaredCustomJob.getMerklePath (rb : RustBitcoin) (job : DeclaredCustomJob) :
    Except CoinbaseFault (List Hash256) :=
  if !job.validated then .error .invalid
  else match job.txidList with
    | none => .error .invalid
    | some txidList =>
      match getCoinbaseTx rb job.declareMiningJob with
      | .error _ => .error .panic
      | .ok tx => .ok (MerkleBranch.branch rb.merkleNode (rb.computeTxid tx :: txidList))

/-! ## `handle_declare_mining_job` -/

inductive DeclareMiningJobResult where
  | success
  | error (code : DeclareMiningJobErrorCode)
  | missingTransactions (wtxids : List Hash256)
  | panic
deriving DecidableEq

/-- What is sent to the thread that talks to the node. -/
structure JdRequest where
  version : UInt32
  coinbaseTx : Transaction
  wtxidList : List Hash256
  missingTxs : List Transaction
deriving DecidableEq

inductive JdResponse where
  | success (prevHash : Hash256) (nbits : UInt32) (txidList : List Hash256)
  | error (errorCode : String) (validationContext : ValidationContext)
  | missingTransactions (missingWtxids : List Hash256) (validationContext : ValidationContext)
deriving DecidableEq

/-- Everything before the request: the token, the coinbase and the supplied transactions
    (those that do not parse are dropped). -/
def prepareDeclareMiningJob (rb : RustBitcoin) (dmj : DeclareMiningJob)
    (provided : Option ProvideMissingTransactionsSuccess) :
    Except DeclareMiningJobResult (JdToken × JdRequest) :=
  match parseToken dmj.miningJobToken with
  | none => .error (.error .invalidMiningJobToken)
  | some allocatedToken =>
    match getCoinbaseTx rb dmj with
    | .error .panic => .error .panic
    | .error .invalid => .error (.error .invalidCoinbaseTx)
    | .ok tx =>
      if tx.input.length ≠ 1 then .error (.error .invalidCoinbaseTxInput)
      else
        let missingTxs := match provided with
          | some pmts => pmts.transactionList.filterMap rb.decodeTransaction
          | none => []
        .ok (allocatedToken, ⟨dmj.version, tx, dmj.wtxidList, missingTxs⟩)

abbrev DownstreamStates := KeyMap DownstreamId DownstreamState

/-- Read before the wait, and only on a retry. -/
def previousPendingValidationContext (states : DownstreamStates) (downstreamId : DownstreamId)
    (dmj : DeclareMiningJob) (provided : Option ProvideMissingTransactionsSuccess) :
    Option ValidationContext :=
  match provided with
  | none => none
  | some _ => (states.lookup downstreamId).bind fun st =>
      st.validationContextForRequest dmj.requestId

def validationContextDrifted (previous current : ValidationContext) : Bool :=
  previous.prevHash != current.prevHash

def tipDrifted (previous : Option ValidationContext) (current : ValidationContext) : Bool :=
  match previous with
  | some ctx => validationContextDrifted ctx current
  | none => false

/-- `insert_declared_custom_job` under `with_mut`: a state that a disconnect has removed is
    not created again. -/
def storeDeclaredJob (states : DownstreamStates) (downstreamId : DownstreamId)
    (allocatedToken : JdToken) (job : DeclaredCustomJob) (now : Instant) :
    Option DownstreamStates :=
  match states.lookup downstreamId with
  | none => none
  | some st => some (states.insert downstreamId
      (st.insertDeclaredCustomJob job.declareMiningJob.requestId allocatedToken job now))

def dropDeclaredJob (states : DownstreamStates) (downstreamId : DownstreamId)
    (requestId : RequestId) (allocatedToken : JdToken) : DownstreamStates :=
  KeyMap.modify downstreamId (fun st => st.removeDeclaredCustomJob requestId allocatedToken)
    states

/-- The answer of the node, or `none` when the request or its answer is lost. -/
def applyJdResponse (states : DownstreamStates) (downstreamId : DownstreamId)
    (dmj : DeclareMiningJob) (isRetry : Bool) (allocatedToken : JdToken)
    (previous : Option ValidationContext) (response : Option JdResponse) (now : Instant) :
    DeclareMiningJobResult × DownstreamStates :=
  match response with
  | none => (.error .internalError, states)
  | some (.success prevHash nbits txidList) =>
    match storeDeclaredJob states downstreamId allocatedToken
        ⟨dmj, ⟨prevHash, nbits⟩, some txidList, true⟩ now with
    | none => (.error .internalError, states)
    | some states' => (.success, states')
  | some (.error errorCode ctx) =>
    (.error (if tipDrifted previous ctx then .staleChainTip else .core errorCode),
      dropDeclaredJob states downstreamId dmj.requestId allocatedToken)
  | some (.missingTransactions missingWtxids ctx) =>
    if isRetry && tipDrifted previous ctx then
      (.error .staleChainTip, dropDeclaredJob states downstreamId dmj.requestId allocatedToken)
    else match storeDeclaredJob states downstreamId allocatedToken ⟨dmj, ctx, none, false⟩ now with
      | none => (.error .internalError, states)
      | some states' => (.missingTransactions missingWtxids, states')

/-! ## `handle_set_custom_mining_job` -/

inductive SetCustomMiningJobResult where
  | success
  | error (code : SetCustomMiningJobErrorCode)
  | panic
deriving DecidableEq

/-- The coinbase part of the comparison; `none` lets the message pass. -/
def checkCoinbase (tx : Transaction) (msg : SetCustomMiningJob) :
    Option SetCustomMiningJobResult :=
  if tx.version ≠ msg.coinbaseTxVersion then some (.error .invalidCoinbaseTxVersion)
  else match tx.input with
    | [] => some .panic
    | txIn :: _ =>
      if ¬ msg.coinbasePrefix <+: txIn.scriptSig then some (.error .invalidCoinbasePrefix)
      else if txIn.sequence ≠ msg.coinbaseTxInputNSequence then
        some (.error .invalidCoinbaseTxInputNSequence)
      else if serializeOutputs tx.output ≠ msg.coinbaseTxOutputs then
        some (.error .invalidCoinbaseTxOutputs)
      else if tx.lockTime ≠ msg.coinbaseTxLocktime then
        some (.error .invalidCoinbaseTxLocktime)
      else none

/-- The comparison of a `SetCustomMiningJob` with the declared job. -/
def checkSetCustomMiningJob (rb : RustBitcoin) (job : DeclaredCustomJob)
    (msg : SetCustomMiningJob) : SetCustomMiningJobResult :=
  if !job.validated then .error .jobNotYetValidated
  else if msg.prevHash ≠ job.validationContext.prevHash then .error .staleChainTip
  else if msg.nbits ≠ job.validationContext.nbits then .error .invalidNbits
  else if msg.version ≠ job.declareMiningJob.version then .error .invalidVersion
  else match getCoinbaseTx rb job.declareMiningJob with
    | .error .panic => .panic
    | .error .invalid => .error .invalidCoinbaseTx
    | .ok tx =>
      match checkCoinbase tx msg with
      | some result => result
      | none =>
        match job.getMerklePath rb with
        | .error .panic => .panic
        | .error .invalid => .error .jobNotYetValidated
        | .ok path => if path ≠ msg.merklePath then .error .invalidMerklePath else .success

def handleSetCustomMiningJob (rb : RustBitcoin) (states : DownstreamStates)
    (downstreamId : DownstreamId) (msg : SetCustomMiningJob) (allocatedToken : JdToken) :
    SetCustomMiningJobResult × DownstreamStates :=
  match states.lookup downstreamId with
  | none => (.error .invalidMiningJobToken, states)
  | some st =>
    let taken := st.takeDeclaredCustomJob allocatedToken
    let states' := states.insert downstreamId taken.2
    match taken.1 with
    | none => (.error .invalidMiningJobToken, states')
    | some job => (checkSetCustomMiningJob rb job msg, states')

/-! ## What the engine functions do -/

/-- A parsed coinbase is the transaction that the prefix, a gap of zeros and the suffix
    decode to. -/
theorem getCoinbaseTx_eq_ok {rb : RustBitcoin} {dmj : DeclareMiningJob} {tx : Transaction}
    (h : getCoinbaseTx rb dmj = .ok tx) :
    ∃ n, fullExtranonceSize rb dmj = .ok n ∧
      rb.decodeTransaction (declaredCoinbaseBytes dmj (List.replicate n 0)) = some tx := by
  unfold getCoinbaseTx at h
  split at h
  next => cases h
  next n hn =>
    split at h
    next => cases h
    next tx' htx => cases h; exact ⟨n, hn, htx⟩

/-- The request goes out only for a parsed token and a parsed coinbase with one input. -/
theorem prepareDeclareMiningJob_eq_ok {rb : RustBitcoin} {dmj : DeclareMiningJob}
    {provided : Option ProvideMissingTransactionsSuccess} {t : JdToken} {req : JdRequest}
    (h : prepareDeclareMiningJob rb dmj provided = .ok (t, req)) :
    parseToken dmj.miningJobToken = some t ∧ getCoinbaseTx rb dmj = .ok req.coinbaseTx ∧
      req.coinbaseTx.input.length = 1 ∧ req.version = dmj.version ∧
      req.wtxidList = dmj.wtxidList := by
  unfold prepareDeclareMiningJob at h
  split at h
  next => cases h
  next t' ht =>
    split at h
    next => cases h
    next => cases h
    next tx htx =>
      split at h
      next => cases h
      next hlen =>
        cases h
        exact ⟨ht, htx, by simpa using hlen, rfl, rfl⟩

/-- What a passed coinbase comparison has established. -/
theorem checkCoinbase_eq_none {tx : Transaction} {msg : SetCustomMiningJob}
    (h : checkCoinbase tx msg = none) :
    tx.version = msg.coinbaseTxVersion ∧
    (∃ txIn rest, tx.input = txIn :: rest ∧ msg.coinbasePrefix <+: txIn.scriptSig ∧
      txIn.sequence = msg.coinbaseTxInputNSequence) ∧
    serializeOutputs tx.output = msg.coinbaseTxOutputs ∧
    tx.lockTime = msg.coinbaseTxLocktime := by
  unfold checkCoinbase at h
  split at h
  next => cases h
  next hver =>
    split at h
    next => cases h
    next txIn rest hin =>
      split_ifs at h with hpre hseq hout hlock
      exact ⟨not_not.mp hver, ⟨txIn, rest, hin, hpre, not_not.mp hseq⟩,
        not_not.mp hout, not_not.mp hlock⟩

theorem checkCoinbase_ne_success (tx : Transaction) (msg : SetCustomMiningJob) :
    checkCoinbase tx msg ≠ some .success := by
  unfold checkCoinbase
  split
  next => simp
  next =>
    split
    next => simp
    next => split_ifs <;> simp

/-- What a successful comparison has established. -/
theorem checkSetCustomMiningJob_eq_success {rb : RustBitcoin} {job : DeclaredCustomJob}
    {msg : SetCustomMiningJob} (h : checkSetCustomMiningJob rb job msg = .success) :
    job.validated = true ∧ msg.prevHash = job.validationContext.prevHash ∧
    msg.nbits = job.validationContext.nbits ∧ msg.version = job.declareMiningJob.version ∧
    ∃ tx txids, getCoinbaseTx rb job.declareMiningJob = .ok tx ∧
      checkCoinbase tx msg = none ∧ job.txidList = some txids ∧
      msg.merklePath = MerkleBranch.branch rb.merkleNode (rb.computeTxid tx :: txids) := by
  unfold checkSetCustomMiningJob at h
  split_ifs at h with hval hprev hnbits hver
  split at h
  next => cases h
  next => cases h
  next tx htx =>
    cases hcb : checkCoinbase tx msg with
    | some r =>
      simp only [hcb] at h
      subst h
      exact absurd hcb (checkCoinbase_ne_success tx msg)
    | none =>
      simp only [hcb] at h
      have hv : job.validated = true := by simpa using hval
      cases hids : job.txidList with
      | none =>
        simp [DeclaredCustomJob.getMerklePath, hv, hids] at h
      | some txids =>
        simp only [DeclaredCustomJob.getMerklePath, hv, hids, htx, Bool.not_true,
          Bool.false_eq_true, if_false] at h
        split_ifs at h with hpath
        refine ⟨hv, not_not.mp hprev, not_not.mp hnbits, not_not.mp hver, tx, txids, htx, ?_⟩
        exact ⟨hcb, rfl, (not_not.mp hpath).symm⟩

/-- A stored job is found again only under the token entry it was stored with. -/
theorem storeDeclaredJob_eq_some {states states' : DownstreamStates} {d : DownstreamId}
    {t : JdToken} {job : DeclaredCustomJob} {now : Instant}
    (h : storeDeclaredJob states d t job now = some states') :
    ∃ st, states.lookup d = some st ∧ states' = states.insert d
      (st.insertDeclaredCustomJob job.declareMiningJob.requestId t job now) := by
  unfold storeDeclaredJob at h
  split at h
  next => cases h
  next st hst => cases h; exact ⟨st, hst, rfl⟩

/-- Success is answered only for an approved declaration, whose job is then kept. -/
theorem applyJdResponse_eq_success {states states' : DownstreamStates} {d : DownstreamId}
    {dmj : DeclareMiningJob} {isRetry : Bool} {t : JdToken}
    {previous : Option ValidationContext} {response : Option JdResponse} {now : Instant}
    (h : applyJdResponse states d dmj isRetry t previous response now = (.success, states')) :
    ∃ prevHash nbits txids st, response = some (.success prevHash nbits txids) ∧
      states.lookup d = some st ∧ states' = states.insert d (st.insertDeclaredCustomJob
        dmj.requestId t ⟨dmj, ⟨prevHash, nbits⟩, some txids, true⟩ now) := by
  unfold applyJdResponse at h
  split at h
  next => cases h
  next prevHash nbits txids =>
    split at h
    next => cases h
    next hs =>
      cases h
      obtain ⟨st, hst, rfl⟩ := storeDeclaredJob_eq_some hs
      exact ⟨prevHash, nbits, txids, st, rfl, hst, rfl⟩
  next => cases h
  next =>
    split at h
    · cases h
    · split at h <;> cases h

/-- The job that a token leads to in the state of a downstream. -/
def storedJob (states : DownstreamStates) (d : DownstreamId) (t : JdToken) :
    Option DeclaredCustomJob :=
  (states.lookup d).bind fun st =>
    (st.allocatedTokenEntries.lookup t).bind fun entry =>
      st.declaredCustomJobs.lookup entry.requestId

theorem storedJob_insertDeclaredCustomJob (states : DownstreamStates) (d : DownstreamId)
    (st : DownstreamState) (r : RequestId) (t : JdToken) (job : DeclaredCustomJob)
    (now : Instant) :
    storedJob (states.insert d (st.insertDeclaredCustomJob r t job now)) d t = some job := by
  simp [storedJob, DownstreamState.insertDeclaredCustomJob]

/-- The treatment of an answer touches the state of one downstream only. -/
theorem applyJdResponse_lookup_ne {states : DownstreamStates} {d e : DownstreamId}
    {dmj : DeclareMiningJob} {isRetry : Bool} {t : JdToken}
    {previous : Option ValidationContext} {response : Option JdResponse} {now : Instant}
    (hne : e ≠ d) :
    (applyJdResponse states d dmj isRetry t previous response now).2.lookup e =
      states.lookup e := by
  have hdrop : (dropDeclaredJob states d dmj.requestId t).lookup e = states.lookup e :=
    KeyMap.lookup_modify_ne hne
  have hstore : ∀ job states', storeDeclaredJob states d t job now = some states' →
      states'.lookup e = states.lookup e := by
    intro job states' h
    obtain ⟨st, -, rfl⟩ := storeDeclaredJob_eq_some h
    exact AList.lookup_insert_ne hne
  unfold applyJdResponse
  split
  next => rfl
  next =>
    split
    next => rfl
    next hs => exact hstore _ _ hs
  next => exact hdrop
  next =>
    split_ifs
    · exact hdrop
    · split
      next => rfl
      next hs => exact hstore _ _ hs

theorem handleSetCustomMiningJob_lookup_ne {rb : RustBitcoin} {states : DownstreamStates}
    {d e : DownstreamId} {msg : SetCustomMiningJob} {t : JdToken} (hne : e ≠ d) :
    (handleSetCustomMiningJob rb states d msg t).2.lookup e = states.lookup e := by
  unfold handleSetCustomMiningJob
  split
  next => rfl
  next st hst =>
    dsimp only
    split <;> exact AList.lookup_insert_ne hne

/-- Success takes the job that the token entry names and passes the comparison with it. -/
theorem handleSetCustomMiningJob_success {rb : RustBitcoin} {states : DownstreamStates}
    {d : DownstreamId} {msg : SetCustomMiningJob} {t : JdToken}
    (h : (handleSetCustomMiningJob rb states d msg t).1 = .success) :
    ∃ job, storedJob states d t = some job ∧
      checkSetCustomMiningJob rb job msg = .success := by
  unfold handleSetCustomMiningJob at h
  split at h
  next => cases h
  next st hst =>
    dsimp only at h
    split at h
    next => cases h
    next job hjob =>
      unfold DownstreamState.takeDeclaredCustomJob at hjob
      split at hjob
      next => cases hjob
      next entry hentry =>
        refine ⟨job, ?_, h⟩
        rw [storedJob, hst, Option.bind_some, hentry]
        exact hjob

/-! ## A declared job to try things on -/

/-- A coinbase with marker and flag, a scriptSig of seven bytes of which the prefix holds
    four, one output of 50 coins to the script `51`, and a one-byte witness. -/
def sampleDeclaration : DeclareMiningJob where
  requestId := 1
  miningJobToken := tokenBytes 0
  version := 0x20000000
  coinbaseTxPrefix := [2, 0, 0, 0, 0, 1, 1] ++ List.replicate 32 0 ++
    [0xff, 0xff, 0xff, 0xff, 7, 3, 1, 2, 3]
  coinbaseTxSuffix := [0xff, 0xff, 0xff, 0xff, 1, 0, 0xf2, 5, 0x2a, 1, 0, 0, 0, 1, 0x51, 1, 1,
    0, 0, 0, 0, 0]
  wtxidList := []

/-- The custom job that belongs to it, with the active token that follows token 0. -/
def sampleCustomJob : SetCustomMiningJob where
  channelId := 1
  requestId := 1
  token := tokenBytes 1
  version := 0x20000000
  prevHash := Hash256.allZeros
  ntimeStart := 0
  nbits := 0x207fffff
  coinbaseTxVersion := 2
  coinbasePrefix := [3, 1, 2, 3]
  coinbaseTxInputNSequence := 0xffffffff
  coinbaseTxOutputs := serializeOutputs [⟨5000000000, [0x51]⟩]
  coinbaseTxLocktime := 0
  merklePath := []

end Sv2Apps.Jds
