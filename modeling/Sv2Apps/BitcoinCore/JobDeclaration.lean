/-
  BitcoinCore/JobDeclaration.lean
  ===============================
  **Validating declared jobs with Bitcoin Core** — `handlers.rs` of
  `unix_capnp/v31x/job_declaration_protocol`.

  `handle_declare_mining_job` suspends on `checkBlock`, so it is two functions here: everything up to
  the request (`handleDeclareMiningJob`), which answers or has a block to check, and the treatment of the outcome
  (`concludeDeclareMiningJob`).  Between the two the mirror is updated, and other declarations begin and finish, in any
  order.  A call that is dropped with the connection does not come to its end and is left out.

  The error codes of the job declaration protocol are texts of a library (`ErrorCodes`).  The mirror
  is read with `expect`; `none` is the panic.
-/
import Sv2Apps.BitcoinCore.MempoolMirror
import Sv2Apps.Jds.JobValidation

namespace Sv2Apps.BitcoinCore

open Bitcoin Jds

/-- `Weight::MIN_TRANSACTION`. -/
def minTransactionWeight : Nat := 240

def maxDeclaredTxs : Nat := maxBlockWeight / minTransactionWeight

/-- `ERROR_CODE_DECLARE_MINING_JOB_…`. -/
structure ErrorCodes where
  internalError : String
  invalidCoinbaseTxInput : String
  invalidJob : String
  staleChainTip : String

/-- The loop of `stage_missing_txs` over what the client supplied. -/
def stageLoop (rb : RustBitcoin) (wtxidList : List Wtxid) (staged : KeyMap Wtxid Transaction) :
    List Transaction → Option (KeyMap Wtxid Transaction)
  | [] => some staged
  | tx :: txs =>
    let wtxid := rb.computeWtxid tx
    if tx.isCoinbase then none
    else if wtxid ∉ wtxidList then none
    else if (staged.lookup wtxid).isSome then none
    else stageLoop rb wtxidList (staged.insert wtxid tx) txs

def stageMissingTxs (rb : RustBitcoin) (wtxidList : List Wtxid) (missingTxs : List Transaction) :
    Option (KeyMap Wtxid Transaction) :=
  if wtxidList.length > maxDeclaredTxs then none
  else if ¬ wtxidList.Nodup then none
  else stageLoop rb wtxidList ∅ missingTxs

/-- A declaration whose block is being checked. -/
structure Checking where
  initialValidationContext : ValidationContext
  stagedTxs : KeyMap Wtxid Transaction
  txidList : List Txid
  block : Block

/-- `handle_declare_mining_job` up to the request to Bitcoin Core: an answer, or a block. -/
def handleDeclareMiningJob (rb : RustBitcoin) (codes : ErrorCodes) (mirror : MempoolMirror) (req : JdRequest) :
    Option (JdResponse ⊕ Checking) :=
  match mirror.currentPrevHash, mirror.currentNbits, mirror.currentNtime with
  | some prevHash, some nbits, some ntime =>
    let context : ValidationContext := ⟨prevHash, nbits⟩
    if req.coinbaseTx.input.length ≠ 1 then
      some (.inl (.error codes.invalidCoinbaseTxInput context))
    else match stageMissingTxs rb req.wtxidList req.missingTxs with
      | none => some (.inl (.error codes.invalidJob context))
      | some stagedTxs =>
        match mirror.resolveTxdata req.wtxidList stagedTxs
            (maxBlockWeight - req.coinbaseTx.weight) with
        | .error (.missing wtxids) => some (.inl (.missingTransactions wtxids context))
        | .error .tooHeavy => some (.inl (.error codes.invalidJob context))
        | .ok txdata =>
          some (.inr
            { initialValidationContext := context
              stagedTxs := stagedTxs
              txidList := txdata.map rb.computeTxid
              block :=
                { header := ⟨req.version, prevHash, Hash256.allZeros, ntime, nbits, 0⟩
                  txdata := req.coinbaseTx :: txdata } })
  | _, _, _ => none

/-- What `checkBlock` comes to; `failed` is a request that breaks, and with it the connection. -/
inductive CheckBlockOutcome where
  | accepted
  | rejected (reason : String)
  | failed
deriving DecidableEq

/-- The staged transactions, taken out in the declared order. -/
def takeStaged (stagedTxs : KeyMap Wtxid Transaction) : List Wtxid → List Transaction
  | [] => []
  | wtxid :: wtxids =>
    match stagedTxs.lookup wtxid with
    | some tx => tx :: takeStaged (stagedTxs.erase wtxid) wtxids
    | none => takeStaged stagedTxs wtxids

/-- How a rejection is classified, from the reason alone. -/
def classifyRejection (codes : ErrorCodes) (reason : String) : String :=
  if reason = "inconclusive-not-best-prevblk" ∨ reason = "bad-txns-nonfinal" ∨
      reason = "bad-cb-height" then codes.staleChainTip
  else codes.invalidJob

/-- `handle_declare_mining_job` from the outcome of `checkBlock` on. -/
def concludeDeclareMiningJob (rb : RustBitcoin) (codes : ErrorCodes) (mirror : MempoolMirror) (req : JdRequest)
    (c : Checking) : CheckBlockOutcome → Option (JdResponse × MempoolMirror)
  | .failed => some (.error codes.internalError c.initialValidationContext, mirror)
  | .accepted =>
    match mirror.currentPrevHash, mirror.currentNbits with
    | some prevHash, some nbits =>
      if prevHash = c.initialValidationContext.prevHash then
        some (.success c.initialValidationContext.prevHash c.initialValidationContext.nbits
          c.txidList, mirror.addTransactions rb (takeStaged c.stagedTxs req.wtxidList))
      else some (.error codes.staleChainTip ⟨prevHash, nbits⟩, mirror)
    | _, _ => none
  | .rejected reason =>
    match mirror.currentPrevHash, mirror.currentNbits with
    | some prevHash, some nbits =>
      some (.error (classifyRejection codes reason) ⟨prevHash, nbits⟩, mirror)
    | _, _ => none

/-! ## The connection -/

/-- The calls, numbered: those that wait for Bitcoin Core, and what the others answered. -/
structure Connection where
  mirror : MempoolMirror
  nextCall : Nat
  checking : KeyMap Nat (JdRequest × Checking)
  responses : List (Nat × JdResponse)
  panicked : Bool

inductive ConnectionStep where
  | update (order : KeyMap.Iteration Wtxid Transaction) (block : Block)
  | declareMiningJob (req : JdRequest)
  | checkBlock (call : Nat) (outcome : CheckBlockOutcome)

namespace Connection

/-- Requests are taken once the first template is in the mirror. -/
def bootstrapped (rb : RustBitcoin) (order : KeyMap.Iteration Wtxid Transaction) (block : Block) :
    Connection :=
  ⟨MempoolMirror.new.update rb order block, 0, ∅, [], false⟩

def respond (s : Connection) (call : Nat) (response : JdResponse) : Connection :=
  { s with responses := (call, response) :: s.responses }

def step (rb : RustBitcoin) (codes : ErrorCodes) (s : Connection) : ConnectionStep → Connection
  | .update order block => { s with mirror := s.mirror.update rb order block }
  | .declareMiningJob req =>
    match handleDeclareMiningJob rb codes s.mirror req with
    | none => { s with panicked := true }
    | some (.inl response) => { s with nextCall := s.nextCall + 1 }.respond s.nextCall response
    | some (.inr c) =>
      { s with
        nextCall := s.nextCall + 1
        checking := s.checking.insert s.nextCall (req, c) }
  | .checkBlock call outcome =>
    match s.checking.lookup call with
    | none => s
    | some (req, c) =>
      match concludeDeclareMiningJob rb codes s.mirror req c outcome with
      | none => { s with panicked := true }
      | some (response, mirror) =>
        { s with
          mirror := mirror
          checking := s.checking.erase call }.respond call response

/-- The connection after `as`, from its first template on. -/
def after (rb : RustBitcoin) (codes : ErrorCodes) (order : KeyMap.Iteration Wtxid Transaction)
    (block : Block) (as : List ConnectionStep) : Connection :=
  Runs.run (step rb codes) (bootstrapped rb order block) as

end Connection

end Sv2Apps.BitcoinCore
