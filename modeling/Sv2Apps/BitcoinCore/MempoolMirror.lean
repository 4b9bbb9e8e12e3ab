/-
  BitcoinCore/MempoolMirror.lean
  ==============================
  **The mempool mirror** of the job declaration protocol over Bitcoin Core — `mempool.rs` of
  `unix_capnp/v31x/job_declaration_protocol`.

  The mirror holds the transactions of the current template and what it carries over beyond them,
  by wtxid.  Its two bounds are kept by two loops over different things: `update` trims the
  carry-over when a template arrives, in whatever order the hash map is visited, and
  `add_transactions` stops at the ceiling.  The bound holds for both because a wtxid stands for one
  transaction: what the mirror holds under the wtxid of a template transaction weighs what the
  template's weighs.  That is the hypothesis on `computeWtxid` here, for the transactions that occur.

  Weights are natural numbers; the sums that the two loops form in a `u64` are listed
  (`carriedSums`, `commitSums`), and the result says that none of them overflows.
-/
import Sv2Apps.Bitcoin
import Sv2Apps.Lib.WeightedMap
import Sv2Apps.Lib.Runs

namespace Sv2Apps.BitcoinCore

open Bitcoin

abbrev Wtxid := Hash256
abbrev Txid := Hash256
abbrev BlockHash := Hash256

/-- `Weight::MAX_BLOCK`. -/
def maxBlockWeight : Nat := 4000000

def maxMirrorCarryOverWeight : Nat := 4 * maxBlockWeight

def maxMirrorWeight : Nat := maxBlockWeight + maxMirrorCarryOverWeight

structure Header where
  version : UInt32
  prevBlockhash : BlockHash
  merkleRoot : Hash256
  time : UInt32
  bits : UInt32
  nonce : UInt32
deriving DecidableEq

structure Block where
  header : Header
  txdata : List Transaction
deriving DecidableEq

/-- The transactions behind the coinbase, which is never part of the mirror. -/
def Block.others (block : Block) : List Transaction := block.txdata.drop 1

/-- Why `resolve_txdata` could not hand back a transaction list. -/
inductive ResolveError where
  | missing (wtxids : List Wtxid)
  | tooHeavy
deriving DecidableEq

structure MempoolMirror where
  txdata : KeyMap Wtxid Transaction
  currentPrevHash : Option BlockHash
  currentNbits : Option UInt32
  currentNtime : Option UInt32

namespace MempoolMirror

def new : MempoolMirror := ⟨∅, none, none, none⟩

/-! ## `update` -/

/-- The transactions of a template, by wtxid. -/
def template (rb : RustBitcoin) (block : Block) : KeyMap Wtxid Transaction :=
  block.others.foldl (fun m tx => m.insert (rb.computeWtxid tx) tx) ∅

def inTemplate (rb : RustBitcoin) (block : Block) (wtxid : Wtxid) : Bool :=
  ((template rb block).lookup wtxid).isSome

/-- The loop of `retain`; what is dropped counts towards the budget too. -/
def retainCarried (kept : Wtxid → Bool) (carried : Nat) :
    List (Σ _ : Wtxid, Transaction) → List (Σ _ : Wtxid, Transaction)
  | [] => []
  | e :: es =>
    if kept e.1 then e :: retainCarried kept carried es
    else if carried + e.2.weight ≤ maxMirrorCarryOverWeight then
      e :: retainCarried kept (carried + e.2.weight) es
    else retainCarried kept (carried + e.2.weight) es

/-- The values of `carried` in that loop. -/
def carriedSums (kept : Wtxid → Bool) (carried : Nat) :
    List (Σ _ : Wtxid, Transaction) → List Nat
  | [] => []
  | e :: es =>
    if kept e.1 then carriedSums kept carried es
    else (carried + e.2.weight) :: carriedSums kept (carried + e.2.weight) es

theorem retainCarried_sublist (kept : Wtxid → Bool) (carried : Nat)
    (es : List (Σ _ : Wtxid, Transaction)) : (retainCarried kept carried es).Sublist es := by
  induction es generalizing carried with
  | nil => exact List.Sublist.refl _
  | cons e es ih =>
    simp only [retainCarried]
    split
    · exact (ih carried).cons_cons e
    split
    · exact (ih _).cons_cons e
    · exact (ih _).cons e

/-- What is left of the transactions when a chain tip comes. -/
def cleared (m : MempoolMirror) (prevHash : BlockHash) : KeyMap Wtxid Transaction :=
  if m.currentPrevHash ≠ some prevHash then ∅ else m.txdata

/-- The transactions that `retain` keeps. -/
def carriedOver (rb : RustBitcoin) (m : MempoolMirror)
    (order : KeyMap.Iteration Wtxid Transaction) (block : Block) : KeyMap Wtxid Transaction :=
  let entries := (m.cleared block.header.prevBlockhash).entries
  ⟨retainCarried (inTemplate rb block) 0 (order.visit entries), by
    have hperm := List.perm_nodupKeys (order.perm entries)
    exact (hperm.mpr (m.cleared block.header.prevBlockhash).nodupKeys).sublist
      (retainCarried_sublist _ _ _)⟩

/-- `update`, when the hash map is visited in `order`. -/
def update (rb : RustBitcoin) (m : MempoolMirror) (order : KeyMap.Iteration Wtxid Transaction)
    (block : Block) : MempoolMirror where
  txdata := (template rb block).entries.foldl (fun txdata e => KeyMap.ensure e.1 e.2 txdata)
    (m.carriedOver rb order block)
  currentPrevHash := some block.header.prevBlockhash
  currentNbits := some block.header.bits
  currentNtime := some block.header.time

/-! ## `add_transactions` -/

/-- The loop of `add_transactions`. -/
def commit (rb : RustBitcoin) (mirrorWeight : Nat) (txdata : KeyMap Wtxid Transaction) :
    List Transaction → KeyMap Wtxid Transaction
  | [] => txdata
  | tx :: txs =>
    if (txdata.lookup (rb.computeWtxid tx)).isSome then commit rb mirrorWeight txdata txs
    else if mirrorWeight + tx.weight > maxMirrorWeight then txdata
    else commit rb (mirrorWeight + tx.weight) (txdata.insert (rb.computeWtxid tx) tx) txs

/-- The values of `mirror_weight + weight` in that loop. -/
def commitSums (rb : RustBitcoin) (mirrorWeight : Nat) (txdata : KeyMap Wtxid Transaction) :
    List Transaction → List Nat
  | [] => []
  | tx :: txs =>
    if (txdata.lookup (rb.computeWtxid tx)).isSome then commitSums rb mirrorWeight txdata txs
    else if mirrorWeight + tx.weight > maxMirrorWeight then [mirrorWeight + tx.weight]
    else (mirrorWeight + tx.weight) ::
      commitSums rb (mirrorWeight + tx.weight) (txdata.insert (rb.computeWtxid tx) tx) txs

/-- What the mirror holds, weighed. -/
def weight (m : MempoolMirror) : Nat := KeyMap.total Transaction.weight m.txdata

def addTransactions (rb : RustBitcoin) (m : MempoolMirror) (transactions : List Transaction) :
    MempoolMirror :=
  { m with txdata := commit rb m.weight m.txdata transactions }

/-! ## `resolve_txdata` -/

/-- The loop of `resolve_txdata`. -/
def resolveLoop (m : MempoolMirror) (staged : KeyMap Wtxid Transaction) (weightBudget : Nat)
    (txdata : List Transaction) (missing : List Wtxid) (weight : Nat) :
    List Wtxid → Except ResolveError (List Transaction)
  | [] => if missing.isEmpty then .ok txdata else .error (.missing missing)
  | wtxid :: wtxids =>
    match (staged.lookup wtxid).or (m.txdata.lookup wtxid) with
    | some tx =>
      if weight + tx.weight > weightBudget then .error .tooHeavy
      else resolveLoop m staged weightBudget (txdata ++ [tx]) missing (weight + tx.weight) wtxids
    | none => resolveLoop m staged weightBudget txdata (missing ++ [wtxid]) weight wtxids

def resolveTxdata (m : MempoolMirror) (wtxids : List Wtxid) (staged : KeyMap Wtxid Transaction)
    (weightBudget : Nat) : Except ResolveError (List Transaction) :=
  m.resolveLoop staged weightBudget [] [] 0 wtxids

end MempoolMirror

end Sv2Apps.BitcoinCore
