/-
  CoinbaseOutputConstraints.lean
  ==============================
  **What is reserved for coinbase outputs** — `stratum-apps/src/coinbase_output_constraints.rs`.

  The size of the outputs is summed in 32 bits, the cost of their signature operations is cut to
  16.  `Transaction::total_sigop_cost` is rust-bitcoin's and a parameter; what it gives for a
  coinbase is the rule of Bitcoin's consensus (`SigopCounting.Lawful`): four times the legacy
  count, which `legacySigops` spells out.

  `constraintsMessage_exact`: when both totals fit, the message carries them unchanged.
-/
import Sv2Apps.BitcoinCore.TemplateDistribution
import Sv2Apps.Lib.OverflowChecks

namespace Sv2Apps

open Bitcoin ByteCodec OverflowChecks
open BitcoinCore.TemplateDistribution (CoinbaseOutputConstraints)

/-! ## Signature operations -/

/-- The bytes that an opcode pushes, with those that say how many there are. -/
def pushSize (opcode : UInt8) (rest : Bytes) : Option Nat :=
  if opcode ≤ 0x4b then some opcode.toNat
  else if opcode = 0x4c then some (1 + ofLe (rest.take 1))
  else if opcode = 0x4d then some (2 + ofLe (rest.take 2))
  else if opcode = 0x4e then some (4 + ofLe (rest.take 4))
  else none

/-- A check of one signature counts once, one of several signatures twenty times. -/
def sigopsOf (opcode : UInt8) : Nat :=
  if opcode = 0xac ∨ opcode = 0xad then 1
  else if opcode = 0xae ∨ opcode = 0xaf then 20
  else 0

/-- Reads at most `fuel` instructions; a push that the script cuts short ends the count. -/
def legacySigopsFrom : Nat → Bytes → Nat
  | 0, _ => 0
  | _ + 1, [] => 0
  | fuel + 1, opcode :: rest =>
    match pushSize opcode rest with
    | some n => if n ≤ rest.length then legacySigopsFrom fuel (rest.drop n) else 0
    | none => sigopsOf opcode + legacySigopsFrom fuel rest

/-- `count_sigops_legacy`. -/
def legacySigops (script : Bytes) : Nat := legacySigopsFrom script.length script

def outputSigops (outs : List TxOut) : Nat := (outs.map fun o => legacySigops o.scriptPubkey).sum

/-- `Transaction::total_sigop_cost`, where nothing is known of the outputs that are spent. -/
structure SigopCounting where
  totalSigopCost : Transaction → Nat

/-- A coinbase spends no output, so only what it contains is counted. -/
def SigopCounting.Lawful (counting : SigopCounting) : Prop :=
  ∀ coinbase : Transaction, coinbase.isCoinbase = true →
    counting.totalSigopCost coinbase =
      4 * ((coinbase.input.map fun i => legacySigops i.scriptSig).sum + outputSigops coinbase.output)

def referenceCounting : SigopCounting where
  totalSigopCost t :=
    4 * ((t.input.map fun i => legacySigops i.scriptSig).sum + outputSigops t.output)

theorem referenceCounting_lawful : referenceCounting.Lawful := fun _ _ => rfl

/-! ## The messages -/

/-- A coinbase with nothing in it but the outputs. -/
def dummyCoinbase (outs : List TxOut) : Transaction :=
  { version := 2
    lockTime := 0
    input := [{ previousOutput := OutPoint.null
                scriptSig := []
                sequence := 0xffffffff
                witness := [List.replicate 32 0] }]
    output := outs }

def offsetAdditionalSize : UInt32 := 43

def offsetMaxSigops : UInt16 := 4

/-- `coinbase_output_constraints_message`. -/
def coinbaseOutputConstraintsMessage (counting : SigopCounting) (b : Build) (outs : List TxOut) :
    Option CoinbaseOutputConstraints := do
  let maxSize ← sumU32 b (outs.map fun o => UInt32.ofNat o.size)
  let maxSigops := UInt16.ofNat (counting.totalSigopCost (dummyCoinbase outs))
  return ⟨maxSize, maxSigops⟩

/-- `coinbase_output_constraints_message_with_offset`. -/
def coinbaseOutputConstraintsMessageWithOffset (counting : SigopCounting) (b : Build)
    (outs : List TxOut) : Option CoinbaseOutputConstraints := do
  let constraints ← coinbaseOutputConstraintsMessage counting b outs
  let maxSize ← addU32 b constraints.coinbaseOutputMaxAdditionalSize offsetAdditionalSize
  let maxSigops ← addU16 b constraints.coinbaseOutputMaxAdditionalSigops offsetMaxSigops
  return ⟨maxSize, maxSigops⟩

theorem totalSigopCost_dummyCoinbase {counting : SigopCounting} (h : counting.Lawful) (outs : List TxOut) :
    counting.totalSigopCost (dummyCoinbase outs) = 4 * outputSigops outs := by
  rw [h (dummyCoinbase outs) rfl]
  simp [dummyCoinbase, legacySigops, legacySigopsFrom]

/-- Each size fits when their sum does. -/
theorem map_toNat_sizes {outs : List TxOut} (h : (outs.map TxOut.size).sum < 2 ^ 32) :
    (outs.map fun o => UInt32.ofNat o.size).map UInt32.toNat = outs.map TxOut.size := by
  rw [List.map_map]
  apply List.map_congr_left
  intro o ho
  have hle : o.size ≤ (outs.map TxOut.size).sum :=
    List.le_sum_of_mem (List.mem_map_of_mem ho)
  show (UInt32.ofNat o.size).toNat = o.size
  rw [UInt32.toNat_ofNat', Nat.mod_eq_of_lt (by omega)]

section

variable (counting : SigopCounting) (b : Build) {outs : List TxOut}

/-- Totals that fit are carried unchanged. -/
theorem constraintsMessage_exact (hsize : (outs.map TxOut.size).sum < 2 ^ 32)
    (hcost : counting.totalSigopCost (dummyCoinbase outs) < 2 ^ 16) :
    ∃ c, coinbaseOutputConstraintsMessage counting b outs = some c ∧
      c.coinbaseOutputMaxAdditionalSize.toNat = (outs.map TxOut.size).sum ∧
      c.coinbaseOutputMaxAdditionalSigops.toNat =
        counting.totalSigopCost (dummyCoinbase outs) := by
  have hsizes := map_toNat_sizes hsize
  obtain ⟨z, hsum, hz⟩ := sumU32_of_lt (b := b) (show
    ((outs.map fun o => UInt32.ofNat o.size).map UInt32.toNat).sum < 2 ^ 32 by rwa [hsizes])
  rw [hsizes] at hz
  refine ⟨⟨z, UInt16.ofNat (counting.totalSigopCost (dummyCoinbase outs))⟩, ?_, hz, ?_⟩
  · unfold coinbaseOutputConstraintsMessage
    rw [hsum]
    rfl
  · show (UInt16.ofNat _).toNat = _
    rw [UInt16.toNat_ofNat', Nat.mod_eq_of_lt hcost]

theorem constraintsMessageWithOffset_exact (hsize : (outs.map TxOut.size).sum + 43 < 2 ^ 32)
    (hcost : counting.totalSigopCost (dummyCoinbase outs) + 4 < 2 ^ 16) :
    ∃ c, coinbaseOutputConstraintsMessageWithOffset counting b outs = some c ∧
      c.coinbaseOutputMaxAdditionalSize.toNat = (outs.map TxOut.size).sum + 43 ∧
      c.coinbaseOutputMaxAdditionalSigops.toNat =
        counting.totalSigopCost (dummyCoinbase outs) + 4 := by
  obtain ⟨c, hmessage, hc, hs⟩ := constraintsMessage_exact counting b
    (show (outs.map TxOut.size).sum < 2 ^ 32 by omega)
    (show counting.totalSigopCost (dummyCoinbase outs) < 2 ^ 16 by omega)
  have hoffset : offsetAdditionalSize.toNat = 43 := rfl
  have hmax : offsetMaxSigops.toNat = 4 := rfl
  obtain ⟨size, haddSize, hsize'⟩ := addU32_of_lt (b := b) (show
    c.coinbaseOutputMaxAdditionalSize.toNat + offsetAdditionalSize.toNat < 2 ^ 32 by omega)
  obtain ⟨sigops, haddSigops, hsigops'⟩ := addU16_of_lt (b := b) (show
    c.coinbaseOutputMaxAdditionalSigops.toNat + offsetMaxSigops.toNat < 2 ^ 16 by omega)
  refine ⟨⟨size, sigops⟩, ?_, by rw [hsize', hc, hoffset], by rw [hsigops', hs, hmax]⟩
  unfold coinbaseOutputConstraintsMessageWithOffset
  rw [hmessage, Option.bind_eq_bind, Option.bind_some, haddSize, Option.bind_eq_bind,
    Option.bind_some, haddSigops]
  rfl

end

end Sv2Apps
