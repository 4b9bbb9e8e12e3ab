/-
  BitcoinCore/ReservedWeight.lean
  ===============================
  **The weight reserved for a block is enough** — what `block_reserved_weight` has to pay for is
  the header, the transaction count and the coinbase; Bitcoin Core itself reserves nothing.

  The fixed part is itemised byte by byte (`Block.reservedPart_eq`); what is left of it has a bound
  for every coinbase that adds no more than was asked for (`Block.reservedPart_le`).
-/
import Sv2Apps.BitcoinCore.TemplateDistribution
import Sv2Apps.Lib.OverflowChecks

namespace Sv2Apps.BitcoinCore

open Bitcoin ByteCodec Codec OverflowChecks TemplateDistribution

namespace TemplateDistribution

variable {c : CoinbaseOutputConstraints}

/-! ## What is requested -/

/-- `block_reserved_weight`, with the arithmetic of `u64`. -/
def CoinbaseOutputConstraints.blockReservedWeight (c : CoinbaseOutputConstraints) (b : Build) :
    Option UInt64 := do
  let addedOutputsWeight ← mul b c.coinbaseOutputMaxAdditionalSize.toUInt64
    (UInt64.ofNat weightFactor)
  let weight ← add b (UInt64.ofNat fixedBlockReservedWeight) addedOutputsWeight
  return if weight < UInt64.ofNat minBlockReservedWeight then UInt64.ofNat minBlockReservedWeight
    else weight

theorem blockReservedWeight_options (c : CoinbaseOutputConstraints) :
    c.options.blockReservedWeight =
      max (1168 + c.coinbaseOutputMaxAdditionalSize.toNat * 4) 2000 := rfl

/-- In either build the exact value is requested. -/
theorem blockReservedWeight_eq (c : CoinbaseOutputConstraints) (b : Build) :
    c.blockReservedWeight b = some (UInt64.ofNat c.options.blockReservedWeight) := by
  obtain ⟨size, sigops⟩ := c
  have hs : size.toNat < 2 ^ 32 := size.toNat_lt
  have hmul : mul b size.toUInt64 (UInt64.ofNat weightFactor) =
      some (UInt64.ofNat (size.toNat * 4)) := by
    apply mul_of_lt
    show size.toNat * 4 < 2 ^ 64
    omega
  have hadded : (UInt64.ofNat (size.toNat * 4)).toNat = size.toNat * 4 := by
    apply toNat_ofNat_of_lt
    omega
  have hadd : add b (UInt64.ofNat fixedBlockReservedWeight) (UInt64.ofNat (size.toNat * 4)) =
      some (UInt64.ofNat (1168 + size.toNat * 4)) := by
    rw [add_of_lt, hadded]
    · rfl
    · rw [hadded]
      show 1168 + size.toNat * 4 < 2 ^ 64
      omega
  have hweight : (UInt64.ofNat (1168 + size.toNat * 4)).toNat = 1168 + size.toNat * 4 := by
    apply toNat_ofNat_of_lt
    omega
  have hmin : (UInt64.ofNat minBlockReservedWeight).toNat = 2000 := rfl
  rw [blockReservedWeight_options]
  unfold CoinbaseOutputConstraints.blockReservedWeight
  simp only [hmul, hadd, Option.bind_eq_bind, Option.bind_some, Option.pure_def,
    UInt64.lt_iff_toNat_lt, hweight, hmin]
  by_cases hfloor : 1168 + size.toNat * 4 < 2000
  · rw [if_pos hfloor, max_eq_right (Nat.le_of_lt hfloor)]
    rfl
  · rw [if_neg hfloor, max_eq_left (Nat.le_of_not_lt hfloor)]

theorem blockReservedWeight_lt (c : CoinbaseOutputConstraints) :
    c.options.blockReservedWeight < 2 ^ 64 := by
  have hs : c.coinbaseOutputMaxAdditionalSize.toNat < 2 ^ 32 :=
    c.coinbaseOutputMaxAdditionalSize.toNat_lt
  rw [blockReservedWeight_options]
  omega

end TemplateDistribution

/-! ## What it pays for -/

/-- The 80 bytes of a block header. -/
def Header.encode (h : Header) : Bytes :=
  encodeU32 h.version ++ h.prevBlockhash.val ++ h.merkleRoot.val ++ encodeU32 h.time
    ++ encodeU32 h.bits ++ encodeU32 h.nonce

@[simp] theorem Header.length_encode (h : Header) : h.encode.length = 80 := by
  simp [encode, h.prevBlockhash.property, h.merkleRoot.property]

/-- The weight of the header, of the transaction count and of the coinbase. -/
def Block.reservedPart (block : Block) (coinbase : Transaction) : Nat :=
  4 * (block.header.encode.length + (compactSizeEnc block.txdata.length).length) + coinbase.weight

/-- A coinbase that adds outputs of `size` bytes to what every block has: the one input, with
    the reserved witness value, and the output of the witness commitment. -/
structure CoinbaseAdds (size : Nat) (coinbase : Transaction) : Prop where
  input : ∃ i reserved, coinbase.input = [i] ∧ i.scriptSig.length ≤ 100 ∧
    i.witness = [reserved] ∧ reserved.length = 32
  output : ∃ commitment further, coinbase.output.Perm (commitment :: further) ∧
    commitment.scriptPubkey.length = 38 ∧ (further.map TxOut.size).sum ≤ size
  count : coinbase.output.length < 65536

/-- The coinbase, byte by byte. -/
theorem weight_of_input {coinbase : Transaction} {i : TxIn} {reserved : Bytes}
    (hin : coinbase.input = [i]) (hwitness : i.witness = [reserved])
    (hreserved : reserved.length = 32) :
    coinbase.weight = 4 * (49 + compactSizeLength i.scriptSig.length + i.scriptSig.length
      + compactSizeLength coinbase.output.length + (coinbase.output.map TxOut.size).sum) + 36 := by
  have hsegwit : coinbase.usesSegwitSerialization = true := by
    simp [Transaction.usesSegwitSerialization, hin, hwitness]
  have hinput : (encodeVec TxIn.encode coinbase.input).length =
      41 + compactSizeLength i.scriptSig.length + i.scriptSig.length := by
    simp only [hin, encodeVec, TxIn.encode, List.length_append, length_compactSizeEnc,
      List.flatMap_cons, List.flatMap_nil, List.length_nil, OutPoint.length_encode, enc_varBytes,
      length_encodeU32, List.length_singleton]
    have : compactSizeLength 1 = 1 := rfl
    omega
  have hwit : (coinbase.input.flatMap TxIn.encodeWitness).length = 34 := by
    simp only [hin, TxIn.encodeWitness, hwitness, encodeVec, List.flatMap_cons, List.flatMap_nil,
      List.length_append, List.length_nil, length_compactSizeEnc, enc_varBytes, hreserved,
      List.length_singleton]
    rfl
  have hbase : coinbase.encodeNonWitness.length = 8
      + (encodeVec TxIn.encode coinbase.input).length
      + (serializeOutputs coinbase.output).length := by
    simp only [Transaction.encodeNonWitness, List.length_append, length_encodeU32]
    omega
  have hwhole : coinbase.consensusEncode.length = coinbase.encodeNonWitness.length + 36 := by
    rw [hbase]
    simp only [Transaction.consensusEncode, hsegwit, if_true, List.length_append, List.length_cons,
      length_encodeU32, hwit]
    omega
  rw [Transaction.weight, hwhole, hbase, hinput, length_serializeOutputs]
  omega

/-- The output of the witness commitment takes 47 bytes. -/
theorem sum_size_of_perm {outs further : List TxOut} {commitment : TxOut}
    (hperm : outs.Perm (commitment :: further)) (hcommitment : commitment.scriptPubkey.length = 38) :
    (outs.map TxOut.size).sum = 47 + (further.map TxOut.size).sum := by
  rw [(hperm.map TxOut.size).sum_eq, List.map_cons, List.sum_cons, TxOut.size_eq, hcommitment]
  rfl

theorem Block.reservedPart_eq (block : Block) {coinbase : Transaction} {i : TxIn} {reserved : Bytes}
    {further : List TxOut} {commitment : TxOut} (hin : coinbase.input = [i])
    (hwitness : i.witness = [reserved]) (hreserved : reserved.length = 32)
    (hperm : coinbase.output.Perm (commitment :: further))
    (hcommitment : commitment.scriptPubkey.length = 38) :
    block.reservedPart coinbase = 740 + 4 * (compactSizeLength block.txdata.length
      + compactSizeLength i.scriptSig.length + i.scriptSig.length
      + compactSizeLength coinbase.output.length + (further.map TxOut.size).sum) := by
  rw [Block.reservedPart, weight_of_input hin hwitness hreserved, sum_size_of_perm hperm hcommitment,
    Header.length_encode, length_compactSizeEnc]
  omega

theorem Block.reservedPart_le {size : Nat} {block : Block} {coinbase : Transaction}
    (h : CoinbaseAdds size coinbase) (hcount : block.txdata.length < 65536) :
    block.reservedPart coinbase ≤ 1168 + size * 4 := by
  obtain ⟨i, reserved, hin, hsig, hwitness, hreserved⟩ := h.input
  obtain ⟨commitment, further, hperm, hcommitment, hsize⟩ := h.output
  have htxs := compactSizeLength_le_three hcount
  have houts := compactSizeLength_le_three h.count
  have hlen : compactSizeLength i.scriptSig.length = 1 := by
    unfold compactSizeLength
    rw [if_pos (by omega)]
  rw [block.reservedPart_eq hin hwitness hreserved hperm hcommitment, hlen]
  omega

/-! ## The result -/

/-- **The reserved weight is enough.**  Whatever constraints are asked for, the value requested
    of Bitcoin Core is computed without overflow, and it covers the header, the transaction
    count and the coinbase of every block that keeps to the constraints. -/
theorem reservedWeight_covers (c : CoinbaseOutputConstraints) :
    ∃ requested, (∀ build, c.blockReservedWeight build = some requested) ∧
      requested.toNat = c.options.blockReservedWeight ∧
      ∀ (block : Block) (coinbase : Transaction) (rest : List Transaction),
        block.txdata = coinbase :: rest → block.txdata.length < 65536 →
        CoinbaseAdds c.coinbaseOutputMaxAdditionalSize.toNat coinbase →
        block.reservedPart coinbase ≤ requested.toNat := by
  have htoNat := toNat_ofNat_of_lt (blockReservedWeight_lt c)
  refine ⟨UInt64.ofNat c.options.blockReservedWeight, blockReservedWeight_eq c, htoNat, ?_⟩
  intro block coinbase rest _ hcount hadds
  have hle := Block.reservedPart_le hadds hcount
  rw [htoNat, blockReservedWeight_options]
  omega

/-- A coinbase that pays one witness public key hash, its script signature full. -/
def sampleCoinbase : Transaction :=
  { version := 2
    lockTime := 0
    input := [{ previousOutput := OutPoint.null
                scriptSig := List.replicate 100 0
                sequence := 0xffffffff
                witness := [List.replicate 32 0] }]
    output := [⟨5000000000, List.replicate 22 0⟩, ⟨0, List.replicate 38 0⟩] }

def sampleReservedBlock : Block :=
  ⟨⟨0, Hash256.allZeros, Hash256.allZeros, 0, 0, 0⟩, [sampleCoinbase]⟩

theorem sampleCoinbase_adds : CoinbaseAdds 31 sampleCoinbase where
  input := ⟨_, _, rfl, by decide, rfl, by decide⟩
  output := ⟨⟨0, List.replicate 38 0⟩, [⟨5000000000, List.replicate 22 0⟩], List.Perm.swap _ _ _,
    by decide, by decide⟩
  count := by decide

theorem reservedWeight_covers_sample :
    ∃ requested, (CoinbaseOutputConstraints.mk 31 0).blockReservedWeight .checked = some requested ∧
      sampleReservedBlock.reservedPart sampleCoinbase ≤ requested.toNat := by
  obtain ⟨requested, hrequested, -, hcovers⟩ := reservedWeight_covers ⟨31, 0⟩
  exact ⟨requested, hrequested .checked,
    hcovers sampleReservedBlock sampleCoinbase [] rfl (by decide) sampleCoinbase_adds⟩

end Sv2Apps.BitcoinCore
