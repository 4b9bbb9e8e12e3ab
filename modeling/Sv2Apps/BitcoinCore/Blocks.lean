/-
  BitcoinCore/Blocks.lean
  =======================
  **Blocks and their wire format** — the part of rust-bitcoin that an archived solution relies on: a
  block as its header and a counted list of transactions, its hash and the proof of work in it.

  Encoding is defined here; `consensus::deserialize`, which must read every byte, stays a parameter
  (`BlockLibrary`) with what the archive relies on as hypotheses.  `referenceBlocks_lawful`: a codec
  built from those of `Bitcoin.lean` meets them.
-/
import Sv2Apps.BitcoinCore.ReservedWeight

namespace Sv2Apps.BitcoinCore

open Bitcoin Codec ByteCodec TemplateDistribution

/-! ## Encoding -/

/-- `consensus::serialize` of a block. -/
def Block.encode (b : Block) : Bytes := b.header.encode ++ encodeVec Transaction.consensusEncode b.txdata

/-! ## Hash and proof of work -/

/-- `Header::target`. -/
def Header.target (h : Header) : Nat := targetOfCompact h.bits

/-- `Header::block_hash`. -/
def Header.blockHash (rb : RustBitcoin) (h : Header) : Hash256 := rb.sha256d h.encode

/-- `Target::is_met_by`. -/
def isMetBy (target : Nat) (hash : Hash256) : Bool := ofLe hash.val ≤ target

inductive ValidationError where
  | badTarget
  | badProofOfWork
deriving DecidableEq

/-- `Header::validate_pow`. -/
def Header.validatePow (rb : RustBitcoin) (h : Header) (requiredTarget : Nat) :
    Except ValidationError Hash256 :=
  if h.target ≠ requiredTarget then .error .badTarget
  else if isMetBy h.target (h.blockHash rb) then .ok (h.blockHash rb)
  else .error .badProofOfWork

/-- With the header's own target only the work can be missing. -/
theorem Header.validatePow_target {rb : RustBitcoin} {h : Header} {hash : Hash256} :
    h.validatePow rb h.target = .ok hash ↔
      hash = h.blockHash rb ∧ ofLe (h.blockHash rb).val ≤ h.target := by
  unfold Header.validatePow isMetBy
  simp only [ne_eq, not_true_eq_false, if_false, decide_eq_true_eq]
  split
  next hmet =>
    constructor
    · intro hok
      exact ⟨(Except.ok.inj hok).symm, hmet⟩
    · rintro ⟨rfl, -⟩
      rfl
  next hunmet =>
    constructor
    · intro hok
      cases hok
    · rintro ⟨-, hmet⟩
      exact absurd hmet hunmet

/-! ## Decoding, from outside -/

/-- The functions of rust-bitcoin on transactions and blocks that stand alone. -/
structure BlockLibrary where
  rb : RustBitcoin
  /-- `consensus::deserialize` of a transaction; no byte may be left over. -/
  deserializeTransaction : Bytes → Option Transaction
  /-- `consensus::deserialize` of a block. -/
  deserializeBlock : Bytes → Option Block

/-- What the archive relies on. -/
structure BlockLibrary.Lawful (lib : BlockLibrary) : Prop where
  transaction : ∀ b t, lib.deserializeTransaction b = some t → b = t.consensusEncode
  block : ∀ blk : Block, blk.encode.length ≤ maxDecodeSize →
    lib.deserializeBlock blk.encode = some blk

/-! ## A decoder that meets the hypotheses -/

def header : Codec Header :=
  (pair (pair (pair (pair (pair u32 hash256) hash256) u32) u32) u32).map
    (fun p => ⟨p.1.1.1.1.1, p.1.1.1.1.2, p.1.1.1.2, p.1.1.2, p.1.2, p.2⟩)
    (fun h => (((((h.version, h.prevBlockhash), h.merkleRoot), h.time), h.bits), h.nonce))
    fun _ _ => rfl

theorem header_valid (h : Header) : header.Valid h :=
  ⟨⟨⟨⟨⟨⟨u32_valid _, hash256_valid _⟩, hash256_valid _⟩, u32_valid _⟩, u32_valid _⟩, u32_valid _⟩, rfl⟩

theorem one_le_length_consensusEncode (t : Transaction) : 1 ≤ t.consensusEncode.length := by
  simp only [Transaction.consensusEncode, List.length_append, length_encodeU32]
  omega

/-- A whole transaction as one format. -/
def transaction : Codec Transaction where
  Valid t := t.consensusEncode.length ≤ maxDecodeSize
  enc t := t.consensusEncode
  dec bs := (decodeTx bs).filter fun p => p.1.consensusEncode.length ≤ maxDecodeSize
  dec_enc := by
    intro t rest h
    have hsmall : t.consensusEncode.length < 2 ^ 64 := by
      unfold maxDecodeSize at h
      omega
    simp [decodeTx_consensusEncode t rest hsmall, h]
  enc_dec := by
    intro bs t rest h
    obtain ⟨hdec, hlen⟩ := Option.filter_eq_some_iff.mp h
    exact ⟨of_decide_eq_true hlen, consensusEncode_decodeTx hdec⟩

def block : Codec Block :=
  (pair header (vec transaction)).map (fun p => ⟨p.1, p.2⟩) (fun b => (b.header, b.txdata))
    fun _ _ => rfl

theorem block_valid {b : Block} (h : b.encode.length ≤ maxDecodeSize) : block.Valid b := by
  have hbody : b.encode.length =
      b.header.encode.length + ((vec transaction).enc b.txdata).length := by
    rw [← List.length_append]
    rfl
  unfold maxDecodeSize at h
  have htxdata : (vec transaction).Valid b.txdata := by
    apply vec_valid_of_length
    · intro t ht
      refine ⟨one_le_length_consensusEncode t, fun _ => ?_⟩
      -- each transaction is a part of the block
      have hpart := length_le_flatMap_of_mem (f := transaction.enc) ht
      rw [enc_vec, List.length_append] at hbody
      show (transaction.enc t).length ≤ 4000000
      omega
    · omega
  exact ⟨⟨header_valid _, htxdata⟩, rfl⟩

/-- What a format decodes when no byte may be left over. -/
def whole {α : Type} (c : Codec α) (b : Bytes) : Option α :=
  match c.dec b with
  | some (a, []) => some a
  | _ => none

theorem whole_eq_some {α : Type} {c : Codec α} {b : Bytes} {a : α} :
    whole c b = some a ↔ c.Valid a ∧ b = c.enc a := by
  unfold whole
  constructor
  · intro h
    split at h
    next a' hdec =>
      cases h
      obtain ⟨hvalid, henc⟩ := c.enc_dec _ _ _ hdec
      exact ⟨hvalid, henc.trans (List.append_nil _)⟩
    next => cases h
  · rintro ⟨hvalid, rfl⟩
    have hdec := c.dec_enc a [] hvalid
    rw [List.append_nil] at hdec
    rw [hdec]

def referenceBlocks (rb : RustBitcoin) : BlockLibrary where
  rb := rb
  deserializeTransaction := whole transaction
  deserializeBlock := whole block

theorem referenceBlocks_lawful (rb : RustBitcoin) : (referenceBlocks rb).Lawful where
  transaction _ _ h := (whole_eq_some.mp h).2
  block _ h := whole_eq_some.mpr ⟨block_valid h, rfl⟩

end Sv2Apps.BitcoinCore
