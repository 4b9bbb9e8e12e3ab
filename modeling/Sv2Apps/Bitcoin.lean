/-
  Bitcoin.lean
  ============
  **Transactions and their wire format** — the part of rust-bitcoin that the job
  declaration code relies on.  Encoding is defined here, in the layout that
  `consensus_encode` documents (BIP-144 marker and flag when an input has a witness);
  decoding and hashing stay parameters (`RustBitcoin`), with the two facts the code
  relies on as hypotheses (`RustBitcoin.Lawful`): a decoder accepts exactly the
  encodings, and it reads at most 4,000,000 bytes.

  `referenceDecoder_lawful` shows that the hypotheses are met by a decoder one can run.
-/
import Sv2Apps.Lib.ByteCodec
import Sv2Apps.Lib.MerkleBranch
import Sv2Apps.Lib.Sha256
import Mathlib.Algebra.GroupWithZero.Nat
import Mathlib.Data.List.Zip

namespace Sv2Apps.Bitcoin

open ByteCodec Codec

abbrev Bytes := List UInt8

/-- A 32-byte hash, in wire order. -/
def Hash256 := { b : Bytes // b.length = 32 }

instance : DecidableEq Hash256 := inferInstanceAs (DecidableEq { b : Bytes // b.length = 32 })

def Hash256.allZeros : Hash256 := ⟨List.replicate 32 0, rfl⟩

structure OutPoint where
  txid : Hash256
  vout : UInt32
deriving DecidableEq

/-- The previous output of a coinbase input. -/
def OutPoint.null : OutPoint := ⟨Hash256.allZeros, 0xffffffff⟩

structure TxIn where
  previousOutput : OutPoint
  scriptSig : Bytes
  sequence : UInt32
  witness : List Bytes
deriving DecidableEq

structure TxOut where
  value : UInt64
  scriptPubkey : Bytes
deriving DecidableEq

/-- `version` holds the bits of the signed field. -/
structure Transaction where
  version : UInt32
  lockTime : UInt32
  input : List TxIn
  output : List TxOut
deriving DecidableEq

/-! ## Encoding -/

def encodeU32 (x : UInt32) : Bytes := leBytes 4 x.toNat

def encodeU64 (x : UInt64) : Bytes := leBytes 8 x.toNat

@[simp] theorem length_encodeU32 (x : UInt32) : (encodeU32 x).length = 4 := by
  simp [encodeU32]

@[simp] theorem length_encodeU64 (x : UInt64) : (encodeU64 x).length = 8 := by
  simp [encodeU64]

def OutPoint.encode (o : OutPoint) : Bytes := o.txid.val ++ encodeU32 o.vout

@[simp] theorem OutPoint.length_encode (o : OutPoint) : o.encode.length = 36 := by
  simp [OutPoint.encode, o.txid.property]

def TxIn.encode (i : TxIn) : Bytes :=
  i.previousOutput.encode ++ varBytes.enc i.scriptSig ++ encodeU32 i.sequence

def TxOut.encode (o : TxOut) : Bytes := encodeU64 o.value ++ varBytes.enc o.scriptPubkey

/-- `TxOut::size`. -/
def TxOut.size (o : TxOut) : Nat := o.encode.length

def encodeVec {α : Type} (encode : α → Bytes) (xs : List α) : Bytes :=
  compactSizeEnc xs.length ++ xs.flatMap encode

/-- `consensus::serialize` of a list of outputs. -/
def serializeOutputs (outs : List TxOut) : Bytes := encodeVec TxOut.encode outs

theorem TxOut.size_eq (o : TxOut) :
    o.size = 8 + compactSizeLength o.scriptPubkey.length + o.scriptPubkey.length := by
  simp only [TxOut.size, TxOut.encode, List.length_append, length_encodeU64, enc_varBytes,
    length_compactSizeEnc, Nat.add_assoc]

theorem length_serializeOutputs (outs : List TxOut) :
    (serializeOutputs outs).length = compactSizeLength outs.length + (outs.map TxOut.size).sum := by
  rw [serializeOutputs, encodeVec, List.length_append, length_compactSizeEnc, List.length_flatMap]
  rfl

def TxIn.encodeWitness (i : TxIn) : Bytes := encodeVec varBytes.enc i.witness

def Transaction.usesSegwitSerialization (t : Transaction) : Bool :=
  t.input.any (fun i => !i.witness.isEmpty) || t.input.isEmpty

def Transaction.consensusEncode (t : Transaction) : Bytes :=
  encodeU32 t.version ++
  (if t.usesSegwitSerialization then
    0 :: 1 :: encodeVec TxIn.encode t.input ++ serializeOutputs t.output
      ++ t.input.flatMap TxIn.encodeWitness
  else encodeVec TxIn.encode t.input ++ serializeOutputs t.output) ++
  encodeU32 t.lockTime

/-- What the transaction id commits to: everything but the witnesses. -/
def Transaction.encodeNonWitness (t : Transaction) : Bytes :=
  encodeU32 t.version ++ encodeVec TxIn.encode t.input ++ serializeOutputs t.output
    ++ encodeU32 t.lockTime

/-- `Transaction::weight`: three times the size without witnesses, and the whole size. -/
def Transaction.weight (t : Transaction) : Nat :=
  3 * t.encodeNonWitness.length + t.consensusEncode.length

/-- `Transaction::is_coinbase`. -/
def Transaction.isCoinbase (t : Transaction) : Bool :=
  match t.input with
  | [i] => i.previousOutput = OutPoint.null
  | _ => false

/-- No more than `MAX_VEC_SIZE` bytes are read for one transaction. -/
def maxDecodeSize : Nat := 4000000

/-! ## Decoding and hashing, from outside -/

/-- The functions of rust-bitcoin that are not modelled by a definition. -/
structure RustBitcoin where
  /-- `Transaction::consensus_decode`; bytes after the transaction are ignored. -/
  decodeTransaction : Bytes → Option Transaction
  /-- `VarInt::consensus_decode`. -/
  decodeVarInt : Bytes → Option Nat
  sha256d : Bytes → Hash256

/-- What the callers rely on. -/
structure RustBitcoin.Lawful (rb : RustBitcoin) : Prop where
  decode_sound : ∀ b t, rb.decodeTransaction b = some t →
    t.consensusEncode.length ≤ maxDecodeSize ∧ ∃ rest, b = t.consensusEncode ++ rest
  decode_complete : ∀ t rest, t.consensusEncode.length ≤ maxDecodeSize →
    rb.decodeTransaction (t.consensusEncode ++ rest) = some t
  varInt : ∀ b n, rb.decodeVarInt b = some n ↔
    n < 2 ^ 64 ∧ ∃ rest, b = compactSizeEnc n ++ rest

/-- `compute_txid`. -/
def RustBitcoin.computeTxid (rb : RustBitcoin) (t : Transaction) : Hash256 :=
  rb.sha256d t.encodeNonWitness

/-- `compute_wtxid`. -/
def RustBitcoin.computeWtxid (rb : RustBitcoin) (t : Transaction) : Hash256 :=
  rb.sha256d t.consensusEncode

/-- The hash of an inner node of the transaction tree. -/
def RustBitcoin.merkleNode (rb : RustBitcoin) (l r : Hash256) : Hash256 :=
  rb.sha256d (l.val ++ r.val)

/-! ## A decoder that meets the hypotheses -/

def hash256 : Codec Hash256 :=
  (bytes 32).map (fun b => if h : b.length = 32 then ⟨b, h⟩ else Hash256.allZeros)
    Subtype.val fun a h => by
      have hlen : a.length = 32 := h
      simp [hlen]

def u32 : Codec UInt32 := (leNat 4).map UInt32.ofNat UInt32.toNat fun a h => by
  have ha : a < 256 ^ 4 := leNat_valid.mp h
  rw [UInt32.toNat_ofNat']
  omega

def u64 : Codec UInt64 := (leNat 8).map UInt64.ofNat UInt64.toNat fun a h => by
  have ha : a < 256 ^ 8 := leNat_valid.mp h
  rw [UInt64.toNat_ofNat']
  omega

@[simp] theorem hash256_valid (h : Hash256) : hash256.Valid h :=
  ⟨h.property, dif_pos h.property⟩

@[simp] theorem u32_valid (x : UInt32) : u32.Valid x :=
  ⟨leNat_valid.mpr x.toNat_lt, UInt32.ofNat_toNat⟩

@[simp] theorem u64_valid (x : UInt64) : u64.Valid x :=
  ⟨leNat_valid.mpr x.toNat_lt, UInt64.ofNat_toNat⟩

/-- An input without its witness. -/
def txIn : Codec TxIn :=
  (pair (pair (pair hash256 u32) varBytes) u32).map
    (fun p => ⟨⟨p.1.1.1, p.1.1.2⟩, p.1.2, p.2, []⟩)
    (fun i => (((i.previousOutput.txid, i.previousOutput.vout), i.scriptSig), i.sequence))
    fun _ _ => rfl

def txOut : Codec TxOut :=
  (pair u64 varBytes).map (fun p => ⟨p.1, p.2⟩) (fun o => (o.value, o.scriptPubkey))
    fun _ _ => rfl

theorem txIn_valid {i : TxIn} :
    txIn.Valid i ↔ i.scriptSig.length < 2 ^ 64 ∧ i.witness = [] := by
  constructor
  · rintro ⟨hv, hi⟩
    exact ⟨varBytes_valid.mp hv.1.2, (congrArg TxIn.witness hi).symm⟩
  · rintro ⟨hs, hw⟩
    refine ⟨⟨⟨⟨hash256_valid _, u32_valid _⟩, varBytes_valid.mpr hs⟩, u32_valid _⟩, ?_⟩
    cases i
    cases hw
    rfl

theorem txOut_valid {o : TxOut} : txOut.Valid o ↔ o.scriptPubkey.length < 2 ^ 64 :=
  ⟨fun h => varBytes_valid.mp h.1.2, fun h => ⟨⟨u64_valid _, varBytes_valid.mpr h⟩, rfl⟩⟩

theorem enc_txIn (i : TxIn) : txIn.enc i = i.encode := rfl

theorem enc_txOut (o : TxOut) : txOut.enc o = o.encode := rfl

/-- A whole transaction and the bytes after it. -/
def decodeTx (bs : Bytes) : Option (Transaction × Bytes) :=
  (u32.dec bs).bind fun version =>
  ((vec txIn).dec version.2).bind fun ins =>
  if ins.1 = [] then
    match ins.2 with
    | 1 :: bs =>
      ((vec txIn).dec bs).bind fun ins =>
      ((vec txOut).dec ins.2).bind fun outs =>
      ((exactly (vec varBytes) ins.1.length).dec outs.2).bind fun wits =>
      (u32.dec wits.2).bind fun lock =>
      if ins.1 ≠ [] ∧ wits.1.all List.isEmpty then none
      else some (⟨version.1, lock.1,
        List.zipWith (fun i w => { i with witness := w }) ins.1 wits.1, outs.1⟩, lock.2)
    | _ => none
  else
    ((vec txOut).dec ins.2).bind fun outs =>
    (u32.dec outs.2).map fun lock => (⟨version.1, lock.1, ins.1, outs.1⟩, lock.2)

def TxIn.withoutWitness (i : TxIn) : TxIn := { i with witness := [] }

theorem enc_vec_withoutWitness (ins : List TxIn) :
    (vec txIn).enc (ins.map TxIn.withoutWitness) = encodeVec TxIn.encode ins := by
  simp only [enc_vec, encodeVec, List.length_map, List.flatMap_map]
  rfl

theorem enc_vec_txOut (outs : List TxOut) : (vec txOut).enc outs = serializeOutputs outs := rfl

theorem enc_exactly_witness (ins : List TxIn) :
    (exactly (vec varBytes) ins.length).enc (ins.map TxIn.witness) =
      ins.flatMap TxIn.encodeWitness := by
  simp only [exactly, List.flatMap_map]
  rfl

theorem zipWith_withoutWitness (ins : List TxIn) :
    List.zipWith (fun i w => { i with witness := w }) (ins.map TxIn.withoutWitness)
      (ins.map TxIn.witness) = ins := by
  induction ins with
  | nil => rfl
  | cons i ins ih => simp only [List.map_cons, List.zipWith_cons_cons, ih]; rfl

theorem vec_txIn_valid (ins : List TxIn)
    (h : (encodeVec TxIn.encode ins).length < 2 ^ 64) :
    (vec txIn).Valid (ins.map TxIn.withoutWitness) := by
  apply vec_valid_of_length
  · intro i hi
    obtain ⟨j, -, rfl⟩ := List.mem_map.mp hi
    rw [enc_txIn]
    simp only [TxIn.encode, TxIn.withoutWitness, List.length_append, OutPoint.length_encode]
    refine ⟨by omega, fun hlt => txIn_valid.mpr ⟨?_, rfl⟩⟩
    rw [enc_varBytes, List.length_append] at hlt
    show j.scriptSig.length < 2 ^ 64
    omega
  · rw [enc_vec_withoutWitness]; exact h

theorem vec_txOut_valid {outs : List TxOut}
    (h : (serializeOutputs outs).length < 2 ^ 64) : (vec txOut).Valid outs := by
  refine vec_valid_of_length ?_ h
  intro o _
  rw [enc_txOut]
  simp only [TxOut.encode, List.length_append, length_encodeU64]
  refine ⟨by omega, fun hlt => txOut_valid.mpr ?_⟩
  rw [enc_varBytes, List.length_append] at hlt
  omega

/-- The bytes of outputs determine the outputs. -/
theorem serializeOutputs_inj {outs outs' : List TxOut}
    (h : (serializeOutputs outs).length < 2 ^ 64)
    (heq : serializeOutputs outs = serializeOutputs outs') : outs = outs' := by
  have hdec := (vec txOut).dec_enc outs [] (vec_txOut_valid h)
  have hdec' := (vec txOut).dec_enc outs' [] (vec_txOut_valid (heq ▸ h))
  rw [enc_vec_txOut] at hdec hdec'
  rw [heq, hdec'] at hdec
  exact (Prod.mk.inj (Option.some.inj hdec)).1.symm

theorem exactly_witness_valid (ins : List TxIn)
    (h : (ins.flatMap TxIn.encodeWitness).length < 2 ^ 64) :
    (exactly (vec varBytes) ins.length).Valid (ins.map TxIn.witness) := by
  refine ⟨List.length_map _, ?_⟩
  intro w hw
  obtain ⟨i, hi, rfl⟩ := List.mem_map.mp hw
  have hlt := length_le_flatMap_of_mem (f := TxIn.encodeWitness) hi
  refine vec_valid_of_length ?_ (Nat.lt_of_le_of_lt hlt h)
  intro b _
  refine ⟨?_, varBytes_valid_of_length⟩
  have := compactSizeLength_pos b.length
  rw [enc_varBytes, List.length_append, length_compactSizeEnc]
  omega

theorem dec_u32 (x : UInt32) (rest : Bytes) :
    u32.dec (encodeU32 x ++ rest) = some (x, rest) :=
  u32.dec_enc x rest (u32_valid x)

theorem decodeTx_consensusEncode (t : Transaction) (rest : Bytes)
    (h : t.consensusEncode.length < 2 ^ 64) :
    decodeTx (t.consensusEncode ++ rest) = some (t, rest) := by
  unfold Transaction.consensusEncode at h ⊢
  cases hseg : t.usesSegwitSerialization with
  | true =>
    simp only [hseg, if_true, List.length_append, List.length_cons] at h ⊢
    have hin := (vec txIn).dec_enc _ (serializeOutputs t.output
      ++ (t.input.flatMap TxIn.encodeWitness ++ (encodeU32 t.lockTime ++ rest)))
      (vec_txIn_valid t.input (by omega))
    have hout := (vec txOut).dec_enc t.output
      (t.input.flatMap TxIn.encodeWitness ++ (encodeU32 t.lockTime ++ rest))
      (vec_txOut_valid (by omega))
    have hwit := (exactly (vec varBytes) t.input.length).dec_enc _
      (encodeU32 t.lockTime ++ rest) (exactly_witness_valid t.input (by omega))
    rw [enc_vec_withoutWitness] at hin
    rw [enc_vec_txOut] at hout
    rw [enc_exactly_witness] at hwit
    -- the marker byte reads as an empty input list
    have hmark : ∀ bs, (vec txIn).dec (0 :: bs) = some ([], bs) := fun bs =>
      (vec txIn).dec_enc [] bs (vec_valid.mpr (by simp))
    have hkeep : ¬ (t.input.map TxIn.withoutWitness ≠ [] ∧
        (t.input.map TxIn.witness).all List.isEmpty = true) := by
      rintro ⟨hne, hall⟩
      simp only [Transaction.usesSegwitSerialization, Bool.or_eq_true, List.any_eq_true,
        List.isEmpty_iff] at hseg
      rcases hseg with ⟨i, hi, hw⟩ | hnil
      · have := List.all_eq_true.mp hall _ (List.mem_map_of_mem hi)
        simp [this] at hw
      · exact hne (by simp [hnil])
    simp only [decodeTx, List.append_assoc, List.cons_append, dec_u32, Option.bind_some,
      hmark, if_true, hin, hout, List.length_map, hwit, zipWith_withoutWitness]
    rw [if_neg hkeep]
  | false =>
    simp only [hseg, Bool.false_eq_true, if_false, List.length_append] at h ⊢
    simp only [Transaction.usesSegwitSerialization, Bool.or_eq_false_iff,
      List.any_eq_false] at hseg
    have hbase : t.input.map TxIn.withoutWitness = t.input := by
      apply List.map_congr_left (g := id) _ |>.trans (List.map_id _)
      intro i hi
      have hw := hseg.1 i hi
      cases i
      simp_all [TxIn.withoutWitness]
    have hne : t.input ≠ [] := by
      intro hnil
      simp [hnil] at hseg
    have hin := (vec txIn).dec_enc _
      (serializeOutputs t.output ++ (encodeU32 t.lockTime ++ rest))
      (vec_txIn_valid t.input (by omega))
    have hout := (vec txOut).dec_enc t.output (encodeU32 t.lockTime ++ rest)
      (vec_txOut_valid (by omega))
    rw [enc_vec_withoutWitness, hbase] at hin
    rw [enc_vec_txOut] at hout
    simp only [decodeTx, List.append_assoc, dec_u32, Option.bind_some, hin, if_neg hne, hout,
      Option.map_some]

theorem zipWith_setWitness (ins : List TxIn) {wits : List (List Bytes)}
    (hlen : wits.length = ins.length) :
    (List.zipWith (fun i w => { i with witness := w }) ins wits).map TxIn.witness = wits ∧
      encodeVec TxIn.encode
          (List.zipWith (fun i w => { i with witness := w }) ins wits) =
        encodeVec TxIn.encode ins := by
  have hboth : ∀ (ins : List TxIn) (wits : List (List Bytes)), wits.length = ins.length →
      (List.zipWith (fun i w => { i with witness := w }) ins wits).map TxIn.witness = wits ∧
        (List.zipWith (fun i w => { i with witness := w }) ins wits).flatMap TxIn.encode =
          ins.flatMap TxIn.encode := by
    intro ins
    induction ins with
    | nil =>
      intro wits h
      cases wits with
      | nil => exact ⟨rfl, rfl⟩
      | cons w ws => simp at h
    | cons i ins ih =>
      intro wits h
      cases wits with
      | nil => simp at h
      | cons w ws =>
        obtain ⟨hw, he⟩ := ih ws (by simpa using h)
        refine ⟨by simp [hw], ?_⟩
        simp only [List.zipWith_cons_cons, List.flatMap_cons, he]
        rfl
  obtain ⟨hw, he⟩ := hboth ins wits hlen
  refine ⟨hw, ?_⟩
  simp only [encodeVec, he, List.length_zipWith, hlen, Nat.min_self]

theorem consensusEncode_decodeTx {bs : Bytes} {t : Transaction} {rest : Bytes}
    (hdec : decodeTx bs = some (t, rest)) : bs = t.consensusEncode ++ rest := by
  obtain ⟨⟨version, b₁⟩, hver, hbody⟩ := Option.bind_eq_some_iff.mp hdec
  obtain ⟨⟨ins, b₂⟩, hins, hrest⟩ := Option.bind_eq_some_iff.mp hbody
  obtain ⟨-, rfl⟩ := u32.enc_dec _ _ _ hver
  obtain ⟨hvin, rfl⟩ := (vec txIn).enc_dec _ _ _ hins
  by_cases hempty : ins = []
  · -- marker and flag: the witnesses follow the outputs
    subst hempty
    rw [if_pos rfl] at hrest
    split at hrest
    next bs hflag =>
      have hb₂ : b₂ = 1 :: bs := hflag
      subst hb₂
      obtain ⟨⟨ins, b₃⟩, hins', h₃⟩ := Option.bind_eq_some_iff.mp hrest
      obtain ⟨⟨outs, b₄⟩, houts, h₄⟩ := Option.bind_eq_some_iff.mp h₃
      obtain ⟨⟨wits, b₅⟩, hwits, h₅⟩ := Option.bind_eq_some_iff.mp h₄
      obtain ⟨⟨lock, b₆⟩, hlock, h₆⟩ := Option.bind_eq_some_iff.mp h₅
      dsimp only at houts hwits hlock h₆
      obtain ⟨-, rfl⟩ := (vec txIn).enc_dec _ _ _ hins'
      obtain ⟨-, rfl⟩ := (vec txOut).enc_dec _ _ _ houts
      obtain ⟨hvw, rfl⟩ := (exactly _ _).enc_dec _ _ _ hwits
      obtain ⟨-, rfl⟩ := u32.enc_dec _ _ _ hlock
      split at h₆
      next => cases h₆
      next hkeep =>
        cases h₆
        obtain ⟨hwit, henc⟩ := zipWith_setWitness ins hvw.1
        have hseg : Transaction.usesSegwitSerialization ⟨version, lock,
            List.zipWith (fun i w => { i with witness := w }) ins wits, outs⟩ = true := by
          by_contra hno
          simp only [Transaction.usesSegwitSerialization, Bool.not_eq_true,
            Bool.or_eq_false_iff, List.any_eq_false, List.isEmpty_eq_false_iff] at hno
          refine hkeep ⟨fun hnil => hno.2 (by simp [hnil]), ?_⟩
          rw [← hwit, List.all_map, List.all_eq_true]
          intro i hi
          simpa using hno.1 i hi
        have hwitenc := enc_exactly_witness
          (List.zipWith (fun i w => { i with witness := w }) ins wits)
        rw [hwit] at hwitenc
        simp only [Transaction.consensusEncode, hseg, if_true, henc, ← hwitenc,
          List.append_assoc]
        rfl
    next => cases hrest
  · rw [if_neg hempty] at hrest
    obtain ⟨⟨outs, b₃⟩, houts, h₃⟩ := Option.bind_eq_some_iff.mp hrest
    obtain ⟨⟨lock, b₄⟩, hlock, h₄⟩ := Option.map_eq_some_iff.mp h₃
    cases h₄
    obtain ⟨-, rfl⟩ := (vec txOut).enc_dec _ _ _ houts
    obtain ⟨-, rfl⟩ := u32.enc_dec _ _ _ hlock
    have hseg : Transaction.usesSegwitSerialization ⟨version, lock, ins, outs⟩ = false := by
      simp only [Transaction.usesSegwitSerialization, Bool.or_eq_false_iff, List.any_eq_false]
      refine ⟨fun i hi => ?_, by simpa using hempty⟩
      have hw := (txIn_valid.mp ((vec_valid.mp hvin).2 i hi)).2
      simp [hw]
    simp only [Transaction.consensusEncode, hseg, Bool.false_eq_true, if_false,
      List.append_assoc]
    rfl

/-- A decoder that can be run, over any hash function. -/
def referenceDecoder (sha256d : Bytes → Hash256) : RustBitcoin where
  decodeTransaction b := (decodeTx (b.take maxDecodeSize)).map Prod.fst
  decodeVarInt b := (compactSizeDec b).map Prod.fst
  sha256d := sha256d

theorem referenceDecoder_lawful (sha256d : Bytes → Hash256) :
    (referenceDecoder sha256d).Lawful where
  decode_sound := by
    intro b t h
    obtain ⟨⟨t', rest⟩, hdec, rfl⟩ := Option.map_eq_some_iff.mp h
    have henc := consensusEncode_decodeTx hdec
    have hlen := congrArg List.length henc
    rw [List.length_append] at hlen
    have htake : (b.take maxDecodeSize).length ≤ maxDecodeSize := List.length_take_le _ b
    refine ⟨by simp only; omega, rest ++ b.drop maxDecodeSize, ?_⟩
    calc b = b.take maxDecodeSize ++ b.drop maxDecodeSize := (List.take_append_drop _ b).symm
      _ = _ := by rw [henc, List.append_assoc]
  decode_complete := by
    intro t rest h
    have hsmall : t.consensusEncode.length < 2 ^ 64 := by
      unfold maxDecodeSize at h; omega
    show (decodeTx ((t.consensusEncode ++ rest).take maxDecodeSize)).map Prod.fst = some t
    rw [List.take_append, List.take_of_length_le h, decodeTx_consensusEncode t _ hsmall]
    rfl
  varInt := by
    intro b n
    show (compactSizeDec b).map Prod.fst = some n ↔ _
    constructor
    · intro h
      obtain ⟨⟨m, rest⟩, hdec, rfl⟩ := Option.map_eq_some_iff.mp h
      obtain ⟨hlt, hb⟩ := enc_compactSizeDec hdec
      exact ⟨hlt, rest, hb⟩
    · rintro ⟨hlt, rest, rfl⟩
      rw [compactSizeDec_enc rest hlt]
      rfl

/-- The reference decoder with double SHA-256. -/
def referenceBitcoin : RustBitcoin :=
  referenceDecoder fun b => ⟨Sha256.sha256d b, Sha256.length_sha256d b⟩

theorem referenceBitcoin_lawful : referenceBitcoin.Lawful := referenceDecoder_lawful _

end Sv2Apps.Bitcoin
