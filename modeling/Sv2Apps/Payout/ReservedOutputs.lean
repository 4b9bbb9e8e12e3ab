/-
  Payout/ReservedOutputs.lean
  ===========================
  **What the pool reserves and what it pays** — the pool asks for the room of its own output and
  a fixed offset, 43 bytes and 4 signature operations, before it knows whom its miners want paid
  (`PoolConfig::get_txout`, `ChannelManager::coinbase_output_constraints`).

  The script of an address takes at most 42 bytes (`length_scriptPubkey_le`): those of the
  common types at most 34, a witness program of a later version up to 42.  An output of 34 bytes
  of script takes the whole offset, and a donation has such an output on top of the pool's own
  (`payout_reserved_iff`).
-/
import Sv2Apps.CoinbaseOutputConstraints
import Sv2Apps.Payout.Verification

namespace Sv2Apps

open Bitcoin ByteCodec Codec OverflowChecks

/-! ## Addresses -/

abbrev Hash160 := { b : Bytes // b.length = 20 }

/-- `WitnessProgram::new`: the lengths that each version allows. -/
structure WitnessProgram where
  version : Fin 17
  program : Bytes
  length : 2 ≤ program.length ∧ program.length ≤ 40
  v0 : version = 0 → program.length = 20 ∨ program.length = 32

/-- What an address stands for. -/
inductive AddressData where
  | p2pkh (pubkeyHash : Hash160)
  | p2sh (scriptHash : Hash160)
  | segwit (witnessProgram : WitnessProgram)

/-- `OP_0`, or the opcode that pushes the version. -/
def WitnessProgram.versionOpcode (w : WitnessProgram) : UInt8 :=
  if w.version = 0 then 0 else UInt8.ofNat (0x50 + w.version.val)

def AddressData.scriptPubkey : AddressData → Bytes
  | .p2pkh h => 0x76 :: 0xa9 :: 0x14 :: (h.val ++ [0x88, 0xac])
  | .p2sh h => 0xa9 :: 0x14 :: (h.val ++ [0x87])
  | .segwit w => w.versionOpcode :: UInt8.ofNat w.program.length :: w.program

theorem AddressData.length_scriptPubkey_le (a : AddressData) : a.scriptPubkey.length ≤ 42 := by
  cases a with
  | p2pkh h => simp [scriptPubkey, h.property]
  | p2sh h => simp [scriptPubkey, h.property]
  | segwit w =>
    have := w.length.2
    simp only [scriptPubkey, List.length_cons]
    omega

/-! ## Their signature operations -/

theorem legacySigopsFrom_nil (fuel : Nat) : legacySigopsFrom fuel [] = 0 := by
  cases fuel <;> rfl

/-- A short push is skipped. -/
theorem legacySigopsFrom_push (fuel : Nat) {data : Bytes} (h : data.length ≤ 75) (rest : Bytes) :
    legacySigopsFrom (fuel + 1) (UInt8.ofNat data.length :: (data ++ rest)) =
      legacySigopsFrom fuel rest := by
  have hn : (UInt8.ofNat data.length).toNat = data.length := by
    rw [UInt8.toNat_ofNat']
    omega
  have hsmall : UInt8.ofNat data.length ≤ 0x4b := by
    show (UInt8.ofNat data.length).toNat ≤ 75
    rw [hn]
    exact h
  have hpush : pushSize (UInt8.ofNat data.length) (data ++ rest) = some data.length := by
    unfold pushSize
    rw [if_pos hsmall, hn]
  simp only [legacySigopsFrom, hpush, List.length_append, Nat.le_add_right, if_true,
    List.drop_left]

/-- An opcode that pushes nothing counts for itself. -/
theorem legacySigopsFrom_op (fuel : Nat) {opcode : UInt8} (h : 0x4e < opcode) (rest : Bytes) :
    legacySigopsFrom (fuel + 1) (opcode :: rest) = sigopsOf opcode + legacySigopsFrom fuel rest := by
  have hnat : 0x4e < opcode.toNat := h
  have hpush : pushSize opcode rest = none := by
    unfold pushSize
    rw [if_neg, if_neg, if_neg, if_neg]
    · rintro rfl
      exact absurd hnat (by decide)
    · rintro rfl
      exact absurd hnat (by decide)
    · rintro rfl
      exact absurd hnat (by decide)
    · intro hle
      have hle' : opcode.toNat ≤ 0x4b := hle
      omega
  simp only [legacySigopsFrom, hpush]

namespace AddressData

theorem legacySigops_p2pkh (h : Hash160) : legacySigops (p2pkh h).scriptPubkey = 1 := by
  have hlen : (p2pkh h).scriptPubkey.length = 25 := by simp [scriptPubkey, h.property]
  have hpush := legacySigopsFrom_push 22 (by rw [h.property]; decide : h.val.length ≤ 75) [0x88, 0xac]
  rw [h.property] at hpush
  have hhash : legacySigopsFrom 23 (0x14 :: (h.val ++ [0x88, 0xac])) =
      legacySigopsFrom 22 [0x88, 0xac] := hpush
  rw [legacySigops, hlen]
  unfold scriptPubkey
  rw [legacySigopsFrom_op 24 (by decide), legacySigopsFrom_op 23 (by decide), hhash]
  rfl

theorem legacySigops_p2sh (h : Hash160) : legacySigops (p2sh h).scriptPubkey = 0 := by
  have hlen : (p2sh h).scriptPubkey.length = 23 := by simp [scriptPubkey, h.property]
  have hpush := legacySigopsFrom_push 21 (by rw [h.property]; decide : h.val.length ≤ 75) [0x87]
  rw [h.property] at hpush
  have hhash : legacySigopsFrom 22 (0x14 :: (h.val ++ [0x87])) = legacySigopsFrom 21 [0x87] := hpush
  rw [legacySigops, hlen]
  unfold scriptPubkey
  rw [legacySigopsFrom_op 22 (by decide), hhash]
  rfl

theorem legacySigops_segwit (w : WitnessProgram) : legacySigops (segwit w).scriptPubkey = 0 := by
  have hlen : (segwit w).scriptPubkey.length = w.program.length + 2 := rfl
  have hpush : ∀ fuel, legacySigopsFrom (fuel + 1)
      (UInt8.ofNat w.program.length :: w.program) = 0 := by
    intro fuel
    have hshort : w.program.length ≤ 75 := by
      have := w.length.2
      omega
    have h := legacySigopsFrom_push fuel hshort []
    rwa [List.append_nil, legacySigopsFrom_nil] at h
  rw [legacySigops, hlen]
  show legacySigopsFrom (w.program.length + 2)
    (w.versionOpcode :: UInt8.ofNat w.program.length :: w.program) = 0
  unfold WitnessProgram.versionOpcode
  split
  · -- the version is pushed as an empty array
    exact hpush w.program.length
  next hv =>
    have hversion : w.version.val < 17 := w.version.isLt
    have hpos : w.version.val ≠ 0 := fun h => hv (Fin.ext h)
    have hopcode : (UInt8.ofNat (0x50 + w.version.val)).toNat = 0x50 + w.version.val := by
      rw [UInt8.toNat_ofNat']
      omega
    have hsigops : sigopsOf (UInt8.ofNat (0x50 + w.version.val)) = 0 := by
      have hne : ∀ op : UInt8, 0x60 < op.toNat → UInt8.ofNat (0x50 + w.version.val) ≠ op := by
        rintro op hop rfl
        omega
      unfold sigopsOf
      rw [if_neg, if_neg]
      · rintro (h | h)
        · exact hne 0xae (by decide) h
        · exact hne 0xaf (by decide) h
      · rintro (h | h)
        · exact hne 0xac (by decide) h
        · exact hne 0xad (by decide) h
    have hbig : (0x4e : UInt8) < UInt8.ofNat (0x50 + w.version.val) := by
      show (0x4e : UInt8).toNat < (UInt8.ofNat (0x50 + w.version.val)).toNat
      rw [hopcode]
      show 0x4e < 0x50 + w.version.val
      omega
    rw [legacySigopsFrom_op (w.program.length + 1) hbig, hsigops, hpush w.program.length]

/-- Only the hash of a public key is checked by an operation in the script itself. -/
theorem legacySigops_le (a : AddressData) : legacySigops a.scriptPubkey ≤ 1 := by
  cases a with
  | p2pkh h => exact (legacySigops_p2pkh h).le
  | p2sh h => simp [legacySigops_p2sh]
  | segwit w => simp [legacySigops_segwit]

end AddressData

/-! ## What is reserved -/

/-- `PoolConfig::get_txout`. -/
def getTxout (coinbaseRewardScript : Bytes) : TxOut := ⟨0, coinbaseRewardScript⟩

/-- What the pool reserves for its own output is computed exactly, in either build, and is enough
    for the outputs. -/
def Reserved (counting : SigopCounting) (coinbaseRewardScript : Bytes) (outs : List TxOut) :
    Prop :=
  ∃ c, (∀ b, coinbaseOutputConstraintsMessageWithOffset counting b [getTxout coinbaseRewardScript] =
      some c) ∧
    c.coinbaseOutputMaxAdditionalSize.toNat =
      (getTxout coinbaseRewardScript).size + offsetAdditionalSize.toNat ∧
    c.coinbaseOutputMaxAdditionalSigops.toNat =
      counting.totalSigopCost (dummyCoinbase [getTxout coinbaseRewardScript]) +
        offsetMaxSigops.toNat ∧
    (outs.map TxOut.size).sum ≤ c.coinbaseOutputMaxAdditionalSize.toNat ∧
    counting.totalSigopCost (dummyCoinbase outs) ≤ c.coinbaseOutputMaxAdditionalSigops.toNat

/-- `script_from_address`, over a parser of addresses. -/
def scriptFromAddress (parseAddress : String → Option AddressData) (address : String) :
    Option Bytes :=
  (parseAddress address).map AddressData.scriptPubkey

theorem size_of_address {o : TxOut} {a : AddressData} (h : o.scriptPubkey = a.scriptPubkey) :
    o.size = 9 + o.scriptPubkey.length := by
  have hlen := a.length_scriptPubkey_le
  have hone : compactSizeLength o.scriptPubkey.length = 1 := by
    unfold compactSizeLength
    rw [if_pos]
    rw [h]
    omega
  rw [TxOut.size_eq, hone]

variable {counting : SigopCounting}

/-- Both totals come down to the outputs. -/
theorem reserved_iff (h : counting.Lawful) (pool : AddressData) (outs : List TxOut) :
    Reserved counting pool.scriptPubkey outs ↔
      (outs.map TxOut.size).sum ≤ 52 + pool.scriptPubkey.length ∧
      outputSigops outs ≤ legacySigops pool.scriptPubkey + 1 := by
  have hsize : (getTxout pool.scriptPubkey).size = 9 + pool.scriptPubkey.length :=
    size_of_address rfl
  have hlen := pool.length_scriptPubkey_le
  have hsigops := pool.legacySigops_le
  have hown : counting.totalSigopCost (dummyCoinbase [getTxout pool.scriptPubkey]) =
      4 * legacySigops pool.scriptPubkey := by
    rw [totalSigopCost_dummyCoinbase h]
    simp [outputSigops, getTxout]
  have hsum : ([getTxout pool.scriptPubkey].map TxOut.size).sum = 9 + pool.scriptPubkey.length := by
    simp [hsize]
  have hmessage := fun b => constraintsMessageWithOffset_exact counting b
    (show ([getTxout pool.scriptPubkey].map TxOut.size).sum + 43 < 2 ^ 32 by omega)
    (show counting.totalSigopCost (dummyCoinbase [getTxout pool.scriptPubkey]) + 4 < 2 ^ 16 by
      omega)
  rw [hsum, hown] at hmessage
  unfold Reserved
  rw [hown, totalSigopCost_dummyCoinbase h outs, hsize]
  constructor
  · rintro ⟨c, -, hc, hs, hfits, hcost⟩
    have hoffset : offsetAdditionalSize.toNat = 43 := rfl
    have hmax : offsetMaxSigops.toNat = 4 := rfl
    constructor <;> omega
  · rintro ⟨hfits, hcost⟩
    obtain ⟨c, hchecked, hc, hs⟩ := hmessage .checked
    refine ⟨c, ?_, by rw [hc]; rfl, by rw [hs]; rfl, by omega, by omega⟩
    intro b
    obtain ⟨c', hb, hc', hs'⟩ := hmessage b
    have heq : c' = c := by
      obtain ⟨size, sigops⟩ := c
      obtain ⟨size', sigops'⟩ := c'
      have hsizes : size' = size := UInt32.toNat_inj.mp (hc'.trans hc.symm)
      have hcosts : sigops' = sigops := UInt16.toNat_inj.mp (hs'.trans hs.symm)
      rw [hsizes, hcosts]
    rw [hb, heq]

/-- The miner of a mode is paid to the script of an address. -/
theorem ofIdentity_minerScript {parseAddress : String → Option AddressData} {userIdentity : String}
    {mode : PayoutMode}
    (h : PayoutMode.ofIdentity (scriptFromAddress parseAddress) userIdentity = .ok mode)
    {script : Bytes} (hs : mode.minerScriptPubkey = some script) :
    ∃ miner : AddressData, script = miner.scriptPubkey := by
  unfold PayoutMode.ofIdentity at h
  split at h
  next =>
    cases h
    cases hs
  next =>
    obtain ⟨address, haddress⟩ := PayoutMode.tryFrom_minerScript h hs
    obtain ⟨miner, -, heq⟩ := Option.map_eq_some_iff.mp haddress
    exact ⟨miner, heq.symm⟩

/-- One output is always covered: it takes at most 51 bytes. -/
theorem reserved_single (h : counting.Lawful) (pool : AddressData) {script : Bytes}
    {miner : AddressData} (hs : script = miner.scriptPubkey) (value : UInt64) :
    Reserved counting pool.scriptPubkey [⟨value, script⟩] := by
  have hsize := size_of_address (o := ⟨value, script⟩) (a := miner) hs
  have hlen := miner.length_scriptPubkey_le
  have hsigops := miner.legacySigops_le
  rw [reserved_iff h]
  subst hs
  constructor
  · simp only [List.map_cons, List.map_nil, List.sum_cons, List.sum_nil, hsize]
    omega
  · simp only [outputSigops, List.map_cons, List.map_nil, List.sum_cons, List.sum_nil]
    omega

/-- Beside the pool's own output there is room for a script of 34 bytes. -/
theorem reserved_pair_iff (h : counting.Lawful) (pool miner : AddressData) (value value' : UInt64) :
    Reserved counting pool.scriptPubkey
        [⟨value, pool.scriptPubkey⟩, ⟨value', miner.scriptPubkey⟩] ↔
      miner.scriptPubkey.length ≤ 34 := by
  have hpool := size_of_address (o := ⟨value, pool.scriptPubkey⟩) (a := pool) rfl
  have hminer := size_of_address (o := ⟨value', miner.scriptPubkey⟩) (a := miner) rfl
  have hsigops := miner.legacySigops_le
  rw [reserved_iff h]
  simp only [outputSigops, List.map_cons, List.map_nil, List.sum_cons, List.sum_nil, hpool, hminer]
  constructor
  · rintro ⟨hfits, -⟩
    omega
  · intro hshort
    constructor <;> omega

/-! ## The result -/

/-- **When the reservation covers what is paid**: unless a miner donates a part and has the rest
    paid to a script of more than 34 bytes. -/
theorem payout_reserved_iff (h : counting.Lawful) {parseAddress : String → Option AddressData}
    {userIdentity : String} {mode : PayoutMode}
    (hmode : PayoutMode.ofIdentity (scriptFromAddress parseAddress) userIdentity = .ok mode)
    (pool : AddressData) (totalValue : UInt64) :
    Reserved counting pool.scriptPubkey (mode.coinbaseOutputs totalValue pool.scriptPubkey) ↔
      ∀ percentage address script, mode = .donate percentage address script →
        script.length ≤ 34 := by
  cases mode with
  | solo address script =>
    obtain ⟨miner, hs⟩ := ofIdentity_minerScript hmode rfl
    exact iff_of_true (reserved_single h pool hs totalValue) (by simp)
  | legacySolo address script =>
    obtain ⟨miner, hs⟩ := ofIdentity_minerScript hmode rfl
    exact iff_of_true (reserved_single h pool hs totalValue) (by simp)
  | donate percentage address script =>
    obtain ⟨miner, rfl⟩ := ofIdentity_minerScript hmode rfl
    refine (reserved_pair_iff h pool miner _ _).trans ?_
    constructor
    · intro hshort p a s heq
      cases heq
      exact hshort
    · intro hall
      exact hall _ _ _ rfl
  | fullDonation => exact iff_of_true (reserved_single h pool rfl totalValue) (by simp)

/-- A witness program of version 1 with 33 bytes. -/
def longProgram : WitnessProgram :=
  ⟨1, List.replicate 33 0, by decide, by decide⟩

def samplePool : AddressData := .segwit ⟨0, List.replicate 20 0, by decide, by decide⟩

/-- One address is known. -/
def parseSample (address : String) : Option AddressData :=
  if address = "m" then some (.segwit longProgram) else none

/-- A donation to the longer program takes a byte more than is reserved. -/
theorem donation_exceeds :
    PayoutMode.ofIdentity (scriptFromAddress parseSample) "sri/donate/50/m/w" =
      .ok (.donate 50 "m" (AddressData.segwit longProgram).scriptPubkey) ∧
    ∃ c, coinbaseOutputConstraintsMessageWithOffset referenceCounting .checked
        [getTxout samplePool.scriptPubkey] = some c ∧
      c.coinbaseOutputMaxAdditionalSize.toNat + 1 =
        ((PayoutMode.coinbaseOutputs (.donate 50 "m" (AddressData.segwit longProgram).scriptPubkey)
          5000000000 samplePool.scriptPubkey).map TxOut.size).sum := by
  refine ⟨by decide +kernel, ⟨74, 4⟩, by decide +kernel, by decide +kernel⟩

theorem payout_reserved_iff_sample :
    Reserved referenceCounting samplePool.scriptPubkey
        (PayoutMode.coinbaseOutputs
          (.donate 50 "m" (AddressData.segwit longProgram).scriptPubkey) 5000000000
          samplePool.scriptPubkey) ↔
      ∀ percentage address script,
        PayoutMode.donate 50 "m" (AddressData.segwit longProgram).scriptPubkey =
          .donate percentage address script → script.length ≤ 34 :=
  payout_reserved_iff referenceCounting_lawful
    (show PayoutMode.ofIdentity (scriptFromAddress parseSample) "sri/donate/50/m/w" =
      .ok (.donate 50 "m" (AddressData.segwit longProgram).scriptPubkey) by decide +kernel)
    samplePool 5000000000

end Sv2Apps
