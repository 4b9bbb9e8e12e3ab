/-
  Jds/DeclaredJobMatch.lean
  =========================
  **Is the custom job the block that was declared?** — `handle_set_custom_mining_job`
  compares a `SetCustomMiningJob` with a coinbase parsed from the declared prefix, a gap
  of zeros and the declared suffix.

  The two messages describe one block when, for every extranonce in the gap, the coinbase
  assembled from the custom job has the bytes of the declared one and the header fields
  agree (`SameBlock`).  The comparison of the scriptSig is only `starts_with`, and the gap
  is computed from a fixed offset; so a job that passes is the declared block exactly when
  `coinbase_prefix` reaches up to the gap and the gap is the end of the scriptSig
  (`PrefixReachesGap`).
-/
import Sv2Apps.Jds.JobValidation

namespace Sv2Apps.Jds

open Bitcoin ByteCodec Codec

/-! ## The two descriptions of a block -/

/-- The coinbase of a custom job, without witness: one null input whose scriptSig is
    `coinbase_prefix` followed by the full extranonce. -/
def assembledCoinbase (msg : SetCustomMiningJob) (extranonce : Bytes) : Bytes :=
  encodeU32 msg.coinbaseTxVersion ++ [1] ++ OutPoint.null.encode ++
    varBytes.enc (msg.coinbasePrefix ++ extranonce) ++
    encodeU32 msg.coinbaseTxInputNSequence ++ msg.coinbaseTxOutputs ++
    encodeU32 msg.coinbaseTxLocktime

/-- For every extranonce that fills the gap, the declared coinbase and the assembled one have
    the same non-witness bytes, and the headers have the same version, previous hash, target
    and merkle root. -/
def SameBlock (rb : RustBitcoin) (job : DeclaredCustomJob) (msg : SetCustomMiningJob) : Prop :=
  ∀ n, fullExtranonceSize rb job.declareMiningJob = .ok n →
    ∀ extranonce : Bytes, extranonce.length = n →
      (∃ tx txids,
        rb.decodeTransaction (declaredCoinbaseBytes job.declareMiningJob extranonce) = some tx ∧
        job.txidList = some txids ∧
        tx.encodeNonWitness = assembledCoinbase msg extranonce ∧
        MerkleBranch.root rb.merkleNode (rb.computeTxid tx :: txids) =
          some (msg.merklePath.foldl rb.merkleNode
            (rb.sha256d (assembledCoinbase msg extranonce)))) ∧
      msg.version = job.declareMiningJob.version ∧
      msg.prevHash = job.validationContext.prevHash ∧
      msg.nbits = job.validationContext.nbits

/-- Where the scriptSig of the first input starts in a serialized transaction, and its length:
    behind 43 bytes if there is a marker, behind 41 otherwise. -/
def scriptSigSpan (rb : RustBitcoin) (b : Bytes) : Option (Nat × Nat) :=
  let offset := if b[4]? = some 0 then 43 else 41
  (rb.decodeVarInt (b.drop offset)).map fun len => (offset + compactSizeLength len, len)

/-- `coinbase_prefix` is as long as the part of the scriptSig before the gap, and a gap that
    is not empty ends where the scriptSig ends. -/
def PrefixReachesGap (rb : RustBitcoin) (dmj : DeclareMiningJob) (msg : SetCustomMiningJob) :
    Prop :=
  ∃ n start len, fullExtranonceSize rb dmj = .ok n ∧
    scriptSigSpan rb (declaredCoinbaseBytes dmj (List.replicate n 0)) = some (start, len) ∧
    msg.coinbasePrefix.length + n = len ∧
    (n = 0 ∨ dmj.coinbaseTxPrefix.length + n = start + len)

/-- What Bitcoin Core's `checkBlock` guarantees of a block it approves: the coinbase has one
    input, which spends the null output. -/
def ChecksCoinbase (node : JdRequest → JdResponse) : Prop :=
  ∀ req prevHash nbits txids, node req = .success prevHash nbits txids →
    ∃ txIn, req.coinbaseTx.input = [txIn] ∧ txIn.previousOutput = OutPoint.null

/-! ## The layout of a transaction with one input -/

/-- The bytes before the scriptSig: version, marker and flag if there is a witness, input
    count, previous output and the scriptSig's length. -/
def headBytes (version : UInt32) (segwit : Bool) (prevout : OutPoint) (len : Nat) : Bytes :=
  encodeU32 version ++ (if segwit then [0, 1] else []) ++ [1] ++ prevout.encode ++
    compactSizeEnc len

/-- The bytes behind the scriptSig. -/
def tailBytes (t : Transaction) (i : TxIn) : Bytes :=
  encodeU32 i.sequence ++ serializeOutputs t.output ++
    (if i.witness.isEmpty then [] else i.encodeWitness) ++ encodeU32 t.lockTime

theorem consensusEncode_single {t : Transaction} {i : TxIn} (h : t.input = [i]) :
    t.consensusEncode =
      headBytes t.version (!i.witness.isEmpty) i.previousOutput i.scriptSig.length ++
        (i.scriptSig ++ tailBytes t i) := by
  have hone : compactSizeEnc 1 = [1] := rfl
  cases hw : i.witness.isEmpty with
  | true =>
    simp [Transaction.consensusEncode, Transaction.usesSegwitSerialization, h, hw, headBytes,
      tailBytes, encodeVec, TxIn.encode, hone]
  | false =>
    simp [Transaction.consensusEncode, Transaction.usesSegwitSerialization, h, hw, headBytes,
      tailBytes, encodeVec, TxIn.encode, hone]

theorem encodeNonWitness_single {t : Transaction} {i : TxIn} (h : t.input = [i]) :
    t.encodeNonWitness = encodeU32 t.version ++ [1] ++ i.previousOutput.encode ++
      varBytes.enc i.scriptSig ++ encodeU32 i.sequence ++ serializeOutputs t.output ++
      encodeU32 t.lockTime := by
  have hone : compactSizeEnc 1 = [1] := rfl
  simp [Transaction.encodeNonWitness, h, encodeVec, TxIn.encode, hone]

theorem length_headBytes (version : UInt32) (segwit : Bool) (prevout : OutPoint) (len : Nat) :
    (headBytes version segwit prevout len).length =
      (if segwit then 43 else 41) + compactSizeLength len := by
  cases segwit <;> simp [headBytes] <;> omega

/-- The fifth byte tells whether there is a marker. -/
theorem headBytes_marker (version : UInt32) (segwit : Bool) (prevout : OutPoint) (len : Nat)
    (rest : Bytes) :
    (headBytes version segwit prevout len ++ rest)[4]? = some (if segwit then 0 else 1) := by
  have hlen := length_encodeU32 version
  cases segwit with
  | true =>
    simp only [headBytes, if_true, List.append_assoc]
    rw [List.getElem?_append_right (by omega), hlen]
    rfl
  | false =>
    simp only [headBytes, Bool.false_eq_true, if_false, List.append_assoc]
    rw [List.getElem?_append_right (by omega), hlen]
    rfl

theorem drop_headBytes (version : UInt32) (segwit : Bool) (prevout : OutPoint) (len : Nat)
    (rest : Bytes) :
    (headBytes version segwit prevout len ++ rest).drop (if segwit then 43 else 41) =
      compactSizeEnc len ++ rest := by
  have hsplit : headBytes version segwit prevout len ++ rest =
      (encodeU32 version ++ (if segwit then [0, 1] else []) ++ [1] ++ prevout.encode) ++
        (compactSizeEnc len ++ rest) := by
    simp [headBytes]
  rw [hsplit, List.drop_left']
  cases segwit <;> simp

theorem scriptSigSpan_single {rb : RustBitcoin} (hrb : rb.Lawful) {t : Transaction} {i : TxIn}
    (h : t.input = [i]) (hlen : t.consensusEncode.length ≤ maxDecodeSize) (rest : Bytes) :
    scriptSigSpan rb (t.consensusEncode ++ rest) =
      some ((if !i.witness.isEmpty then 43 else 41) + compactSizeLength i.scriptSig.length,
        i.scriptSig.length) := by
  rw [consensusEncode_single h] at hlen ⊢
  rw [List.append_assoc]
  unfold scriptSigSpan
  rw [headBytes_marker]
  have hsmall : i.scriptSig.length < 2 ^ 64 := by
    simp only [List.length_append, maxDecodeSize] at hlen
    omega
  have hoff : (if (some (if (!i.witness.isEmpty) = true then (0 : UInt8) else 1)) = some 0
      then 43 else 41) = if (!i.witness.isEmpty) = true then 43 else 41 := by
    cases i.witness.isEmpty <;> rfl
  simp only [hoff, drop_headBytes]
  rw [(hrb.varInt _ _).mpr ⟨hsmall, _, rfl⟩]
  rfl

theorem length_encodeNonWitness_le (t : Transaction) :
    t.encodeNonWitness.length ≤ t.consensusEncode.length := by
  unfold Transaction.encodeNonWitness Transaction.consensusEncode
  split <;> simp only [List.length_append, List.length_cons] <;> omega

/-! ## Reading an assembled coinbase back -/

/-- A transaction with the bytes of an assembled coinbase has one input, and its scriptSig is
    `coinbase_prefix` followed by the extranonce. -/
theorem scriptSig_of_assembled {t : Transaction} {msg : SetCustomMiningJob} {e : Bytes}
    (hsmall : t.encodeNonWitness.length < 2 ^ 64)
    (h : t.encodeNonWitness = assembledCoinbase msg e) :
    ∃ i, t.input = [i] ∧ i.scriptSig = msg.coinbasePrefix ++ e := by
  have hlen := congrArg List.length h
  have hbytes : encodeU32 t.version ++ ((vec txIn).enc (t.input.map TxIn.withoutWitness) ++
        (serializeOutputs t.output ++ encodeU32 t.lockTime)) =
      encodeU32 msg.coinbaseTxVersion ++ ([1] ++ (OutPoint.null.encode ++
        (varBytes.enc (msg.coinbasePrefix ++ e) ++ (encodeU32 msg.coinbaseTxInputNSequence ++
          (msg.coinbaseTxOutputs ++ encodeU32 msg.coinbaseTxLocktime))))) := by
    rw [enc_vec_withoutWitness]
    simpa [Transaction.encodeNonWitness, assembledCoinbase] using h
  have hvecValid : (vec txIn).Valid (t.input.map TxIn.withoutWitness) := by
    apply vec_txIn_valid
    simp only [Transaction.encodeNonWitness, List.length_append] at hsmall
    omega
  obtain ⟨-, hins⟩ := List.append_inj hbytes (by simp)
  -- the input count is the byte 1
  have hcount : t.input.length = 1 := by
    have hdec := compactSize.dec_enc (t.input.map TxIn.withoutWitness).length
      (((t.input.map TxIn.withoutWitness).flatMap txIn.enc) ++
        (serializeOutputs t.output ++ encodeU32 t.lockTime)) (vec_valid.mp hvecValid).1
    have hone := compactSize.dec_enc 1 (OutPoint.null.encode ++
        (varBytes.enc (msg.coinbasePrefix ++ e) ++ (encodeU32 msg.coinbaseTxInputNSequence ++
          (msg.coinbaseTxOutputs ++ encodeU32 msg.coinbaseTxLocktime))))
      (by decide : (1 : Nat) < 2 ^ 64)
    rw [enc_vec, List.append_assoc] at hins
    have hsame := hdec.symm.trans ((congrArg compactSize.dec hins).trans hone)
    have := congrArg Prod.fst (Option.some.inj hsame)
    simpa using this
  obtain ⟨i, hi⟩ := List.length_eq_one_iff.mp hcount
  refine ⟨i, hi, ?_⟩
  rw [encodeNonWitness_single hi, assembledCoinbase] at h
  simp only [List.append_assoc] at h
  obtain ⟨-, h₁⟩ := List.append_inj h (by simp)
  obtain ⟨-, h₂⟩ := List.append_inj h₁ rfl
  obtain ⟨-, h₃⟩ := List.append_inj h₂ (by simp)
  -- both sides start with a length-prefixed string
  have hv₁ : varBytes.Valid i.scriptSig := by
    apply varBytes_valid_of_length
    rw [encodeNonWitness_single hi] at hsmall
    simp only [List.length_append] at hsmall ⊢
    omega
  have hv₂ : varBytes.Valid (msg.coinbasePrefix ++ e) := by
    apply varBytes_valid_of_length
    rw [hlen] at hsmall
    simp only [assembledCoinbase, List.length_append] at hsmall ⊢
    omega
  have hd₁ := varBytes.dec_enc i.scriptSig
    (encodeU32 i.sequence ++ (serializeOutputs t.output ++ encodeU32 t.lockTime)) hv₁
  have hd₂ := varBytes.dec_enc (msg.coinbasePrefix ++ e)
    (encodeU32 msg.coinbaseTxInputNSequence ++
      (msg.coinbaseTxOutputs ++ encodeU32 msg.coinbaseTxLocktime)) hv₂
  have hsame := hd₁.symm.trans ((congrArg varBytes.dec h₃).trans hd₂)
  exact congrArg Prod.fst (Option.some.inj hsame)

/-! ## The gap and the end of the scriptSig -/

/-- Outside the gap the filling does not matter. -/
theorem getElem?_outside_gap (pre suf : Bytes) (n j : Nat) (x y : UInt8)
    (hj : j < pre.length ∨ pre.length + n ≤ j) :
    (pre ++ List.replicate n x ++ suf)[j]? = (pre ++ List.replicate n y ++ suf)[j]? := by
  rcases hj with hj | hj
  · rw [List.append_assoc, List.append_assoc, List.getElem?_append_left hj,
      List.getElem?_append_left hj]
  · rw [List.getElem?_append_right (by simpa using hj),
      List.getElem?_append_right (by simpa using hj)]
    simp

/-- If, for two fillings of the gap, the filling is found behind `head ++ cp`, then that is
    where the gap is. -/
theorem gap_position {pre suf head₀ head₁ tail₀ tail₁ cp : Bytes} {n : Nat} (hn : 0 < n)
    (h₀ : pre ++ List.replicate n 0 ++ suf = head₀ ++ (cp ++ List.replicate n 0 ++ tail₀))
    (h₁ : pre ++ List.replicate n 1 ++ suf = head₁ ++ (cp ++ List.replicate n 1 ++ tail₁))
    (hlen : head₁.length = head₀.length) : pre.length = head₀.length + cp.length := by
  have hread : ∀ (head tail : Bytes) (x : UInt8) k, k < n →
      (head ++ (cp ++ List.replicate n x ++ tail))[head.length + cp.length + k]? = some x := by
    intro head tail x k hk
    rw [List.getElem?_append_right (by omega), List.append_assoc,
      List.getElem?_append_right (by omega), List.getElem?_append_left (by simp; omega)]
    rw [List.getElem?_replicate, if_pos (by omega)]
  -- a byte of the filling is 0 for one and 1 for the other, so it is not outside the gap
  have hinside : ∀ k, k < n → ¬ (head₀.length + cp.length + k < pre.length ∨
      pre.length + n ≤ head₀.length + cp.length + k) := by
    intro k hk hout
    have heq := getElem?_outside_gap pre suf n (head₀.length + cp.length + k) 0 1 hout
    have hzero := hread head₀ tail₀ 0 k hk
    have hone := hread head₁ tail₁ 1 k hk
    rw [hlen] at hone
    rw [h₀, h₁, hzero, hone] at heq
    cases heq
  have hfirst := hinside 0 hn
  have hlast := hinside (n - 1) (by omega)
  omega

theorem fullExtranonceSize_prefixLength {rb : RustBitcoin} {dmj : DeclareMiningJob} {n : Nat}
    (h : fullExtranonceSize rb dmj = .ok n) : 43 ≤ dmj.coinbaseTxPrefix.length := by
  unfold fullExtranonceSize at h
  split at h
  next => cases h
  next hlen => exact Nat.not_lt.mp hlen

/-- With the gap at the end of the scriptSig, every filling decodes to the declared coinbase
    with that filling. -/
theorem decode_declared_of_gap {rb : RustBitcoin} (hrb : rb.Lawful) {dmj : DeclareMiningJob}
    {n : Nat} {t : Transaction} {i : TxIn} {rest cp e : Bytes}
    (hbytes : declaredCoinbaseBytes dmj (List.replicate n 0) = t.consensusEncode ++ rest)
    (hfit : t.consensusEncode.length ≤ maxDecodeSize) (hin : t.input = [i])
    (hcp : cp <+: i.scriptSig) (hlen : cp.length + n = i.scriptSig.length)
    (hgap : n = 0 ∨ dmj.coinbaseTxPrefix.length + n =
      (if !i.witness.isEmpty then 43 else 41) + compactSizeLength i.scriptSig.length
        + i.scriptSig.length)
    (he : e.length = n) :
    rb.decodeTransaction (declaredCoinbaseBytes dmj e) =
      some { t with input := [{ i with scriptSig := cp ++ e }] } := by
  obtain ⟨z, hz⟩ := hcp
  have hzlen : z.length = n := by
    rw [← hz, List.length_append] at hlen
    omega
  have hsize : (cp ++ e).length = i.scriptSig.length := by
    rw [List.length_append]
    omega
  have henc : ({ t with input := [{ i with scriptSig := cp ++ e }] } : Transaction).consensusEncode =
      headBytes t.version (!i.witness.isEmpty) i.previousOutput i.scriptSig.length ++
        (cp ++ e ++ tailBytes t i) := by
    rw [consensusEncode_single rfl]
    simp only [hsize]
    rfl
  rw [consensusEncode_single hin] at hbytes hfit
  have hfill : declaredCoinbaseBytes dmj e =
      ({ t with input := [{ i with scriptSig := cp ++ e }] } : Transaction).consensusEncode ++
        rest := by
    rw [henc]
    rcases hgap with hzero | hpos
    · subst hzero
      have hnil : e = [] := List.length_eq_zero_iff.mp he
      have hznil : z = [] := List.length_eq_zero_iff.mp hzlen
      rw [hnil, List.append_nil]
      rw [hznil, List.append_nil] at hz
      rw [List.replicate_zero] at hbytes
      rw [hbytes, hz]
    · -- the prefix with the gap ends where the scriptSig ends
      have hsplit : (dmj.coinbaseTxPrefix ++ List.replicate n 0) ++ dmj.coinbaseTxSuffix =
          (headBytes t.version (!i.witness.isEmpty) i.previousOutput i.scriptSig.length ++
            i.scriptSig) ++ (tailBytes t i ++ rest) := by
        rw [← declaredCoinbaseBytes, hbytes]
        simp only [List.append_assoc]
      obtain ⟨hpre, hsuf⟩ := List.append_inj hsplit (by
        simp only [List.length_append, List.length_replicate, length_headBytes]
        omega)
      rw [← hz, ← List.append_assoc] at hpre
      obtain ⟨hhead, -⟩ := List.append_inj' hpre (by simp [hzlen])
      rw [declaredCoinbaseBytes, hhead, hsuf, hz]
      simp only [List.append_assoc]
  rw [hfill]
  apply hrb.decode_complete
  rw [henc]
  simp only [List.length_append] at hfit hsize ⊢
  omega

/-! ## The result -/

/-- What has been established of a declared coinbase when a custom job passes against it. -/
structure Passed (rb : RustBitcoin) (dmj : DeclareMiningJob) (msg : SetCustomMiningJob)
    (n : Nat) (t : Transaction) (i : TxIn) (rest : Bytes) : Prop where
  gap : fullExtranonceSize rb dmj = .ok n
  bytes : declaredCoinbaseBytes dmj (List.replicate n 0) = t.consensusEncode ++ rest
  fits : t.consensusEncode.length ≤ maxDecodeSize
  input : t.input = [i]
  null : i.previousOutput = OutPoint.null
  version : t.version = msg.coinbaseTxVersion
  startsWith : msg.coinbasePrefix <+: i.scriptSig
  sequence : i.sequence = msg.coinbaseTxInputNSequence
  outputs : serializeOutputs t.output = msg.coinbaseTxOutputs
  lockTime : t.lockTime = msg.coinbaseTxLocktime

theorem passed_of_checkCoinbase {rb : RustBitcoin} (hrb : rb.Lawful) {dmj : DeclareMiningJob}
    {msg : SetCustomMiningJob} {t : Transaction} {i : TxIn} (htx : getCoinbaseTx rb dmj = .ok t)
    (hin : t.input = [i]) (hnull : i.previousOutput = OutPoint.null)
    (hcheck : checkCoinbase t msg = none) :
    ∃ n rest, rb.decodeTransaction (declaredCoinbaseBytes dmj (List.replicate n 0)) = some t ∧
      Passed rb dmj msg n t i rest := by
  obtain ⟨n, hn, hdec⟩ := getCoinbaseTx_eq_ok htx
  obtain ⟨hfit, rest, hbytes⟩ := hrb.decode_sound _ _ hdec
  obtain ⟨hver, ⟨j, others, hj, hpre, hseq⟩, hout, hlock⟩ := checkCoinbase_eq_none hcheck
  rw [hin] at hj
  cases hj
  exact ⟨n, rest, hdec, hn, hbytes, hfit, hin, hnull, hver, hpre, hseq, hout, hlock⟩

theorem Passed.scriptSigSpan_eq {rb : RustBitcoin} (hrb : rb.Lawful) {dmj : DeclareMiningJob}
    {msg : SetCustomMiningJob} {n : Nat} {t : Transaction} {i : TxIn} {rest : Bytes}
    (h : Passed rb dmj msg n t i rest) :
    scriptSigSpan rb (declaredCoinbaseBytes dmj (List.replicate n 0)) =
      some ((if !i.witness.isEmpty then 43 else 41) + compactSizeLength i.scriptSig.length,
        i.scriptSig.length) := by
  rw [h.bytes]
  exact scriptSigSpan_single hrb h.input h.fits rest

/-- The assembled coinbase is the declared one with the scriptSig of the custom job. -/
theorem Passed.encodeNonWitness_eq {rb : RustBitcoin} {dmj : DeclareMiningJob}
    {msg : SetCustomMiningJob} {n : Nat} {t : Transaction} {i : TxIn} {rest : Bytes}
    (h : Passed rb dmj msg n t i rest) (e : Bytes) :
    ({ t with input := [{ i with scriptSig := msg.coinbasePrefix ++ e }] } :
      Transaction).encodeNonWitness = assembledCoinbase msg e := by
  rw [encodeNonWitness_single rfl]
  simp only [h.null, h.version, h.sequence, h.outputs, h.lockTime, assembledCoinbase]

/-- If every filling of the gap gives the assembled coinbase, the gap is the end of the
    scriptSig and `coinbase_prefix` is what precedes it. -/
theorem Passed.reaches_of_same {rb : RustBitcoin} (hrb : rb.Lawful) {dmj : DeclareMiningJob}
    {msg : SetCustomMiningJob} {n : Nat} {t : Transaction} {i : TxIn} {rest : Bytes}
    (h : Passed rb dmj msg n t i rest)
    (hsame : ∀ e : Bytes, e.length = n → ∃ tx,
      rb.decodeTransaction (declaredCoinbaseBytes dmj e) = some tx ∧
        tx.encodeNonWitness = assembledCoinbase msg e) :
    PrefixReachesGap rb dmj msg := by
  -- every filling decodes to a transaction with one input, whose scriptSig ends with it
  have hread : ∀ e : Bytes, e.length = n → ∃ tx j r, tx.input = [j] ∧
      j.scriptSig = msg.coinbasePrefix ++ e ∧ declaredCoinbaseBytes dmj e =
        headBytes tx.version (!j.witness.isEmpty) j.previousOutput j.scriptSig.length ++
          (msg.coinbasePrefix ++ e ++ (tailBytes tx j ++ r)) := by
    intro e he
    obtain ⟨tx, hdec, hnw⟩ := hsame e he
    obtain ⟨hfit, r, hb⟩ := hrb.decode_sound _ _ hdec
    have hsmall : tx.encodeNonWitness.length < 2 ^ 64 := by
      have hle := length_encodeNonWitness_le tx
      unfold maxDecodeSize at hfit
      omega
    obtain ⟨j, hj, hscript⟩ := scriptSig_of_assembled hsmall hnw
    refine ⟨tx, j, r, hj, hscript, ?_⟩
    rw [hb, consensusEncode_single hj, hscript]
    simp only [List.append_assoc]
  obtain ⟨tx₀, j₀, r₀, hin₀, hs₀, hb₀⟩ := hread (List.replicate n 0) (by simp)
  obtain ⟨tx₁, j₁, r₁, hin₁, hs₁, hb₁⟩ := hread (List.replicate n 1) (by simp)
  -- the marker byte lies in the prefix, so it is the same for every filling
  have hpre := fullExtranonceSize_prefixLength h.gap
  have hmark : ∀ e : Bytes, (declaredCoinbaseBytes dmj e)[4]? = dmj.coinbaseTxPrefix[4]? := by
    intro e
    rw [declaredCoinbaseBytes, List.append_assoc, List.getElem?_append_left (by omega)]
  have hwit : ∀ (tx : Transaction) (j : TxIn) (e r : Bytes), declaredCoinbaseBytes dmj e =
      headBytes tx.version (!j.witness.isEmpty) j.previousOutput j.scriptSig.length ++ r →
      dmj.coinbaseTxPrefix[4]? = some (if !j.witness.isEmpty then 0 else 1) := by
    intro tx j e r hb
    rw [← hmark e, hb, headBytes_marker]
  have hfirst : declaredCoinbaseBytes dmj (List.replicate n 0) =
      headBytes t.version (!i.witness.isEmpty) i.previousOutput i.scriptSig.length ++
        (i.scriptSig ++ tailBytes t i ++ rest) := by
    rw [h.bytes, consensusEncode_single h.input]
    simp only [List.append_assoc]
  have hmi := hwit t i _ _ hfirst
  have hm₀ := hwit tx₀ j₀ _ _ hb₀
  have hm₁ := hwit tx₁ j₁ _ _ hb₁
  have hsegEq : ∀ a b : Bool, (some (if a then (0 : UInt8) else 1)) = some (if b then 0 else 1) →
      a = b := by decide
  have hseg₀ : (!j₀.witness.isEmpty) = !i.witness.isEmpty := hsegEq _ _ (hm₀.symm.trans hmi)
  have hseg₁ : (!j₁.witness.isEmpty) = !i.witness.isEmpty := hsegEq _ _ (hm₁.symm.trans hmi)
  -- the zero filling is the transaction that was checked
  have hspan := Passed.scriptSigSpan_eq hrb h
  have hlen : j₀.scriptSig.length = i.scriptSig.length := by
    have hdec := hsame (List.replicate n 0) (by simp)
    obtain ⟨tx, htx, hnw⟩ := hdec
    have htxt : tx = t := by
      have hcomp := hrb.decode_complete t rest h.fits
      rw [← h.bytes, htx] at hcomp
      exact Option.some.inj hcomp
    subst htxt
    have hsmall : tx.encodeNonWitness.length < 2 ^ 64 := by
      have hle := length_encodeNonWitness_le tx
      have hfit := h.fits
      unfold maxDecodeSize at hfit
      omega
    obtain ⟨k, hk, hks⟩ := scriptSig_of_assembled hsmall hnw
    rw [h.input] at hk
    cases hk
    rw [hs₀, hks]
  have hsum : msg.coinbasePrefix.length + n = i.scriptSig.length := by
    rw [← hlen, hs₀]
    simp
  refine ⟨n, _, _, h.gap, hspan, hsum, ?_⟩
  rcases Nat.eq_zero_or_pos n with hzero | hpos
  · exact .inl hzero
  · right
    have hposition := gap_position hpos hb₀ hb₁ (by
      rw [length_headBytes, length_headBytes, hseg₀, hseg₁, hs₀, hs₁]
      simp)
    rw [length_headBytes, hseg₀, hlen] at hposition
    omega

/-- **A custom job that passes is the declared block exactly when its `coinbase_prefix` reaches
    up to the gap, and the gap is the end of the scriptSig.**  The declaration was approved by
    the node and answered with success, the custom job is compared with the job kept then. -/
theorem custom_job_is_declared_block_iff (rb : RustBitcoin) (hrb : rb.Lawful)
    (node : JdRequest → JdResponse) (hnode : ChecksCoinbase node)
    (dmj : DeclareMiningJob) (provided : Option ProvideMissingTransactionsSuccess)
    (token : JdToken) (req : JdRequest)
    (hreq : prepareDeclareMiningJob rb dmj provided = .ok (token, req))
    (d : DownstreamId) (states states₁ states₂ : DownstreamStates)
    (previous : Option ValidationContext) (now : Instant)
    (hdeclare : applyJdResponse states d dmj provided.isSome token previous (some (node req)) now
      = (.success, states₁))
    (hkept : storedJob states₂ d token = storedJob states₁ d token)
    (msg : SetCustomMiningJob)
    (hset : (handleSetCustomMiningJob rb states₂ d msg token).1 = .success) :
    ∃ job, storedJob states₂ d token = some job ∧ job.declareMiningJob = dmj ∧
      (SameBlock rb job msg ↔ PrefixReachesGap rb dmj msg) := by
  obtain ⟨prevHash, nbits, txids, st, hresp, -, rfl⟩ := applyJdResponse_eq_success hdeclare
  rw [storedJob_insertDeclaredCustomJob] at hkept
  obtain ⟨job, hjob, hcheck⟩ := handleSetCustomMiningJob_success hset
  rw [hkept] at hjob
  cases hjob
  refine ⟨_, hkept, rfl, ?_⟩
  obtain ⟨-, hprev, hnbits, hversion, tx, ids, htx, hcb, hids, hpath⟩ :=
    checkSetCustomMiningJob_eq_success hcheck
  cases hids
  obtain ⟨-, htx', -⟩ := prepareDeclareMiningJob_eq_ok hreq
  cases htx.symm.trans htx'
  obtain ⟨i, hin, hnull⟩ := hnode req prevHash nbits txids (Option.some.inj hresp)
  obtain ⟨n, rest, hdec, hpassed⟩ := passed_of_checkCoinbase hrb htx hin hnull hcb
  constructor
  · intro hsame
    apply Passed.reaches_of_same hrb hpassed
    intro e he
    obtain ⟨⟨tx, -, htxdec, -, hnw, -⟩, -⟩ := hsame n hpassed.gap e he
    exact ⟨tx, htxdec, hnw⟩
  · rintro ⟨n', start, len, hn', hspan, hsum, hgap⟩
    cases hn'.symm.trans hpassed.gap
    cases hspan.symm.trans (Passed.scriptSigSpan_eq hrb hpassed)
    intro m hm e he
    cases hm.symm.trans hpassed.gap
    refine ⟨?_, hversion, hprev, hnbits⟩
    have hdecE := decode_declared_of_gap hrb hpassed.bytes hpassed.fits hin hpassed.startsWith
      hsum hgap he
    have hnw := hpassed.encodeNonWitness_eq e
    refine ⟨_, txids, hdecE, rfl, hnw, ?_⟩
    -- the siblings do not depend on the coinbase
    rw [RustBitcoin.computeTxid, hnw, MerkleBranch.foldl_branch, hpath,
      MerkleBranch.branch_congr rb.merkleNode (rb.computeTxid req.coinbaseTx)
        (rb.sha256d (assembledCoinbase msg e))]

/-- A node that approves every block whose coinbase has one null input. -/
def sampleNode (req : JdRequest) : JdResponse :=
  if req.coinbaseTx.input.map TxIn.previousOutput = [OutPoint.null] then
    .success Hash256.allZeros 0x207fffff []
  else .error "bad-cb-missing" ⟨Hash256.allZeros, 0x207fffff⟩

theorem sampleNode_checksCoinbase : ChecksCoinbase sampleNode := by
  intro req prevHash nbits txids h
  unfold sampleNode at h
  split at h
  next hin =>
    obtain ⟨i, rest, hcons, hnull, hrest⟩ := List.map_eq_cons_iff.mp hin
    rw [List.map_eq_nil_iff.mp hrest] at hcons
    exact ⟨i, hcons, hnull⟩
  next => cases h

def sampleRequest : JdRequest where
  version := 0x20000000
  coinbaseTx :=
    { version := 2, lockTime := 0
      input := [⟨OutPoint.null, [3, 1, 2, 3, 0, 0, 0], 0xffffffff, [[0]]⟩]
      output := [⟨5000000000, [0x51]⟩] }
  wtxidList := []
  missingTxs := []

/-- The declarations kept after the sample declaration was approved. -/
def sampleStates : DownstreamStates :=
  (applyJdResponse (KeyMap.ensure 0 DownstreamState.default ∅) 0 sampleDeclaration false 0 none
    (some (sampleNode sampleRequest)) 0).2

theorem custom_job_is_declared_block_sample :
    ∃ job, storedJob sampleStates 0 0 = some job ∧ job.declareMiningJob = sampleDeclaration ∧
      (SameBlock referenceBitcoin job sampleCustomJob ↔
        PrefixReachesGap referenceBitcoin sampleDeclaration sampleCustomJob) :=
  custom_job_is_declared_block_iff referenceBitcoin referenceBitcoin_lawful sampleNode
    sampleNode_checksCoinbase sampleDeclaration none 0 sampleRequest (by decide +kernel) 0
    (KeyMap.ensure 0 DownstreamState.default ∅) sampleStates sampleStates none 0
    (Prod.ext (by decide +kernel) rfl) rfl sampleCustomJob (by decide +kernel)

/-- The sample custom job with the first two of the four scriptSig bytes before the gap. -/
def shortPrefixJob : SetCustomMiningJob := { sampleCustomJob with coinbasePrefix := [3, 1] }

/-- The engine accepts it, although with the extranonce `00 00 00` its coinbase has a scriptSig
    of five bytes where the declared one has seven. -/
theorem shortPrefixJob_accepted :
    (handleSetCustomMiningJob referenceBitcoin sampleStates 0 shortPrefixJob 0).1 = .success ∧
    ∃ job, storedJob sampleStates 0 0 = some job ∧ job.declareMiningJob = sampleDeclaration ∧
      ¬ SameBlock referenceBitcoin job shortPrefixJob := by
  refine ⟨by decide +kernel, ⟨sampleDeclaration, ⟨Hash256.allZeros, 0x207fffff⟩, some [], true⟩,
    by decide +kernel, rfl, ?_⟩
  intro hsame
  obtain ⟨⟨tx, -, hdec, -, hnw, -⟩, -⟩ := hsame 3 (by decide +kernel) [0, 0, 0] rfl
  have hne : (referenceBitcoin.decodeTransaction
      (declaredCoinbaseBytes sampleDeclaration [0, 0, 0])).map Transaction.encodeNonWitness ≠
      some (assembledCoinbase shortPrefixJob [0, 0, 0]) := by
    decide +kernel
  apply hne
  rw [hdec, Option.map_some, hnw]

end Sv2Apps.Jds
