/-
  Jds/CoinbaseReconstruction.lean
  ===============================
  **Which declarations the coinbase can be reconstructed from** — `get_coinbase_tx` of
  `job_validation/bitcoin_core_ipc.rs` on whatever a client sends.

  The prefix is sliced at byte 43, a length is read there, and the gap is that length less what the
  prefix still holds, all before anything is checked.  `Reconstructs` says what one would like to
  rely on: no panic, no gap that is longer than a coinbase scriptSig, and a transaction only if the
  gap lies in its first scriptSig and no byte is left over.  It holds of a declaration exactly when
  the bytes are laid out for it (`LaidOut`).

  In a build that does not check arithmetic, a subtraction below zero gives a gap of more than
  `isize::MAX` zeros, which the allocation panics at; so the outcome is the same.
-/
import Sv2Apps.Jds.DeclaredJobMatch

namespace Sv2Apps.Jds

open Bitcoin ByteCodec Codec

/-! ## What one would like to rely on -/

/-- The most that consensus allows for the scriptSig of a coinbase. -/
def maxCoinbaseScriptSigSize : Nat := 100

/-- The bytes of a transaction before the scriptSig of its first input. -/
def scriptSigHead (t : Transaction) (i : TxIn) : Bytes :=
  encodeU32 t.version ++ (if t.usesSegwitSerialization then [0, 1] else []) ++
    compactSizeEnc t.input.length ++ i.previousOutput.encode ++ compactSizeEnc i.scriptSig.length

/-- A gap of `n` zeros behind the given bytes lies in the scriptSig of the first input. -/
def GapInScriptSig (t : Transaction) (before : Bytes) (n : Nat) : Prop :=
  ∃ i ins left right, t.input = i :: ins ∧ before = scriptSigHead t i ++ left ∧
    i.scriptSig = left ++ List.replicate n 0 ++ right

structure Reconstructs (rb : RustBitcoin) (dmj : DeclareMiningJob) : Prop where
  no_panic : getCoinbaseTx rb dmj ≠ .error .panic
  short_gap : ∀ n, fullExtranonceSize rb dmj = .ok n → n ≤ maxCoinbaseScriptSigSize
  whole : ∀ t, getCoinbaseTx rb dmj = .ok t → ∃ n, fullExtranonceSize rb dmj = .ok n ∧
    t.consensusEncode = declaredCoinbaseBytes dmj (List.replicate n 0) ∧
    GapInScriptSig t dmj.coinbaseTxPrefix n

/-! ## How the bytes have to be laid out -/

/-- Behind byte 43 the prefix has a length and the given bytes. -/
def HasLength (dmj : DeclareMiningJob) (scriptSigSize : Nat) (held : Bytes) : Prop :=
  scriptSigSize < 2 ^ 64 ∧
    dmj.coinbaseTxPrefix.drop coinbasePrefixLen = compactSizeEnc scriptSigSize ++ held

/-- The prefix reaches byte 43.  If there is a length there, the prefix ends no later than the bytes
    that it counts, and at most 100 bytes before them; and if the bytes with the zeros then start
    with a transaction, they end with it, the prefix ends in its first scriptSig or at an end of it,
    and so do the zeros. -/
structure LaidOut (dmj : DeclareMiningJob) : Prop where
  long : coinbasePrefixLen ≤ dmj.coinbaseTxPrefix.length
  gap : ∀ size held, HasLength dmj size held →
    held.length ≤ size ∧ size ≤ held.length + maxCoinbaseScriptSigSize
  scriptSig : ∀ size held t rest, HasLength dmj size held →
    t.consensusEncode.length ≤ maxDecodeSize →
    declaredCoinbaseBytes dmj (List.replicate (size - held.length) 0) = t.consensusEncode ++ rest →
    rest = [] ∧ ∃ i ins, t.input = i :: ins ∧
      (scriptSigHead t i).length ≤ dmj.coinbaseTxPrefix.length ∧
      dmj.coinbaseTxPrefix.length + (size - held.length) ≤
        (scriptSigHead t i).length + i.scriptSig.length

/-! ## The gap -/

theorem fullExtranonceSize_eq {rb : RustBitcoin} (hrb : rb.Lawful) {dmj : DeclareMiningJob}
    (hlong : coinbasePrefixLen ≤ dmj.coinbaseTxPrefix.length) {size : Nat} {held : Bytes}
    (h : HasLength dmj size held) :
    fullExtranonceSize rb dmj =
      if size < held.length then .error .panic else .ok (size - held.length) := by
  obtain ⟨hsize, hdrop⟩ := h
  have hdec : rb.decodeVarInt (dmj.coinbaseTxPrefix.drop coinbasePrefixLen) = some size :=
    (hrb.varInt _ _).mpr ⟨hsize, held, hdrop⟩
  have hlen := congrArg List.length hdrop
  rw [List.length_drop, List.length_append, length_compactSizeEnc] at hlen
  have hheld : dmj.coinbaseTxPrefix.length - (coinbasePrefixLen + compactSizeLength size) =
      held.length := by omega
  unfold fullExtranonceSize
  rw [if_neg (Nat.not_lt.mpr hlong), hdec]
  dsimp only
  rw [if_neg (by omega), hheld]

/-- Behind byte 43 there is no length, or one that decides the outcome. -/
theorem fullExtranonceSize_cases {rb : RustBitcoin} (hrb : rb.Lawful) {dmj : DeclareMiningJob}
    (hlong : coinbasePrefixLen ≤ dmj.coinbaseTxPrefix.length) :
    fullExtranonceSize rb dmj = .error .invalid ∨
    ∃ size held, HasLength dmj size held ∧ fullExtranonceSize rb dmj =
      if size < held.length then .error .panic else .ok (size - held.length) := by
  cases hdec : rb.decodeVarInt (dmj.coinbaseTxPrefix.drop coinbasePrefixLen) with
  | none =>
    left
    unfold fullExtranonceSize
    rw [if_neg (Nat.not_lt.mpr hlong), hdec]
  | some size =>
    right
    obtain ⟨hsize, held, hdrop⟩ := (hrb.varInt _ _).mp hdec
    exact ⟨size, held, ⟨hsize, hdrop⟩, fullExtranonceSize_eq hrb hlong ⟨hsize, hdrop⟩⟩

theorem hasLength_of_gap {rb : RustBitcoin} (hrb : rb.Lawful) {dmj : DeclareMiningJob}
    {n : Nat} (h : fullExtranonceSize rb dmj = .ok n) :
    ∃ size held, HasLength dmj size held ∧ held.length ≤ size ∧ n = size - held.length := by
  rcases fullExtranonceSize_cases hrb (fullExtranonceSize_prefixLength h) with
    herror | ⟨size, held, hlength, heq⟩
  · rw [herror] at h
    cases h
  · rw [heq] at h
    split at h
    · cases h
    next hle =>
      cases h
      exact ⟨size, held, hlength, Nat.not_lt.mp hle, rfl⟩

/-- A panic has one of two reasons. -/
theorem fullExtranonceSize_panic {rb : RustBitcoin} (hrb : rb.Lawful) {dmj : DeclareMiningJob}
    (h : fullExtranonceSize rb dmj = .error .panic) :
    dmj.coinbaseTxPrefix.length < coinbasePrefixLen ∨
    ∃ size held, HasLength dmj size held ∧ size < held.length := by
  by_cases hlong : coinbasePrefixLen ≤ dmj.coinbaseTxPrefix.length
  · right
    rcases fullExtranonceSize_cases hrb hlong with herror | ⟨size, held, hlength, heq⟩
    · rw [herror] at h
      cases h
    · rw [heq] at h
      split at h
      next hlt => exact ⟨size, held, hlength, hlt⟩
      · cases h
  · exact Or.inl (Nat.not_le.mp hlong)

theorem getCoinbaseTx_panic_iff {rb : RustBitcoin} {dmj : DeclareMiningJob} :
    getCoinbaseTx rb dmj = .error .panic ↔ fullExtranonceSize rb dmj = .error .panic := by
  unfold getCoinbaseTx
  cases fullExtranonceSize rb dmj with
  | error e => simp
  | ok n =>
    dsimp only
    cases rb.decodeTransaction (declaredCoinbaseBytes dmj (List.replicate n 0)) <;> simp

/-! ## The first scriptSig -/

theorem consensusEncode_cons {t : Transaction} {i : TxIn} {ins : List TxIn}
    (h : t.input = i :: ins) :
    ∃ tail, t.consensusEncode = scriptSigHead t i ++ (i.scriptSig ++ tail) := by
  unfold Transaction.consensusEncode scriptSigHead encodeVec
  rw [h, List.flatMap_cons, TxIn.encode, enc_varBytes]
  cases t.usesSegwitSerialization with
  | true =>
    rw [if_pos rfl, if_pos rfl]
    refine ⟨encodeU32 i.sequence ++ ins.flatMap TxIn.encode ++ serializeOutputs t.output ++
      (i :: ins).flatMap TxIn.encodeWitness ++ encodeU32 t.lockTime, ?_⟩
    simp only [List.append_assoc, List.cons_append, List.nil_append]
  | false =>
    rw [if_neg Bool.false_ne_true, if_neg Bool.false_ne_true]
    refine ⟨encodeU32 i.sequence ++ ins.flatMap TxIn.encode ++ serializeOutputs t.output ++
      encodeU32 t.lockTime, ?_⟩
    simp only [List.append_assoc, List.nil_append]

/-- The gap lies in the scriptSig when its ends do. -/
theorem gapInScriptSig_iff {t : Transaction} {before after : Bytes} {n : Nat}
    (hbytes : before ++ List.replicate n 0 ++ after = t.consensusEncode) :
    GapInScriptSig t before n ↔ ∃ i ins, t.input = i :: ins ∧
      (scriptSigHead t i).length ≤ before.length ∧
      before.length + n ≤ (scriptSigHead t i).length + i.scriptSig.length := by
  constructor
  · rintro ⟨i, ins, left, right, hin, rfl, hscript⟩
    refine ⟨i, ins, hin, ?_, ?_⟩
    · rw [List.length_append]
      exact Nat.le_add_right _ _
    · rw [hscript]
      simp only [List.length_append, List.length_replicate]
      omega
  · rintro ⟨i, ins, hin, hstart, hend⟩
    obtain ⟨tail, henc⟩ := consensusEncode_cons hin
    rw [henc, List.append_assoc] at hbytes
    obtain ⟨left, rfl⟩ : scriptSigHead t i <+: before :=
      List.prefix_of_prefix_length_le (List.prefix_append _ _) (hbytes ▸ List.prefix_append _ _)
        hstart
    rw [List.append_assoc, List.append_cancel_left_eq, ← List.append_assoc] at hbytes
    have hfits : left ++ List.replicate n 0 <+: i.scriptSig := by
      apply List.prefix_of_prefix_length_le (List.prefix_append _ after)
        (hbytes ▸ List.prefix_append _ _)
      simp only [List.length_append, List.length_replicate] at hend ⊢
      omega
    obtain ⟨right, hright⟩ := hfits
    exact ⟨i, ins, left, right, hin, rfl, hright.symm⟩

/-! ## The result -/

/-- **The coinbase is reconstructed as one would like exactly when the bytes are laid out for it.** -/
theorem reconstructs_iff (rb : RustBitcoin) (hrb : rb.Lawful) (dmj : DeclareMiningJob) :
    Reconstructs rb dmj ↔ LaidOut dmj := by
  constructor
  · intro h
    have hnot : fullExtranonceSize rb dmj ≠ .error .panic :=
      fun hpanic => h.no_panic (getCoinbaseTx_panic_iff.mpr hpanic)
    have hlong : coinbasePrefixLen ≤ dmj.coinbaseTxPrefix.length := by
      by_contra hshort
      apply hnot
      unfold fullExtranonceSize
      rw [if_pos (Nat.not_le.mp hshort)]
    have hgap : ∀ size held, HasLength dmj size held →
        held.length ≤ size ∧ fullExtranonceSize rb dmj = .ok (size - held.length) := by
      intro size held hlength
      have heq := fullExtranonceSize_eq hrb hlong hlength
      by_cases hlt : size < held.length
      · rw [if_pos hlt] at heq
        exact absurd heq hnot
      · rw [if_neg hlt] at heq
        exact ⟨Nat.not_lt.mp hlt, heq⟩
    refine ⟨hlong, ?_, ?_⟩
    · intro size held hlength
      obtain ⟨hle, hn⟩ := hgap size held hlength
      have hshort := h.short_gap _ hn
      omega
    · intro size held t rest hlength hfit hbytes
      obtain ⟨-, hn⟩ := hgap size held hlength
      have htx : getCoinbaseTx rb dmj = .ok t := by
        unfold getCoinbaseTx
        rw [hn]
        dsimp only
        rw [hbytes, hrb.decode_complete t rest hfit]
      obtain ⟨n, hn', hwhole, hin⟩ := h.whole t htx
      rw [hn] at hn'
      cases hn'
      rw [← hwhole, List.self_eq_append_right] at hbytes
      exact ⟨hbytes, (gapInScriptSig_iff hwhole.symm).mp hin⟩
  · intro h
    refine ⟨?_, ?_, ?_⟩
    · rw [ne_eq, getCoinbaseTx_panic_iff]
      intro hpanic
      rcases fullExtranonceSize_panic hrb hpanic with hshort | ⟨size, held, hlength, hlt⟩
      · exact absurd h.long (Nat.not_le.mpr hshort)
      · exact absurd (h.gap size held hlength).1 (Nat.not_le.mpr hlt)
    · intro n hn
      obtain ⟨size, held, hlength, hle, rfl⟩ := hasLength_of_gap hrb hn
      have hmax := (h.gap size held hlength).2
      omega
    · intro t htx
      obtain ⟨n, hn, hdec⟩ := getCoinbaseTx_eq_ok htx
      obtain ⟨size, held, hlength, hle, rfl⟩ := hasLength_of_gap hrb hn
      obtain ⟨hfit, rest, hbytes⟩ := hrb.decode_sound _ _ hdec
      obtain ⟨rfl, hin⟩ := h.scriptSig size held t rest hlength hfit hbytes
      rw [List.append_nil] at hbytes
      exact ⟨_, hn, hbytes.symm, (gapInScriptSig_iff hbytes).mpr hin⟩

theorem reconstructs_iff_sample :
    Reconstructs referenceBitcoin sampleDeclaration ↔ LaidOut sampleDeclaration :=
  reconstructs_iff referenceBitcoin referenceBitcoin_lawful sampleDeclaration

/-- A prefix without a byte: slicing it at byte 43 panics. -/
def emptyPrefixDeclaration : DeclareMiningJob := { sampleDeclaration with coinbaseTxPrefix := [] }

theorem emptyPrefixDeclaration_panics :
    ¬ Reconstructs referenceBitcoin emptyPrefixDeclaration := by
  intro h
  exact h.no_panic rfl

end Sv2Apps.Jds
