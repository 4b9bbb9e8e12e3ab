/-
  SetupConnection.lean
  ====================
  **Whom the job declarator server accepts** — the `SetupConnection` message that the JD-client sends
  it, and its handler.

  The handler is a chain of checks; each failed check sends its own error and disconnects.  The
  answer depends on the protocol, on the versions and on one bit of the flags (`jds_accepts_iff`), and
  the JD-client sets that bit in full-template mode alone (`jds_accepts_jdc`).
-/
import Sv2Apps.Jdc.Channels

namespace Sv2Apps.Setup

open Jdc (JDMode)

inductive Protocol where
  | miningProtocol
  | jobDeclarationProtocol
  | templateDistributionProtocol
deriving DecidableEq

/-- `SetupConnection`, less the texts that describe the device. -/
structure SetupConnection where
  protocol : Protocol
  minVersion : UInt16
  maxVersion : UInt16
  flags : UInt32
deriving DecidableEq

inductive ErrorCode where
  | unsupportedProtocol
  | protocolVersionMismatch
  | unsupportedFeatureFlags
  | missingDeclareTxDataFlag
deriving DecidableEq

structure SetupConnectionSuccess where
  usedVersion : UInt16
  flags : UInt32
deriving DecidableEq

structure SetupConnectionError where
  flags : UInt32
  errorCode : ErrorCode
deriving DecidableEq

def SUPPORTED_PROTOCOL_VERSION : UInt16 := 2

/-! ## The messages -/

/-- `get_setup_connection_message_jds`; `allow_full_template_mode` sets the lowest bit. -/
def Jdc.getSetupConnectionMessageJds (configMode : JDMode) : SetupConnection where
  protocol := .jobDeclarationProtocol
  minVersion := 2
  maxVersion := 2
  flags := if configMode = .fullTemplate then 0 ||| 0b1 else 0

/-! ## The handlers -/

/-- `flags.reverse_bits() >> 31 != 0`. -/
def hasDeclareTxData (flags : UInt32) : Bool := flags.toBitVec.reverse >>> 31 ≠ 0#32

def versionMismatch (m : SetupConnection) : Bool :=
  SUPPORTED_PROTOCOL_VERSION < m.minVersion || SUPPORTED_PROTOCOL_VERSION > m.maxVersion

/-- `handle_setup_connection` of the job declarator server. -/
def Jds.handleSetupConnection (m : SetupConnection) :
    Except SetupConnectionError SetupConnectionSuccess :=
  if m.protocol ≠ .jobDeclarationProtocol then .error ⟨0, .unsupportedProtocol⟩
  else if versionMismatch m then .error ⟨0, .protocolVersionMismatch⟩
  else if !hasDeclareTxData m.flags then .error ⟨0, .missingDeclareTxDataFlag⟩
  else .ok { usedVersion := SUPPORTED_PROTOCOL_VERSION, flags := 0 }

/-! ## What is accepted -/

def accepts {ε α : Type} (r : Except ε α) : Bool := r.isOk

theorem versionMismatch_eq_false {m : SetupConnection} :
    versionMismatch m = false ↔
      m.minVersion ≤ SUPPORTED_PROTOCOL_VERSION ∧ SUPPORTED_PROTOCOL_VERSION ≤ m.maxVersion := by
  simp [versionMismatch, UInt16.not_lt]

/-- The lowest bit decides, wherever the reversal puts it. -/
theorem hasDeclareTxData_iff (flags : UInt32) :
    hasDeclareTxData flags = true ↔ flags.toBitVec.getLsbD 0 = true := by
  have hbit : ∀ i, (flags.toBitVec.reverse >>> 31).getLsbD i =
      (decide (31 + i < 32) && flags.toBitVec.getLsbD (31 - (31 + i))) := by
    intro i
    rw [BitVec.getLsbD_ushiftRight, BitVec.getLsbD_reverse, BitVec.getMsbD_eq_getLsbD]
  have hzero : flags.toBitVec.reverse >>> 31 = 0#32 ↔ flags.toBitVec.getLsbD 0 = false := by
    constructor
    · intro h
      have hlow := hbit 0
      rw [h] at hlow
      simpa using hlow.symm
    · intro h
      apply BitVec.eq_of_getLsbD_eq
      intro i _
      rw [hbit i, BitVec.getLsbD_zero]
      by_cases hi : i = 0
      · subst hi
        simpa using h
      · have hout : ¬31 + i < 32 := by omega
        simp only [hout, decide_false, Bool.false_and]
  simp only [hasDeclareTxData, ne_eq, hzero, Bool.not_eq_false, decide_eq_true_eq]

theorem jds_accepts_iff (m : SetupConnection) :
    accepts (Jds.handleSetupConnection m) = true ↔ m.protocol = .jobDeclarationProtocol ∧
      m.minVersion ≤ SUPPORTED_PROTOCOL_VERSION ∧ SUPPORTED_PROTOCOL_VERSION ≤ m.maxVersion ∧
      m.flags.toBitVec.getLsbD 0 = true := by
  rw [← and_assoc (c := m.flags.toBitVec.getLsbD 0 = true), ← versionMismatch_eq_false,
    ← hasDeclareTxData_iff]
  unfold Jds.handleSetupConnection
  split
  next h => simp [accepts, Except.isOk, Except.toBool, h]
  next h =>
    split
    next hv => simp [accepts, Except.isOk, Except.toBool, hv]
    next hv =>
      split
      next hw =>
        rw [Bool.not_eq_true'] at hw
        simp [accepts, Except.isOk, Except.toBool, hw]
      next hw =>
        rw [Bool.not_eq_true', Bool.not_eq_false] at hw
        simpa [accepts, Except.isOk, Except.toBool, hv, hw] using h

/-- The job declarator server accepts a JD-client exactly in full-template mode. -/
theorem jds_accepts_jdc (configMode : JDMode) :
    accepts (Jds.handleSetupConnection (Jdc.getSetupConnectionMessageJds configMode)) = true ↔
      configMode = .fullTemplate := by
  rw [jds_accepts_iff]
  cases configMode with
  | fullTemplate => simp [Jdc.getSetupConnectionMessageJds, SUPPORTED_PROTOCOL_VERSION]
  | coinbaseOnly => simp [Jdc.getSetupConnectionMessageJds]
  | soloMining => simp [Jdc.getSetupConnectionMessageJds]

end Sv2Apps.Setup
