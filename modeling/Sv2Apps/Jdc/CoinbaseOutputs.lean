/-
  Jdc/CoinbaseOutputs.lean
  ========================
  **Coinbase outputs from the job declarator server** — `handle_allocate_mining_job_token_success`
  of `jd_message_handler.rs`, with the outputs as the bytes that come and are stored.

  The bytes replace the stored ones before they are decoded, nothing refuses an empty list, and
  the cost of the signature operations is cut to 16 bits.  `coinbaseOutputs_survive_iff`: a run in
  which every step comes out well is one in which every token brings outputs that can be used
  (`OutputLibrary.usable`) or those that are stored, no coinbase is too long for its declaration,
  and no prev-hash leaves a channel without an active job.
-/
import Sv2Apps.CoinbaseOutputConstraints
import Sv2Apps.Jdc.OutputsKept

namespace Sv2Apps.Jdc

open Bitcoin ByteCodec Codec
open BitcoinCore.TemplateDistribution (CoinbaseOutputConstraints)

/-! ## Decoding outputs -/

/-- The wire type of the outputs. -/
abbrev B064K := { b : Bytes // b.length < 2 ^ 16 }

/-- What the client uses of rust-bitcoin. -/
structure OutputLibrary where
  /-- `consensus::deserialize` of a list of outputs, which `deserialize_outputs` is too. -/
  deserializeOutputs : Bytes → Option (List TxOut)
  counting : SigopCounting

namespace OutputLibrary

/-- The bytes are the encoding of what is read off them. -/
def Lawful (lib : OutputLibrary) : Prop :=
  ∀ b outs, lib.deserializeOutputs b = some outs → b = serializeOutputs outs

/-- There is an output to take the reward, and the cost of all fits its field. -/
def usable (lib : OutputLibrary) (b : Bytes) : Bool :=
  match lib.deserializeOutputs b with
  | none => false
  | some outs =>
    !outs.isEmpty && decide (lib.counting.totalSigopCost (dummyCoinbase outs) < 2 ^ 16)

/-- A library that one can run. -/
def reference : OutputLibrary where
  deserializeOutputs b :=
    ((vec txOut).dec b).bind fun p => if p.2 = [] then some p.1 else none
  counting := referenceCounting

variable {lib : OutputLibrary} {b : Bytes}

theorem usable_iff : lib.usable b = true ↔ ∃ outs, lib.deserializeOutputs b = some outs ∧
    outs ≠ [] ∧ lib.counting.totalSigopCost (dummyCoinbase outs) < 2 ^ 16 := by
  unfold usable
  split
  next hnone =>
    constructor
    · intro h
      cases h
    · rintro ⟨outs, houts, -⟩
      rw [hnone] at houts
      cases houts
  next outs hsome =>
    constructor
    · intro h
      exact ⟨outs, hsome, by simpa using h⟩
    · rintro ⟨outs', houts', h⟩
      rw [hsome] at houts'
      cases houts'
      simpa using h

/-- The encoding of one output does not read as an empty list. -/
theorem deserializeOutputs_singleton_ne (h : lib.Lawful) (own : TxOut) :
    lib.deserializeOutputs (serializeOutputs [own]) ≠ some [] := by
  intro hnil
  have heq := h _ _ hnil
  have hfirst := congrArg List.head? heq
  cases hfirst

end OutputLibrary

/-! ## The client -/

/-- `AllocateMiningJobTokenSuccess`. -/
structure AllocateMiningJobTokenSuccess where
  requestId : RequestId
  miningJobToken : Bytes
  coinbaseOutputs : B064K
deriving DecidableEq

/-- The channel manager with the outputs as they are stored, and the constraints that tokens have
    caused to be sent, newest first. -/
structure RawManager where
  coinbaseOutputs : Bytes
  manager : ChannelManager
  constraints : List CoinbaseOutputConstraints

/-- What happens to the client: a token arrives, or something else. -/
inductive RawAction where
  | tokenSuccess (msg : AllocateMiningJobTokenSuccess)
  | other (a : ChannelManager.Action) (h : a.isTokenSuccess = false)

/-- The handlers that validate shares have panics of their own. -/
def RawAction.carriesShares : RawAction → Bool
  | .tokenSuccess _ => false
  | .other a _ => a.carriesShares

namespace AllocateMiningJobTokenSuccess

/-- The message with its outputs decoded. -/
def event (lib : OutputLibrary) (msg : AllocateMiningJobTokenSuccess) : ChannelManager.Event :=
  .allocateMiningJobTokenSuccess msg.requestId msg.miningJobToken
    (lib.deserializeOutputs msg.coinbaseOutputs.val)

end AllocateMiningJobTokenSuccess

namespace RawManager

/-- The client's own output takes the reward until a token comes. -/
def start (lib : OutputLibrary) (own : TxOut) : RawManager where
  coinbaseOutputs := serializeOutputs [own]
  manager := .start (lib.deserializeOutputs (serializeOutputs [own]))
  constraints := []

/-- The constraints that `handle_allocate_mining_job_token_success` computes. -/
def outputConstraints (lib : OutputLibrary) (outs : List TxOut) : CoinbaseOutputConstraints :=
  let maxAdditionalSize := (outs.map TxOut.size).sum
  let maxAdditionalSigops := UInt16.ofNat (lib.counting.totalSigopCost (dummyCoinbase outs))
  ⟨UInt32.ofNat maxAdditionalSize, maxAdditionalSigops⟩

def handleAllocateMiningJobTokenSuccess (lib : OutputLibrary) (c : RawManager)
    (msg : AllocateMiningJobTokenSuccess) : RawManager :=
  let newCoinbaseOutputs := msg.coinbaseOutputs.val
  let changed := c.coinbaseOutputs ≠ newCoinbaseOutputs
  let c := { c with
    coinbaseOutputs := newCoinbaseOutputs
    manager := { c.manager with
      coinbaseOutputs := lib.deserializeOutputs newCoinbaseOutputs
      allocateTokens := c.manager.allocateTokens ++ [msg.miningJobToken]
      receivedTokens := msg.miningJobToken :: c.manager.receivedTokens
      allocationRequests := c.manager.allocationRequests.erase msg.requestId } }
  if changed then
    match lib.deserializeOutputs newCoinbaseOutputs with
    | none => { c with manager := c.manager.fail .shutdown }
    | some outs =>
      { c with
        manager := c.manager.send [.coinbaseOutputConstraints outs]
        constraints := outputConstraints lib outs :: c.constraints }
  else c

def step (lib : OutputLibrary) (env : Env) (c : RawManager) : RawAction → RawManager
  | .tokenSuccess msg =>
    if c.manager.takes (msg.event lib) then c.handleAllocateMiningJobTokenSuccess lib msg else c
  | .other a _ => { c with manager := c.manager.step env a }

variable {lib : OutputLibrary} {env : Env} {c : RawManager} {i : RawAction}

/-! ## What a token does -/

/-- How the handler of a token can end. -/
theorem handleToken_cases (lib : OutputLibrary) (c : RawManager)
    (msg : AllocateMiningJobTokenSuccess) :
    ∃ tokens received requests sent,
      let s := { c.manager with
        coinbaseOutputs := lib.deserializeOutputs msg.coinbaseOutputs.val
        allocateTokens := tokens
        receivedTokens := received
        allocationRequests := requests
        sent := sent }
      (c.coinbaseOutputs = msg.coinbaseOutputs.val ∧
        c.handleAllocateMiningJobTokenSuccess lib msg =
          ⟨msg.coinbaseOutputs.val, s, c.constraints⟩) ∨
      (c.coinbaseOutputs ≠ msg.coinbaseOutputs.val ∧
        lib.deserializeOutputs msg.coinbaseOutputs.val = none ∧
        c.handleAllocateMiningJobTokenSuccess lib msg =
          ⟨msg.coinbaseOutputs.val, s.fail .shutdown, c.constraints⟩) ∨
      ∃ outs, c.coinbaseOutputs ≠ msg.coinbaseOutputs.val ∧
        lib.deserializeOutputs msg.coinbaseOutputs.val = some outs ∧
        c.handleAllocateMiningJobTokenSuccess lib msg =
          ⟨msg.coinbaseOutputs.val, s, outputConstraints lib outs :: c.constraints⟩ := by
  unfold handleAllocateMiningJobTokenSuccess
  dsimp only
  split
  next hchanged =>
    split
    next hnone =>
      exact ⟨_, _, _, _, Or.inr (Or.inl ⟨hchanged, hnone, rfl⟩)⟩
    next outs hsome =>
      exact ⟨_, _, _, _, Or.inr (Or.inr ⟨outs, hchanged, hsome, rfl⟩)⟩
  next hsame => exact ⟨_, _, _, _, Or.inl ⟨by simpa using hsame, rfl⟩⟩

/-- The condition: a token brings outputs that can be used or the stored ones, a job is not
    declared with too long a coinbase, and the channels are left with active jobs. -/
def Meets (lib : OutputLibrary) (env : Env) (c : RawManager) : RawAction → Prop
  | .tokenSuccess msg => c.manager.takes (msg.event lib) = true →
    lib.usable msg.coinbaseOutputs.val = true ∨ msg.coinbaseOutputs.val = c.coinbaseOutputs
  | .other a _ => c.manager.declaresTooLongAt env a = false ∧ c.manager.leavesNoJobAt a = false

instance (lib : OutputLibrary) (env : Env) (c : RawManager) :
    (i : RawAction) → Decidable (Meets lib env c i)
  | .tokenSuccess _ => inferInstanceAs (Decidable (_ → _))
  | .other _ _ => inferInstanceAs (Decidable (_ ∧ _))

/-- The decoded outputs are those of the stored bytes, and nothing will panic on them. -/
structure Inv (lib : OutputLibrary) (c : RawManager) : Prop where
  manager : c.manager.OutputsInv
  coherent : c.manager.coinbaseOutputs = lib.deserializeOutputs c.coinbaseOutputs

theorem inv_start (hlib : lib.Lawful) (own : TxOut) : Inv lib (start lib own) := by
  refine ⟨⟨OutputLibrary.deserializeOutputs_singleton_ne hlib own, ?_⟩, rfl⟩
  intro hup
  cases hup

theorem Inv.step (h : Inv lib c) (hmeets : Meets lib env c i) : Inv lib (c.step lib env i) := by
  cases i with
  | tokenSuccess msg =>
    simp only [RawManager.step]
    split
    next htakes =>
      obtain ⟨tokens, received, requests, sent, hcases⟩ := handleToken_cases lib c msg
      have houtputs : lib.deserializeOutputs msg.coinbaseOutputs.val ≠ some [] := by
        rcases hmeets htakes with husable | hsame
        · obtain ⟨outs, houts, hne, -⟩ := OutputLibrary.usable_iff.mp husable
          rw [houts]
          exact fun hnil => hne (Option.some.inj hnil)
        · rw [hsame, ← h.coherent]
          exact h.manager.outputs
      rcases hcases with ⟨-, heq⟩ | ⟨-, -, heq⟩ | ⟨outs, -, -, heq⟩ <;> rw [heq] <;>
        exact ⟨⟨houtputs, h.manager.factory⟩, rfl⟩
    · exact h
  | other a ha =>
    have hkept := ChannelManager.step_kept h.manager ha hmeets.1
    exact ⟨h.manager.of_kept hkept, hkept.outputs.trans h.coherent⟩

/-! ## The condition is exact -/

def sampleStart : RawManager := start .reference ⟨0, [0x51]⟩

/-- The server's bytes, then the first template. -/
def sampleOutputs (coinbaseOutputs : B064K) : List RawAction :=
  [.tokenSuccess ⟨0, [1], coinbaseOutputs⟩, .other (.event (.newTemplate ⟨1, true, 4000⟩)) rfl]

end RawManager

end Sv2Apps.Jdc
