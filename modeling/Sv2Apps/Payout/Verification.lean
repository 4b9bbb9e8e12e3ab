/-
  Payout/Verification.lean
  ========================
  **Verifying a payout** — `validate_coinbase_outputs` of `stratum-apps/src/payout.rs`, in a build
  that checks plain arithmetic for overflow and in one that wraps.

  The verifier sums what the outputs pay, takes its percentage of the sum, and compares.  Where
  the products fit it decides the payout in exact arithmetic (`validation_exact_iff`); outputs of
  an untrusted upstream need not fit.  Of the outputs that `coinbase_outputs` builds it accepts
  all but those of a donation whose pool is paid with a script that the verifier does not count
  as the pool's (`built_accepted_iff`).
-/
import Sv2Apps.Lib.OverflowChecks
import Sv2Apps.Payout
import Mathlib.Data.UInt

namespace Sv2Apps

open Bitcoin OverflowChecks

inductive PayoutValidationError where
  | noSpendableOutputs
  | payoutMismatch (address : String) (expectedSats : UInt64) (expectedPercentage : UInt8)
      (totalSpendableSats actualSats : UInt64)
deriving DecidableEq

/-- `Script::is_op_return`. -/
def isOpReturn (script : Bytes) : Bool := script.head? = some 0x6a

namespace PayoutMode

def minLegacySoloPayoutPercentage : UInt8 := 90

def minerAddress : PayoutMode → Option String
  | .solo address _ | .legacySolo address _ | .donate _ address _ => some address
  | .fullDonation => none

def minerScriptPubkey : PayoutMode → Option Bytes
  | .solo _ script | .legacySolo _ script | .donate _ _ script => some script
  | .fullDonation => none

def expectedMinerPercentage (b : Build) : PayoutMode → Option UInt8
  | .solo _ _ | .legacySolo _ _ => some 100
  | .donate percentage _ _ =>
    if b = .checked ∧ 100 < percentage then none else some (100 - percentage)
  | .fullDonation => some 0

def expectedMinerSats (b : Build) (m : PayoutMode) (totalSpendableSats : UInt64) : Option UInt64 :=
  match m with
  | .solo _ _ | .legacySolo _ _ => some totalSpendableSats
  | .donate percentage _ _ =>
    (mul b totalSpendableSats percentage.toUInt64).map fun product =>
      let poolSats := product / 100
      if poolSats ≤ totalSpendableSats then totalSpendableSats - poolSats else 0
  | .fullDonation => some 0

/-- `u64::div_ceil` rounds the quotient up. -/
def expectedLegacySoloMinerSats (b : Build) (totalSpendableSats : UInt64) : Option UInt64 :=
  (mul b totalSpendableSats minLegacySoloPayoutPercentage.toUInt64).map fun product =>
    if product % 100 = 0 then product / 100 else product / 100 + 1

/-- The comparison that ends the verification, with the sums it is made for. -/
def compareSats (b : Build) (m : PayoutMode) (totalSpendableSats actualSats : UInt64) :
    Option (Except PayoutValidationError Unit) :=
  match m with
  | .legacySolo _ _ =>
    (expectedLegacySoloMinerSats b totalSpendableSats).bind fun expected =>
      if actualSats < expected then
        m.minerAddress.map fun address => .error (.payoutMismatch address expected
          minLegacySoloPayoutPercentage totalSpendableSats actualSats)
      else some (.ok ())
  | _ =>
    (m.expectedMinerSats b totalSpendableSats).bind fun expected =>
      if actualSats ≠ expected then
        m.minerAddress.bind fun address =>
          (m.expectedMinerPercentage b).map fun percentage => .error (.payoutMismatch address
            expected percentage totalSpendableSats actualSats)
      else some (.ok ())

def spendable (outputs : List TxOut) : List TxOut :=
  outputs.filter fun o => !isOpReturn o.scriptPubkey

def paidTo (script : Bytes) (outputs : List TxOut) : List TxOut :=
  (spendable outputs).filter fun o => o.scriptPubkey = script

/-- `none` is a panic. -/
def validateCoinbaseOutputs (b : Build) (m : PayoutMode) (outputs : List TxOut) :
    Option (Except PayoutValidationError Unit) :=
  match m.minerScriptPubkey with
  | none => some (.ok ())
  | some script =>
    (sum b ((spendable outputs).map TxOut.value)).bind fun totalSpendableSats =>
      if totalSpendableSats = 0 then some (.error .noSpendableOutputs)
      else
        (sum b ((paidTo script outputs).map TxOut.value)).bind fun actualMinerSats =>
          m.compareSats b totalSpendableSats actualMinerSats

/-! ## Exact arithmetic -/

/-- What the outputs pay, `OP_RETURN` outputs apart. -/
def spendableSats (outputs : List TxOut) : Nat := total ((spendable outputs).map TxOut.value)

/-- What they pay to a script. -/
def satsPaidTo (script : Bytes) (outputs : List TxOut) : Nat :=
  total ((paidTo script outputs).map TxOut.value)

/-- The outputs pay the miner what the mode promises. -/
def Honest (m : PayoutMode) (outputs : List TxOut) : Prop :=
  let t := spendableSats outputs
  match m with
  | .solo _ script => 0 < t ∧ satsPaidTo script outputs = t
  | .legacySolo _ script => 0 < t ∧ 90 * t ≤ 100 * satsPaidTo script outputs
  | .donate percentage _ script =>
    0 < t ∧ satsPaidTo script outputs = t - t * percentage.toNat / 100
  | .fullDonation => True

/-- The largest product that the verifier makes is a 64-bit number. -/
def ProductsFit (m : PayoutMode) (outputs : List TxOut) : Prop :=
  let t := spendableSats outputs
  match m with
  | .solo _ _ => t < 2 ^ 64
  | .legacySolo _ _ => t * 90 < 2 ^ 64
  | .donate percentage _ _ => t * percentage.toNat < 2 ^ 64
  | .fullDonation => True

theorem satsPaidTo_le (script : Bytes) (outputs : List TxOut) :
    satsPaidTo script outputs ≤ spendableSats outputs :=
  total_filter_le TxOut.value _ (spendable outputs)

theorem productsFit_lt {m : PayoutMode} (hm : m.Valid) {script : Bytes}
    (hs : m.minerScriptPubkey = some script) {outputs : List TxOut} (h : m.ProductsFit outputs) :
    spendableSats outputs < 2 ^ 64 := by
  cases m with
  | solo a s => exact h
  | legacySolo a s =>
    simp only [ProductsFit] at h
    omega
  | donate p a s =>
    have hp : 1 ≤ p.toNat := by simpa [UInt8.le_iff_toNat_le] using hm.1
    have hle : spendableSats outputs * 1 ≤ spendableSats outputs * p.toNat :=
      Nat.mul_le_mul_left _ hp
    simp only [ProductsFit] at h
    omega
  | fullDonation => cases hs

/-! ## What the comparison expects -/

theorem toNat_hundred : (100 : UInt64).toNat = 100 := rfl

theorem expectedLegacySoloMinerSats_of_lt {b : Build} {t : UInt64} (h : t.toNat * 90 < 2 ^ 64) :
    ∃ expected, expectedLegacySoloMinerSats b t = some expected ∧
      expected.toNat = (t.toNat * 90 + 99) / 100 := by
  have hmul : mul b t minLegacySoloPayoutPercentage.toUInt64 =
      some (UInt64.ofNat (t.toNat * 90)) := mul_of_lt h
  refine ⟨_, by rw [expectedLegacySoloMinerSats, hmul, Option.map_some], ?_⟩
  have hp : (UInt64.ofNat (t.toNat * 90)).toNat = t.toNat * 90 := toNat_ofNat_of_lt h
  by_cases hr : UInt64.ofNat (t.toNat * 90) % 100 = 0
  · rw [if_pos hr]
    have hr' : t.toNat * 90 % 100 = 0 := by
      have := congrArg UInt64.toNat hr
      rwa [UInt64.toNat_mod, hp] at this
    rw [UInt64.toNat_div, hp, toNat_hundred]
    omega
  · rw [if_neg hr]
    have hr' : t.toNat * 90 % 100 ≠ 0 := by
      intro h0
      apply hr
      apply UInt64.toNat_inj.mp
      rw [UInt64.toNat_mod, hp]
      exact h0
    have hlt : t.toNat * 90 / 100 + 1 < 2 ^ 64 := by omega
    rw [UInt64.toNat_add, UInt64.toNat_div, hp, toNat_hundred, UInt64.toNat_one,
      Nat.mod_eq_of_lt hlt]
    omega

theorem expectedMinerSats_donate_of_lt {b : Build} {p : UInt8} {a : String} {s : Bytes}
    {t : UInt64} (h : t.toNat * p.toNat < 2 ^ 64) :
    ∃ expected, expectedMinerSats b (.donate p a s) t = some expected ∧
      expected.toNat = t.toNat - t.toNat * p.toNat / 100 := by
  have hmul : mul b t p.toUInt64 = some (UInt64.ofNat (t.toNat * p.toNat)) := by
    rw [← UInt8.toNat_toUInt64]
    exact mul_of_lt (by rwa [UInt8.toNat_toUInt64])
  refine ⟨_, by rw [expectedMinerSats, hmul, Option.map_some], ?_⟩
  have hq : (UInt64.ofNat (t.toNat * p.toNat) / 100).toNat = t.toNat * p.toNat / 100 := by
    rw [UInt64.toNat_div, toNat_ofNat_of_lt h, toNat_hundred]
  dsimp only
  by_cases hle : UInt64.ofNat (t.toNat * p.toNat) / 100 ≤ t
  · rw [if_pos hle, UInt64.toNat_sub_of_le _ _ hle, hq]
  · rw [if_neg hle]
    rw [UInt64.le_iff_toNat_le, hq] at hle
    rw [UInt64.toNat_zero]
    omega

/-- The amounts that the comparison accepts. -/
def Accepts (m : PayoutMode) (t actual : Nat) : Prop :=
  match m with
  | .solo _ _ => actual = t
  | .legacySolo _ _ => 90 * t ≤ 100 * actual
  | .donate percentage _ _ => actual = t - t * percentage.toNat / 100
  | .fullDonation => True

/-- Where the product fits, the comparison ends, and accepts what it should. -/
theorem compareSats_of_fits {b : Build} {m : PayoutMode} (hm : m.Valid) (t actual : UInt64)
    (hfits : match m with
      | .legacySolo _ _ => t.toNat * 90 < 2 ^ 64
      | .donate p _ _ => t.toNat * p.toNat < 2 ^ 64
      | _ => True) (hpaid : m ≠ .fullDonation) :
    m.compareSats b t actual ≠ none ∧
      (m.compareSats b t actual = some (.ok ()) ↔ m.Accepts t.toNat actual.toNat) := by
  cases m with
  | solo a s =>
    simp only [compareSats, expectedMinerSats, Option.bind_some, Accepts, minerAddress,
      expectedMinerPercentage, Option.map_some]
    by_cases h : actual = t
    · simp [h]
    · have hn : ¬actual.toNat = t.toNat := fun h' => h (UInt64.toNat_inj.mp h')
      simp [h, hn]
  | legacySolo a s =>
    obtain ⟨expected, he, hn⟩ := expectedLegacySoloMinerSats_of_lt (b := b) hfits
    simp only [compareSats, he, Option.bind_some, Accepts, minerAddress, Option.map_some]
    by_cases h : actual < expected
    · rw [if_pos h]
      rw [UInt64.lt_iff_toNat_lt, hn] at h
      refine ⟨by simp, by simp; omega⟩
    · rw [if_neg h]
      rw [UInt64.lt_iff_toNat_lt, hn] at h
      refine ⟨by simp, by simp; omega⟩
  | donate p a s =>
    obtain ⟨expected, he, hn⟩ := expectedMinerSats_donate_of_lt (b := b) (a := a) (s := s) hfits
    have hp : ¬100 < p := by
      have := hm.2
      rw [UInt8.lt_iff_toNat_lt] at this ⊢
      simp only [UInt8.reduceToNat] at this ⊢
      omega
    simp only [compareSats, he, Option.bind_some, Accepts, minerAddress, expectedMinerPercentage,
      hp, and_false, if_false, Option.map_some]
    by_cases h : actual = expected
    · simp [h, hn]
    · have hne : ¬actual.toNat = t.toNat - t.toNat * p.toNat / 100 := by
        rw [← hn]
        exact fun h' => h (UInt64.toNat_inj.mp h')
      simp [h, hne]
  | fullDonation => exact absurd rfl hpaid

/-! ## Outputs of an upstream -/

/-- The verification, once the sums are known to fit. -/
theorem validateCoinbaseOutputs_of_lt {b : Build} {m : PayoutMode} {script : Bytes}
    (hs : m.minerScriptPubkey = some script) {outputs : List TxOut}
    (h : spendableSats outputs < 2 ^ 64) :
    validateCoinbaseOutputs b m outputs =
      if spendableSats outputs = 0 then some (.error .noSpendableOutputs)
      else m.compareSats b (UInt64.ofNat (spendableSats outputs))
        (UInt64.ofNat (satsPaidTo script outputs)) := by
  have hpaid : satsPaidTo script outputs < 2 ^ 64 :=
    Nat.lt_of_le_of_lt (satsPaidTo_le script outputs) h
  have hzero : UInt64.ofNat (spendableSats outputs) = 0 ↔ spendableSats outputs = 0 := by
    rw [← UInt64.toNat_inj, toNat_ofNat_of_lt h, UInt64.toNat_zero]
  have hsum : sum b ((spendable outputs).map TxOut.value) =
      some (UInt64.ofNat (spendableSats outputs)) := sum_of_lt h
  have hsum' : sum b ((paidTo script outputs).map TxOut.value) =
      some (UInt64.ofNat (satsPaidTo script outputs)) := sum_of_lt hpaid
  simp only [validateCoinbaseOutputs, hs, hsum, hsum', Option.bind_some, hzero]

/-- **Sound where the products fit**: no overflow, and the exact payout decides. -/
theorem validate_of_productsFit {m : PayoutMode} (hm : m.Valid) {outputs : List TxOut}
    (h : m.ProductsFit outputs) (b : Build) :
    validateCoinbaseOutputs b m outputs ≠ none ∧
      (validateCoinbaseOutputs b m outputs = some (.ok ()) ↔ m.Honest outputs) := by
  cases hs : m.minerScriptPubkey with
  | none =>
    cases m with
    | fullDonation => simp [validateCoinbaseOutputs, minerScriptPubkey, Honest]
    | _ => cases hs
  | some script =>
    have hlt := productsFit_lt hm hs h
    have hpaid : satsPaidTo script outputs < 2 ^ 64 :=
      Nat.lt_of_le_of_lt (satsPaidTo_le script outputs) hlt
    have hne : m ≠ .fullDonation := by
      intro he
      rw [he] at hs
      cases hs
    rw [validateCoinbaseOutputs_of_lt hs hlt]
    by_cases h0 : spendableSats outputs = 0
    · rw [if_pos h0]
      refine ⟨by simp, by simp, fun hh => ?_⟩
      cases m with
      | fullDonation => cases hs
      | _ => exact absurd hh.1 (by omega)
    · rw [if_neg h0]
      obtain ⟨hsome, hiff⟩ := compareSats_of_fits (b := b) hm
        (UInt64.ofNat (spendableSats outputs)) (UInt64.ofNat (satsPaidTo script outputs))
        (by
          cases m with
          | solo a s => trivial
          | legacySolo a s => rw [toNat_ofNat_of_lt hlt]; exact h
          | donate p a s => rw [toNat_ofNat_of_lt hlt]; exact h
          | fullDonation => trivial) hne
      refine ⟨hsome, hiff.trans ?_⟩
      rw [toNat_ofNat_of_lt hlt, toNat_ofNat_of_lt hpaid]
      have hpos : 0 < spendableSats outputs := Nat.pos_of_ne_zero h0
      cases m with
      | solo a s => cases hs; exact ⟨fun hh => ⟨hpos, hh⟩, fun hh => hh.2⟩
      | legacySolo a s => cases hs; exact ⟨fun hh => ⟨hpos, hh⟩, fun hh => hh.2⟩
      | donate p a s => cases hs; exact ⟨fun hh => ⟨hpos, hh⟩, fun hh => hh.2⟩
      | fullDonation => exact absurd rfl hne

/-- A checked build that does not panic has made no product that does not fit. -/
theorem productsFit_of_checked {m : PayoutMode} {outputs : List TxOut}
    (h : validateCoinbaseOutputs .checked m outputs ≠ none) : m.ProductsFit outputs := by
  cases hs : m.minerScriptPubkey with
  | none =>
    cases m with
    | fullDonation => trivial
    | _ => cases hs
  | some script =>
    have hlt : spendableSats outputs < 2 ^ 64 := by
      refine sum_checked.mp fun hsum => h ?_
      simp only [validateCoinbaseOutputs, hs, hsum, Option.bind_none]
    have hn := toNat_ofNat_of_lt hlt
    rw [validateCoinbaseOutputs_of_lt hs hlt] at h
    by_cases h0 : spendableSats outputs = 0
    · cases m with
      | solo a s => exact hlt
      | legacySolo a s => simp [ProductsFit, h0]
      | donate p a s => simp [ProductsFit, h0]
      | fullDonation => trivial
    · rw [if_neg h0] at h
      cases m with
      | solo a s => exact hlt
      | legacySolo a s =>
        have hmul : mul .checked (UInt64.ofNat (spendableSats outputs))
            minLegacySoloPayoutPercentage.toUInt64 ≠ none := by
          intro hnone
          simp only [compareSats, expectedLegacySoloMinerSats, hnone, Option.map_none,
            Option.bind_none] at h
          exact h rfl
        have := mul_checked.mp hmul
        rwa [hn] at this
      | donate p a s =>
        have hmul : mul .checked (UInt64.ofNat (spendableSats outputs)) p.toUInt64 ≠ none := by
          intro hnone
          simp only [compareSats, expectedMinerSats, hnone, Option.map_none,
            Option.bind_none] at h
          exact h rfl
        have := mul_checked.mp hmul
        rwa [hn, UInt8.toNat_toUInt64] at this
      | fullDonation => trivial

/-- No operation overflows, and `Ok` is returned for honest outputs alone, whatever the build. -/
def ValidationExact (m : PayoutMode) (outputs : List TxOut) : Prop :=
  validateCoinbaseOutputs .checked m outputs ≠ none ∧
    ∀ b, validateCoinbaseOutputs b m outputs = some (.ok ()) ↔ m.Honest outputs

/-- **When the verification is exact**: when its largest product fits into 64 bits. -/
theorem validation_exact_iff {m : PayoutMode} (hm : m.Valid) (outputs : List TxOut) :
    m.ValidationExact outputs ↔ m.ProductsFit outputs := by
  constructor
  · intro h
    exact productsFit_of_checked h.1
  · intro h
    exact ⟨(validate_of_productsFit hm h .checked).1,
      fun b => (validate_of_productsFit hm h b).2⟩

theorem validation_exact_iff_solo :
    (PayoutMode.solo "a" [0]).Valid ∧
      ((PayoutMode.solo "a" [0]).ValidationExact [⟨5, [0]⟩] ↔
        (PayoutMode.solo "a" [0]).ProductsFit [⟨5, [0]⟩]) :=
  ⟨trivial, validation_exact_iff (m := .solo "a" [0]) trivial [⟨5, [0]⟩]⟩

/-- Half of the sum range to somebody else, twice: the wrapped total is what the miner gets, and a
    wrapping build accepts the payout; a checked build panics. -/
theorem wrapped_total_accepted :
    let m := PayoutMode.solo "a" [0]
    let outputs : List TxOut := [⟨5, [0]⟩, ⟨2 ^ 63, [1]⟩, ⟨2 ^ 63, [1]⟩]
    validateCoinbaseOutputs .wrapping m outputs = some (.ok ()) ∧
      validateCoinbaseOutputs .checked m outputs = none ∧ ¬m.Honest outputs ∧
      ¬m.ValidationExact outputs := by
  have hw : validateCoinbaseOutputs .wrapping (.solo "a" [0])
      [⟨5, [0]⟩, ⟨2 ^ 63, [1]⟩, ⟨2 ^ 63, [1]⟩] = some (.ok ()) := by decide +kernel
  have hc : validateCoinbaseOutputs .checked (.solo "a" [0])
      [⟨5, [0]⟩, ⟨2 ^ 63, [1]⟩, ⟨2 ^ 63, [1]⟩] = none := by decide +kernel
  refine ⟨hw, hc, ?_, fun h => h.1 hc⟩
  simp only [Honest]
  decide +kernel

/-! ## Outputs of the pool -/

/-- The outputs with `OP_RETURN` outputs put in between. -/
inductive WithOpReturns : List TxOut → List TxOut → Prop where
  | nil : WithOpReturns [] []
  | keep (o : TxOut) {built outputs : List TxOut} (h : WithOpReturns built outputs) :
      WithOpReturns (o :: built) (o :: outputs)
  | opReturn (o : TxOut) (ho : isOpReturn o.scriptPubkey = true) {built outputs : List TxOut}
      (h : WithOpReturns built outputs) : WithOpReturns built (o :: outputs)

theorem WithOpReturns.refl (built : List TxOut) : WithOpReturns built built := by
  induction built with
  | nil => exact .nil
  | cons o built ih => exact .keep o ih

/-- The verifier does not see what was put in between. -/
theorem WithOpReturns.spendable_eq {built outputs : List TxOut} (h : WithOpReturns built outputs) :
    spendable outputs = spendable built := by
  induction h with
  | nil => rfl
  | keep o h ih =>
    simp only [spendable, List.filter_cons] at ih ⊢
    rw [ih]
  | opReturn o ho h ih =>
    simp only [spendable, List.filter_cons, ho, Bool.not_true] at ih ⊢
    exact ih

theorem WithOpReturns.spendableSats_eq {built outputs : List TxOut}
    (h : WithOpReturns built outputs) : spendableSats outputs = spendableSats built := by
  rw [spendableSats, spendableSats, h.spendable_eq]

theorem WithOpReturns.satsPaidTo_eq {built outputs : List TxOut}
    (h : WithOpReturns built outputs) (script : Bytes) :
    satsPaidTo script outputs = satsPaidTo script built := by
  rw [satsPaidTo, satsPaidTo, paidTo, paidTo, h.spendable_eq]

/-- An address is not turned into an `OP_RETURN` script. -/
def Spendable (scriptFromAddress : String → Option Bytes) : Prop :=
  ∀ address script, scriptFromAddress address = some script → isOpReturn script = false

/-- The script a mode pays is the script of an address in the identity. -/
theorem tryFrom_minerScript {f : String → Option Bytes} {u : String} {m : PayoutMode}
    (h : tryFrom f u = .ok m) {script : Bytes} (hs : m.minerScriptPubkey = some script) :
    ∃ address, f address = some script := by
  have hwith : ∀ (a : String) (mode : Bytes → PayoutMode),
      (∀ s, (mode s).minerScriptPubkey = some s) → withAddress f a mode = .ok m →
      ∃ address, f address = some script := by
    intro a mode hmode ha
    unfold withAddress at ha
    split at ha
    next s hfs =>
      cases ha
      rw [hmode] at hs
      cases hs
      exact ⟨a, hfs⟩
    next => cases ha
  unfold tryFrom at h
  split at h
  next => cases h
  next =>
    dsimp only at h
    split at h
    next s hfs =>
      cases h
      cases hs
      exact ⟨_, hfs⟩
    next =>
      split at h
      next address _ _ => exact hwith address (.solo address) (fun _ => rfl) h
      next => cases h; cases hs
      next => cases h; cases hs
      next =>
        split at h
        next => cases h
        next p _ =>
          split at h
          next => exact hwith _ (.donate p _) (fun _ => rfl) h
          next => cases h
      next => cases h
      next => cases h

theorem tryFrom_spendable {f : String → Option Bytes} (hf : Spendable f) {u : String}
    {m : PayoutMode} (h : tryFrom f u = .ok m) {script : Bytes}
    (hs : m.minerScriptPubkey = some script) : isOpReturn script = false := by
  obtain ⟨address, hfs⟩ := tryFrom_minerScript h hs
  exact hf address script hfs

/-- The verifier counts the pool's part of a donation as the pool's: it is paid to a script of its
    own that can be spent, or the percentage comes to nothing. -/
def PoolPartCounted (m : PayoutMode) (totalValue : UInt64) (poolScript : Bytes) : Prop :=
  match m with
  | .donate percentage _ script =>
    if poolScript = script then totalValue.toNat * percentage.toNat < 100
    else if isOpReturn poolScript = true then
      (totalValue.toNat - totalValue.toNat * percentage.toNat / 100) * percentage.toNat < 100
    else True
  | _ => True

/-- The two parts of a donation, in exact arithmetic. -/
theorem coinbaseOutputs_donate {p : UInt8} (hp : p.toNat < 100) {a : String} {s : Bytes}
    {totalValue : UInt64} (hlt : totalValue.toNat * 99 < 2 ^ 64) (poolScript : Bytes) :
    ∃ poolValue minerValue : UInt64,
      coinbaseOutputs (.donate p a s) totalValue poolScript =
        [⟨poolValue, poolScript⟩, ⟨minerValue, s⟩] ∧
      poolValue.toNat = totalValue.toNat * p.toNat / 100 ∧
      minerValue.toNat = totalValue.toNat - totalValue.toNat * p.toNat / 100 := by
  have hmul : totalValue.toNat * p.toNat ≤ totalValue.toNat * 99 :=
    Nat.mul_le_mul_left _ (by omega)
  have hq : (totalValue * p.toUInt64 / 100).toNat = totalValue.toNat * p.toNat / 100 := by
    rw [UInt64.toNat_div, UInt64.toNat_mul, UInt8.toNat_toUInt64, Nat.mod_eq_of_lt (by omega),
      toNat_hundred]
  have hle : totalValue * p.toUInt64 / 100 ≤ totalValue := by
    rw [UInt64.le_iff_toNat_le, hq]
    omega
  refine ⟨totalValue * p.toUInt64 / 100, totalValue - totalValue * p.toUInt64 / 100, ?_, hq, ?_⟩
  · simp only [coinbaseOutputs, hle, if_true]
  · rw [UInt64.toNat_sub_of_le _ _ hle, hq]

/-- What a mode pays altogether, and to its miner, by the outputs built for it. -/
theorem built_sums {m : PayoutMode} (hm : m.Valid) {script : Bytes}
    (hs : m.minerScriptPubkey = some script) (hspend : isOpReturn script = false)
    {totalValue : UInt64} (hlt : totalValue.toNat * 99 < 2 ^ 64) (poolScript : Bytes) :
    let built := m.coinbaseOutputs totalValue poolScript
    match m with
    | .donate p _ _ =>
      let poolValue := totalValue.toNat * p.toNat / 100
      spendableSats built = totalValue.toNat - (if isOpReturn poolScript then poolValue else 0) ∧
        satsPaidTo script built =
          totalValue.toNat - (if poolScript = script then 0 else poolValue)
    | _ => spendableSats built = totalValue.toNat ∧ satsPaidTo script built = totalValue.toNat := by
  cases m with
  | solo a s =>
    cases hs
    simp [coinbaseOutputs, spendableSats, satsPaidTo, paidTo, spendable, hspend]
  | legacySolo a s =>
    cases hs
    simp [coinbaseOutputs, spendableSats, satsPaidTo, paidTo, spendable, hspend]
  | donate p a s =>
    cases hs
    have hp : p.toNat < 100 := by simpa [UInt8.lt_iff_toNat_lt] using hm.2
    obtain ⟨pool, miner, hb, hpool, hminer⟩ :=
      coinbaseOutputs_donate (a := a) (s := script) hp hlt poolScript
    have hle : totalValue.toNat * p.toNat / 100 ≤ totalValue.toNat := by
      have : totalValue.toNat * p.toNat ≤ totalValue.toNat * 100 :=
        Nat.mul_le_mul_left _ (by omega)
      omega
    dsimp only
    rw [hb]
    by_cases heq : poolScript = script
    · subst heq
      simp [spendableSats, satsPaidTo, paidTo, spendable, hspend, hpool, hminer]
      omega
    · cases hop : isOpReturn poolScript with
      | true => simp [spendableSats, satsPaidTo, paidTo, spendable, hspend, hop, heq, hminer]
      | false =>
        simp [spendableSats, satsPaidTo, paidTo, spendable, hspend, hop, heq, hpool, hminer]
        omega
  | fullDonation => cases hs

/-- The outputs that are built pay the miner what is promised, as far as the verifier can tell. -/
theorem built_honest_iff {m : PayoutMode} (hm : m.Valid) {script : Bytes}
    (hs : m.minerScriptPubkey = some script) (hspend : isOpReturn script = false)
    {totalValue : UInt64} (hpos : 1 ≤ totalValue) (hlt : totalValue.toNat * 99 < 2 ^ 64)
    (poolScript : Bytes) :
    m.Honest (m.coinbaseOutputs totalValue poolScript) ↔
      m.PoolPartCounted totalValue poolScript := by
  have hsums := built_sums hm hs hspend hlt poolScript
  rw [UInt64.le_iff_toNat_le, UInt64.toNat_one] at hpos
  cases m with
  | solo a s =>
    cases hs
    simp only [Honest, PoolPartCounted, hsums.1, hsums.2, iff_true]
    exact ⟨by omega, trivial⟩
  | legacySolo a s =>
    cases hs
    simp only [Honest, PoolPartCounted, hsums.1, hsums.2, iff_true]
    omega
  | donate p a s =>
    cases hs
    have hp : p.toNat < 100 := by simpa [UInt8.lt_iff_toNat_lt] using hm.2
    have hshare : totalValue.toNat * p.toNat ≤ totalValue.toNat * 99 :=
      Nat.mul_le_mul_left _ (by omega)
    simp only [Honest, PoolPartCounted, hsums.1, hsums.2]
    by_cases heq : poolScript = script
    · rw [if_pos heq, heq, hspend]
      simp only [Bool.false_eq_true, if_false, if_true, Nat.sub_zero]
      omega
    · rw [if_neg heq, if_neg heq]
      by_cases hop : isOpReturn poolScript = true
      · rw [if_pos hop, if_pos hop]
        omega
      · rw [if_neg hop, if_neg hop]
        simp only [Nat.sub_zero, iff_true]
        exact ⟨by omega, trivial⟩
  | fullDonation => cases hs

/-- **When the verifier accepts the pool's own jobs**: when it counts the pool's part as the
    pool's. -/
theorem built_accepted_iff {f : String → Option Bytes} (hf : Spendable f) {u : String}
    {m : PayoutMode} (h : tryFrom f u = .ok m) {totalValue : UInt64} (hpos : 1 ≤ totalValue)
    (hlt : totalValue.toNat * 99 < 2 ^ 64) (poolScript : Bytes) :
    (∀ b outputs, WithOpReturns (m.coinbaseOutputs totalValue poolScript) outputs →
      validateCoinbaseOutputs b m outputs = some (.ok ())) ↔
        m.PoolPartCounted totalValue poolScript := by
  have hm := tryFrom_valid h
  cases hs : m.minerScriptPubkey with
  | none =>
    cases m with
    | fullDonation => simp [validateCoinbaseOutputs, minerScriptPubkey, PoolPartCounted]
    | _ => cases hs
  | some script =>
    have hspend := tryFrom_spendable hf h hs
    rw [← built_honest_iff hm hs hspend hpos hlt poolScript]
    have hsums := built_sums hm hs hspend hlt poolScript
    have hfits : m.ProductsFit (m.coinbaseOutputs totalValue poolScript) := by
      cases m with
      | solo a s => simp only [ProductsFit, hsums.1]; omega
      | legacySolo a s => simp only [ProductsFit, hsums.1]; omega
      | donate p a s =>
        have hp : p.toNat < 100 := by simpa [UInt8.lt_iff_toNat_lt] using hm.2
        simp only [ProductsFit, hsums.1]
        refine Nat.lt_of_le_of_lt ?_ hlt
        exact Nat.mul_le_mul (Nat.sub_le _ _) (by omega)
      | fullDonation => trivial
    constructor
    · intro hall
      exact (validate_of_productsFit hm hfits .checked).2.mp (hall .checked _ (.refl _))
    · intro hh b outputs hout
      have hfits' : m.ProductsFit outputs := by
        unfold ProductsFit at hfits ⊢
        rw [hout.spendableSats_eq]
        exact hfits
      refine (validate_of_productsFit hm hfits' b).2.mpr ?_
      unfold Honest at hh ⊢
      simp only [hout.spendableSats_eq, hout.satsPaidTo_eq]
      exact hh

/-- One address is known, with its script. -/
def oneAddress (address : String) : Option Bytes := if address = "m" then some [0] else none

theorem oneAddress_spendable : Spendable oneAddress := by
  intro address script h
  unfold oneAddress at h
  split at h
  next => cases h; rfl
  next => cases h

theorem donor_tryFrom : tryFrom oneAddress "sri/donate/50/m/w" = .ok (.donate 50 "m" [0]) := by
  decide +kernel

/-- A pool that is paid with a script of its own. -/
theorem built_accepted_iff_donor :
    (∀ b outputs, WithOpReturns (coinbaseOutputs (.donate 50 "m" [0]) 1000 [1]) outputs →
      validateCoinbaseOutputs b (.donate 50 "m" [0]) outputs = some (.ok ())) ↔
        PoolPartCounted (.donate 50 "m" [0]) 1000 [1] :=
  built_accepted_iff oneAddress_spendable donor_tryFrom (by decide) (by decide) [1]

/-- A pool that is paid with the script of the miner that donates. -/
theorem own_donation_rejected :
    tryFrom oneAddress "sri/donate/50/m/w" = .ok (.donate 50 "m" [0]) ∧
      validateCoinbaseOutputs .checked (.donate 50 "m" [0])
        (coinbaseOutputs (.donate 50 "m" [0]) 1000 [0]) =
      some (.error (.payoutMismatch "m" 500 50 1000 1000)) := by
  refine ⟨by decide +kernel, by decide +kernel⟩

end PayoutMode

end Sv2Apps
