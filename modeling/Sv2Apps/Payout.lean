/-
  Payout.lean
  ===========
  **Payout modes** — `stratum-apps/src/payout.rs`: how a mining identity encodes who is
  paid, and the coinbase outputs that follow from it.  The conversion of an address to a
  script (`script_from_address`, a descriptor parser) is a parameter.

  `sameOutputs_iff`: two modes that agree on the outputs for 100 satoshi agree for every
  value, so the sample that `has_same_coinbase_outputs_as` takes decides the question.
-/
import Sv2Apps.Messages
import Sv2Apps.Lib.OverflowChecks

namespace Sv2Apps

open Bitcoin

inductive PayoutMode where
  | solo (address : String) (script : Bytes)
  | legacySolo (address : String) (script : Bytes)
  | donate (percentage : UInt8) (address : String) (script : Bytes)
  | fullDonation
deriving DecidableEq

inductive PayoutModeError where
  | noPayoutMode (userIdentity : String)
  | invalidUserIdentity (userIdentity : String)
  | invalidPayoutAddress (address : String)
  | invalidDonationPercentage (percentage : String)
deriving DecidableEq

namespace PayoutMode

/-- The pool's part is rounded down; the product is taken in 64 bits. -/
def coinbaseOutputs (m : PayoutMode) (totalValue : UInt64) (poolScript : Bytes) : List TxOut :=
  match m with
  | .solo _ script => [⟨totalValue, script⟩]
  | .legacySolo _ script => [⟨totalValue, script⟩]
  | .donate percentage _ minerScript =>
    let poolValue := totalValue * percentage.toUInt64 / 100
    let minerValue := if poolValue ≤ totalValue then totalValue - poolValue else 0
    [⟨poolValue, poolScript⟩, ⟨minerValue, minerScript⟩]
  | .fullDonation => [⟨totalValue, poolScript⟩]

def hasSameCoinbaseOutputsAs (m other : PayoutMode) (poolScript : Bytes) : Bool :=
  m.coinbaseOutputs 100 poolScript = other.coinbaseOutputs 100 poolScript

/-- `str::parse::<u8>`: an optional plus sign and decimal digits, at most 255. -/
def parseU8 (text : String) : Option UInt8 :=
  let digits := match text.toList with
    | '+' :: rest => rest
    | cs => cs
  if digits.isEmpty || !digits.all Char.isDigit then none
  else
    let n := digits.foldl (fun acc c => 10 * acc + (c.toNat - '0'.toNat)) 0
    if n ≤ 255 then some (UInt8.ofNat n) else none

/-- What precedes the first dot. -/
def addressPartFromUserIdentity (userIdentity : String) : String :=
  String.ofList (userIdentity.toList.takeWhile (· ≠ '.'))

def withAddress (scriptFromAddress : String → Option Bytes) (address : String)
    (mode : Bytes → PayoutMode) : Except PayoutModeError PayoutMode :=
  match scriptFromAddress address with
  | some script => .ok (mode script)
  | none => .error (.invalidPayoutAddress address)

/-- `PayoutMode::try_from`; `scriptFromAddress` stands for `script_from_address`. -/
def tryFrom (scriptFromAddress : String → Option Bytes) (userIdentity : String) :
    Except PayoutModeError PayoutMode :=
  if userIdentity = "" then .error (.noPayoutMode userIdentity)
  else
    let addr := addressPartFromUserIdentity userIdentity
    match scriptFromAddress addr with
    | some script => .ok (.legacySolo addr script)
    | none =>
      let parts := (userIdentity.toList.splitOn '/').map String.ofList
      match parts with
      | "sri" :: "solo" :: address :: _ =>
        withAddress scriptFromAddress address (.solo address)
      | ["sri", "donate"] => .ok .fullDonation
      | ["sri", "donate", _] => .ok .fullDonation
      | "sri" :: "donate" :: percentage :: address :: _ =>
        match parseU8 percentage with
        | none => .error (.invalidDonationPercentage percentage)
        | some p =>
          if 1 ≤ p ∧ p < 100 then withAddress scriptFromAddress address (.donate p address)
          else .error (.invalidDonationPercentage (toString p.toNat))
      | "sri" :: _ :: _ => .error (.invalidUserIdentity userIdentity)
      | _ => .error (.noPayoutMode userIdentity)

/-- The mode a channel is opened with: an identity that encodes none pays the pool. -/
def ofIdentity (scriptFromAddress : String → Option Bytes) (userIdentity : String) :
    Except PayoutModeError PayoutMode :=
  match tryFrom scriptFromAddress userIdentity with
  | .error (.noPayoutMode _) => .ok .fullDonation
  | r => r

/-- The pool has a positive share. -/
def paysPool : PayoutMode → Bool
  | .donate _ _ _ => true
  | .fullDonation => true
  | _ => false

/-- A percentage that parses is between 1 and 99. -/
def Valid : PayoutMode → Prop
  | .donate p _ _ => 1 ≤ p ∧ p < 100
  | _ => True

theorem tryFrom_valid {f : String → Option Bytes} {u : String} {m : PayoutMode}
    (h : tryFrom f u = .ok m) : m.Valid := by
  have hwith : ∀ (a : String) (mode : Bytes → PayoutMode), (∀ s, (mode s).Valid) →
      withAddress f a mode = .ok m → m.Valid := by
    intro a mode hmode ha
    unfold withAddress at ha
    split at ha
    · cases ha; exact hmode _
    · cases ha
  unfold tryFrom at h
  split at h
  next => cases h
  next =>
    dsimp only at h
    split at h
    next => cases h; trivial
    next =>
      split at h
      next address _ _ => exact hwith address (.solo address) (fun _ => trivial) h
      next => cases h; trivial
      next => cases h; trivial
      next =>
        split at h
        next => cases h
        next p _ =>
          split at h
          next hp => exact hwith _ (.donate p _) (fun _ => hp) h
          next => cases h
      next => cases h
      next => cases h

theorem ofIdentity_valid {f : String → Option Bytes} {u : String} {m : PayoutMode}
    (h : ofIdentity f u = .ok m) : m.Valid := by
  unfold ofIdentity at h
  split at h
  next => cases h; trivial
  next => exact tryFrom_valid h

/-- The pool's part is never more than the whole, also where the product is cut to 64 bits. -/
theorem poolValue_le {p : UInt8} (h : p < 100) (totalValue : UInt64) :
    totalValue * p.toUInt64 / 100 ≤ totalValue := by
  have hp : p.toNat < 100 := by simpa [UInt8.lt_iff_toNat_lt] using h
  have hmul : totalValue.toNat * p.toNat ≤ totalValue.toNat * 100 :=
    Nat.mul_le_mul_left _ (by omega)
  have hmod := Nat.mod_le (totalValue.toNat * p.toNat) (2 ^ 64)
  rw [UInt64.le_iff_toNat_le]
  simp only [UInt64.toNat_div, UInt64.toNat_mul, UInt8.toNat_toUInt64, UInt64.reduceToNat]
  omega

/-- The outputs of a mode share out the value that they are built for. -/
theorem total_coinbaseOutputs {m : PayoutMode} (hm : m.Valid) (totalValue : UInt64)
    (poolScript : Bytes) :
    OverflowChecks.total ((m.coinbaseOutputs totalValue poolScript).map TxOut.value) =
      totalValue.toNat := by
  cases m with
  | donate p a s =>
    have hle := poolValue_le hm.2 totalValue
    simp only [coinbaseOutputs, if_pos hle, List.map_cons, List.map_nil,
      OverflowChecks.total_cons, OverflowChecks.total_nil, UInt64.toNat_sub_of_le _ _ hle]
    rw [UInt64.le_iff_toNat_le] at hle
    omega
  | _ => simp [coinbaseOutputs]

/-- For 100 satoshi the pool's part is the percentage. -/
theorem poolValue_hundred {p : UInt8} (h : p < 100) :
    (100 : UInt64) * p.toUInt64 / 100 = p.toUInt64 := by
  have hp : p.toNat < 100 := by simpa [UInt8.lt_iff_toNat_lt] using h
  apply UInt64.toNat_inj.mp
  simp only [UInt64.toNat_div, UInt64.toNat_mul, UInt8.toNat_toUInt64, UInt64.reduceToNat]
  omega

/-- **The sample value decides**: outputs that agree for 100 satoshi agree for every value. -/
theorem sameOutputs_iff {m other : PayoutMode} (hm : m.Valid) (ho : other.Valid)
    (poolScript : Bytes) :
    m.hasSameCoinbaseOutputsAs other poolScript = true ↔
      ∀ v, m.coinbaseOutputs v poolScript = other.coinbaseOutputs v poolScript := by
  unfold hasSameCoinbaseOutputsAs
  rw [decide_eq_true_eq]
  constructor
  · intro h v
    -- one output against one output, or two against two with equal percentages
    cases m with
    | donate p a s =>
      cases other with
      | donate q b t =>
        simp only [coinbaseOutputs, List.cons.injEq, TxOut.mk.injEq, and_true,
          poolValue_hundred hm.2, poolValue_hundred ho.2] at h
        have hpq : p = q := by
          apply UInt8.toNat_inj.mp
          have := congrArg UInt64.toNat h.1
          simpa using this
        rw [hpq, h.2.2]
        rfl
      | _ => simp [coinbaseOutputs] at h
    | _ =>
      cases other with
      | donate q b t => simp [coinbaseOutputs] at h
      | _ => simp_all [coinbaseOutputs]
  · intro h
    exact h 100

/-- The modes that identities encode. -/
abbrev Parsed (scriptFromAddress : String → Option Bytes) : Type :=
  { m : PayoutMode // ∃ userIdentity, tryFrom scriptFromAddress userIdentity = .ok m }

/-- **One sample decides**: two parsed modes agree for 100 satoshi exactly if they agree for every
    value whose products fit, and agreeing there is an equivalence. -/
theorem sample_decides (scriptFromAddress : String → Option Bytes) (poolScript : Bytes) :
    (∀ m other : Parsed scriptFromAddress,
      m.1.hasSameCoinbaseOutputsAs other.1 poolScript = true ↔
        ∀ v : UInt64, v.toNat * 99 < 2 ^ 64 →
          m.1.coinbaseOutputs v poolScript = other.1.coinbaseOutputs v poolScript) ∧
      Equivalence fun m other : Parsed scriptFromAddress =>
        m.1.hasSameCoinbaseOutputsAs other.1 poolScript = true := by
  refine ⟨?_, ?_⟩
  · rintro ⟨m, u, hm⟩ ⟨other, w, ho⟩
    constructor
    · intro h v _
      exact (sameOutputs_iff (tryFrom_valid hm) (tryFrom_valid ho) poolScript).mp h v
    · intro h
      exact decide_eq_true (h 100 (by decide))
  · constructor
    · intro m
      exact decide_eq_true rfl
    · intro m other h
      exact decide_eq_true (of_decide_eq_true h).symm
    · intro m other third h h'
      exact decide_eq_true ((of_decide_eq_true h).trans (of_decide_eq_true h'))

end PayoutMode

end Sv2Apps
