/-
  BitcoinCore/StagedTransactions.lean
  ===================================
  **Staging and resolving, exactly** — what `stage_missing_txs` and `resolve_txdata` decide on
  any declared list, any supplied transactions and any mirror.

  Both are loops with an early exit.  Staging is decided by four conditions on the two lists
  (`stageLoop_isSome_iff`).  Resolving stops as soon as what it found outweighs the budget,
  whatever is missing by then; in the end it comes down to the weight of everything that
  resolves (`resolveTxdata_eq`).
-/
import Sv2Apps.BitcoinCore.MissingTransactions

namespace Sv2Apps.BitcoinCore

open Bitcoin

variable {rb : RustBitcoin}

/-! ## Staging -/

/-- The loop succeeds on ordinary transactions of the declared list, each supplied once. -/
theorem stageLoop_isSome_iff {wtxidList : List Wtxid} {txs : List Transaction}
    {staged : KeyMap Wtxid Transaction} :
    (stageLoop rb wtxidList staged txs).isSome ↔
      (∀ tx ∈ txs, tx.isCoinbase = false) ∧ (∀ tx ∈ txs, rb.computeWtxid tx ∈ wtxidList) ∧
      (txs.map rb.computeWtxid).Nodup ∧ ∀ tx ∈ txs, staged.lookup (rb.computeWtxid tx) = none := by
  constructor
  · intro h
    induction txs generalizing staged with
    | nil => simp
    | cons tx txs ih =>
      simp only [stageLoop] at h
      split at h
      · simp at h
      next hordinary =>
        split at h
        · simp at h
        next hdeclared =>
          split at h
          · simp at h
          next hfree =>
            obtain ⟨hord, hdecl, hnodup, hnone⟩ := ih h
            have hfresh : ∀ tx' ∈ txs, rb.computeWtxid tx' ≠ rb.computeWtxid tx ∧
                staged.lookup (rb.computeWtxid tx') = none := by
              intro tx' htx'
              have hlook := hnone tx' htx'
              rw [KeyMap.lookup_insert_eq] at hlook
              split at hlook
              · simp at hlook
              next hne => exact ⟨hne, hlook⟩
            refine ⟨?_, ?_, ?_, ?_⟩
            · simpa using ⟨by simpa using hordinary, hord⟩
            · simpa using ⟨by simpa using hdeclared, hdecl⟩
            · rw [List.map_cons, List.nodup_cons]
              refine ⟨?_, hnodup⟩
              intro hmem
              obtain ⟨tx', htx', heq⟩ := List.mem_map.mp hmem
              exact (hfresh tx' htx').1 heq
            · intro tx' htx'
              rcases List.mem_cons.mp htx' with rfl | htx'
              · simpa using hfree
              · exact (hfresh tx' htx').2
  · rintro ⟨hord, hdecl, hnodup, hnone⟩
    exact stageLoop_isSome hord hdecl hnodup hnone

/-- What staging decides and returns. -/
structure StagingExact (rb : RustBitcoin) (wtxidList : List Wtxid) (txs : List Transaction) :
    Prop where
  /-- It succeeds on a short list of different wtxids, and ordinary transactions that the list
      names, supplied once each. -/
  succeeds : (stageMissingTxs rb wtxidList txs).isSome ↔
    (wtxidList.length ≤ maxDeclaredTxs ∧ wtxidList.Nodup) ∧
      (txs.map rb.computeWtxid).Nodup ∧ (∀ tx ∈ txs, tx.isCoinbase = false) ∧
      ∀ tx ∈ txs, rb.computeWtxid tx ∈ wtxidList
  /-- Transactions are told apart by their wtxids, as long as no two of them collide. -/
  distinct : Set.InjOn rb.computeWtxid { tx | tx ∈ txs } →
    ((txs.map rb.computeWtxid).Nodup ↔ txs.Nodup)
  /-- It returns the supplied transactions and no others, each under its own wtxid. -/
  staged : ∀ staged, stageMissingTxs rb wtxidList txs = some staged →
    ∀ w tx, staged.lookup w = some tx ↔ tx ∈ txs ∧ rb.computeWtxid tx = w

theorem stagingExact (rb : RustBitcoin) (wtxidList : List Wtxid) (txs : List Transaction) :
    StagingExact rb wtxidList txs := by
  constructor
  · unfold stageMissingTxs
    by_cases hlength : wtxidList.length ≤ maxDeclaredTxs
    · rw [if_neg (Nat.not_lt.mpr hlength)]
      by_cases hnodup : wtxidList.Nodup
      · rw [if_neg (not_not.mpr hnodup), stageLoop_isSome_iff]
        constructor
        · rintro ⟨hord, hdecl, hdistinct, -⟩
          exact ⟨⟨hlength, hnodup⟩, hdistinct, hord, hdecl⟩
        · rintro ⟨-, hdistinct, hord, hdecl⟩
          exact ⟨hord, hdecl, hdistinct, fun _ _ => rfl⟩
      · simp [hnodup]
    · rw [if_pos (Nat.not_le.mp hlength)]
      simp [hlength]
  · intro hinj
    constructor
    · exact List.Nodup.of_map _
    · exact List.Nodup.map_on fun x hx y hy heq => hinj hx hy heq
  · intro staged h w tx
    constructor
    · intro hw
      obtain ⟨htx, hid, -⟩ := stageMissingTxs_mem h hw
      exact ⟨htx, hid⟩
    · rintro ⟨htx, rfl⟩
      exact (stageMissingTxs_eq_some h).2.2 tx htx

/-! ## Resolving -/

namespace MempoolMirror

variable {m : MempoolMirror} {staged : KeyMap Wtxid Transaction} {budget : Nat}

/-- The weight of the transactions that the wtxids resolve to. -/
def resolvedWeight (m : MempoolMirror) (staged : KeyMap Wtxid Transaction)
    (wtxids : List Wtxid) : Nat :=
  ((wtxids.filterMap (m.resolve staged)).map Transaction.weight).sum

theorem resolvedWeight_cons (m : MempoolMirror) (staged : KeyMap Wtxid Transaction) (w : Wtxid)
    (wtxids : List Wtxid) : m.resolvedWeight staged (w :: wtxids) =
      ((m.resolve staged w).map Transaction.weight).getD 0 + m.resolvedWeight staged wtxids := by
  cases h : m.resolve staged w with
  | none => simp [resolvedWeight, h]
  | some tx => simp [resolvedWeight, h]

theorem resolvedWeight_append (m : MempoolMirror) (staged : KeyMap Wtxid Transaction)
    (xs ys : List Wtxid) : m.resolvedWeight staged (xs ++ ys) =
      m.resolvedWeight staged xs + m.resolvedWeight staged ys := by
  simp [resolvedWeight, List.filterMap_append]

/-- By induction on the rest of the list, from any point of the loop. -/
theorem resolveLoop_eq {wtxids : List Wtxid} {txdata : List Transaction} {missing : List Wtxid}
    {weight : Nat} (hlight : weight ≤ budget) :
    m.resolveLoop staged budget txdata missing weight wtxids =
      if budget < weight + m.resolvedWeight staged wtxids then .error .tooHeavy
      else if (missing ++ wtxids.filter fun w => (m.resolve staged w).isNone).isEmpty then
        .ok (txdata ++ wtxids.filterMap (m.resolve staged))
      else .error (.missing (missing ++ wtxids.filter fun w => (m.resolve staged w).isNone)) := by
  induction wtxids generalizing txdata missing weight with
  | nil =>
    rw [if_neg (by simpa [resolvedWeight] using hlight)]
    simp [resolveLoop]
  | cons w wtxids ih =>
    rw [resolvedWeight_cons]
    cases hresolve : m.resolve staged w with
    | none =>
      have hlook : (staged.lookup w).or (m.txdata.lookup w) = none := hresolve
      simp only [resolveLoop, hlook]
      rw [ih hlight]
      simp [hresolve]
    | some tx =>
      have hlook : (staged.lookup w).or (m.txdata.lookup w) = some tx := hresolve
      simp only [resolveLoop, hlook]
      by_cases hfits : weight + tx.weight ≤ budget
      · rw [if_neg (Nat.not_lt.mpr hfits), ih hfits]
        simp [hresolve, Nat.add_assoc]
      · -- once too heavy, too heavy with whatever follows
        rw [if_pos (Nat.not_le.mp hfits), if_pos]
        simp only [Option.map_some, Option.getD_some]
        omega

/-- What resolving comes to. -/
theorem resolveTxdata_eq (m : MempoolMirror) (staged : KeyMap Wtxid Transaction) (budget : Nat)
    (wtxids : List Wtxid) : m.resolveTxdata wtxids staged budget =
      if budget < m.resolvedWeight staged wtxids then .error .tooHeavy
      else if (wtxids.filter fun w => (m.resolve staged w).isNone).isEmpty then
        .ok (wtxids.filterMap (m.resolve staged))
      else .error (.missing (wtxids.filter fun w => (m.resolve staged w).isNone)) := by
  rw [resolveTxdata, resolveLoop_eq (Nat.zero_le budget)]
  simp only [Nat.zero_add, List.nil_append]

theorem unresolved_isEmpty {wtxids : List Wtxid} :
    (wtxids.filter fun w => (m.resolve staged w).isNone).isEmpty ↔
      ∀ w ∈ wtxids, (m.resolve staged w).isSome := by
  simp [List.isEmpty_iff, List.filter_eq_nil_iff, Option.isSome_iff_ne_none]

/-! ### The sums of weights -/

/-- The values of `weight` in the loop of `resolve_txdata`. -/
def resolveSums (m : MempoolMirror) (staged : KeyMap Wtxid Transaction) (weightBudget : Nat)
    (weight : Nat) : List Wtxid → List Nat
  | [] => []
  | wtxid :: wtxids =>
    match (staged.lookup wtxid).or (m.txdata.lookup wtxid) with
    | some tx =>
      (weight + tx.weight) ::
        if weight + tx.weight > weightBudget then []
        else resolveSums m staged weightBudget (weight + tx.weight) wtxids
    | none => resolveSums m staged weightBudget weight wtxids

/-- Every sum is at most the budget and one more transaction. -/
theorem resolveSums_lt {bound : Nat}
    (hbound : ∀ w tx, m.resolve staged w = some tx → tx.weight < bound)
    {wtxids : List Wtxid} {weight : Nat} (hlight : weight ≤ budget) :
    ∀ n ∈ m.resolveSums staged budget weight wtxids, n < budget + bound := by
  induction wtxids generalizing weight with
  | nil => simp [resolveSums]
  | cons w wtxids ih =>
    intro n hn
    cases hresolve : m.resolve staged w with
    | none =>
      have hlook : (staged.lookup w).or (m.txdata.lookup w) = none := hresolve
      simp only [resolveSums, hlook] at hn
      exact ih hlight n hn
    | some tx =>
      have hlook : (staged.lookup w).or (m.txdata.lookup w) = some tx := hresolve
      have hone := hbound w tx hresolve
      simp only [resolveSums, hlook] at hn
      rcases List.mem_cons.mp hn with rfl | hn
      · omega
      · by_cases hfits : weight + tx.weight ≤ budget
        · rw [if_neg (Nat.not_lt.mpr hfits)] at hn
          exact ih hfits n hn
        · rw [if_pos (Nat.not_le.mp hfits)] at hn
          simp at hn

/-- What the mirror holds is keyed by wtxid and was in memory. -/
theorem after_held (rb : RustBitcoin) (ops : List Operation) (w : Wtxid) (tx : Transaction)
    (h : (after rb ops).txdata.lookup w = some tx) :
    rb.computeWtxid tx = w ∧ tx.weight < 2 ^ 63 := by
  have hrun : ∀ w tx, (after rb ops).txdata.lookup w = some tx →
      rb.computeWtxid tx = w ∧ tx.weight < 2 ^ 63 := by
    refine Runs.run_invariant (fun m : MempoolMirror => ∀ w tx, m.txdata.lookup w = some tx →
      rb.computeWtxid tx = w ∧ tx.weight < 2 ^ 63) ?_ ?_ ops
    · intro m op hm w tx hw
      cases op with
      | update order block =>
        rcases lookup_update_some hw with hold | hnew
        · exact hm w tx hold
        · obtain ⟨hmem, hid⟩ := lookup_template hnew
          have hle := List.le_sum_of_mem (List.mem_map_of_mem (f := Transaction.weight) hmem)
          have hfits := block.fits
          unfold maxBlockWeight at hfits
          exact ⟨hid, by omega⟩
      | addTransactions txs =>
        rcases addTransactions_new hw with hold | ⟨hmem, hid⟩
        · exact hm w tx hold
        · obtain ⟨held, -, rfl⟩ := List.mem_map.mp hmem
          exact ⟨hid, held.fits⟩
    · intro w tx hw
      simp [new] at hw
  exact hrun w tx h

/-- What resolving a declared list comes to, within any budget. -/
structure ResolutionExact (rb : RustBitcoin) (m : MempoolMirror)
    (staged : KeyMap Wtxid Transaction) (wtxids : List Wtxid) (budget : Nat) : Prop where
  /-- It succeeds when every wtxid is staged or in the mirror, and all of it is light enough. -/
  succeeds : (∃ txs, m.resolveTxdata wtxids staged budget = .ok txs) ↔
    (∀ w ∈ wtxids, (staged.lookup w).isSome ∨ (m.txdata.lookup w).isSome) ∧
      m.resolvedWeight staged wtxids ≤ budget
  /-- Then the transactions are the resolved ones in the order of the list, each hashing to
      the wtxid at its position. -/
  ordered : ∀ txs, m.resolveTxdata wtxids staged budget = .ok txs →
    txs.map some = wtxids.map (m.resolve staged) ∧ txs.map rb.computeWtxid = wtxids
  /-- What is reported missing is everything that does not resolve, in the order of the list. -/
  missing : ∀ ws, m.resolveTxdata wtxids staged budget = .error (.missing ws) →
    ws = wtxids.filter fun w => (staged.lookup w).isNone && (m.txdata.lookup w).isNone
  /-- A list is too heavy when the transactions of some prefix are. -/
  tooHeavy : m.resolveTxdata wtxids staged budget = .error .tooHeavy ↔
    ∃ p, p <+: wtxids ∧ budget < m.resolvedWeight staged p

theorem resolve_isSome {w : Wtxid} : (m.resolve staged w).isSome ↔
    (staged.lookup w).isSome ∨ (m.txdata.lookup w).isSome := by
  rw [resolve, Option.isSome_or, Bool.or_eq_true]

theorem resolve_isNone (w : Wtxid) : (m.resolve staged w).isNone =
    ((staged.lookup w).isNone && (m.txdata.lookup w).isNone) := by
  rw [resolve, Option.isNone_or]

theorem resolutionExact {wtxids : List Wtxid}
    (hkeyed : ∀ w tx, m.resolve staged w = some tx → rb.computeWtxid tx = w) (budget : Nat) :
    ResolutionExact rb m staged wtxids budget := by
  have heq := resolveTxdata_eq m staged budget wtxids
  constructor
  · simp only [← resolve_isSome]
    rw [← unresolved_isEmpty, heq]
    constructor
    · rintro ⟨txs, h⟩
      split at h
      · simp at h
      next hlight =>
        split at h
        next hall => exact ⟨hall, Nat.not_lt.mp hlight⟩
        · simp at h
    · rintro ⟨hall, hlight⟩
      rw [if_neg (Nat.not_lt.mpr hlight), if_pos hall]
      exact ⟨_, rfl⟩
  · intro txs h
    have hsome := (resolveTxdata_eq_ok h).1
    exact ⟨hsome, map_eq_of_map_some hkeyed hsome⟩
  · intro ws h
    rw [(resolveTxdata_missing h).1]
    apply List.filter_congr
    intro w _
    exact resolve_isNone w
  · constructor
    · intro h
      refine ⟨wtxids, List.prefix_rfl, ?_⟩
      rw [heq] at h
      split at h
      next hheavy => exact hheavy
      next => split at h <;> simp at h
    · rintro ⟨p, ⟨rest, rfl⟩, hheavy⟩
      rw [heq, if_pos]
      rw [resolvedWeight_append]
      omega

end MempoolMirror

/-! ## The result -/

/-- **Staging and resolving a declaration is exact.**  For every mirror that templates and
    commits have led to, every declared list and all supplied transactions: staging decides by
    the stated conditions and returns what was supplied; what it staged is resolved exactly
    within any budget; and within the budget that a coinbase leaves no sum of weights
    overflows. -/
theorem staged_and_resolved (rb : RustBitcoin) (ops : List MempoolMirror.Operation)
    (wtxidList : List Wtxid) (supplied : List MempoolMirror.HeldTransaction) :
    StagingExact rb wtxidList (supplied.map (·.tx)) ∧
    ∀ staged, stageMissingTxs rb wtxidList (supplied.map (·.tx)) = some staged →
      (∀ budget, (MempoolMirror.after rb ops).ResolutionExact rb staged wtxidList budget) ∧
      ∀ coinbaseTx : Transaction, ∀ n ∈ (MempoolMirror.after rb ops).resolveSums staged
        (maxBlockWeight - coinbaseTx.weight) 0 wtxidList, n < 2 ^ 64 := by
  refine ⟨stagingExact rb wtxidList _, ?_⟩
  intro staged h
  have hresolved : ∀ w tx, (MempoolMirror.after rb ops).resolve staged w = some tx →
      rb.computeWtxid tx = w ∧ tx.weight < 2 ^ 63 := by
    intro w tx hw
    rcases Option.or_eq_some_iff.mp hw with hstaged | ⟨-, hmirror⟩
    · obtain ⟨hmem, hid, -⟩ := stageMissingTxs_mem h hstaged
      obtain ⟨held, -, rfl⟩ := List.mem_map.mp hmem
      exact ⟨hid, held.fits⟩
    · exact MempoolMirror.after_held rb ops w tx hmirror
  constructor
  · exact MempoolMirror.resolutionExact fun w tx hw => (hresolved w tx hw).1
  · intro coinbaseTx n hn
    have hlt := MempoolMirror.resolveSums_lt (fun w tx hw => (hresolved w tx hw).2)
      (Nat.zero_le _) n hn
    unfold maxBlockWeight at hlt
    omega

/-- One transaction of the template and one that the client supplied. -/
example :
    let rb := referenceBitcoin
    let mirror := MempoolMirror.after rb [.update .asStored MempoolMirror.sampleBlock]
    let wtxids := [MempoolMirror.sampleTransaction 1, MempoolMirror.sampleTransaction 2].map
      rb.computeWtxid
    (stageMissingTxs rb wtxids [MempoolMirror.sampleTransaction 2]).map (fun staged =>
      (mirror.resolveTxdata wtxids staged maxBlockWeight).toOption) =
        some (some [MempoolMirror.sampleTransaction 1, MempoolMirror.sampleTransaction 2]) := by
  decide +kernel

end Sv2Apps.BitcoinCore
