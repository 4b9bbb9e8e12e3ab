/-
  BitcoinCore/MissingTransactions.lean
  ====================================
  **The round trip of missing transactions** — from the wtxids that the mirror does not resolve to
  positions (job declarator server), from positions to raw transactions (job declarator client), and
  back to wtxids (the second validation).

  The three filters on the way (`position`, `get`, `consensus_decode`) drop nothing: the declared list
  has no wtxid twice, or the first validation would have refused it, and the raw transactions were
  decoded when their wtxids were computed.
-/
import Sv2Apps.BitcoinCore.DeclaredTransactions
import Sv2Apps.Jds.JobDeclarator
import Sv2Apps.Jdc.MessageLoop
import Sv2Apps.BitcoinCore.MirrorBounds
import Mathlib.Data.List.NodupEquivFin

namespace Sv2Apps.BitcoinCore

open Bitcoin Jds

variable {rb : RustBitcoin} {codes : ErrorCodes}

/-! ## The client's side -/

/-- `consensus::deserialize`: the whole input is one transaction. -/
def deserialize (rb : RustBitcoin) (raw : Bytes) : Option Transaction :=
  (rb.decodeTransaction raw).filter fun tx => tx.consensusEncode = raw

/-- `consensus::deserialize`, then `compute_wtxid`. -/
def rawWtxid (rb : RustBitcoin) (raw : Bytes) : Option Wtxid :=
  (deserialize rb raw).map rb.computeWtxid

/-- The answer of `handle_provide_missing_transactions`: the stored transactions at the positions
    asked for. -/
def provideMissingTransactions (entry : Jdc.DeclaredJob) (requestId : RequestId)
    (unknownTxPositionList : List UInt16) : ProvideMissingTransactionsSuccess :=
  ⟨requestId, unknownTxPositionList.filterMap fun pos => entry.txList[pos.toNat]?⟩

/-- A job is declared with the wtxids of the raw transactions that are stored for it. -/
def Declares (rb : RustBitcoin) (entry : Jdc.DeclaredJob) (wtxidList : List Wtxid) : Prop :=
  entry.txList.mapM (rawWtxid rb) = some wtxidList

instance (rb : RustBitcoin) (entry : Jdc.DeclaredJob) (wtxidList : List Wtxid) :
    Decidable (Declares rb entry wtxidList) :=
  inferInstanceAs (Decidable (_ = some wtxidList))

/-- The client answers with the stored entry. -/
theorem handleProvideMissingTransactions_eq {s : Jdc.ChannelManager} {requestId : RequestId}
    {entry : Jdc.DeclaredJob} (h : s.lastDeclareJobStore.lookup requestId = some entry)
    (ps : List UInt16) :
    s.handleProvideMissingTransactions requestId ps = s.send
      [.provideMissingTransactionsSuccess requestId
        (provideMissingTransactions entry requestId ps).transactionList] := by
  unfold Jdc.ChannelManager.handleProvideMissingTransactions
  rw [h]
  rfl

/-! ## Positions -/

/-- The positions of the declared list that have `p`, in increasing order. -/
def positionsOf (p : Wtxid → Bool) (wtxids : List Wtxid) : List (Fin wtxids.length) :=
  (List.finRange wtxids.length).filter fun i => p wtxids[i]

theorem filter_eq_map_positionsOf (p : Wtxid → Bool) (wtxids : List Wtxid) :
    wtxids.filter p = (positionsOf p wtxids).map fun i => wtxids[i] := by
  conv_lhs => rw [← List.map_get_finRange wtxids]
  rw [List.filter_map]
  rfl

theorem positionsOf_increasing (p : Wtxid → Bool) (wtxids : List Wtxid) :
    ((positionsOf p wtxids).map Fin.val).Pairwise (· < ·) := by
  rw [List.pairwise_map]
  exact (List.pairwise_lt_finRange wtxids.length).filter _

theorem findIdx?_of_nodup {wtxids : List Wtxid} (h : wtxids.Nodup) (i : Fin wtxids.length) :
    wtxids.findIdx? (· = wtxids[i]) = some i.val := by
  rw [List.findIdx?_eq_some_iff_getElem]
  refine ⟨i.isLt, by simp, ?_⟩
  intro j hj heq
  have hij := (List.Nodup.getElem_inj_iff h).mp (of_decide_eq_true heq)
  omega

/-- The server's positions are those of the wtxids, none of them cut off. -/
theorem unknownTxPositionList_filter {wtxids : List Wtxid} (hnodup : wtxids.Nodup)
    (hlength : wtxids.length ≤ 2 ^ 16) (p : Wtxid → Bool) :
    (System.unknownTxPositionList wtxids (wtxids.filter p)).map UInt16.toNat =
      (positionsOf p wtxids).map Fin.val := by
  unfold System.unknownTxPositionList
  rw [filter_eq_map_positionsOf, List.filterMap_map]
  have hidx : ∀ i : Fin wtxids.length,
      (wtxids.findIdx? (· = wtxids[i])).map UInt16.ofNat = some (UInt16.ofNat i.val) := by
    intro i
    rw [findIdx?_of_nodup hnodup, Option.map_some]
  simp only [Function.comp_def, hidx, List.filterMap_eq_map', List.map_map]
  refine List.map_congr_left ?_
  intro i _
  exact UInt16.toNat_ofNat_of_lt' (Nat.lt_of_lt_of_le i.isLt hlength)

/-! ## What the mirror does not resolve -/

namespace MempoolMirror

variable {m : MempoolMirror} {staged : KeyMap Wtxid Transaction} {budget : Nat}

theorem resolveLoop_missing {wtxids ws : List Wtxid} {txdata : List Transaction}
    {missing : List Wtxid} {weight : Nat}
    (h : m.resolveLoop staged budget txdata missing weight wtxids = .error (.missing ws)) :
    ws = missing ++ wtxids.filter (fun w => (m.resolve staged w).isNone) ∧ ws ≠ [] := by
  induction wtxids generalizing txdata missing weight with
  | nil =>
    simp only [resolveLoop] at h
    split at h
    · cases h
    next hsome =>
      cases h
      refine ⟨by simp, ?_⟩
      rintro rfl
      exact hsome rfl
  | cons w wtxids ih =>
    simp only [resolveLoop] at h
    split at h
    next tx htx =>
      split at h
      · cases h
      have hresolve : m.resolve staged w = some tx := htx
      obtain ⟨hws, hne⟩ := ih h
      exact ⟨by simp [hws, hresolve], hne⟩
    next hnone =>
      have hresolve : m.resolve staged w = none := hnone
      obtain ⟨hws, hne⟩ := ih h
      exact ⟨by simp [hws, hresolve], hne⟩

/-- What resolves and is light enough is resolved. -/
theorem resolveLoop_ok {wtxids : List Wtxid} {txs txdata : List Transaction} {weight : Nat}
    (hresolve : txs.map some = wtxids.map (m.resolve staged))
    (hlight : weight + (txs.map Transaction.weight).sum ≤ budget) :
    m.resolveLoop staged budget txdata [] weight wtxids = .ok (txdata ++ txs) := by
  induction wtxids generalizing txs txdata weight with
  | nil =>
    rw [List.map_nil, List.map_eq_nil_iff] at hresolve
    simp [resolveLoop, hresolve]
  | cons w wtxids ih =>
    cases txs with
    | nil => simp at hresolve
    | cons tx txs =>
      simp only [List.map_cons, List.cons.injEq] at hresolve
      rw [List.map_cons, List.sum_cons] at hlight
      have htx : (staged.lookup w).or (m.txdata.lookup w) = some tx := hresolve.1.symm
      have hfits : ¬ weight + tx.weight > budget := by omega
      simp only [resolveLoop, htx, hfits, if_false]
      rw [ih hresolve.2 (by omega), List.append_assoc, List.singleton_append]

theorem resolveTxdata_missing {wtxids ws : List Wtxid}
    (h : m.resolveTxdata wtxids staged budget = .error (.missing ws)) :
    ws = wtxids.filter (fun w => (m.resolve staged w).isNone) ∧ ws ≠ [] :=
  resolveLoop_missing h

theorem resolveTxdata_ok {wtxids : List Wtxid} {txs : List Transaction}
    (hresolve : txs.map some = wtxids.map (m.resolve staged))
    (hlight : (txs.map Transaction.weight).sum ≤ budget) :
    m.resolveTxdata wtxids staged budget = .ok txs :=
  resolveLoop_ok hresolve (by omega)

end MempoolMirror

/-! ## Staging what was supplied -/

/-- Whatever is staged is found again. -/
theorem stageLoop_lookup {wtxidList : List Wtxid} {txs : List Transaction}
    {staged staged' : KeyMap Wtxid Transaction}
    (h : stageLoop rb wtxidList staged txs = some staged') :
    (∀ w tx, staged.lookup w = some tx → staged'.lookup w = some tx) ∧
      ∀ tx ∈ txs, staged'.lookup (rb.computeWtxid tx) = some tx := by
  induction txs generalizing staged with
  | nil =>
    cases h
    exact ⟨fun _ _ hw => hw, nofun⟩
  | cons t txs ih =>
    simp only [stageLoop] at h
    split at h
    · cases h
    split at h
    · cases h
    split at h
    · cases h
    next hfree =>
      have hnone : staged.lookup (rb.computeWtxid t) = none := by simpa using hfree
      obtain ⟨hkept, hnew⟩ := ih h
      refine ⟨?_, ?_⟩
      · intro w tx hw
        refine hkept w tx ?_
        rw [KeyMap.lookup_insert_eq, if_neg ?_]
        · exact hw
        · rintro rfl
          rw [hnone] at hw
          cases hw
      · intro tx htx
        rcases List.mem_cons.mp htx with rfl | htx
        · refine hkept _ _ ?_
          rw [KeyMap.lookup_insert_eq, if_pos rfl]
        · exact hnew tx htx

/-- Ordinary transactions of the declared list are staged. -/
theorem stageLoop_isSome {wtxidList : List Wtxid} {txs : List Transaction}
    {staged : KeyMap Wtxid Transaction} (hordinary : ∀ tx ∈ txs, tx.isCoinbase = false)
    (hdeclared : ∀ tx ∈ txs, rb.computeWtxid tx ∈ wtxidList)
    (hdistinct : (txs.map rb.computeWtxid).Nodup)
    (hfree : ∀ tx ∈ txs, staged.lookup (rb.computeWtxid tx) = none) :
    (stageLoop rb wtxidList staged txs).isSome := by
  induction txs generalizing staged with
  | nil => rfl
  | cons t txs ih =>
    rw [List.map_cons, List.nodup_cons] at hdistinct
    have hin := hdeclared t List.mem_cons_self
    have hnone := hfree t List.mem_cons_self
    simp only [stageLoop, hordinary t List.mem_cons_self, hin, hnone, Bool.false_eq_true, if_false,
      not_true_eq_false, Option.isSome_none]
    refine ih (fun tx htx => hordinary tx (List.mem_cons_of_mem _ htx))
      (fun tx htx => hdeclared tx (List.mem_cons_of_mem _ htx)) hdistinct.2 ?_
    intro tx htx
    rw [KeyMap.lookup_insert_eq, if_neg ?_]
    · exact hfree tx (List.mem_cons_of_mem _ htx)
    · intro heq
      exact hdistinct.1 (heq ▸ List.mem_map_of_mem htx)

theorem stageMissingTxs_eq_some {wtxidList : List Wtxid} {txs : List Transaction}
    {staged : KeyMap Wtxid Transaction} (h : stageMissingTxs rb wtxidList txs = some staged) :
    wtxidList.length ≤ maxDeclaredTxs ∧ wtxidList.Nodup ∧
      ∀ tx ∈ txs, staged.lookup (rb.computeWtxid tx) = some tx := by
  unfold stageMissingTxs at h
  split at h
  · cases h
  next hlength =>
    split at h
    · cases h
    next hnodup =>
      exact ⟨Nat.le_of_not_lt hlength, Decidable.not_not.mp hnodup, (stageLoop_lookup h).2⟩

/-! ## The two validations -/

/-- The mirror has no transaction for the wtxid. -/
def MempoolMirror.lacks (m : MempoolMirror) (w : Wtxid) : Bool := (m.txdata.lookup w).isNone

/-- A retry differs from the first round in the transactions supplied. -/
theorem prepareDeclareMiningJob_retry {dmj : DeclareMiningJob} {token : JdToken} {req : JdRequest}
    (h : prepareDeclareMiningJob rb dmj none = .ok (token, req))
    (provided : ProvideMissingTransactionsSuccess) :
    req.missingTxs = [] ∧ prepareDeclareMiningJob rb dmj (some provided) =
      .ok (token, { req with
        missingTxs := provided.transactionList.filterMap rb.decodeTransaction }) := by
  unfold prepareDeclareMiningJob at h ⊢
  split at h
  · cases h
  split at h
  · cases h
  · cases h
  next tx htx =>
    dsimp only at h ⊢
    split at h
    · cases h
    next hlength =>
      cases h
      exact ⟨rfl, by rw [if_neg hlength]⟩

/-- What a validation says of the declared list when it reports missing transactions. -/
theorem handleDeclareMiningJob_missing {m : MempoolMirror} {req : JdRequest} {ws : List Wtxid}
    {context : ValidationContext} (hfirst : req.missingTxs = [])
    (h : handleDeclareMiningJob rb codes m req = some (.inl (.missingTransactions ws context))) :
    req.wtxidList.length ≤ maxDeclaredTxs ∧ req.wtxidList.Nodup ∧
      ws = req.wtxidList.filter m.lacks := by
  unfold handleDeclareMiningJob at h
  split at h
  · dsimp only at h
    split at h
    · cases h
    split at h
    · cases h
    next staged hstaged =>
      obtain ⟨hlength, hnodup, -⟩ := stageMissingTxs_eq_some hstaged
      have hempty : staged = ∅ := by
        unfold stageMissingTxs at hstaged
        rw [if_neg (Nat.not_lt.mpr hlength), if_neg (not_not.mpr hnodup), hfirst] at hstaged
        exact (Option.some.inj hstaged).symm
      split at h
      next ws' hresolve =>
        cases h
        obtain ⟨hws, -⟩ := MempoolMirror.resolveTxdata_missing hresolve
        refine ⟨hlength, hnodup, hws.trans (List.filter_congr ?_)⟩
        intro w _
        rw [hempty]
        rfl
      · cases h
      · cases h
  · cases h

/-- The second validation, when what the mirror lacks was supplied: the declared list is resolved in
    its order, unless the job is refused. -/
theorem handleDeclareMiningJob_supplied {m : MempoolMirror} {req : JdRequest} {ws : List Wtxid}
    {context : ValidationContext}
    (h : handleDeclareMiningJob rb codes m req = some (.inl (.missingTransactions ws context)))
    {supplied : List Transaction}
    (hsupplied : ∀ w ∈ req.wtxidList, m.lacks w → ∃ tx ∈ supplied, rb.computeWtxid tx = w) :
    handleDeclareMiningJob rb codes m { req with missingTxs := supplied } =
        some (.inl (.error codes.invalidJob context)) ∧
      (∀ staged, stageMissingTxs rb req.wtxidList supplied = some staged →
        ∃ txs : List Transaction, txs.map some = req.wtxidList.map (m.resolve staged) ∧
          maxBlockWeight - req.coinbaseTx.weight < (txs.map Transaction.weight).sum) ∨
    ∃ (c : Checking) (txs : List Transaction), handleDeclareMiningJob rb codes m { req with missingTxs := supplied } =
        some (.inr c) ∧
      stageMissingTxs rb req.wtxidList supplied = some c.stagedTxs ∧
      txs.map some = req.wtxidList.map (m.resolve c.stagedTxs) ∧
      (txs.map Transaction.weight).sum ≤ maxBlockWeight - req.coinbaseTx.weight ∧
      c.block.txdata = req.coinbaseTx :: txs := by
  unfold handleDeclareMiningJob at h ⊢
  split at h
  next prevHash nbits ntime hprevHash hnbits hntime =>
    dsimp only at h ⊢
    split at h
    · cases h
    next hinput =>
      rw [if_neg hinput]
      have hcontext : context = ⟨prevHash, nbits⟩ := by
        split at h
        · cases h
        · split at h
          · cases h
            rfl
          · cases h
          · cases h
      subst hcontext
      cases hstage : stageMissingTxs rb req.wtxidList supplied with
      | none => exact Or.inl ⟨rfl, nofun⟩
      | some staged =>
        dsimp only
        have hstaged := (stageMissingTxs_eq_some hstage).2.2
        -- every declared wtxid is in the mirror or was supplied
        have hall : ∀ w ∈ req.wtxidList, (m.resolve staged w).isSome := by
          intro w hw
          rw [MempoolMirror.resolve, Option.isSome_or, Bool.or_eq_true]
          cases hlacks : m.lacks w with
          | false =>
            unfold MempoolMirror.lacks at hlacks
            exact Or.inr (by simpa [Option.isSome_iff_ne_none] using hlacks)
          | true =>
            obtain ⟨tx, htx, hid⟩ := hsupplied w hw hlacks
            have hlookup := hstaged tx htx
            rw [hid] at hlookup
            exact Or.inl (by rw [hlookup]; rfl)
        obtain ⟨txs, htxs⟩ : ∃ txs : List Transaction,
            txs.map some = req.wtxidList.map (m.resolve staged) := by
          generalize req.wtxidList = wtxids at hall
          induction wtxids with
          | nil => exact ⟨[], rfl⟩
          | cons w wtxids ih =>
            obtain ⟨txs, htxs⟩ := ih fun w' hw' => hall w' (List.mem_cons_of_mem _ hw')
            obtain ⟨tx, htx⟩ := Option.isSome_iff_exists.mp (hall w List.mem_cons_self)
            exact ⟨tx :: txs, by rw [List.map_cons, List.map_cons, htxs, htx]⟩
        by_cases hlight : (txs.map Transaction.weight).sum ≤
            maxBlockWeight - req.coinbaseTx.weight
        · rw [MempoolMirror.resolveTxdata_ok htxs hlight]
          exact Or.inr ⟨_, txs, rfl, rfl, htxs, hlight, rfl⟩
        · refine Or.inl ⟨?_, ?_⟩
          · split
            next ws' hmissing =>
              obtain ⟨hws, hne⟩ := MempoolMirror.resolveTxdata_missing hmissing
              refine absurd ?_ hne
              rw [hws, List.filter_eq_nil_iff]
              intro w hw hnone
              have hsome := hall w hw
              rw [Option.isNone_iff_eq_none.mp hnone] at hsome
              cases hsome
            · rfl
            next txdata hok =>
              obtain ⟨hsame, hle⟩ := MempoolMirror.resolveTxdata_eq_ok hok
              rw [← htxs] at hsame
              rw [List.map_injective_iff.mpr (Option.some_injective _) hsame] at hle
              exact absurd hle hlight
          · intro staged' hstaged'
            cases hstaged'
            exact ⟨txs, htxs, Nat.lt_of_not_le hlight⟩
  · cases h

/-! ## The round trip -/

/-- The stored transactions, decoded. -/
theorem Declares.transactions {entry : Jdc.DeclaredJob} {wtxidList : List Wtxid}
    (h : Declares rb entry wtxidList) :
    ∃ txs : List Transaction, entry.txList.map (deserialize rb) = txs.map some ∧
      txs.map rb.computeWtxid = wtxidList := by
  unfold Declares at h
  generalize entry.txList = raws at h
  induction raws generalizing wtxidList with
  | nil =>
    cases h
    exact ⟨[], rfl, rfl⟩
  | cons raw raws ih =>
    rw [List.mapM_cons] at h
    cases hraw : rawWtxid rb raw with
    | none => simp [hraw] at h
    | some w =>
      cases hraws : raws.mapM (rawWtxid rb) with
      | none => simp [hraw, hraws] at h
      | some ws =>
        obtain ⟨txs, htxs, hws⟩ := ih hraws
        obtain ⟨tx, htx, hw⟩ := Option.map_eq_some_iff.mp hraw
        simp only [hraw, hraws] at h
        cases h
        exact ⟨tx :: txs, by simp [htx, htxs], by simp [hw, hws]⟩

theorem decode_getElem? {raws : List Bytes} {txs : List Transaction}
    (h : raws.map (deserialize rb) = txs.map some) (i : Nat) :
    (raws[i]?).bind rb.decodeTransaction = txs[i]? := by
  have hi : (raws[i]?).map (deserialize rb) = (txs[i]?).map some := by
    rw [← List.getElem?_map, ← List.getElem?_map, h]
  cases hraw : raws[i]? with
  | none =>
    rw [hraw, Option.map_none, eq_comm, Option.map_eq_none_iff] at hi
    rw [hi, Option.bind_none]
  | some raw =>
    rw [hraw, Option.map_some, eq_comm, Option.map_eq_some_iff] at hi
    obtain ⟨tx, htx, hdecoded⟩ := hi
    rw [htx, Option.bind_some]
    exact (Option.filter_eq_some_iff.mp hdecoded.symm).1

theorem filterMap_positions {α : Type} {ps : List UInt16} {is : List Nat}
    (h : ps.map UInt16.toNat = is) (f : Nat → Option α) :
    (ps.filterMap fun pos => f pos.toNat) = is.filterMap f := by
  rw [← h, List.filterMap_map]
  rfl

theorem filterMap_getElem? {α : Type} (l : List α) (is : List (Fin l.length)) :
    (is.map Fin.val).filterMap (fun i => l[i]?) = is.map fun i => l[i] := by
  induction is with
  | nil => rfl
  | cons i is ih =>
    rw [List.map_cons, List.filterMap_cons_some (List.getElem?_eq_getElem i.isLt), ih, List.map_cons]
    rfl

/-- What the server decodes of the answer is what the mirror lacks. -/
theorem supplied_wtxids {entry : Jdc.DeclaredJob} {wtxidList : List Wtxid}
    (hdeclares : Declares rb entry wtxidList) {p : Wtxid → Bool} {ps : List UInt16}
    (hps : ps.map UInt16.toNat = (positionsOf p wtxidList).map Fin.val) (requestId : RequestId) :
    ((provideMissingTransactions entry requestId ps).transactionList.filterMap
      rb.decodeTransaction).map rb.computeWtxid = wtxidList.filter p := by
  obtain ⟨txs, htxs, rfl⟩ := hdeclares.transactions
  calc ((provideMissingTransactions entry requestId ps).transactionList.filterMap
        rb.decodeTransaction).map rb.computeWtxid
      = (ps.filterMap fun pos => txs[pos.toNat]?).map rb.computeWtxid := by
        simp only [provideMissingTransactions, List.filterMap_filterMap, decode_getElem? htxs]
    _ = ((positionsOf p (txs.map rb.computeWtxid)).map Fin.val).filterMap fun i =>
          (txs.map rb.computeWtxid)[i]? := by
        rw [filterMap_positions hps (fun i => txs[i]?), List.map_filterMap]
        simp only [List.getElem?_map]
    _ = (txs.map rb.computeWtxid).filter p := by
        rw [filterMap_getElem?, filter_eq_map_positionsOf]

/-- The client has a transaction at every position of the declared list. -/
theorem answer_transactions {entry : Jdc.DeclaredJob} {wtxidList : List Wtxid}
    (hdeclares : Declares rb entry wtxidList) {p : Wtxid → Bool} {ps : List UInt16}
    (hps : ps.map UInt16.toNat = (positionsOf p wtxidList).map Fin.val) (requestId : RequestId) :
    (provideMissingTransactions entry requestId ps).transactionList.map some =
      (positionsOf p wtxidList).map fun i => entry.txList[i.val]? := by
  obtain ⟨txs, htxs, hids⟩ := hdeclares.transactions
  have hlength : entry.txList.length = wtxidList.length := by
    rw [← hids, List.length_map, ← List.length_map (f := deserialize rb), htxs, List.length_map]
  have hstored : ∀ i : Fin wtxidList.length, entry.txList[i.val]?.isSome := by
    intro i
    have hi : i.val < entry.txList.length := by
      rw [hlength]
      exact i.isLt
    rw [List.getElem?_eq_getElem hi]
    rfl
  simp only [provideMissingTransactions]
  rw [filterMap_positions hps (fun i => entry.txList[i]?)]
  generalize positionsOf p wtxidList = is
  induction is with
  | nil => rfl
  | cons i is ih =>
    obtain ⟨raw, hraw⟩ := Option.isSome_iff_exists.mp (hstored i)
    rw [List.map_cons, List.filterMap_cons_some hraw, List.map_cons, ih, List.map_cons, hraw]

/-- A first validation reports missing transactions; the positions, the answer and the second
    validation. -/
theorem missing_transactions_round_trip (rb : RustBitcoin) (codes : ErrorCodes) (m : MempoolMirror)
    (dmj : DeclareMiningJob) (entry : Jdc.DeclaredJob) (hdeclares : Declares rb entry dmj.wtxidList)
    (token : JdToken) (req : JdRequest)
    (hfirst : prepareDeclareMiningJob rb dmj none = .ok (token, req)) (ws : List Wtxid)
    (context : ValidationContext) (hmissing : handleDeclareMiningJob rb codes m req =
      some (.inl (.missingTransactions ws context))) :
    let positions := System.unknownTxPositionList dmj.wtxidList ws
    let answer := provideMissingTransactions entry dmj.requestId positions
    let supplied := answer.transactionList.filterMap rb.decodeTransaction
    positions.map UInt16.toNat = (positionsOf m.lacks dmj.wtxidList).map Fin.val ∧
    (positions.map UInt16.toNat).Pairwise (· < ·) ∧
    (∀ s : Jdc.ChannelManager, s.lastDeclareJobStore.lookup dmj.requestId = some entry →
      s.handleProvideMissingTransactions dmj.requestId positions = s.send
        [.provideMissingTransactionsSuccess dmj.requestId answer.transactionList]) ∧
    answer.transactionList.map some =
      (positionsOf m.lacks dmj.wtxidList).map (fun i => entry.txList[i.val]?) ∧
    prepareDeclareMiningJob rb dmj (some answer) = .ok (token, { req with missingTxs := supplied }) ∧
    (∀ ws' context', handleDeclareMiningJob rb codes m { req with missingTxs := supplied } ≠
      some (.inl (.missingTransactions ws' context'))) ∧
    ((∀ tx ∈ supplied, tx.isCoinbase = false) →
      ∃ (staged : KeyMap Wtxid Transaction) (txs : List Transaction),
        stageMissingTxs rb dmj.wtxidList supplied = some staged ∧
        (∀ tx ∈ supplied, staged.lookup (rb.computeWtxid tx) = some tx) ∧
        txs.map some = dmj.wtxidList.map (m.resolve staged) ∧
        (m.Keyed rb → txs.map rb.computeWtxid = dmj.wtxidList) ∧
        ((txs.map Transaction.weight).sum ≤ maxBlockWeight - req.coinbaseTx.weight →
          ∃ c, handleDeclareMiningJob rb codes m { req with missingTxs := supplied } =
              some (.inr c) ∧
            c.stagedTxs = staged ∧ c.block.txdata = req.coinbaseTx :: txs)) ∧
    ((∀ (staged : KeyMap Wtxid Transaction) (txs : List Transaction),
        stageMissingTxs rb dmj.wtxidList supplied = some staged →
        txs.map some = dmj.wtxidList.map (m.resolve staged) →
        maxBlockWeight - req.coinbaseTx.weight < (txs.map Transaction.weight).sum) →
      handleDeclareMiningJob rb codes m { req with missingTxs := supplied } =
        some (.inl (.error codes.invalidJob context))) := by
  intro positions answer supplied
  obtain ⟨hnone, hsecond⟩ := prepareDeclareMiningJob_retry hfirst answer
  have hlist : req.wtxidList = dmj.wtxidList := (prepareDeclareMiningJob_eq_ok hfirst).2.2.2.2
  obtain ⟨hlength, hnodup, hws⟩ := handleDeclareMiningJob_missing hnone hmissing
  rw [hlist] at hlength hnodup hws
  have hshort : dmj.wtxidList.length ≤ 2 ^ 16 := Nat.le_trans hlength (by decide)
  have hpositions : positions.map UInt16.toNat =
      (positionsOf m.lacks dmj.wtxidList).map Fin.val := by
    simp only [positions, hws]
    exact unknownTxPositionList_filter hnodup hshort m.lacks
  have hwtxids : supplied.map rb.computeWtxid = dmj.wtxidList.filter m.lacks :=
    supplied_wtxids hdeclares hpositions dmj.requestId
  have hsupplied : ∀ w ∈ req.wtxidList, m.lacks w → ∃ tx ∈ supplied, rb.computeWtxid tx = w := by
    intro w hw hlacks
    have hin : w ∈ supplied.map rb.computeWtxid := by
      rw [hwtxids]
      exact List.mem_filter.mpr ⟨hlist ▸ hw, hlacks⟩
    obtain ⟨tx, htx, hid⟩ := List.mem_map.mp hin
    exact ⟨tx, htx, hid⟩
  have hretry := handleDeclareMiningJob_supplied hmissing hsupplied
  refine ⟨hpositions, ?_, fun s hs => handleProvideMissingTransactions_eq hs positions, ?_, hsecond,
    ?_, ?_, ?_⟩
  · rw [hpositions]
    exact positionsOf_increasing _ _
  · exact answer_transactions hdeclares hpositions dmj.requestId
  · intro ws' context' hagain
    rcases hretry with ⟨hrefused, -⟩ | ⟨c, txs, haccepted, -⟩
    · rw [hrefused] at hagain
      cases hagain
    · rw [haccepted] at hagain
      cases hagain
  · intro hordinary
    have hstage : (stageMissingTxs rb dmj.wtxidList supplied).isSome := by
      unfold stageMissingTxs
      rw [if_neg (Nat.not_lt.mpr hlength), if_neg (not_not.mpr hnodup)]
      refine stageLoop_isSome hordinary ?_ ?_ (fun _ _ => rfl)
      · intro tx htx
        have hin := List.mem_map_of_mem (f := rb.computeWtxid) htx
        rw [hwtxids] at hin
        exact (List.mem_filter.mp hin).1
      · rw [hwtxids]
        exact hnodup.filter _
    obtain ⟨staged, hstaged⟩ := Option.isSome_iff_exists.mp hstage
    have hfound := (stageMissingTxs_eq_some hstaged).2.2
    have hkeyed : ∀ txs : List Transaction, txs.map some = dmj.wtxidList.map (m.resolve staged) →
        m.Keyed rb → txs.map rb.computeWtxid = dmj.wtxidList := by
      intro txs htxs hm
      refine map_eq_of_map_some ?_ htxs
      intro w tx hresolve
      rcases Option.or_eq_some_iff.mp hresolve with hw | ⟨-, hw⟩
      · exact (stageMissingTxs_mem hstaged hw).2.1
      · exact hm w tx hw
    rw [hlist] at hretry ⊢
    rcases hretry with ⟨hrefused, hheavy⟩ | ⟨c, txs, haccepted, hsame, htxs, -, hblock⟩
    · obtain ⟨txs, htxs, hweight⟩ := hheavy staged hstaged
      refine ⟨staged, txs, hstaged, hfound, htxs, hkeyed txs htxs, ?_⟩
      intro hlight
      exact absurd hlight (Nat.not_le.mpr hweight)
    · rw [hstaged] at hsame
      cases hsame
      exact ⟨c.stagedTxs, txs, hstaged, hfound, htxs, hkeyed txs htxs,
        fun _ => ⟨c, haccepted, rfl, hblock⟩⟩
  · -- nothing was staged, or what was resolved is too heavy
    intro hrefuses
    rw [hlist] at hretry ⊢
    rcases hretry with ⟨hrefused, -⟩ | ⟨c, txs, -, hstaged, htxs, hlight, -⟩
    · exact hrefused
    · exact absurd (hrefuses c.stagedTxs txs hstaged htxs) (Nat.not_lt.mpr hlight)

/-! ## A declaration of one transaction -/

/-- The job of `sampleDeclaration`, with one transaction. -/
def sampleMissing (tx : Transaction) : DeclareMiningJob :=
  { sampleDeclaration with wtxidList := [referenceBitcoin.computeWtxid tx] }

def sampleEntry (tx : Transaction) : Jdc.DeclaredJob :=
  ⟨none, ⟨1, false, 5000000000⟩, none, none, none, [tx.consensusEncode], true⟩

/-- A mirror that has the transactions of `sampleBlock`. -/
def sampleMirror : MempoolMirror :=
  MempoolMirror.new.update referenceBitcoin .asStored MempoolMirror.sampleBlock.block

def sampleRequest (tx : Transaction) : JdRequest :=
  ⟨0x20000000, ⟨2, 0, [⟨.null, [3, 1, 2, 3, 0, 0, 0], 0xffffffff, [[0]]⟩], [⟨5000000000, [0x51]⟩]⟩,
    [referenceBitcoin.computeWtxid tx], []⟩

theorem eq_inl_of_getLeft? {α β : Type} {o : Option (α ⊕ β)} {a : α}
    (h : o.bind Sum.getLeft? = some a) : o = some (.inl a) := by
  obtain ⟨r, hr, ha⟩ := Option.bind_eq_some_iff.mp h
  rw [hr, Sum.getLeft?_eq_some_iff.mp ha]

/-- The mirror lacks the transaction; the client has it. -/
theorem missing_transactions_round_trip_one :
    let tx := MempoolMirror.sampleTransaction 7
    let ws := [referenceBitcoin.computeWtxid tx]
    let positions := System.unknownTxPositionList (sampleMissing tx).wtxidList ws
    let answer := provideMissingTransactions (sampleEntry tx) (sampleMissing tx).requestId positions
    positions.map UInt16.toNat =
      (positionsOf sampleMirror.lacks (sampleMissing tx).wtxidList).map Fin.val ∧
    ∀ ws' context', handleDeclareMiningJob referenceBitcoin Connection.sampleErrorCodes sampleMirror
        { sampleRequest tx with
          missingTxs := answer.transactionList.filterMap referenceBitcoin.decodeTransaction } ≠
      some (.inl (.missingTransactions ws' context')) := by
  intro tx ws positions answer
  have hround := missing_transactions_round_trip referenceBitcoin Connection.sampleErrorCodes
    sampleMirror (sampleMissing tx) (sampleEntry tx) (by decide +kernel) 0
    (sampleRequest tx) (by decide +kernel) ws ⟨Hash256.allZeros, 0⟩
    (eq_inl_of_getLeft? (by decide +kernel))
  exact ⟨hround.1, hround.2.2.2.2.2.1⟩

/-- A declared transaction with the input of a coinbase: the mirror lacks it, the client supplies it,
    and the declaration is refused with nothing staged. -/
theorem supplied_coinbase_refused :
    let tx := MempoolMirror.sampleTransaction 0xffffffff
    let answer := provideMissingTransactions (sampleEntry tx) 1 [0]
    let supplied := answer.transactionList.filterMap referenceBitcoin.decodeTransaction
    Declares referenceBitcoin (sampleEntry tx) (sampleMissing tx).wtxidList ∧
      (∃ token, prepareDeclareMiningJob referenceBitcoin (sampleMissing tx) none =
        .ok (token, sampleRequest tx)) ∧
      handleDeclareMiningJob referenceBitcoin Connection.sampleErrorCodes sampleMirror
          (sampleRequest tx) =
        some (.inl (.missingTransactions [referenceBitcoin.computeWtxid tx]
          ⟨Hash256.allZeros, 0⟩)) ∧
      System.unknownTxPositionList (sampleMissing tx).wtxidList
        [referenceBitcoin.computeWtxid tx] = [0] ∧
      supplied = [tx] ∧
      (stageMissingTxs referenceBitcoin (sampleMissing tx).wtxidList supplied).isNone ∧
      handleDeclareMiningJob referenceBitcoin Connection.sampleErrorCodes sampleMirror
          { sampleRequest tx with missingTxs := supplied } =
        some (.inl (.error Connection.sampleErrorCodes.invalidJob ⟨Hash256.allZeros, 0⟩)) := by
  intro tx answer supplied
  exact ⟨by decide +kernel, ⟨0, by decide +kernel⟩, eq_inl_of_getLeft? (by decide +kernel),
    by decide +kernel, by decide +kernel, by decide +kernel,
    eq_inl_of_getLeft? (by decide +kernel)⟩

end Sv2Apps.BitcoinCore
