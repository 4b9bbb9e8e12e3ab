/-
  BitcoinCore/MirrorBounds.lean
  =============================
  **The representation invariant of the mempool mirror** — every key is the wtxid of its value and
  the mirror weighs no more than `MAX_MIRROR_WEIGHT`, after any updates and commits in any order.

  An update leaves a template part and a carry-over, told apart by the template's wtxids
  (`total_retain_add`).  The first is matched entry by entry with the template, because a wtxid
  stands for one transaction; the second is what the loop of `retain` let pass.
-/
import Sv2Apps.BitcoinCore.MempoolMirror
import Mathlib.Data.Set.Function

namespace Sv2Apps.BitcoinCore

open Bitcoin

namespace MempoolMirror

variable {rb : RustBitcoin} {m : MempoolMirror} {known : Set Transaction}

/-! ## The loops -/

/-- The carry-over stays within what is left of the budget. -/
theorem weigh_retainCarried (kept : Wtxid → Bool) (carried : Nat)
    (es : List (Σ _ : Wtxid, Transaction)) :
    KeyMap.weigh Transaction.weight ((retainCarried kept carried es).filter fun e => !kept e.1) ≤
      maxMirrorCarryOverWeight - carried := by
  induction es generalizing carried with
  | nil => exact Nat.zero_le _
  | cons e es ih =>
    simp only [retainCarried]
    split
    next hkept =>
      simp only [List.filter_cons, hkept, Bool.not_true]
      exact ih carried
    next hkept =>
      have hrest := ih (carried + e.2.weight)
      split
      next hfits =>
        simp only [List.filter_cons, hkept, Bool.not_false, if_true, KeyMap.weigh_cons]
        omega
      next hfull =>
        omega

theorem carriedSums_le (kept : Wtxid → Bool) (carried : Nat)
    (es : List (Σ _ : Wtxid, Transaction)) :
    ∀ n ∈ carriedSums kept carried es, n ≤ carried + KeyMap.weigh Transaction.weight es := by
  induction es generalizing carried with
  | nil =>
    intro n hn
    cases hn
  | cons e es ih =>
    intro n hn
    simp only [carriedSums] at hn
    rw [KeyMap.weigh_cons]
    split at hn
    · have hle := ih carried n hn
      omega
    rcases List.mem_cons.mp hn with rfl | hn
    · omega
    · have hle := ih _ n hn
      omega

/-- A loop of commits adds entries to the map. -/
theorem lookup_commit (mirrorWeight : Nat) (txdata : KeyMap Wtxid Transaction)
    (txs : List Transaction) :
    (∀ w tx, txdata.lookup w = some tx → (commit rb mirrorWeight txdata txs).lookup w = some tx) ∧
      ∀ w tx, (commit rb mirrorWeight txdata txs).lookup w = some tx →
        txdata.lookup w = some tx ∨ tx ∈ txs ∧ rb.computeWtxid tx = w := by
  induction txs generalizing mirrorWeight txdata with
  | nil => exact ⟨fun _ _ h => h, fun _ _ h => Or.inl h⟩
  | cons tx txs ih =>
    simp only [commit]
    split
    next hheld =>
      obtain ⟨hkept, hnew⟩ := ih mirrorWeight txdata
      refine ⟨hkept, ?_⟩
      intro w tx' hw
      exact (hnew w tx' hw).imp_right fun h => ⟨List.mem_cons_of_mem _ h.1, h.2⟩
    next hfree =>
      have hnone : txdata.lookup (rb.computeWtxid tx) = none := by simpa using hfree
      split
      · exact ⟨fun _ _ h => h, fun _ _ h => Or.inl h⟩
      obtain ⟨hkept, hnew⟩ := ih (mirrorWeight + tx.weight) (txdata.insert (rb.computeWtxid tx) tx)
      refine ⟨?_, ?_⟩
      · intro w tx' hw
        refine hkept w tx' ?_
        rw [KeyMap.lookup_insert_eq, if_neg ?_]
        · exact hw
        · rintro rfl
          rw [hnone] at hw
          cases hw
      · intro w tx' hw
        rcases hnew w tx' hw with hw | ⟨htx, hid⟩
        · rw [KeyMap.lookup_insert_eq] at hw
          split at hw
          next hid =>
            cases hw
            exact Or.inr ⟨List.mem_cons_self, hid.symm⟩
          · exact Or.inl hw
        · exact Or.inr ⟨List.mem_cons_of_mem _ htx, hid⟩

/-- The loop stops at the ceiling. -/
theorem total_commit_le {mirrorWeight : Nat} {txdata : KeyMap Wtxid Transaction}
    (hweight : KeyMap.total Transaction.weight txdata = mirrorWeight)
    (hlight : mirrorWeight ≤ maxMirrorWeight) (txs : List Transaction) :
    KeyMap.total Transaction.weight (commit rb mirrorWeight txdata txs) ≤ maxMirrorWeight := by
  induction txs generalizing mirrorWeight txdata with
  | nil => exact hweight.trans_le hlight
  | cons tx txs ih =>
    simp only [commit]
    split
    · exact ih hweight hlight
    next hfree =>
      have hnone : txdata.lookup (rb.computeWtxid tx) = none := by simpa using hfree
      split
      · exact hweight.trans_le hlight
      next hfits =>
        refine ih ?_ (Nat.le_of_not_lt hfits)
        rw [KeyMap.total_insert_of_lookup_none hnone, hweight, Nat.add_comm]

theorem commitSums_le {mirrorWeight : Nat} (hlight : mirrorWeight ≤ maxMirrorWeight) {bound : Nat}
    {txs : List Transaction} (hbound : ∀ tx ∈ txs, tx.weight ≤ bound)
    (txdata : KeyMap Wtxid Transaction) :
    ∀ n ∈ commitSums rb mirrorWeight txdata txs, n ≤ maxMirrorWeight + bound := by
  induction txs generalizing mirrorWeight txdata with
  | nil =>
    intro n hn
    cases hn
  | cons tx txs ih =>
    have htx := hbound tx List.mem_cons_self
    have hrest := fun tx' htx' => hbound tx' (List.mem_cons_of_mem _ htx')
    intro n hn
    simp only [commitSums] at hn
    split at hn
    · exact ih hlight hrest _ n hn
    split at hn
    · rw [List.mem_singleton.mp hn]
      omega
    next hfits =>
      rcases List.mem_cons.mp hn with rfl | hn
      · omega
      · exact ih (Nat.le_of_not_lt hfits) hrest _ n hn

/-! ## The template -/

/-- A template holds the transactions behind the coinbase. -/
theorem lookup_template {block : Block} {w : Wtxid} {tx : Transaction}
    (h : (template rb block).lookup w = some tx) :
    tx ∈ block.others ∧ rb.computeWtxid tx = w := by
  unfold template at h
  generalize block.others = txs at h ⊢
  have hfold : ∀ (txs : List Transaction) (m : KeyMap Wtxid Transaction),
      (txs.foldl (fun m tx => m.insert (rb.computeWtxid tx) tx) m).lookup w = some tx →
        m.lookup w = some tx ∨ tx ∈ txs ∧ rb.computeWtxid tx = w := by
    intro txs
    induction txs with
    | nil => exact fun m hm => Or.inl hm
    | cons t txs ih =>
      intro m hm
      rcases ih _ hm with hm | ⟨htx, hid⟩
      · rw [KeyMap.lookup_insert_eq] at hm
        split at hm
        next hid =>
          cases hm
          exact Or.inr ⟨List.mem_cons_self, hid.symm⟩
        · exact Or.inl hm
      · exact Or.inr ⟨List.mem_cons_of_mem _ htx, hid⟩
  rcases hfold txs ∅ h with h | h
  · simp at h
  · exact h

theorem inTemplate_of_mem {block : Block} {tx : Transaction} (h : tx ∈ block.others) :
    inTemplate rb block (rb.computeWtxid tx) = true := by
  unfold inTemplate template
  generalize block.others = txs at h
  have hfold : ∀ (txs : List Transaction) (m : KeyMap Wtxid Transaction),
      tx ∈ txs ∨ (m.lookup (rb.computeWtxid tx)).isSome →
        ((txs.foldl (fun m tx => m.insert (rb.computeWtxid tx) tx) m).lookup
          (rb.computeWtxid tx)).isSome := by
    intro txs
    induction txs with
    | nil => exact fun m hm => hm.resolve_left List.not_mem_nil
    | cons t txs ih =>
      intro m hm
      refine ih _ ?_
      rw [KeyMap.lookup_insert_eq]
      split
      · exact Or.inr rfl
      next hne =>
        refine hm.imp_left fun htx => (List.mem_cons.mp htx).resolve_left ?_
        rintro rfl
        exact hne rfl
  exact hfold txs ∅ (Or.inl h)

theorem total_template_le (rb : RustBitcoin) (block : Block) :
    KeyMap.total Transaction.weight (template rb block) ≤
      (block.others.map Transaction.weight).sum := by
  have hle := KeyMap.total_foldl_insert_le (w := Transaction.weight) rb.computeWtxid id
    block.others ∅
  rw [KeyMap.total_empty, Nat.zero_add] at hle
  exact hle

/-! ## The invariant -/

/-- What holds of the mirror between its operations. -/
structure Sound (rb : RustBitcoin) (known : Set Transaction) (m : MempoolMirror) : Prop where
  keyed : ∀ w tx, m.txdata.lookup w = some tx → rb.computeWtxid tx = w
  known : ∀ w tx, m.txdata.lookup w = some tx → tx ∈ known
  light : m.weight ≤ maxMirrorWeight

theorem sound_new : Sound rb known new := by
  refine ⟨?_, ?_, Nat.zero_le _⟩
  · intro w tx h
    simp [new] at h
  · intro w tx h
    simp [new] at h

theorem addTransactions_keeps (txs : List Transaction) {w : Wtxid} {tx : Transaction}
    (hw : m.txdata.lookup w = some tx) : (m.addTransactions rb txs).txdata.lookup w = some tx :=
  (lookup_commit m.weight m.txdata txs).1 w tx hw

theorem addTransactions_new {txs : List Transaction} {w : Wtxid} {tx : Transaction}
    (hw : (m.addTransactions rb txs).txdata.lookup w = some tx) :
    m.txdata.lookup w = some tx ∨ tx ∈ txs ∧ rb.computeWtxid tx = w :=
  (lookup_commit m.weight m.txdata txs).2 w tx hw

theorem Sound.added (h : Sound rb known m) {txs : List Transaction} (htxs : ∀ tx ∈ txs, tx ∈ known) :
    Sound rb known (m.addTransactions rb txs) := by
  refine ⟨?_, ?_, total_commit_le rfl h.light txs⟩
  · intro w tx hw
    rcases addTransactions_new hw with hw | ⟨-, hid⟩
    · exact h.keyed w tx hw
    · exact hid
  · intro w tx hw
    rcases addTransactions_new hw with hw | ⟨htx, -⟩
    · exact h.known w tx hw
    · exact htxs tx htx

/-! ## An update -/

theorem lookup_cleared {prevHash : BlockHash} {w : Wtxid} {tx : Transaction}
    (h : (m.cleared prevHash).lookup w = some tx) : m.txdata.lookup w = some tx := by
  unfold cleared at h
  split at h
  · simp at h
  · exact h

theorem lookup_carriedOver {order : KeyMap.Iteration Wtxid Transaction} {block : Block} {w : Wtxid}
    {tx : Transaction} (h : (m.carriedOver rb order block).lookup w = some tx) :
    (m.cleared block.header.prevBlockhash).lookup w = some tx := by
  rw [← KeyMap.mem_entries_iff] at h ⊢
  have hvisited := (retainCarried_sublist _ _ _).subset h
  exact (order.perm _).mem_iff.mp hvisited

/-- What an update leaves: what it carries over, and the rest of the template. -/
theorem lookup_update (order : KeyMap.Iteration Wtxid Transaction) (block : Block) (w : Wtxid) :
    (m.update rb order block).txdata.lookup w =
      ((m.carriedOver rb order block).lookup w).or ((template rb block).lookup w) :=
  KeyMap.lookup_foldl_ensure _ _ w

theorem lookup_update_some {order : KeyMap.Iteration Wtxid Transaction} {block : Block} {w : Wtxid}
    {tx : Transaction} (h : (m.update rb order block).txdata.lookup w = some tx) :
    m.txdata.lookup w = some tx ∨ (template rb block).lookup w = some tx := by
  rw [lookup_update, Option.or_eq_some_iff] at h
  rcases h with h | ⟨-, h⟩
  · exact Or.inl (lookup_cleared (lookup_carriedOver h))
  · exact Or.inr h

section

variable (hid : Set.InjOn rb.computeWtxid known) {block : Block}
  (hblock : ∀ tx ∈ block.others, tx ∈ known) (order : KeyMap.Iteration Wtxid Transaction)

include hblock in
theorem Sound.updated_mem (h : Sound rb known m) {w : Wtxid} {tx : Transaction}
    (hw : (m.update rb order block).txdata.lookup w = some tx) :
    tx ∈ known ∧ rb.computeWtxid tx = w := by
  rcases lookup_update_some hw with hw | hw
  · exact ⟨h.known w tx hw, h.keyed w tx hw⟩
  · obtain ⟨htx, hwtxid⟩ := lookup_template hw
    exact ⟨hblock tx htx, hwtxid⟩

include hid hblock in
/-- Under a wtxid of the template the mirror has the transaction of the template. -/
theorem Sound.updated_resolves (h : Sound rb known m) {tx : Transaction} (htx : tx ∈ block.others) :
    (m.update rb order block).txdata.lookup (rb.computeWtxid tx) = some tx := by
  have hsome : ((m.update rb order block).txdata.lookup (rb.computeWtxid tx)).isSome := by
    rw [lookup_update, Option.isSome_or]
    have hin : ((template rb block).lookup (rb.computeWtxid tx)).isSome := inTemplate_of_mem htx
    rw [hin, Bool.or_true]
  obtain ⟨tx', htx'⟩ := Option.isSome_iff_exists.mp hsome
  obtain ⟨hknown, hwtxid⟩ := h.updated_mem hblock order htx'
  rw [htx', hid hknown (hblock tx htx) hwtxid]

/-- What is kept beyond the template is within the budget. -/
theorem carryOver_le (rb : RustBitcoin) (m : MempoolMirror) (block : Block)
    (order : KeyMap.Iteration Wtxid Transaction) :
    KeyMap.total Transaction.weight
      (KeyMap.retain (fun w _ => !inTemplate rb block w) (m.update rb order block).txdata) ≤
        maxMirrorCarryOverWeight := by
  have hkept : KeyMap.total Transaction.weight
      (KeyMap.retain (fun w _ => !inTemplate rb block w) (m.carriedOver rb order block)) ≤
        maxMirrorCarryOverWeight := weigh_retainCarried (inTemplate rb block) 0
    (order.visit (m.cleared block.header.prevBlockhash).entries)
  refine Nat.le_trans (KeyMap.total_le_of_lookup ?_) hkept
  intro w tx hw
  rw [KeyMap.lookup_retain, Option.filter_eq_some_iff, lookup_update, Option.or_eq_some_iff] at hw
  obtain ⟨hw, hout⟩ := hw
  refine ⟨tx, ?_, Nat.le_refl _⟩
  rw [KeyMap.lookup_retain, Option.filter_eq_some_iff]
  rcases hw with hw | ⟨-, hw⟩
  · exact ⟨hw, hout⟩
  · simp [inTemplate, hw] at hout

include hid hblock in
/-- The template part is matched by the template, entry by entry. -/
theorem Sound.templatePart_le (h : Sound rb known m) :
    KeyMap.total Transaction.weight
      (KeyMap.retain (fun w _ => inTemplate rb block w) (m.update rb order block).txdata) ≤
        (block.others.map Transaction.weight).sum := by
  refine Nat.le_trans (KeyMap.total_le_of_lookup ?_) (total_template_le rb block)
  intro w tx hw
  rw [KeyMap.lookup_retain, Option.filter_eq_some_iff] at hw
  obtain ⟨hw, hin⟩ := hw
  obtain ⟨tx', htx'⟩ := Option.isSome_iff_exists.mp hin
  obtain ⟨hmem, hwtxid'⟩ := lookup_template htx'
  obtain ⟨hknown, hwtxid⟩ := h.updated_mem hblock order hw
  rw [hid hknown (hblock tx' hmem) (hwtxid.trans hwtxid'.symm)]
  exact ⟨tx', htx', Nat.le_refl _⟩

include hid hblock in
theorem Sound.updated (h : Sound rb known m)
    (hweight : (block.others.map Transaction.weight).sum ≤ maxBlockWeight) :
    Sound rb known (m.update rb order block) := by
  refine ⟨fun w tx hw => (h.updated_mem hblock order hw).2,
    fun w tx hw => (h.updated_mem hblock order hw).1, ?_⟩
  have htemplate := h.templatePart_le hid hblock order
  have hcarry := carryOver_le rb m block order
  have htotal := KeyMap.total_retain_add (w := Transaction.weight) (inTemplate rb block)
    (m.update rb order block).txdata
  unfold weight maxMirrorWeight
  omega

include hid hblock in
/-- At a new chain tip nothing but the template is left. -/
theorem Sound.updated_exact (h : Sound rb known m)
    (htip : m.currentPrevHash ≠ some block.header.prevBlockhash) (w : Wtxid) (tx : Transaction) :
    (m.update rb order block).txdata.lookup w = some tx ↔
      tx ∈ block.others ∧ rb.computeWtxid tx = w := by
  constructor
  · intro hw
    rw [lookup_update, Option.or_eq_some_iff] at hw
    rcases hw with hw | ⟨-, hw⟩
    · have hcleared := lookup_carriedOver hw
      simp [cleared, htip] at hcleared
    · exact lookup_template hw
  · rintro ⟨htx, rfl⟩
    exact h.updated_resolves hid hblock order htx

end

/-! ## Runs -/

/-- A block of transactions that fit in a block. -/
structure TemplateBlock where
  block : Block
  fits : (block.others.map Transaction.weight).sum ≤ maxBlockWeight

/-- A transaction in memory, whose few gigabytes at the most leave its weight far below the range
    of a `u64`. -/
structure HeldTransaction where
  tx : Transaction
  fits : tx.weight < 2 ^ 63

inductive Operation where
  | update (order : KeyMap.Iteration Wtxid Transaction) (block : TemplateBlock)
  | addTransactions (txs : List HeldTransaction)

def Operation.transactions : Operation → List Transaction
  | .update _ block => block.block.others
  | .addTransactions txs => txs.map (·.tx)

def apply (rb : RustBitcoin) (m : MempoolMirror) : Operation → MempoolMirror
  | .update order block => m.update rb order block.block
  | .addTransactions txs => m.addTransactions rb (txs.map (·.tx))

def after (rb : RustBitcoin) (ops : List Operation) : MempoolMirror := Runs.run (apply rb) new ops

/-- The transactions that occur in a run. -/
def occurring (ops : List Operation) : Set Transaction :=
  { tx | tx ∈ ops.flatMap Operation.transactions }

/-- The sums of weights that an operation forms. -/
def Operation.weightSums (rb : RustBitcoin) (m : MempoolMirror) : Operation → List Nat
  | .update order block => carriedSums (inTemplate rb block.block) 0
      (order.visit (m.cleared block.block.header.prevBlockhash).entries)
  | .addTransactions txs => m.weight :: commitSums rb m.weight m.txdata (txs.map (·.tx))

/-- What an operation does to the mirror. -/
def Operation.Effect (rb : RustBitcoin) (m m' : MempoolMirror) : Operation → Prop
  | .update _ block =>
    (∀ tx ∈ block.block.others, m'.txdata.lookup (rb.computeWtxid tx) = some tx) ∧
    KeyMap.total Transaction.weight
      (KeyMap.retain (fun w _ => !inTemplate rb block.block w) m'.txdata) ≤
        maxMirrorCarryOverWeight ∧
    (m.currentPrevHash ≠ m'.currentPrevHash → ∀ w tx, m'.txdata.lookup w = some tx ↔
      tx ∈ block.block.others ∧ rb.computeWtxid tx = w)
  | .addTransactions _ => ∀ w tx, m.txdata.lookup w = some tx → m'.txdata.lookup w = some tx

theorem apply_sound (h : Sound rb known m) (hid : Set.InjOn rb.computeWtxid known) {op : Operation}
    (hop : ∀ tx ∈ op.transactions, tx ∈ known) : Sound rb known (m.apply rb op) := by
  cases op with
  | update order block => exact h.updated hid hop order block.fits
  | addTransactions txs => exact h.added hop

theorem apply_effect (h : Sound rb known m) (hid : Set.InjOn rb.computeWtxid known) {op : Operation}
    (hop : ∀ tx ∈ op.transactions, tx ∈ known) : op.Effect rb m (m.apply rb op) := by
  cases op with
  | update order block =>
    refine ⟨?_, carryOver_le rb m block.block order, ?_⟩
    · intro tx htx
      exact h.updated_resolves hid hop order htx
    · intro htip
      exact h.updated_exact hid hop order htip
  | addTransactions txs =>
    intro w tx hw
    exact addTransactions_keeps _ hw

theorem maxMirrorWeight_eq : maxMirrorWeight = 20000000 := rfl

/-- The sums are at most what the mirror weighs, or that and one more transaction. -/
theorem weightSums_lt (h : Sound rb known m) (op : Operation) :
    ∀ n ∈ op.weightSums rb m, n < 2 ^ 64 := by
  have hlight := h.light
  intro n hn
  cases op with
  | update order block =>
    have hle := carriedSums_le _ _ _ n hn
    rw [KeyMap.weigh_perm (order.perm _), Nat.zero_add] at hle
    have hcleared : KeyMap.total Transaction.weight
        (m.cleared block.block.header.prevBlockhash) ≤ m.weight := by
      refine KeyMap.total_le_of_lookup ?_
      intro w tx hw
      exact ⟨tx, lookup_cleared hw, Nat.le_refl _⟩
    unfold KeyMap.total at hcleared
    rw [maxMirrorWeight_eq] at hlight
    omega
  | addTransactions txs =>
    have hbound : ∀ tx ∈ txs.map (·.tx), tx.weight ≤ 2 ^ 63 := by
      intro tx htx
      obtain ⟨held, -, rfl⟩ := List.mem_map.mp htx
      exact Nat.le_of_lt held.fits
    have hle : n ≤ maxMirrorWeight + 2 ^ 63 := by
      rcases List.mem_cons.mp hn with rfl | hn
      · exact Nat.le_trans hlight (Nat.le_add_right _ _)
      · exact commitSums_le hlight hbound _ n hn
    rw [maxMirrorWeight_eq] at hle
    omega

theorem after_sound {ops : List Operation} (hid : Set.InjOn rb.computeWtxid known)
    (hops : ∀ op ∈ ops, ∀ tx ∈ op.transactions, tx ∈ known) : Sound rb known (after rb ops) := by
  have hrun : ∀ (ops : List Operation) (m : MempoolMirror), Sound rb known m →
      (∀ op ∈ ops, ∀ tx ∈ op.transactions, tx ∈ known) →
        Sound rb known (Runs.run (apply rb) m ops) := by
    intro ops
    induction ops with
    | nil => exact fun m hm _ => hm
    | cons op ops ih =>
      intro m hm hops
      refine ih _ (apply_sound hm hid (hops op List.mem_cons_self)) ?_
      exact fun op' hop' => hops op' (List.mem_cons_of_mem _ hop')
  exact hrun ops new sound_new hops

/-- After any operations the mirror is within its ceiling and keyed by wtxid, and the next
    operation does what it says without an overflow. -/
theorem mirror_bounded (rb : RustBitcoin) (ops : List Operation) (op : Operation)
    (hwtxid : Set.InjOn rb.computeWtxid (occurring (ops ++ [op]))) :
    (after rb ops).weight ≤ maxMirrorWeight ∧
      (∀ w tx, (after rb ops).txdata.lookup w = some tx → rb.computeWtxid tx = w) ∧
      (∀ n ∈ op.weightSums rb (after rb ops), n < 2 ^ 64) ∧
      op.Effect rb (after rb ops) ((after rb ops).apply rb op) := by
  have hsound : Sound rb (occurring (ops ++ [op])) (after rb ops) := by
    refine after_sound hwtxid ?_
    intro op' hop' tx htx
    exact List.mem_flatMap.mpr ⟨op', List.mem_append_left _ hop', htx⟩
  have hop : ∀ tx ∈ op.transactions, tx ∈ occurring (ops ++ [op]) :=
    fun tx htx => List.mem_flatMap.mpr ⟨op, List.mem_append_right _ List.mem_cons_self, htx⟩
  exact ⟨hsound.light, hsound.keyed, weightSums_lt hsound op, apply_effect hsound hwtxid hop⟩

def sampleTransaction (n : UInt32) : Transaction :=
  ⟨2, 0, [⟨⟨Hash256.allZeros, n⟩, [], 0xffffffff, []⟩], [⟨0, []⟩]⟩

def sampleBlock : TemplateBlock :=
  ⟨⟨⟨2, Hash256.allZeros, Hash256.allZeros, 0, 0, 0⟩, [sampleTransaction 0, sampleTransaction 1]⟩,
    by decide +kernel⟩

/-- A template, and then a commit. -/
theorem mirror_bounded_committed :
    Operation.Effect referenceBitcoin (after referenceBitcoin [.update .asStored sampleBlock])
      (apply referenceBitcoin (after referenceBitcoin [.update .asStored sampleBlock])
        (.addTransactions [⟨sampleTransaction 2, by decide +kernel⟩]))
      (.addTransactions [⟨sampleTransaction 2, by decide +kernel⟩]) := by
  refine (mirror_bounded referenceBitcoin [.update .asStored sampleBlock]
    (.addTransactions [⟨sampleTransaction 2, by decide +kernel⟩]) ?_).2.2.2
  have hdistinct : ∀ a ∈ [sampleTransaction 1, sampleTransaction 2],
      ∀ b ∈ [sampleTransaction 1, sampleTransaction 2],
        referenceBitcoin.computeWtxid a = referenceBitcoin.computeWtxid b → a = b := by
    decide +kernel
  intro a ha b hb
  exact hdistinct a ha b hb

end MempoolMirror

end Sv2Apps.BitcoinCore
