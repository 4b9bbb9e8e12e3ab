/-
  BitcoinCore/DeclaredTransactions.lean
  =====================================
  **A declaration touches the mirror only through what was checked** — what a call of
  `handle_declare_mining_job` answers, and what it leaves in the mirror, whatever happens between its
  two halves.

  What the first half established of its block (`Prepared`) says nothing about the mirror, so it
  still holds when the answer comes; the second half compares the chain tips and commits staged
  transactions only.
-/
import Sv2Apps.BitcoinCore.JobDeclaration
import Sv2Apps.BitcoinCore.MirrorBounds

namespace Sv2Apps.BitcoinCore

open Bitcoin Jds

variable {rb : RustBitcoin} {codes : ErrorCodes}

/-! ## Staging -/

/-- What is staged was supplied, was declared, and is under its own wtxid. -/
theorem stageLoop_mem {wtxidList : List Wtxid} {txs : List Transaction}
    {staged staged' : KeyMap Wtxid Transaction}
    (h : stageLoop rb wtxidList staged txs = some staged') {w : Wtxid} {tx : Transaction}
    (hw : staged'.lookup w = some tx) :
    staged.lookup w = some tx ∨ tx ∈ txs ∧ rb.computeWtxid tx = w ∧ w ∈ wtxidList := by
  induction txs generalizing staged with
  | nil =>
    cases h
    exact Or.inl hw
  | cons t txs ih =>
    simp only [stageLoop] at h
    split at h
    · cases h
    split at h
    · cases h
    next hdeclared =>
      split at h
      · cases h
      rcases ih h with hold | ⟨htx, hid, hin⟩
      · rw [KeyMap.lookup_insert_eq] at hold
        split at hold
        next hid =>
          cases hold
          exact Or.inr ⟨List.mem_cons_self, hid.symm, hid ▸ Decidable.not_not.mp hdeclared⟩
        · exact Or.inl hold
      · exact Or.inr ⟨List.mem_cons_of_mem _ htx, hid, hin⟩

theorem stageMissingTxs_mem {wtxidList : List Wtxid} {txs : List Transaction}
    {staged : KeyMap Wtxid Transaction} (h : stageMissingTxs rb wtxidList txs = some staged)
    {w : Wtxid} {tx : Transaction} (hw : staged.lookup w = some tx) :
    tx ∈ txs ∧ rb.computeWtxid tx = w ∧ w ∈ wtxidList := by
  unfold stageMissingTxs at h
  split at h
  · cases h
  split at h
  · cases h
  rcases stageLoop_mem h hw with hempty | hnew
  · simp at hempty
  · exact hnew

theorem mem_takeStaged {stagedTxs : KeyMap Wtxid Transaction} {wtxids : List Wtxid}
    {tx : Transaction} (h : tx ∈ takeStaged stagedTxs wtxids) :
    ∃ w ∈ wtxids, stagedTxs.lookup w = some tx := by
  induction wtxids generalizing stagedTxs with
  | nil => cases h
  | cons w wtxids ih =>
    simp only [takeStaged] at h
    split at h
    next t ht =>
      rcases List.mem_cons.mp h with rfl | h
      · exact ⟨w, List.mem_cons_self, ht⟩
      · obtain ⟨w', hw', htx⟩ := ih h
        exact ⟨w', List.mem_cons_of_mem _ hw', KeyMap.lookup_erase_some htx⟩
    · obtain ⟨w', hw', htx⟩ := ih h
      exact ⟨w', List.mem_cons_of_mem _ hw', htx⟩

/-! ## Resolving -/

namespace MempoolMirror

/-- Where a declared wtxid is looked up. -/
def resolve (m : MempoolMirror) (staged : KeyMap Wtxid Transaction) (w : Wtxid) :
    Option Transaction :=
  (staged.lookup w).or (m.txdata.lookup w)

/-- A list that was resolved: one transaction for every wtxid, in the declared order. -/
theorem resolveLoop_eq_ok {m : MempoolMirror} {staged : KeyMap Wtxid Transaction} {budget : Nat}
    {wtxids : List Wtxid} {txdata txs : List Transaction} {missing : List Wtxid} {weight : Nat}
    (h : m.resolveLoop staged budget txdata missing weight wtxids = .ok txs) :
    missing = [] ∧ ∃ rest, txs = txdata ++ rest ∧
      rest.map some = wtxids.map (m.resolve staged) ∧
      (weight ≤ budget → weight + (rest.map Transaction.weight).sum ≤ budget) := by
  induction wtxids generalizing txdata missing weight with
  | nil =>
    simp only [resolveLoop] at h
    split at h
    next hnone =>
      cases h
      exact ⟨List.isEmpty_iff.mp hnone, [], (List.append_nil _).symm, rfl, fun hle => hle⟩
    · cases h
  | cons w wtxids ih =>
    simp only [resolveLoop] at h
    split at h
    next tx htx =>
      split at h
      · cases h
      next hfits =>
        obtain ⟨hmissing, rest, rfl, hrest, hlight⟩ := ih h
        refine ⟨hmissing, tx :: rest, by simp, ?_, ?_⟩
        · rw [List.map_cons, List.map_cons, hrest, resolve, htx]
        · intro _
          rw [List.map_cons, List.sum_cons, ← Nat.add_assoc]
          exact hlight (Nat.le_of_not_lt hfits)
    · obtain ⟨hmissing, -⟩ := ih h
      simp at hmissing

theorem resolveTxdata_eq_ok {m : MempoolMirror} {staged : KeyMap Wtxid Transaction} {budget : Nat}
    {wtxids : List Wtxid} {txs : List Transaction}
    (h : m.resolveTxdata wtxids staged budget = .ok txs) :
    txs.map some = wtxids.map (m.resolve staged) ∧
      (txs.map Transaction.weight).sum ≤ budget := by
  obtain ⟨-, rest, rfl, hrest, hlight⟩ := resolveLoop_eq_ok h
  exact ⟨hrest, by simpa using hlight (Nat.zero_le _)⟩

/-- Every key is the wtxid of its value. -/
def Keyed (rb : RustBitcoin) (m : MempoolMirror) : Prop :=
  ∀ w tx, m.txdata.lookup w = some tx → rb.computeWtxid tx = w

theorem keyed_new : Keyed rb new := by
  intro w tx h
  simp [new] at h

theorem Keyed.updated {m : MempoolMirror} (h : Keyed rb m)
    (order : KeyMap.Iteration Wtxid Transaction) (block : Block) :
    Keyed rb (m.update rb order block) := by
  intro w tx hw
  rcases lookup_update_some hw with hw | hw
  · exact h w tx hw
  · exact (lookup_template hw).2

theorem Keyed.added {m : MempoolMirror} (h : Keyed rb m) (txs : List Transaction) :
    Keyed rb (m.addTransactions rb txs) := by
  intro w tx hw
  rcases addTransactions_new hw with hw | ⟨-, hid⟩
  · exact h w tx hw
  · exact hid

end MempoolMirror

/-- A list found by looking up keys, when what is found determines its key. -/
theorem map_eq_of_map_some {α β : Type} {f : α → Option β} {g : β → α}
    (hg : ∀ a b, f a = some b → g b = a) {as : List α} {bs : List β}
    (h : bs.map some = as.map f) : bs.map g = as := by
  induction as generalizing bs with
  | nil =>
    rw [List.map_nil, List.map_eq_nil_iff] at h
    rw [h, List.map_nil]
  | cons a as ih =>
    cases bs with
    | nil => simp at h
    | cons b bs =>
      simp only [List.map_cons, List.cons.injEq] at h
      rw [List.map_cons, hg a b h.1.symm, ih h.2]

/-! ## The first half -/

/-- The block of a declaration: the declared transactions behind the coinbase, in their order. -/
structure Prepared (rb : RustBitcoin) (req : JdRequest) (c : Checking) : Prop where
  staged : ∀ w tx, c.stagedTxs.lookup w = some tx →
    tx ∈ req.missingTxs ∧ rb.computeWtxid tx = w ∧ w ∈ req.wtxidList
  checked : ∃ txdata, c.block.txdata = req.coinbaseTx :: txdata ∧
    txdata.map rb.computeWtxid = req.wtxidList ∧ c.txidList = txdata.map rb.computeTxid
  included : ∀ w tx, c.stagedTxs.lookup w = some tx → tx ∈ c.block.txdata
  tip : c.block.header.prevBlockhash = c.initialValidationContext.prevHash

theorem handleDeclareMiningJob_prepared {mirror : MempoolMirror} (hkeyed : mirror.Keyed rb)
    {req : JdRequest} {c : Checking}
    (h : handleDeclareMiningJob rb codes mirror req = some (.inr c)) : Prepared rb req c := by
  unfold handleDeclareMiningJob at h
  split at h
  next prevHash nbits ntime _ _ _ =>
    dsimp only at h
    split at h
    · cases h
    split at h
    · cases h
    next stagedTxs hstaged =>
      split at h
      · cases h
      · cases h
      next txdata hresolved =>
        cases h
        have hmap := (MempoolMirror.resolveTxdata_eq_ok hresolved).1
        -- both sources hold a transaction under its own wtxid
        have hwtxid : ∀ w tx, mirror.resolve stagedTxs w = some tx → rb.computeWtxid tx = w := by
          intro w tx htx
          rcases Option.or_eq_some_iff.mp htx with htx | ⟨-, htx⟩
          · exact (stageMissingTxs_mem hstaged htx).2.1
          · exact hkeyed w tx htx
        refine ⟨fun w tx htx => stageMissingTxs_mem hstaged htx,
          ⟨txdata, rfl, map_eq_of_map_some hwtxid hmap, rfl⟩, ?_, rfl⟩
        intro w tx htx
        have hw := (stageMissingTxs_mem hstaged htx).2.2
        have hin : some tx ∈ req.wtxidList.map (mirror.resolve stagedTxs) := by
          refine List.mem_map.mpr ⟨w, hw, ?_⟩
          simp only [MempoolMirror.resolve, htx, Option.some_or]
        rw [← hmap] at hin
        obtain ⟨tx', htx', heq⟩ := List.mem_map.mp hin
        cases heq
        exact List.mem_cons_of_mem _ htx'
  · cases h

/-- The mirror knows a chain tip. -/
def MempoolMirror.HasTip (m : MempoolMirror) : Prop :=
  m.currentPrevHash.isSome ∧ m.currentNbits.isSome ∧ m.currentNtime.isSome

theorem handleDeclareMiningJob_ne_none {mirror : MempoolMirror} (htip : mirror.HasTip)
    (req : JdRequest) : handleDeclareMiningJob rb codes mirror req ≠ none := by
  obtain ⟨prevHash, hprevHash⟩ := Option.isSome_iff_exists.mp htip.1
  obtain ⟨nbits, hnbits⟩ := Option.isSome_iff_exists.mp htip.2.1
  obtain ⟨ntime, hntime⟩ := Option.isSome_iff_exists.mp htip.2.2
  unfold handleDeclareMiningJob
  rw [hprevHash, hnbits, hntime]
  dsimp only
  split
  · exact Option.some_ne_none _
  split
  · exact Option.some_ne_none _
  split <;> exact Option.some_ne_none _

/-! ## The second half -/

/-- What a call answers and does to the mirror, when the outcome of `checkBlock` is there. -/
structure Concluded (rb : RustBitcoin) (codes : ErrorCodes) (req : JdRequest) (c : Checking)
    (outcome : CheckBlockOutcome) (mirror mirror' : MempoolMirror) (response : JdResponse) :
    Prop where
  unchanged : (∀ prevHash nbits txidList, response ≠ .success prevHash nbits txidList) →
    mirror' = mirror
  success : ∀ prevHash nbits txidList, response = .success prevHash nbits txidList →
    outcome = .accepted ∧
    mirror'.currentPrevHash = some c.block.header.prevBlockhash ∧
    prevHash = c.block.header.prevBlockhash ∧
    (∃ txdata, c.block.txdata = req.coinbaseTx :: txdata ∧
      txdata.map rb.computeWtxid = req.wtxidList ∧ txidList = txdata.map rb.computeTxid) ∧
    (∀ w tx, mirror.txdata.lookup w = some tx → mirror'.txdata.lookup w = some tx) ∧
    (∀ w tx, mirror'.txdata.lookup w = some tx → mirror.txdata.lookup w = some tx ∨
      tx ∈ req.missingTxs ∧ rb.computeWtxid tx = w ∧ w ∈ req.wtxidList ∧ tx ∈ c.block.txdata)
  stale : outcome = .accepted → mirror.currentPrevHash ≠ some c.block.header.prevBlockhash →
    (∃ context, response = .error codes.staleChainTip context) ∧ mirror' = mirror
  /-- Whatever the tip is by then. -/
  rejected : ∀ reason, outcome = .rejected reason →
    ∃ context, response = .error (classifyRejection codes reason) context
  failed : outcome = .failed →
    response = .error codes.internalError c.initialValidationContext

theorem concludeDeclareMiningJob_spec {mirror mirror' : MempoolMirror} {req : JdRequest}
    {c : Checking} (hc : Prepared rb req c) {outcome : CheckBlockOutcome} {response : JdResponse}
    (h : concludeDeclareMiningJob rb codes mirror req c outcome = some (response, mirror')) :
    Concluded rb codes req c outcome mirror mirror' response := by
  cases outcome with
  | failed =>
    cases h
    exact ⟨fun _ => rfl, nofun, nofun, nofun, fun _ => rfl⟩
  | rejected reason =>
    simp only [concludeDeclareMiningJob] at h
    split at h
    · cases h
      refine ⟨fun _ => rfl, nofun, nofun, ?_, nofun⟩
      rintro _ ⟨⟩
      exact ⟨_, rfl⟩
    · cases h
  | accepted =>
    simp only [concludeDeclareMiningJob] at h
    split at h
    next prevHash nbits htip _ =>
      split at h
      next hsame =>
        cases h
        have hprev : mirror.currentPrevHash = some c.block.header.prevBlockhash := by
          rw [htip, hsame, hc.tip]
        refine ⟨fun hno => absurd rfl (hno _ _ _), ?_, fun _ hne => absurd hprev hne, nofun, nofun⟩
        rintro _ _ _ ⟨⟩
        refine ⟨rfl, hprev, hc.tip.symm, hc.checked, ?_, ?_⟩
        · intro w tx hw
          exact MempoolMirror.addTransactions_keeps _ hw
        · intro w tx hw
          rcases MempoolMirror.addTransactions_new hw with hw | ⟨htx, hid⟩
          · exact Or.inl hw
          obtain ⟨w', -, hw'⟩ := mem_takeStaged htx
          obtain ⟨hsupplied, hid', hdeclared⟩ := hc.staged w' tx hw'
          rw [hid] at hid'
          subst hid'
          exact Or.inr ⟨hsupplied, hid, hdeclared, hc.included _ tx hw'⟩
      next hmoved =>
        cases h
        exact ⟨fun _ => rfl, nofun, fun _ _ => ⟨⟨_, rfl⟩, rfl⟩, nofun, nofun⟩
    · cases h

/-- Transactions are added to the mirror, or nothing is done to it. -/
theorem concludeDeclareMiningJob_mirror {mirror mirror' : MempoolMirror} {req : JdRequest}
    {c : Checking} {outcome : CheckBlockOutcome} {response : JdResponse}
    (h : concludeDeclareMiningJob rb codes mirror req c outcome = some (response, mirror')) :
    mirror' = mirror ∨ ∃ txs, mirror' = mirror.addTransactions rb txs := by
  cases outcome with
  | failed =>
    cases h
    exact Or.inl rfl
  | rejected reason =>
    simp only [concludeDeclareMiningJob] at h
    split at h
    · cases h
      exact Or.inl rfl
    · cases h
  | accepted =>
    simp only [concludeDeclareMiningJob] at h
    split at h
    · split at h
      · cases h
        exact Or.inr ⟨_, rfl⟩
      · cases h
        exact Or.inl rfl
    · cases h

theorem concludeDeclareMiningJob_ne_none (rb : RustBitcoin) (codes : ErrorCodes)
    {mirror : MempoolMirror} (htip : mirror.HasTip) (req : JdRequest) (c : Checking)
    (outcome : CheckBlockOutcome) :
    concludeDeclareMiningJob rb codes mirror req c outcome ≠ none := by
  obtain ⟨prevHash, hprevHash⟩ := Option.isSome_iff_exists.mp htip.1
  obtain ⟨nbits, hnbits⟩ := Option.isSome_iff_exists.mp htip.2.1
  cases outcome with
  | failed => exact Option.some_ne_none _
  | rejected reason => simp [concludeDeclareMiningJob, hprevHash, hnbits]
  | accepted =>
    simp only [concludeDeclareMiningJob, hprevHash, hnbits]
    split <;> exact Option.some_ne_none _

/-! ## Any interleaving -/

theorem handleDeclareMiningJob_no_success {mirror : MempoolMirror} {req : JdRequest}
    {response : JdResponse}
    (h : handleDeclareMiningJob rb codes mirror req = some (.inl response)) (prevHash : Hash256)
    (nbits : UInt32) (txidList : List Hash256) : response ≠ .success prevHash nbits txidList := by
  rintro rfl
  unfold handleDeclareMiningJob at h
  split at h
  · dsimp only at h
    split at h
    · cases h
    split at h
    · cases h
    split at h <;> cases h
  · cases h

namespace Connection

variable {s : Connection}

/-- How often a call has been answered. -/
def answers (s : Connection) (call : Nat) : Nat := (s.responses.map (·.1)).count call

structure Inv (rb : RustBitcoin) (s : Connection) : Prop where
  keyed : s.mirror.Keyed rb
  tip : s.mirror.HasTip
  prepared : ∀ call req c, s.checking.lookup call = some (req, c) → Prepared rb req c
  known : ∀ call, (s.checking.lookup call).isSome → call < s.nextCall
  answered : ∀ call, s.answers call =
    if call < s.nextCall ∧ s.checking.lookup call = none then 1 else 0
  running : s.panicked = false

theorem answers_respond (s : Connection) (call call' : Nat) (response : JdResponse) :
    (s.respond call response).answers call' =
      s.answers call' + if call' = call then 1 else 0 := by
  rw [answers, respond, List.map_cons, List.count_cons]
  simp only [beq_iff_eq, eq_comm (a := call)]
  rfl

theorem bootstrapped_inv (order : KeyMap.Iteration Wtxid Transaction) (block : Block) :
    Inv rb (bootstrapped rb order block) := by
  refine ⟨MempoolMirror.keyed_new.updated order block, ⟨rfl, rfl, rfl⟩, ?_, ?_, ?_, rfl⟩
  · intro call req c h
    simp [bootstrapped] at h
  · intro call h
    simp [bootstrapped] at h
  · intro call
    simp [bootstrapped, answers]

theorem declareMiningJob_inv (h : Inv rb s) (req : JdRequest) :
    Inv rb (s.step rb codes (.declareMiningJob req)) := by
  have hfree : s.checking.lookup s.nextCall = none := by
    rw [Option.eq_none_iff_forall_ne_some]
    intro entry hentry
    exact absurd (h.known s.nextCall (by rw [hentry]; rfl)) (Nat.lt_irrefl _)
  simp only [step]
  split
  next hnone => exact absurd hnone (handleDeclareMiningJob_ne_none h.tip req)
  next response _ =>
    refine ⟨h.keyed, h.tip, h.prepared, ?_, ?_, h.running⟩
    · intro call hcall
      exact Nat.lt_succ_of_lt (h.known call hcall)
    · intro call
      have hold := h.answered call
      rw [answers_respond]
      change s.answers call + _ = if call < s.nextCall + 1 ∧ s.checking.lookup call = none then 1 else 0
      rw [hold]
      by_cases hcall : call = s.nextCall
      · subst hcall
        simp [hfree]
      · have hlt : call < s.nextCall + 1 ↔ call < s.nextCall := by omega
        simp only [hcall, hlt, if_false, Nat.add_zero]
  next c hc =>
    have hlookup : ∀ call, (s.checking.insert s.nextCall (req, c)).lookup call =
        if call = s.nextCall then some (req, c) else s.checking.lookup call :=
      fun call => KeyMap.lookup_insert_eq _ _ _ _
    refine ⟨h.keyed, h.tip, ?_, ?_, ?_, h.running⟩
    · intro call req' c' hcall
      rw [hlookup] at hcall
      split at hcall
      · cases hcall
        exact handleDeclareMiningJob_prepared h.keyed hc
      · exact h.prepared call req' c' hcall
    · intro call hcall
      rw [hlookup] at hcall
      split at hcall
      next hid => exact hid ▸ Nat.lt_succ_self _
      · exact Nat.lt_succ_of_lt (h.known call hcall)
    · intro call
      have hold := h.answered call
      change s.answers call = if call < s.nextCall + 1 ∧
        (s.checking.insert s.nextCall (req, c)).lookup call = none then 1 else 0
      rw [hold, hlookup]
      by_cases hcall : call = s.nextCall
      · subst hcall
        simp
      · have hlt : call < s.nextCall + 1 ↔ call < s.nextCall := by omega
        simp only [hcall, hlt, if_false]

/-- The second half of a call: its answer, and what it does to the mirror. -/
theorem checkBlock_eq (h : Inv rb s) {call : Nat} {req : JdRequest} {c : Checking}
    (hcall : s.checking.lookup call = some (req, c)) (outcome : CheckBlockOutcome) :
    ∃ response mirror, s.step rb codes (.checkBlock call outcome) =
        { s with mirror := mirror, checking := s.checking.erase call }.respond call response ∧
      concludeDeclareMiningJob rb codes s.mirror req c outcome = some (response, mirror) := by
  obtain ⟨⟨response, mirror⟩, hresult⟩ := Option.ne_none_iff_exists'.mp
    (concludeDeclareMiningJob_ne_none rb codes h.tip req c outcome)
  refine ⟨response, mirror, ?_, hresult⟩
  simp only [step, hcall, hresult]

theorem checkBlock_inv (h : Inv rb s) (call : Nat) (outcome : CheckBlockOutcome) :
    Inv rb (s.step rb codes (.checkBlock call outcome)) := by
  cases hcall : s.checking.lookup call with
  | none =>
    simp only [step, hcall]
    exact h
  | some entry =>
    obtain ⟨req, c⟩ := entry
    obtain ⟨response, mirror, hstep, hresult⟩ := checkBlock_eq h hcall outcome
    rw [hstep]
    have hmirror := concludeDeclareMiningJob_mirror hresult
    have hlookup : ∀ call', (s.checking.erase call).lookup call' =
        if call' = call then none else s.checking.lookup call' :=
      fun call' => KeyMap.lookup_erase_eq _ _ _
    refine ⟨?_, ?_, ?_, ?_, ?_, h.running⟩
    · rcases hmirror with rfl | ⟨txs, rfl⟩
      · exact h.keyed
      · exact h.keyed.added txs
    · rcases hmirror with rfl | ⟨txs, rfl⟩
      · exact h.tip
      · exact h.tip
    · intro call' req' c' hcall'
      exact h.prepared call' req' c' (KeyMap.lookup_erase_some hcall')
    · intro call' hcall'
      refine h.known call' ?_
      change ((s.checking.erase call).lookup call').isSome at hcall'
      rw [hlookup] at hcall'
      split at hcall'
      · cases hcall'
      · exact hcall'
    · intro call'
      rw [answers_respond]
      change s.answers call' + _ = if call' < s.nextCall ∧
        (s.checking.erase call).lookup call' = none then 1 else 0
      rw [h.answered call', hlookup]
      by_cases hid : call' = call
      · subst hid
        have hlt := h.known call' (by rw [hcall]; rfl)
        simp [hcall, hlt]
      · simp only [hid, if_false, Nat.add_zero]

theorem step_inv (h : Inv rb s) (a : ConnectionStep) : Inv rb (s.step rb codes a) := by
  cases a with
  | update order block =>
    exact ⟨h.keyed.updated order block, ⟨rfl, rfl, rfl⟩, h.prepared, h.known, h.answered, h.running⟩
  | declareMiningJob req => exact declareMiningJob_inv h req
  | checkBlock call outcome => exact checkBlock_inv h call outcome

theorem after_inv (rb : RustBitcoin) (codes : ErrorCodes)
    (order : KeyMap.Iteration Wtxid Transaction) (block : Block) (as : List ConnectionStep) :
    Inv rb (after rb codes order block as) :=
  Runs.run_invariant (Inv rb) (fun _ a h => step_inv h a) (bootstrapped_inv order block) as

/-- Every call that has ended was answered once, and the next step of a call keeps to what it
    checked. -/
structure Isolated (rb : RustBitcoin) (codes : ErrorCodes) (s : Connection) : Prop where
  running : s.panicked = false
  answered : ∀ call < s.nextCall,
    s.answers call = if (s.checking.lookup call).isSome then 0 else 1
  declared : ∀ req, (s.step rb codes (.declareMiningJob req)).mirror = s.mirror ∧
    ∀ prevHash nbits txidList, handleDeclareMiningJob rb codes s.mirror req ≠
      some (.inl (.success prevHash nbits txidList))
  concluded : ∀ call req c outcome, s.checking.lookup call = some (req, c) →
    ∃ response mirror,
      s.step rb codes (.checkBlock call outcome) =
        { s with mirror := mirror, checking := s.checking.erase call }.respond call response ∧
      Concluded rb codes req c outcome s.mirror mirror response

theorem declaration_isolated (rb : RustBitcoin) (codes : ErrorCodes)
    (order : KeyMap.Iteration Wtxid Transaction) (block : Block) (as : List ConnectionStep) :
    Isolated rb codes (after rb codes order block as) := by
  have h := after_inv rb codes order block as
  generalize after rb codes order block as = s at h ⊢
  refine ⟨h.running, ?_, ?_, ?_⟩
  · intro call hcall
    rw [h.answered call]
    cases s.checking.lookup call <;> simp [hcall]
  · intro req
    refine ⟨?_, ?_⟩
    · simp only [step]
      split <;> rfl
    · intro prevHash nbits txidList hanswer
      exact handleDeclareMiningJob_no_success hanswer prevHash nbits txidList rfl
  · intro call req c outcome hcall
    obtain ⟨response, mirror, hstep, hresult⟩ := checkBlock_eq h hcall outcome
    exact ⟨response, mirror, hstep, concludeDeclareMiningJob_spec (h.prepared call req c hcall) hresult⟩

/-! ## A tip change during a rejected call -/

def sampleErrorCodes : ErrorCodes :=
  ⟨"internal-error", "invalid-coinbase-tx-input", "invalid-job", "stale-chain-tip"⟩

/-- A template at the tip with the given number. -/
def sampleTip (n : UInt8) : Block :=
  ⟨⟨2, ⟨List.replicate 32 n, List.length_replicate⟩, Hash256.allZeros, 0, 0, 0⟩,
    [MempoolMirror.sampleTransaction 0]⟩

/-- The tip moves while Bitcoin Core rejects the block for a reason of its own. -/
theorem rejected_across_tips :
    let s := after referenceBitcoin sampleErrorCodes .asStored (sampleTip 1)
      [.declareMiningJob ⟨2, MempoolMirror.sampleTransaction 0, [], []⟩,
        .update .asStored (sampleTip 2)]
    (s.checking.lookup 0).map (fun e => e.2.block.header.prevBlockhash) =
        some (sampleTip 1).header.prevBlockhash ∧
      s.mirror.currentPrevHash = some (sampleTip 2).header.prevBlockhash ∧
      (sampleTip 1).header.prevBlockhash ≠ (sampleTip 2).header.prevBlockhash ∧
      (s.step referenceBitcoin sampleErrorCodes
          (.checkBlock 0 (.rejected "bad-txns-vout-negative"))).responses =
        [(0, .error sampleErrorCodes.invalidJob ⟨(sampleTip 2).header.prevBlockhash, 0⟩)] ∧
      sampleErrorCodes.invalidJob ≠ sampleErrorCodes.staleChainTip := by
  decide +kernel

end Connection

end Sv2Apps.BitcoinCore
