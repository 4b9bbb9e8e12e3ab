/-
  Jds/MerklePath.lean
  ===================
  **The merkle path of a declared job** — `get_merkle_path` of `job_validation/bitcoin_core_ipc.rs`,
  with its loop over whole levels of the tree.

  Each round notes the second entry of a level and builds the level above by index, the index of a
  right neighbour being clamped to the last one.  Indexing may panic and a loop may run for ever, so
  a round limit is an argument, and there is no result where an index is out of range or the limit
  is reached.  Neither happens (`loop_eq`), and the loop computes the branch of `Lib/MerkleBranch`.
-/
import Sv2Apps.Jds.RejectedDeclarations

namespace Sv2Apps.Jds.MerklePath

open Bitcoin

section Loop

variable {H : Type} (node : H → H → H)

/-- `next_level`. -/
def nextLevel (hashes : List H) : Option (List H) :=
  let half := (hashes.length + 1) / 2
  (List.range half).mapM fun idx =>
    hashes[2 * idx]?.bind fun left =>
      hashes[min (2 * idx + 1) (hashes.length - 1)]?.map fun right => node left right

/-- `while hashes.len() > 1`, for a number of rounds. -/
def loop : Nat → List H → List H → Option (List H)
  | 0, hashes, branch => if 1 < hashes.length then none else some branch
  | rounds + 1, hashes, branch =>
    if 1 < hashes.length then
      hashes[1]?.bind fun sibling =>
        (nextLevel node hashes).bind fun next => loop rounds next (branch ++ [sibling])
    else some branch

/-- The levels by index are those of the tree. -/
theorem nextLevel_eq (hashes : List H) :
    nextLevel node hashes = some (MerkleBranch.nextLevel node hashes) := by
  have hlen := MerkleBranch.length_nextLevel node hashes
  have htake : ∀ n ≤ (hashes.length + 1) / 2, ((List.range n).mapM fun idx =>
      hashes[2 * idx]?.bind fun left =>
        hashes[min (2 * idx + 1) (hashes.length - 1)]?.map fun right => node left right) =
      some ((MerkleBranch.nextLevel node hashes).take n) := by
    intro n
    induction n with
    | zero => intro _; rfl
    | succ n ih =>
      intro hn
      have hlt : n < (MerkleBranch.nextLevel node hashes).length := by omega
      have hentry := MerkleBranch.getElem?_nextLevel node hashes n hlt
      rw [List.getElem?_eq_getElem hlt] at hentry
      rw [List.range_succ, List.mapM_append, ih (Nat.le_of_succ_le hn), List.mapM_cons,
        List.mapM_nil, ← hentry, List.take_succ_eq_append_getElem hlt]
      rfl
  have hall := htake _ (Nat.le_refl _)
  rwa [← hlen, List.take_length, hlen] at hall

/-- The loop ends in as many rounds as there are leaves above the first. -/
theorem loop_eq (rounds : Nat) (hashes branch : List H) (h : hashes.length ≤ rounds + 1) :
    loop node rounds hashes branch =
      some (branch ++ MerkleBranch.branchAux node rounds hashes) := by
  induction rounds generalizing hashes branch with
  | zero =>
    rcases hashes with _ | ⟨a, _ | ⟨b, rest⟩⟩
    · simp [loop, MerkleBranch.branchAux]
    · simp [loop, MerkleBranch.branchAux]
    · simp at h
  | succ rounds ih =>
    rcases hashes with _ | ⟨a, _ | ⟨b, rest⟩⟩
    · simp [loop, MerkleBranch.branchAux]
    · simp [loop, MerkleBranch.branchAux]
    · have hlen := MerkleBranch.length_nextLevel node (a :: b :: rest)
      simp only [List.length_cons] at hlen h
      unfold loop
      rw [if_pos (by simp), nextLevel_eq]
      have hup := ih (MerkleBranch.nextLevel node (a :: b :: rest)) (branch ++ [b]) (by omega)
      rw [List.append_assoc] at hup
      exact hup

end Loop

/-- `get_merkle_path`. -/
def getMerklePath (rb : RustBitcoin) (rounds : Nat) (job : DeclaredCustomJob) :
    Option (Except CoinbaseFault (List Hash256)) :=
  if !job.validated then some (.error .invalid)
  else match job.txidList with
    | none => some (.error .invalid)
    | some txidList =>
      match getCoinbaseTx rb job.declareMiningJob with
      | .error _ => some (.error .panic)
      | .ok coinbaseTx =>
        let hashes := rb.computeTxid coinbaseTx :: txidList
        if hashes.length = 1 then some (.ok [])
        else (loop rb.merkleNode rounds hashes []).map .ok

/-- The branch of the engine's model is what the loop computes. -/
theorem getMerklePath_eq (rb : RustBitcoin) (job : DeclaredCustomJob) {rounds : Nat}
    (h : ∀ txids, job.txidList = some txids → txids.length ≤ rounds) :
    getMerklePath rb rounds job = some (job.getMerklePath rb) := by
  unfold getMerklePath DeclaredCustomJob.getMerklePath
  by_cases hvalidated : job.validated
  · rw [hvalidated, Bool.not_true, if_neg Bool.false_ne_true, if_neg Bool.false_ne_true]
    cases htxids : job.txidList with
    | none => rfl
    | some txids =>
      cases getCoinbaseTx rb job.declareMiningJob with
      | error e => rfl
      | ok tx =>
        have hrounds := h txids htxids
        dsimp only
        split
        next hone =>
          have hnil : txids = [] := List.length_eq_zero_iff.mp (Nat.succ.inj hone)
          rw [hnil]
          rfl
        · have hlen : (rb.computeTxid tx :: txids).length ≤ rounds + 1 := Nat.succ_le_succ hrounds
          rw [loop_eq _ _ _ _ hlen, List.nil_append, MerkleBranch.branch,
            MerkleBranch.branchAux_fuel rb.merkleNode rounds _ _ hlen (Nat.le_succ _)]
          rfl
  · have hfalse : job.validated = false := by simpa using hvalidated
    rw [hfalse]
    rfl

/-! ## The jobs of the declarator -/

/-- The declaration that is on its way to the node. -/
def asked : JdsTask → Option Declaration
  | .ensuring w _ _ => some w
  | .waiting w _ _ => some w
  | _ => none

/-- Every stored job has a coinbase that parses and, if it is validated, its transaction ids. -/
structure Validatable (env : Env) (s : System) : Prop where
  txids : ∀ d r job, s.jobAt d r = some job → job.validated = true → job.txidList.isSome = true
  coinbase : ∀ d r job, s.jobAt d r = some job →
    ∃ tx, getCoinbaseTx env.rb job.declareMiningJob = .ok tx
  asked : ∀ w, asked s.jds = some w → ∃ tx, getCoinbaseTx env.rb w.dmj = .ok tx

theorem validatable_new (env : Env) : Validatable env System.new := by
  refine ⟨?_, ?_, ?_⟩
  · intro d r job h
    cases h
  · intro d r job h
    cases h
  · intro w h
    cases h

/-- A declaration is asked for when its checks have passed. -/
theorem asked_jdsStep {env : Env} {s : System} {response : Option JdResponse} {now : Instant}
    {w : Declaration} (h : asked (s.jdsStep env response now).jds = some w) :
    asked s.jds = some w ∨ ∃ token req, prepareDeclareMiningJob env.rb w.dmj w.provided =
      .ok (token, req) := by
  unfold System.jdsStep at h
  cases hjds : s.jds with
  | validating v =>
    simp only [hjds] at h
    split at h
    · cases h
    next token req hprepare =>
      cases h
      exact Or.inr ⟨token, req, hprepare⟩
  | ensuring v t previous =>
    simp only [hjds] at h
    cases h
    exact Or.inl rfl
  | concluding v result =>
    simp only [hjds, System.conclude] at h
    split at h
    · split at h <;> cases h
    · cases h
    · split at h
      · cases h
      · split at h
        · cases h
        · split at h <;> cases h
    · cases h
  | answering c a =>
    simp only [hjds] at h
    split at h <;> cases h
  | checking c dmj =>
    simp only [hjds] at h
    split at h
    · cases h
    · split at h <;> cases h
  | retrying c msg =>
    simp only [hjds] at h
    split at h
    · cases h
    · split at h
      · cases h
      · split at h <;> cases h
  | _ =>
    simp only [hjds] at h
    cases h

theorem asked_step {env : Env} {s : System} {a : Action} {w : Declaration}
    (h : asked (s.step env a).jds = some w) :
    asked s.jds = some w ∨ ∃ token req, prepareDeclareMiningJob env.rb w.dmj w.provided =
      .ok (token, req) := by
  cases a with
  | jds response now => exact asked_jdsStep h
  | receive client msg now =>
    left
    simp only [System.step, System.receive] at h
    split at h
    · split at h
      · cases h
      · split at h
        · exact h
        · cases h
      · split at h
        · exact h
        · cases h
    · exact h
  | present msg u =>
    left
    obtain ⟨responses, pool, heq⟩ := s.present_frame msg u
    rw [System.step, heq] at h
    exact h
  | pool =>
    left
    obtain ⟨tm, states, responses, accepted, pool, heq⟩ := s.poolStep_frame env
    rw [System.step, heq] at h
    exact h
  | _ => exact Or.inl h

theorem validatable_step {env : Env} {s : System} (h : Validatable env s) (a : Action) :
    Validatable env (s.step env a) := by
  constructor
  · intro d r job hjob
    rcases jobAt_step hjob with hold | ⟨w, t, previous, -, -, -, -, -, hfor⟩
    · exact h.txids d r job hold
    · exact hfor.txidList
  · intro d r job hjob
    rcases jobAt_step hjob with hold | ⟨w, t, previous, -, hjds, -, -, -, hfor⟩
    · exact h.coinbase d r job hold
    · rw [hfor.declareMiningJob]
      apply h.asked w
      rw [hjds]
      rfl
  · intro w hw
    rcases asked_step hw with hold | ⟨token, req, hprepare⟩
    · exact h.asked w hold
    · exact ⟨req.coinbaseTx, (prepareDeclareMiningJob_eq_ok hprepare).2.1⟩

theorem validatable_after (env : Env) (as : List Action) : Validatable env (System.after env as) :=
  Runs.run_invariant (Validatable env) (fun _ a h => validatable_step h a) (validatable_new env) as

/-! ## The result -/

/-- **The merkle path of every validated job.**  Whatever the node answered, `get_merkle_path`
    returns; what it returns leads from any coinbase id to the root of the tree over that id and the
    transactions, has one entry for each level above the leaves, and is the same for every job with
    the same transactions, whatever its coinbase. -/
theorem merkle_path_of_validated (env : Env) (as : List Action) (d : DownstreamId) (r : RequestId)
    (job : DeclaredCustomJob) (hjob : (System.after env as).jobAt d r = some job)
    (hvalidated : job.validated = true) :
    ∃ txids path, job.txidList = some txids ∧
      (∀ rounds, txids.length ≤ rounds →
        getMerklePath env.rb rounds job = some (.ok path)) ∧
      (∀ c, MerkleBranch.root env.rb.merkleNode (c :: txids) =
        some (path.foldl env.rb.merkleNode c)) ∧
      path.length = Nat.clog 2 (txids.length + 1) ∧
      (∀ job' : DeclaredCustomJob, job'.validated = true → job'.txidList = some txids →
        (∃ tx, getCoinbaseTx env.rb job'.declareMiningJob = .ok tx) →
        ∀ rounds, txids.length ≤ rounds →
          getMerklePath env.rb rounds job' = some (.ok path)) := by
  have hinv := validatable_after env as
  obtain ⟨txids, htxids⟩ := Option.isSome_iff_exists.mp (hinv.txids d r job hjob hvalidated)
  have hcoinbase := hinv.coinbase d r job hjob
  -- one path serves every coinbase
  have hall : ∀ c, ∀ job' : DeclaredCustomJob, job'.validated = true →
      job'.txidList = some txids → (∃ tx, getCoinbaseTx env.rb job'.declareMiningJob = .ok tx) →
      ∀ rounds, txids.length ≤ rounds → getMerklePath env.rb rounds job' =
        some (.ok (MerkleBranch.branch env.rb.merkleNode (c :: txids))) := by
    rintro c job' hval htx ⟨tx, hparse⟩ rounds hrounds
    rw [getMerklePath_eq env.rb job' (by intro l hl; rw [htx] at hl; cases hl; exact hrounds)]
    unfold DeclaredCustomJob.getMerklePath
    rw [hval, Bool.not_true, if_neg Bool.false_ne_true, htx, hparse]
    dsimp only
    rw [MerkleBranch.branch_congr env.rb.merkleNode (env.rb.computeTxid tx) c txids]
  refine ⟨txids, MerkleBranch.branch env.rb.merkleNode (Hash256.allZeros :: txids), htxids,
    hall _ job hvalidated htxids hcoinbase, ?_, ?_, hall _⟩
  · intro c
    rw [MerkleBranch.branch_congr env.rb.merkleNode Hash256.allZeros c txids]
    exact MerkleBranch.foldl_branch env.rb.merkleNode c txids
  · rw [MerkleBranch.length_branch, List.length_cons]

/-- The sample declaration, with two transactions, is approved. -/
def approvedTwo : List Action :=
  [.connect, .receive 0 (.allocateMiningJobToken ⟨"farm_01", 0⟩) 0, .jds none 0,
   .receive 0 (.declareMiningJob sampleDeclaration) 1, .jds none 1, .jds none 1, .jds none 1,
   .jds (some (.success Hash256.allZeros 0x207fffff [Hash256.allZeros, Hash256.allZeros])) 2]

def approvedTwoJob : DeclaredCustomJob :=
  ⟨sampleDeclaration, ⟨Hash256.allZeros, 0x207fffff⟩,
    some [Hash256.allZeros, Hash256.allZeros], true⟩

theorem merkle_path_of_validated_two :
    ∃ path, (∀ rounds, 2 ≤ rounds →
        getMerklePath sampleEnv.rb rounds approvedTwoJob = some (.ok path)) ∧ path.length = 2 := by
  obtain ⟨txids, path, htxids, hpath, -, hlen, -⟩ :=
    merkle_path_of_validated sampleEnv approvedTwo 0 1 approvedTwoJob (by decide +kernel) rfl
  cases htxids
  exact ⟨path, hpath, hlen.trans (by decide)⟩

end Sv2Apps.Jds.MerklePath
