/-
  Jds/TokenBinding.lean
  =====================
  **A token and the job declared with it** — the two maps of `DownstreamState`, over whole
  runs.

  A job is kept under the request id that the client chose, and the entry of its token
  names that id.  The two maps are written in pairs, so they stay in step as long as a
  write finds under the id a job of the same token, and under the token an entry of the
  same id (`belongs`).  `binding` is that condition on a step of the message loop, with the
  conditions under which an answered declaration is not left behind; `tokensBound` is the
  result over the runs whose steps all meet it, and `takes_other_job` a run that does not:
  a request id used for a second token makes the first token lead to the second job.
-/
import Sv2Apps.Jds.RejectedDeclarations

namespace Sv2Apps.Jds

open Bitcoin

/-! ## The condition on a step -/

namespace System

/-- What the engine keeps under the request id and under the token belongs to both. -/
def belongs (s : System) (w : Declaration) : Bool :=
  (s.jobAt w.client w.dmj.requestId).all (fun job => job.token == some w.token) &&
  (s.entryAt w.client w.token).all (fun e => e.requestId == w.dmj.requestId)

/-- The declaration waits at `d` for its missing transactions. -/
def awaits (s : System) (d : DownstreamId) (dmj : DeclareMiningJob) : Bool :=
  (s.pendingAt d dmj.requestId).any fun e => e.2 == dmj

/-- The engine keeps the declaration at `d` as one not validated yet. -/
def keepsUnvalidated (s : System) (d : DownstreamId) (dmj : DeclareMiningJob) : Bool :=
  (s.jobAt d dmj.requestId).any fun job => !job.validated && job.declareMiningJob == dmj

def worksOn (s : System) (d : DownstreamId) (dmj : DeclareMiningJob) : Bool :=
  s.jds.declaration.any fun w => w.client == d && w.dmj == dmj

/-- The condition on a step.  A write of the engine finds nothing of another token or
    request; a declaration that is answered with an error, or given up by the janitor, does
    not leave its job behind. -/
def binding (s : System) : Action → Bool
  | .jds response _ =>
    match s.jds with
    | .waiting w _ _ => response.isNone || s.belongs w
    | .concluding w .success =>
      s.tokenManager.isAllocated w.token w.client ||
        (s.jobAt w.client w.dmj.requestId).isNone
    | .concluding w (.missingTransactions _) =>
      w.provided.isNone || !s.keepsUnvalidated w.client w.dmj || s.awaits w.client w.dmj
    | .concluding w _ =>
      !s.keepsUnvalidated w.client w.dmj || s.awaits w.client w.dmj
    | _ => true
  | .janitorPending d shard now =>
    (s.downstreamClients.lookup d).all fun ds =>
      ds.pendingDeclareMiningJobs.entries.all fun e =>
        (!shard e.1 || decide (now - e.2.1 ≤ durationFromSecs allocatedTokenTimeoutSecs)) ||
          !s.keepsUnvalidated d e.2.2 || s.worksOn d e.2.2
  | _ => true

theorem belongs_iff {s : System} {w : Declaration} :
    s.belongs w = true ↔ Matched s w.client w.dmj.requestId w.token := by
  unfold belongs
  constructor
  · intro h
    obtain ⟨hjob, hentry⟩ := Bool.and_eq_true_iff.mp h
    constructor
    · intro job hj
      simpa [hj] using hjob
    · intro e he
      simpa [he] using hentry
  · intro h
    apply Bool.and_eq_true_iff.mpr
    constructor
    · cases hj : s.jobAt w.client w.dmj.requestId with
      | none => rfl
      | some job => simpa using h.job job hj
    · cases he : s.entryAt w.client w.token with
      | none => rfl
      | some e => simpa using h.entry e he

theorem awaits_iff {s : System} {d : DownstreamId} {dmj : DeclareMiningJob} :
    s.awaits d dmj = true ↔ ∃ at', s.pendingAt d dmj.requestId = some (at', dmj) := by
  simp [awaits, Option.any_eq_true]

end System

/-! ## What is promised of a token's job -/

/-- The step `a` after `bs` answers the declaration `dmj` of the token `t` with success. -/
def AnswersSuccess (env : Env) (bs : List Action) (a : Action) (d : DownstreamId)
    (t : JdToken) (dmj : DeclareMiningJob) : Prop :=
  ∃ w u, (System.after env bs).jds.declaration = some w ∧
    w.client = d ∧ w.token = t ∧ w.dmj = dmj ∧
    ((System.after env bs).step env a).sent =
      (d, .declareMiningJobSuccess w.requestId u) :: (System.after env bs).sent

/-- `dmj` is the last declaration of `t` at `d` that has been answered with success. -/
def LastAnswered (env : Env) (as : List Action) (d : DownstreamId) (t : JdToken)
    (dmj : DeclareMiningJob) : Prop :=
  ∃ bs a cs, as = bs ++ a :: cs ∧ AnswersSuccess env bs a d t dmj ∧
    ∀ cs₁ b cs₂ dmj', cs = cs₁ ++ b :: cs₂ →
      ¬ AnswersSuccess env (bs ++ a :: cs₁) b d t dmj'

/-- The job found under `t` at `d` is validated and the last one answered with success, or
    its missing transactions are awaited, or the message loop has not answered it yet. -/
inductive Standing (env : Env) (as : List Action) (d : DownstreamId) (t : JdToken)
    (job : DeclaredCustomJob) : Prop where
  | answered (hvalidated : job.validated = true)
      (hlast : LastAnswered env as d t job.declareMiningJob)
  | awaiting (hvalidated : job.validated = false)
      (hpending : (System.after env as).awaits d job.declareMiningJob = true)
  | inHand (w : Declaration) (hjds : (System.after env as).jds.declaration = some w)
      (hclient : w.client = d) (hdmj : w.dmj = job.declareMiningJob)
      (hresult : job.validated = true → (System.after env as).jds = .concluding w .success ∨
        ∃ data, (System.after env as).jds = .activating w data)

/-- What is promised of the state that a run leads to. -/
structure TokensBound (env : Env) (as : List Action) : Prop where
  /-- The token entries and the jobs are in bijection through the request id. -/
  paired : ∀ d st, (System.after env as).downstreamStates.lookup d = some st → st.Paired
  /-- The job under a token of a connected client is one that the client may rely on. -/
  standing : ∀ d, (∀ a ∈ as, a.disconnects d = false) → ∀ t job,
    storedJob (System.after env as).downstreamStates d t = some job →
    Standing env as d t job
  /-- No token leads to a job that was declared with another one. -/
  taken : ∀ d st t job, (System.after env as).downstreamStates.lookup d = some st →
    (st.takeDeclaredCustomJob t).1 = some job → job.token = some t

/-! ## What a step can do -/

/-- The answer of the node leaves the map as it is, drops the job, or stores one. -/
theorem applyJdResponse_cases (states : DownstreamStates) (d : DownstreamId)
    (dmj : DeclareMiningJob) (isRetry : Bool) (t : JdToken)
    (previous : Option ValidationContext) (response : Option JdResponse) (now : Instant) :
    let r := applyJdResponse states d dmj isRetry t previous response now
    ((∃ code, r.1 = .error code) ∧
      (r.2 = states ∨
        response.isSome = true ∧ r.2 = dropDeclaredJob states d dmj.requestId t)) ∨
    ∃ st job, response.isSome = true ∧ states.lookup d = some st ∧
      job.declareMiningJob = dmj ∧
      r.2 = states.insert d (st.insertDeclaredCustomJob dmj.requestId t job now) ∧
      (r.1 = .success ∧ job.validated = true ∨
        (∃ missing, r.1 = .missingTransactions missing) ∧ job.validated = false) := by
  unfold applyJdResponse
  rcases response with _ | ⟨prevHash, nbits, txids⟩ | ⟨code, ctx⟩ | ⟨missing, ctx⟩
  · exact .inl ⟨⟨_, rfl⟩, .inl rfl⟩
  · dsimp only
    split
    next => exact .inl ⟨⟨_, rfl⟩, .inl rfl⟩
    next states' hs =>
      obtain ⟨st, hst, rfl⟩ := storeDeclaredJob_eq_some hs
      exact .inr ⟨st, _, rfl, hst, rfl, rfl, .inl ⟨rfl, rfl⟩⟩
  · exact .inl ⟨⟨_, rfl⟩, .inr ⟨rfl, rfl⟩⟩
  · dsimp only
    split
    · exact .inl ⟨⟨_, rfl⟩, .inr ⟨rfl, rfl⟩⟩
    · split
      next => exact .inl ⟨⟨_, rfl⟩, .inl rfl⟩
      next states' hs =>
        obtain ⟨st, hst, rfl⟩ := storeDeclaredJob_eq_some hs
        exact .inr ⟨st, _, rfl, hst, rfl, rfl, .inr ⟨⟨missing, rfl⟩, rfl⟩⟩

/-- How a step changes the engine's state. -/
theorem downstreamStates_step (env : Env) (s : System) (a : Action) :
    let states := (s.step env a).downstreamStates
    states = s.downstreamStates ∨
    (∃ c, states = KeyMap.ensure c DownstreamState.default s.downstreamStates) ∨
    (∃ w t previous response now, a = .jds response now ∧ s.jds = .waiting w t previous ∧
      states = (applyJdResponse s.downstreamStates w.client w.dmj w.provided.isSome t previous
        response now).2) ∨
    (∃ d msg t, states = (handleSetCustomMiningJob env.rb s.downstreamStates d msg t).2) ∨
    (∃ d, states = s.downstreamStates.erase d) ∨
    ∃ d now, states =
      KeyMap.modify d (fun st => st.pruneExpiredAllocations now) s.downstreamStates := by
  cases a with
  | jds response now =>
    simp only [System.step, System.jdsStep]
    cases hjds : s.jds with
    | ensuring w t previous => exact .inr (.inl ⟨w.client, rfl⟩)
    | waiting w t previous =>
      exact .inr (.inr (.inl ⟨w, t, previous, response, now, rfl, rfl, rfl⟩))
    | concluding w result =>
      left
      simp only [System.conclude, System.answerError, System.answer]
      split
      · split <;> rfl
      · rfl
      · split
        · rfl
        · split
          · rfl
          · split <;> rfl
      · rfl
    | answering c x => left; dsimp only; split <;> rfl
    | checking c dmj =>
      left
      dsimp only
      split
      · rfl
      · split <;> rfl
    | retrying c msg =>
      left
      dsimp only
      split
      · rfl
      · split
        · rfl
        · split <;> rfl
    | validating w => left; dsimp only; split <;> rfl
    | _ => exact .inl rfl
  | receive client msg now =>
    left
    obtain ⟨tm, history, jds, heq⟩ := s.receive_frame env client msg now
    rw [System.step, heq]
  | present msg u => exact .inl (present_maps s msg u).2.1
  | pool =>
    simp only [System.step, System.poolStep, System.respond]
    split
    · exact .inl rfl
    · exact .inl rfl
    · exact .inl rfl
    next p _ =>
      refine .inr (.inr (.inr (.inl ⟨p.data.owner, p.msg, p.data.allocatedToken, ?_⟩)))
      split <;> rfl
  | cleanupState d => exact .inr (.inr (.inr (.inr (.inl ⟨d, rfl⟩))))
  | janitorDeclared d now => exact .inr (.inr (.inr (.inr (.inr ⟨d, now, rfl⟩))))
  | _ => exact .inl rfl

/-! ### Waiting declarations -/

/-- What becomes of a waiting declaration while its client stays connected: it goes on
    waiting, is taken up again, gives way to a declaration under the same request id, or is
    given up by the janitor. -/
theorem pendingAt_step (env : Env) {s : System} (hd : DeclarationInv s) (hr : Roster s)
    {a : Action} {d : DownstreamId} {r : RequestId} {at' : Instant} {dmj : DeclareMiningJob}
    (hconn : a.disconnects d = false) (hp : s.pendingAt d r = some (at', dmj)) :
    (s.step env a).pendingAt d r = some (at', dmj) ∨
    (∃ w, s.jds.declaration = none ∧ (s.step env a).jds.declaration = some w ∧
      w.client = d ∧ w.dmj = dmj) ∨
    (∃ w missing, s.jds = .concluding w (.missingTransactions missing) ∧ w.provided = none ∧
      (∃ response now, a = .jds response now) ∧ w.client = d ∧ w.dmj.requestId = r) ∨
    ∃ shard now, a = .janitorPending d shard now ∧
      (!shard r || decide (now - at' ≤ durationFromSecs allocatedTokenTimeoutSecs)) = false := by
  obtain ⟨ds, hds, hlook⟩ := Option.bind_eq_some_iff.mp hp
  have hsame : ∀ s' : System, s'.downstreamClients = s.downstreamClients →
      s'.pendingAt d r = some (at', dmj) :=
    fun s' h => (System.pendingAt_congr h d r).trans hp
  cases a with
  | jds response now =>
    simp only [System.step, System.jdsStep]
    cases hjds : s.jds with
    | retrying c msg =>
      dsimp only
      cases hc : s.downstreamClients.lookup c with
      | none => exact .inl (hsame _ rfl)
      | some ds' =>
        dsimp only
        cases hm : ds'.pendingDeclareMiningJobs.lookup msg.requestId with
        | none => exact .inl (hsame _ rfl)
        | some e =>
          obtain ⟨t, ht, -⟩ := hd.pending c e.2 ⟨ds', msg.requestId, e.1, hc, hm⟩
          dsimp only
          rw [ht]
          by_cases heq : d = c ∧ r = msg.requestId
          · obtain ⟨rfl, rfl⟩ := heq
            cases hds.symm.trans hc
            cases hlook.symm.trans hm
            exact .inr (.inl ⟨_, rfl, rfl, rfl, rfl⟩)
          · left
            rw [System.pendingAt_insert rfl]
            split
            next hdc =>
              subst hdc
              cases hds.symm.trans hc
              rw [AList.lookup_erase_ne fun hr => heq ⟨rfl, hr⟩]
              exact hlook
            next => exact hp
    | concluding w result =>
      simp only [System.conclude, System.answerError, System.answer]
      cases result with
      | success => left; dsimp only; split <;> exact hsame _ rfl
      | error code => exact .inl (hsame _ rfl)
      | panic => exact .inl (hsame _ rfl)
      | missingTransactions missing =>
        dsimp only
        cases hprov : w.provided with
        | some msg => exact .inl (hsame _ rfl)
        | none =>
          dsimp only
          by_cases heq : w.client = d ∧ w.dmj.requestId = r
          · exact .inr (.inr (.inl ⟨w, missing, rfl, hprov, ⟨response, now, rfl⟩, heq⟩))
          · left
            cases hc : s.downstreamClients.lookup w.client with
            | none => exact hsame _ rfl
            | some ds' =>
              have hkept : ∀ s' : System, s'.downstreamClients =
                  s.downstreamClients.insert w.client
                    ⟨ds'.pendingDeclareMiningJobs.insert w.dmj.requestId (now, w.dmj)⟩ →
                  s'.pendingAt d r = some (at', dmj) := by
                intro s' hcl
                rw [System.pendingAt_insert hcl]
                split
                next hdc =>
                  subst hdc
                  cases hds.symm.trans hc
                  rw [AList.lookup_insert_ne fun hr => heq ⟨rfl, hr.symm⟩]
                  exact hlook
                next => exact hp
              dsimp only
              split <;> exact hkept _ rfl
    | answering c x => left; dsimp only; split <;> exact hsame _ rfl
    | checking c dmj =>
      left
      dsimp only
      split
      · exact hsame _ rfl
      · split <;> exact hsame _ rfl
    | validating w => left; dsimp only; split <;> exact hsame _ rfl
    | _ => exact .inl (hsame _ rfl)
  | receive client msg now =>
    left
    apply hsame
    obtain ⟨tm, history, jds, heq⟩ := s.receive_frame env client msg now
    rw [System.step, heq]
  | present msg u =>
    left
    apply hsame
    obtain ⟨responses, pool, heq⟩ := s.present_frame msg u
    rw [System.step, heq]
  | pool =>
    left
    apply hsame
    obtain ⟨tm, states, responses, accepted, pool, heq⟩ := s.poolStep_frame env
    rw [System.step, heq]
  | connect =>
    left
    rw [System.pendingAt_insert rfl, if_neg]
    · exact hp
    · -- a new client has a new number
      intro heq
      exact Nat.lt_irrefl _ (heq ▸ hr.clients d ds hds)
  | cleanupClient e =>
    left
    have hne : d ≠ e := by
      rintro rfl
      simp [Action.disconnects] at hconn
    simp only [System.pendingAt, System.step]
    rw [AList.lookup_erase_ne hne]
    exact hp
  | janitorPending e shard now =>
    by_cases heq : d = e
    · subst heq
      cases hkeep : !shard r || decide (now - at' ≤ durationFromSecs allocatedTokenTimeoutSecs)
      · exact .inr (.inr (.inr ⟨shard, now, rfl, hkeep⟩))
      · left
        simp only [System.pendingAt, System.step, KeyMap.lookup_modify, hds, Option.map_some,
          if_true, Option.bind_some, KeyMap.lookup_retain, hlook]
        exact Option.filter_eq_some_iff.mpr ⟨rfl, hkeep⟩
    · left
      simp only [System.pendingAt, System.step]
      rw [KeyMap.lookup_modify_ne heq]
      exact hp
  | _ => exact .inl hp

/-! ## The maps stay in step -/

/-- A job that the loop's declaration has just stored, or none. -/
def Fresh (s : System) (w : Declaration) (validated : Bool) : Prop :=
  ∀ r job, s.jobAt w.client r = some job → r = w.dmj.requestId ∨ job.token = some w.token →
    job.declareMiningJob = w.dmj ∧ job.validated = validated

def JustStored (s : System) : JdsTask → Prop
  | .concluding w .success => Fresh s w true
  | .concluding w (.missingTransactions _) => Fresh s w false
  | .activating w _ => Fresh s w true
  | _ => True

/-- The token of a declaration parses to the one that the engine is given. -/
def EngineToken : JdsTask → Prop
  | .ensuring w t _ => t = w.token
  | .waiting w t _ => t = w.token
  | _ => True

structure Bound (s : System) : Prop where
  paired : ∀ d st, s.downstreamStates.lookup d = some st → st.Paired
  keyed : ∀ d r job, s.jobAt d r = some job → job.declareMiningJob.requestId = r
  engineToken : EngineToken s.jds
  stored : JustStored s s.jds

theorem bound_new : Bound System.new := by
  refine ⟨?_, ?_, trivial, trivial⟩
  · intro d st h
    cases h
  · intro d r job h
    cases h

theorem paired_step (env : Env) {s : System} (h : Bound s) (hd : DeclarationInv s)
    {a : Action} (hok : s.binding a = true) :
    ∀ d st, (s.step env a).downstreamStates.lookup d = some st → st.Paired := by
  intro d st hst
  rcases downstreamStates_step env s a with hsame | ⟨c, hens⟩ |
    ⟨w, t, previous, response, now, rfl, hjds, hresp⟩ | ⟨c, msg, t, htake⟩ | ⟨c, herase⟩ |
    ⟨c, now, hprune⟩
  · rw [hsame] at hst
    exact h.paired d st hst
  · rw [hens, KeyMap.lookup_ensure] at hst
    split at hst
    · cases hold : s.downstreamStates.lookup c with
      | none =>
        rw [hold] at hst
        cases hst
        exact DownstreamState.paired_default
      | some st₀ =>
        rw [hold] at hst
        cases hst
        exact h.paired c _ hold
    · exact h.paired d st hst
  · -- the only write: what it finds belongs to the declaration
    have ht : t = w.token := by
      have := h.engineToken
      rw [hjds] at this
      exact this
    subst ht
    simp only [System.binding, hjds, Bool.or_eq_true, Option.isNone_iff_eq_none] at hok
    have hmatched : response.isSome = true →
        Matched s w.client w.dmj.requestId w.token := by
      intro hsome
      apply System.belongs_iff.mp
      rcases hok with hnone | hb
      · rw [hnone] at hsome
        cases hsome
      · exact hb
    rw [hresp] at hst
    rcases applyJdResponse_cases s.downstreamStates w.client w.dmj w.provided.isSome w.token
      previous response now with ⟨-, heq | ⟨hsome, heq⟩⟩ | ⟨st₀, job, hsome, hst₀, hdmj, heq, -⟩
    · rw [heq] at hst
      exact h.paired d st hst
    · have hm := hmatched hsome
      rw [heq, dropDeclaredJob, KeyMap.lookup_modify] at hst
      split at hst
      next hdc =>
        subst hdc
        obtain ⟨st₀, hst₀, rfl⟩ := Option.map_eq_some_iff.mp hst
        apply (h.paired _ st₀ hst₀).remove
        · intro old hold
          exact hm.job old (Option.bind_eq_some_iff.mpr ⟨st₀, hst₀, hold⟩)
        · intro e he
          exact hm.entry e (Option.bind_eq_some_iff.mpr ⟨st₀, hst₀, he⟩)
      next => exact h.paired d st hst
    · have hm := hmatched hsome
      rw [heq, KeyMap.lookup_insert_eq] at hst
      split at hst
      next hdc =>
        subst hdc
        cases hst
        apply (h.paired _ st₀ hst₀).insert
        · rw [DeclaredCustomJob.token, hdmj]
          exact (hd.working w (by rw [hjds]; rfl)).1
        · intro old hold
          exact hm.job old (Option.bind_eq_some_iff.mpr ⟨st₀, hst₀, hold⟩)
        · intro e he
          exact hm.entry e (Option.bind_eq_some_iff.mpr ⟨st₀, hst₀, he⟩)
      next => exact h.paired d st hst
  · rw [htake, handleSetCustomMiningJob_states] at hst
    cases hold : s.downstreamStates.lookup c with
    | none =>
      rw [hold] at hst
      exact h.paired d st hst
    | some st₀ =>
      rw [hold] at hst
      dsimp only at hst
      rw [KeyMap.lookup_insert_eq] at hst
      split at hst
      next =>
        cases hst
        exact (h.paired c st₀ hold).take t
      next => exact h.paired d st hst
  · rw [herase] at hst
    exact h.paired d st (KeyMap.lookup_erase_some hst)
  · rw [hprune, KeyMap.lookup_modify] at hst
    split at hst
    next =>
      obtain ⟨st₀, hst₀, rfl⟩ := Option.map_eq_some_iff.mp hst
      exact (h.paired _ st₀ hst₀).prune now
    next => exact h.paired d st hst

/-- Only the loop itself, and the next message, move the loop. -/
theorem jds_step (env : Env) (s : System) (a : Action) :
    (s.step env a).jds = s.jds ∨
    (s.jds.declaration = none ∧ (s.step env a).jds.declaration = none) ∨
    ∃ response now, a = .jds response now := by
  cases a with
  | jds response now => exact .inr (.inr ⟨response, now, rfl⟩)
  | receive client msg now =>
    cases hjds : s.jds with
    | idle =>
      right
      left
      refine ⟨rfl, ?_⟩
      simp only [System.step, System.receive, hjds]
      split
      · rfl
      · split
        · simp [hjds, JdsTask.declaration]
        · rfl
      · split
        · simp [hjds, JdsTask.declaration]
        · rfl
    | _ =>
      left
      simp only [System.step, System.receive, hjds]
  | present msg u =>
    left
    obtain ⟨responses, pool, heq⟩ := s.present_frame msg u
    rw [System.step, heq]
  | pool =>
    left
    obtain ⟨tm, states, responses, accepted, pool, heq⟩ := s.poolStep_frame env
    rw [System.step, heq]
  | _ => exact .inl rfl

theorem engineToken_of_declaration {task : JdsTask} (h : task.declaration = none) :
    EngineToken task := by
  cases task with
  | ensuring w t previous => cases h
  | waiting w t previous => cases h
  | _ => trivial

theorem justStored_of_declaration {s : System} {task : JdsTask} (h : task.declaration = none) :
    JustStored s task := by
  cases task with
  | concluding w result => cases h
  | activating w data => cases h
  | _ => trivial

theorem engineToken_jdsStep {env : Env} {s : System} (hd : DeclarationInv s)
    (h : EngineToken s.jds) (response : Option JdResponse) (now : Instant) :
    EngineToken (s.jdsStep env response now).jds := by
  unfold System.jdsStep
  cases hjds : s.jds with
  | validating w =>
    dsimp only
    split
    · trivial
    next t req hprep =>
      -- the token in the message is the one that was looked up
      obtain ⟨ht, -⟩ := prepareDeclareMiningJob_eq_ok hprep
      have hw := (hd.working w (by rw [hjds]; rfl)).1
      exact Option.some.inj (ht.symm.trans hw)
  | ensuring w t previous =>
    rw [hjds] at h
    exact h
  | waiting w t previous => trivial
  | concluding w result =>
    simp only [System.conclude, System.answerError, System.answer]
    split
    · split <;> trivial
    · trivial
    · split
      · trivial
      · split
        · trivial
        · split <;> trivial
    · trivial
  | retrying c msg =>
    dsimp only
    split
    · trivial
    · split
      · trivial
      · split <;> trivial
  | checking c dmj =>
    dsimp only
    split
    · trivial
    · split <;> trivial
  | answering c x => dsimp only; split <;> trivial
  | _ => simp only [hjds]; trivial

theorem Fresh.mono {s s' : System} {w : Declaration} {validated : Bool}
    (hjob : ∀ d r job, s'.jobAt d r = some job → s.jobAt d r = some job)
    (h : Fresh s w validated) : Fresh s' w validated :=
  fun r job hj => h r job (hjob w.client r job hj)

theorem JustStored.mono {s s' : System} {task : JdsTask}
    (hjob : ∀ d r job, s'.jobAt d r = some job → s.jobAt d r = some job)
    (h : JustStored s task) : JustStored s' task := by
  cases task with
  | concluding w result =>
    cases result with
    | success => exact Fresh.mono hjob h
    | missingTransactions missing => exact Fresh.mono hjob h
    | _ => trivial
  | activating w data => exact Fresh.mono hjob h
  | _ => trivial

/-- What has been stored for `w` is all that the engine keeps of its request and token. -/
theorem fresh_of_stored {s : System} {w : Declaration} {st : DownstreamState}
    {job : DeclaredCustomJob} {now : Instant} (hdmj : job.declareMiningJob = w.dmj)
    (hst : s.downstreamStates.lookup w.client =
      some (st.insertDeclaredCustomJob w.dmj.requestId w.token job now))
    (hpaired : (st.insertDeclaredCustomJob w.dmj.requestId w.token job now).Paired) :
    Fresh s w job.validated := by
  intro r job' hjob hof
  rw [System.jobAt, hst, Option.bind_some] at hjob
  have hreq : r = w.dmj.requestId := by
    rcases hof with hr | htok
    · exact hr
    · -- the entry of the token names one request only
      obtain ⟨t, e, ht, he, her⟩ := hpaired.job r job' hjob
      cases htok.symm.trans ht
      rw [DownstreamState.insertDeclaredCustomJob, AList.lookup_insert] at he
      cases he
      exact her.symm
  rw [hreq, DownstreamState.insertDeclaredCustomJob, AList.lookup_insert] at hjob
  cases hjob
  exact ⟨hdmj, rfl⟩

theorem justStored_jdsStep {env : Env} {s : System} (h : Bound s) 
    {response : Option JdResponse} {now : Instant}
    (hpaired : ∀ d st, (s.jdsStep env response now).downstreamStates.lookup d = some st →
      st.Paired) :
    JustStored (s.jdsStep env response now) (s.jdsStep env response now).jds := by
  have hstored := h.stored
  unfold System.jdsStep at hpaired ⊢
  cases hjds : s.jds with
  | validating w =>
    dsimp only
    split
    next result hprep =>
      rcases prepareDeclareMiningJob_eq_error hprep with rfl | ⟨code, rfl⟩ <;> trivial
    · trivial
  | waiting w t previous =>
    have ht : t = w.token := by
      have := h.engineToken
      rw [hjds] at this
      exact this
    subst ht
    simp only [hjds] at hpaired ⊢
    rcases applyJdResponse_cases s.downstreamStates w.client w.dmj w.provided.isSome w.token
      previous response now with ⟨⟨code, hres⟩, -⟩ | ⟨st, job, -, -, hdmj, hmap, hres⟩
    · rw [hres]
      trivial
    · have hlook := congrArg (fun m => AList.lookup w.client m) hmap
      rw [AList.lookup_insert] at hlook
      have hfresh := fun s' hst =>
        fresh_of_stored (s := s') hdmj hst (hpaired w.client _ hlook)
      rcases hres with ⟨hres, hval⟩ | ⟨⟨missing, hres⟩, hval⟩
      · rw [hres]
        rw [hval] at hfresh
        exact hfresh _ hlook
      · rw [hres]
        rw [hval] at hfresh
        exact hfresh _ hlook
  | concluding w result =>
    rw [hjds] at hstored
    simp only [System.conclude, System.answerError, System.answer]
    cases result with
    | success =>
      dsimp only
      split
      · exact hstored
      · trivial
    | error code => trivial
    | panic => trivial
    | missingTransactions missing =>
      dsimp only
      split
      · trivial
      · split
        · trivial
        · split <;> trivial
  | retrying c msg =>
    dsimp only
    split
    · trivial
    · split
      · trivial
      · split <;> trivial
  | checking c dmj =>
    dsimp only
    split
    · trivial
    · split <;> trivial
  | answering c x => dsimp only; split <;> trivial
  | _ => simp only [hjds]; trivial

/-- A step that meets the condition keeps the maps in step. -/
theorem bound_step {env : Env} {s : System} (h : Bound s) (hd : DeclarationInv s) {a : Action}
    (hok : s.binding a = true) : Bound (s.step env a) := by
  have hpaired := paired_step env h hd hok
  constructor
  · exact hpaired
  · intro d r job hjob
    rcases jobAt_step hjob with hold | ⟨w, t, previous, -, -, -, -, hr, hfor⟩
    · exact h.keyed d r job hold
    · rw [hfor.declareMiningJob]
      exact hr.symm
  · rcases jds_step env s a with hsame | ⟨-, hnone⟩ | ⟨response, now, rfl⟩
    · rw [hsame]
      exact h.engineToken
    · exact engineToken_of_declaration hnone
    · exact engineToken_jdsStep hd h.engineToken response now
  · rcases jds_step env s a with hsame | ⟨-, hnone⟩ | ⟨response, now, rfl⟩
    · rw [hsame]
      by_cases hwait : ∃ w t previous, s.jds = .waiting w t previous
      · obtain ⟨w, t, previous, hjds⟩ := hwait
        rw [hjds]
        trivial
      · apply h.stored.mono
        intro d r job hjob
        rcases jobAt_step hjob with hold | ⟨w, t, previous, -, hjds, -⟩
        · exact hold
        · exact absurd ⟨w, t, previous, hjds⟩ hwait
    · exact justStored_of_declaration hnone
    · exact justStored_jdsStep h hpaired

/-! ## Answers -/

/-- Success is answered at the end of an activation. -/
theorem activating_of_answersSuccess {env : Env} {bs : List Action} {a : Action}
    {d : DownstreamId} {t : JdToken} {dmj : DeclareMiningJob}
    (h : AnswersSuccess env bs a d t dmj) :
    ∃ w data, (System.after env bs).jds = .activating w data ∧
      (∃ response now, a = .jds response now) ∧ w.client = d ∧ w.token = t ∧ w.dmj = dmj := by
  obtain ⟨w, u, hw, hclient, htok, hdmj, hsent⟩ := h
  generalize System.after env bs = s at hw hsent ⊢
  have hsilent : ∀ x, s.sent ≠ x :: s.sent := fun x => (List.cons_ne_self x s.sent).symm
  cases a with
  | jds response now =>
    simp only [System.step, System.jdsStep] at hsent
    cases hjds : s.jds with
    | activating v data =>
      rw [hjds] at hw
      cases hw
      exact ⟨w, data, rfl, ⟨response, now, rfl⟩, hclient, htok, hdmj⟩
    | concluding v result =>
      simp only [hjds, System.conclude, System.answerError, System.answer] at hsent
      cases result with
      | success =>
        dsimp only at hsent
        split at hsent
        · exact absurd hsent (hsilent _)
        · simp at hsent
      | error code => simp at hsent
      | panic => exact absurd hsent (hsilent _)
      | missingTransactions missing =>
        dsimp only at hsent
        split at hsent
        · simp at hsent
        · split at hsent
          · exact absurd hsent (hsilent _)
          · split at hsent
            · simp at hsent
            · exact absurd hsent (hsilent _)
    | validating v =>
      simp only [hjds] at hsent
      split at hsent <;> exact absurd hsent (hsilent _)
    | ensuring v u' previous => simp only [hjds] at hsent; exact absurd hsent (hsilent _)
    | waiting v u' previous => simp only [hjds] at hsent; exact absurd hsent (hsilent _)
    | _ => rw [hjds] at hw; cases hw
  | receive client msg now =>
    simp only [System.step, System.receive] at hsent
    cases hjds : s.jds with
    | idle => rw [hjds] at hw; cases hw
    | _ => simp only [hjds] at hsent; exact absurd hsent (hsilent _)
  | present msg u' =>
    obtain ⟨responses, pool, heq⟩ := s.present_frame msg u'
    rw [System.step, heq] at hsent
    exact absurd hsent (hsilent _)
  | pool =>
    obtain ⟨tm, states, responses, accepted, pool, heq⟩ := s.poolStep_frame env
    rw [System.step, heq] at hsent
    exact absurd hsent (hsilent _)
  | _ => exact absurd hsent (hsilent _)

/-- The last answer stays the last one unless the new step answers again. -/
theorem LastAnswered.concat {env : Env} {as : List Action} {a : Action} {d : DownstreamId}
    {t : JdToken} {dmj : DeclareMiningJob} (h : LastAnswered env as d t dmj)
    (hsame : ∀ dmj', AnswersSuccess env as a d t dmj' → dmj' = dmj) :
    LastAnswered env (as ++ [a]) d t dmj := by
  by_cases hnow : ∃ dmj', AnswersSuccess env as a d t dmj'
  · obtain ⟨dmj', hans⟩ := hnow
    refine ⟨as, a, [], rfl, hsame dmj' hans ▸ hans, ?_⟩
    intro cs₁ b cs₂ dmj'' hcs
    simp at hcs
  · obtain ⟨bs, b, cs, rfl, hans, hlast⟩ := h
    refine ⟨bs, b, cs ++ [a], by simp, hans, ?_⟩
    intro cs₁ c cs₂ dmj'' hcs
    rcases List.eq_nil_or_concat cs₂ with rfl | ⟨rest, last, rfl⟩
    · obtain ⟨rfl, hac⟩ := List.append_inj' hcs rfl
      rw [← List.singleton_inj.mp hac]
      exact fun hc => hnow ⟨dmj'', hc⟩
    · have hcs' : cs ++ [a] = (cs₁ ++ c :: rest) ++ [last] := by simpa using hcs
      exact hlast cs₁ c rest dmj'' (List.append_inj' hcs' rfl).1

/-! ## The job under a token -/

/-- A first round that misses transactions ends with the declaration waiting for them. -/
theorem awaits_jdsStep {env : Env} {s : System} {w : Declaration} {missing : List Hash256}
    (hjds : s.jds = .concluding w (.missingTransactions missing)) (hfirst : w.provided = none)
    (hhere : (s.downstreamClients.lookup w.client).isSome) (response : Option JdResponse)
    (now : Instant) : (s.jdsStep env response now).awaits w.client w.dmj = true := by
  obtain ⟨ds, hds⟩ := Option.isSome_iff_exists.mp hhere
  apply System.awaits_iff.mpr
  refine ⟨now, ?_⟩
  simp only [System.jdsStep, hjds, System.conclude, hfirst, hds, System.answer]
  split
  · rw [System.pendingAt_insert rfl, if_pos rfl, AList.lookup_insert]
  · rw [System.pendingAt_insert rfl, if_pos rfl, AList.lookup_insert]

theorem System.awaits_congr {s s' : System} (h : s'.downstreamClients = s.downstreamClients)
    (d : DownstreamId) (dmj : DeclareMiningJob) : s'.awaits d dmj = s.awaits d dmj := by
  simp only [System.awaits, System.pendingAt_congr h]

/-- A declaration that is not answered with success and does not wait has left no
    unvalidated job. -/
theorem awaits_of_binding {s : System} {d : DownstreamId} {r : RequestId}
    {dmj : DeclareMiningJob} {job : DeclaredCustomJob}
    (hok : (!s.keepsUnvalidated d dmj || s.awaits d dmj) = true)
    (hjob : s.jobAt d r = some job) (hreq : job.declareMiningJob.requestId = r)
    (hdmj : dmj = job.declareMiningJob) (hval : job.validated = false) :
    s.awaits d dmj = true := by
  have hkept : s.keepsUnvalidated d dmj = true := by
    rw [System.keepsUnvalidated, hdmj, hreq, hjob]
    simp [hval]
  simpa [hkept] using hok

/-- Until it is concluded, the loop hands its declaration on. -/
theorem jdsStep_declaration (env : Env) {s : System} {w : Declaration}
    (hw : s.jds.declaration = some w) (response : Option JdResponse) (now : Instant) :
    (∃ result, s.jds = .concluding w result) ∨ (∃ data, s.jds = .activating w data) ∨
      ((∀ result, s.jds ≠ .concluding w result) ∧ (∀ data, s.jds ≠ .activating w data) ∧
        (s.jdsStep env response now).jds.declaration = some w) := by
  unfold System.jdsStep
  cases hjds : s.jds with
  | validating v =>
    rw [hjds] at hw
    cases hw
    refine .inr (.inr ⟨by simp, by simp, ?_⟩)
    dsimp only
    split <;> rfl
  | ensuring v t previous =>
    rw [hjds] at hw
    exact .inr (.inr ⟨by simp, by simp, hw⟩)
  | waiting v t previous =>
    rw [hjds] at hw
    exact .inr (.inr ⟨by simp, by simp, hw⟩)
  | concluding v result => rw [hjds] at hw; cases hw; exact .inl ⟨result, rfl⟩
  | activating v data => rw [hjds] at hw; cases hw; exact .inr (.inl ⟨data, rfl⟩)
  | _ => rw [hjds] at hw; cases hw

section

variable {env : Env} {as : List Action} {response : Option JdResponse} {now : Instant}
  {d : DownstreamId} {r : RequestId} {t : JdToken} {job : DeclaredCustomJob} {w : Declaration}

/-- The end of a declaration whose job the engine keeps. -/
theorem concluding_standing {result : DeclareMiningJobResult}
    (h : Bound (System.after env as))
    (hjds : (System.after env as).jds = .concluding w result)
    (hok : (System.after env as).binding (.jds response now) = true)
    (hhere : ((System.after env as).downstreamClients.lookup w.client).isSome)
    (hjob : (System.after env as).jobAt w.client r = some job)
    (hdmj : w.dmj = job.declareMiningJob)
    (hresult : job.validated = true → result = .success) :
    Standing env (as ++ [.jds response now]) w.client t job := by
  have hreq := h.keyed w.client r job hjob
  have hat := System.after_concat env as (.jds response now)
  have hval : result ≠ .success → job.validated = false := by
    intro hne
    cases hv : job.validated with
    | false => rfl
    | true => exact absurd (hresult hv) hne
  -- a declaration that is refused waits, or its job would be left behind
  have hwait : result ≠ .success →
      (!(System.after env as).keepsUnvalidated w.client w.dmj ||
        (System.after env as).awaits w.client w.dmj) = true →
      (System.after env (as ++ [.jds response now])).downstreamClients =
        (System.after env as).downstreamClients →
      Standing env (as ++ [.jds response now]) w.client t job := by
    intro hne hleft hcl
    apply Standing.awaiting (hval hne)
    rw [System.awaits_congr hcl, ← hdmj]
    exact awaits_of_binding hleft hjob hreq hdmj (hval hne)
  simp only [System.binding, hjds] at hok
  cases result with
  | success =>
    dsimp only at hok
    cases hrem : (System.after env as).tokenManager.activateRemove w.token w.client with
    | some p =>
      have hnow : (System.after env (as ++ [.jds response now])).jds = .activating w p.1 := by
        rw [hat]
        simp only [System.step, System.jdsStep, hjds, System.conclude, hrem]
      exact .inHand w (by rw [hnow]; rfl) rfl hdmj fun _ => .inr ⟨p.1, hnow⟩
    | none =>
      -- without its token the declaration is refused, with the job in the map
      have hno : (System.after env as).tokenManager.isAllocated w.token w.client = false := by
        cases hal : (System.after env as).tokenManager.isAllocated w.token w.client with
        | false => rfl
        | true =>
          obtain ⟨data, hlook, howner⟩ := TokenManager.isAllocated_iff.mp hal
          simp [TokenManager.activateRemove, KeyMap.removeIf, hlook, howner] at hrem
      rw [hno, Bool.false_or, Option.isNone_iff_eq_none, hdmj, hreq, hjob] at hok
      cases hok
  | error code =>
    apply hwait (by simp) hok
    rw [hat]
    simp only [System.step, System.jdsStep, hjds, System.conclude, System.answerError,
      System.answer]
  | panic =>
    apply hwait (by simp) hok
    rw [hat]
    simp only [System.step, System.jdsStep, hjds, System.conclude]
  | missingTransactions missing =>
    cases hprov : w.provided with
    | some msg =>
      dsimp only at hok
      rw [hprov, Option.isNone_some, Bool.false_or] at hok
      apply hwait (by simp) hok
      rw [hat]
      simp only [System.step, System.jdsStep, hjds, System.conclude, hprov,
        System.answerError, System.answer]
    | none =>
      apply Standing.awaiting (hval (by simp))
      rw [hat, ← hdmj]
      exact awaits_jdsStep hjds hprov hhere response now

/-- The job of the declaration at hand: it is handed on, answered with success, or waits. -/
theorem inHand_step (h : Bound (System.after env as))
    (hd : DeclarationInv (System.after env as)) (hr : Roster (System.after env as))
    (hok : (System.after env as).binding (.jds response now) = true)
    (hhere : d < (System.after env as).downstreamIdFactory →
      ((System.after env as).downstreamClients.lookup d).isSome)
    (hjob : (System.after env as).jobAt d r = some job) (htok : job.token = some t)
    (hw : (System.after env as).jds.declaration = some w)
    (hclient : w.client = d) (hdmj : w.dmj = job.declareMiningJob)
    (hresult : job.validated = true → (System.after env as).jds = .concluding w .success ∨
      ∃ data, (System.after env as).jds = .activating w data) :
    Standing env (as ++ [.jds response now]) d t job := by
  subst hclient
  have hwt : w.token = t := by
    have hparse := (hd.working w hw).1
    rw [hdmj] at hparse
    exact Option.some.inj (hparse.symm.trans htok)
  have hlt : w.client < (System.after env as).downstreamIdFactory := by
    apply hr.served
    cases hjds : (System.after env as).jds <;> rw [hjds] at hw <;> cases hw <;> rfl
  rcases jdsStep_declaration env hw response now with
    ⟨result, hjds⟩ | ⟨data, hjds⟩ | ⟨hconc, hact, hon⟩
  · apply concluding_standing h hjds hok (hhere hlt) hjob hdmj
    intro hv
    rcases hresult hv with hc | ⟨data, hc⟩
    · rw [hjds] at hc
      cases hc
      rfl
    · rw [hjds] at hc
      cases hc
  · -- success is answered
    have hstored := h.stored
    rw [hjds] at hstored
    have hfresh := hstored r job hjob (.inr (hwt ▸ htok))
    apply Standing.answered hfresh.2
    refine ⟨as, _, [], rfl, ?_, ?_⟩
    · refine ⟨w, (System.after env as).tokenManager.tokenFactory, hw, rfl, hwt, hdmj, ?_⟩
      simp only [System.step, System.jdsStep, hjds, System.answer]
      rfl
    · intro cs₁ b cs₂ dmj' hcs
      simp at hcs
  · rw [← System.step, ← System.after_concat] at hon
    refine .inHand w hon rfl hdmj ?_
    intro hv
    rcases hresult hv with hc | ⟨data, hc⟩
    · exact absurd hc (hconc _)
    · exact absurd hc (hact data)

/-- A job that is still there after a step stands as it did, or the step has moved it on. -/
theorem standing_step {a : Action} (h : Bound (System.after env as))
    (hd : DeclarationInv (System.after env as)) (hr : Roster (System.after env as))
    (hok : (System.after env as).binding a = true) (hconn : a.disconnects d = false)
    (hhere : d < (System.after env as).downstreamIdFactory →
      ((System.after env as).downstreamClients.lookup d).isSome)
    (hjob : (System.after env as).jobAt d r = some job) (htok : job.token = some t)
    (hs : Standing env as d t job) : Standing env (as ++ [a]) d t job := by
  have hreq := h.keyed d r job hjob
  have hat := System.after_concat env as a
  have hstored := h.stored
  cases hs with
  | answered hval hlast =>
    apply Standing.answered hval
    apply hlast.concat
    intro dmj' hans
    obtain ⟨w, data, hjds, -, hclient, hwt, hdmj⟩ := activating_of_answersSuccess hans
    rw [hjds] at hstored
    have hfresh := hstored r job (hclient ▸ hjob) (.inr (hwt ▸ htok))
    exact hdmj.symm.trans hfresh.1.symm
  | awaiting hval hpending =>
    obtain ⟨at', hp⟩ := System.awaits_iff.mp hpending
    rcases pendingAt_step env hd hr hconn hp with hsame | ⟨w, -, hw, hclient, hdmj⟩ |
      ⟨w, missing, hjds, hfirst, ⟨response, now, rfl⟩, hclient, hwr⟩ |
      ⟨shard, now, rfl, hdrop⟩
    · apply Standing.awaiting hval
      apply System.awaits_iff.mpr
      exact ⟨at', hat ▸ hsame⟩
    · refine .inHand w (hat ▸ hw) hclient hdmj ?_
      intro hv
      rw [hval] at hv
      cases hv
    · -- the declaration that takes its place is the one whose job is stored
      rw [hjds] at hstored
      subst hclient
      have hfresh := hstored r job hjob (.inl (hreq.symm.trans hwr.symm))
      obtain ⟨ds, hds, -⟩ := Option.bind_eq_some_iff.mp hp
      apply Standing.awaiting hval
      rw [hat, hfresh.1]
      exact awaits_jdsStep hjds hfirst (by rw [hds]; rfl) response now
    · -- the janitor drops a waiting declaration whose job is worked on
      obtain ⟨ds, hds, hlook⟩ := Option.bind_eq_some_iff.mp hp
      simp only [System.binding, hds, Option.all_some, List.all_eq_true] at hok
      have he := hok ⟨_, _⟩ ((KeyMap.mem_entries_iff _ _ _).mpr hlook)
      have hkept : (System.after env as).keepsUnvalidated d job.declareMiningJob = true := by
        rw [System.keepsUnvalidated, hreq, hjob]
        simp [hval]
      rw [hdrop, hkept, Bool.not_true, Bool.false_or, Bool.false_or, System.worksOn,
        Option.any_eq_true] at he
      obtain ⟨w, hw, hsame⟩ := he
      rw [Bool.and_eq_true, beq_iff_eq, beq_iff_eq] at hsame
      refine .inHand w (hat ▸ hw) hsame.1 hsame.2 ?_
      intro hv
      rw [hval] at hv
      cases hv
  | inHand w hw hclient hdmj hresult =>
    rcases jds_step env (System.after env as) a with hsame | ⟨hnone, -⟩ | ⟨response, now, rfl⟩
    · rw [← hat] at hsame
      refine .inHand w (hsame ▸ hw) hclient hdmj ?_
      intro hv
      rw [hsame]
      exact hresult hv
    · rw [hnone] at hw
      cases hw
    · exact inHand_step h hd hr hok hhere hjob htok hw hclient hdmj hresult

/-- A job that the node's answer has just stored belongs to the declaration at hand. -/
theorem waiting_standing {v : JdToken} {previous : Option ValidationContext}
    (h : Bound (System.after env (as ++ [.jds response now])))
    (hjds : (System.after env as).jds = .waiting w v previous)
    (hjob : (System.after env (as ++ [.jds response now])).jobAt d r = some job) :
    (System.after env as).jobAt d r = some job ∨
      Standing env (as ++ [.jds response now]) d t job := by
  have hstored := h.stored
  have hat := System.after_concat env as (.jds response now)
  simp only [System.step, System.jdsStep, hjds] at hat
  rcases applyJdResponse_cases (System.after env as).downstreamStates w.client w.dmj
    w.provided.isSome v previous response now with
    ⟨-, hmap⟩ | ⟨st, new, -, hst, hdmj, hmap, hres⟩
  · -- nothing is stored
    left
    obtain ⟨st', hlook, hj⟩ := Option.bind_eq_some_iff.mp hjob
    rw [hat] at hlook
    rcases hmap with heq | ⟨-, heq⟩
    · rw [heq] at hlook
      exact Option.bind_eq_some_iff.mpr ⟨st', hlook, hj⟩
    · rw [heq, dropDeclaredJob, KeyMap.lookup_modify] at hlook
      split at hlook
      next hd =>
        obtain ⟨st, hst, rfl⟩ := Option.map_eq_some_iff.mp hlook
        have hold := (removeDeclaredCustomJob_within st _ _).jobs r job hj
        exact Option.bind_eq_some_iff.mpr ⟨st, hd ▸ hst, hold⟩
      next => exact Option.bind_eq_some_iff.mpr ⟨st', hlook, hj⟩
  · by_cases hhere : d = w.client ∧ r = w.dmj.requestId
    · right
      obtain ⟨rfl, rfl⟩ := hhere
      have hnew : job.declareMiningJob = w.dmj := by
        rw [System.jobAt, hat, hmap, AList.lookup_insert, Option.bind_some,
          DownstreamState.insertDeclaredCustomJob, AList.lookup_insert] at hjob
        cases hjob
        exact hdmj
      refine .inHand w (by rw [hat]; rfl) rfl hnew.symm ?_
      rcases hres with ⟨hres, -⟩ | ⟨⟨missing, hres⟩, -⟩
      · intro _
        left
        rw [hat, hres]
      · intro hv
        have hnow : (System.after env (as ++ [.jds response now])).jds =
            .concluding w (.missingTransactions missing) := by rw [hat, hres]
        rw [hnow] at hstored
        have hfresh := hstored _ job hjob (.inl rfl)
        rw [hv] at hfresh
        cases hfresh.2
    · -- the other jobs are as they were
      left
      obtain ⟨st', hlook, hj⟩ := Option.bind_eq_some_iff.mp hjob
      rw [hat, hmap, KeyMap.lookup_insert_eq] at hlook
      split at hlook
      next hd =>
        cases hlook
        rw [DownstreamState.insertDeclaredCustomJob,
          AList.lookup_insert_ne fun hr => hhere ⟨hd, hr⟩] at hj
        exact Option.bind_eq_some_iff.mpr ⟨st, hd ▸ hst, hj⟩
      next => exact Option.bind_eq_some_iff.mpr ⟨st', hlook, hj⟩

end

/-! ## The result -/

abbrev Binding (env : Env) (as : List Action) : Prop :=
  Runs.Guarded (System.step env) (fun s a => s.binding a = true) System.new as

theorem roster_after (env : Env) (as : List Action) : Roster (System.after env as) :=
  Runs.run_invariant Roster (fun _ a h => roster_step env h a) roster_new as

theorem bound_after (env : Env) (as : List Action) (hg : Binding env as) :
    Bound (System.after env as) := by
  have hboth : Bound (System.after env as) ∧ Recorded (System.after env as).ledger ∧
      DeclarationInv (System.after env as) := by
    refine Runs.run_invariant_of_guarded
      (fun s : System => Bound s ∧ Recorded s.ledger ∧ DeclarationInv s) ?_
      ⟨bound_new, recorded_new, declarationInv_new⟩ as hg
    rintro s a ⟨hb, hl, hd⟩ hok
    exact ⟨bound_step hb hd hok, recorded_step (ledger_step env s a) hl,
      declarationInv_step env hd hl a⟩
  exact hboth.1

/-- By induction on the run: a new job is in hand, an old one stands as before. -/
theorem standing_after (env : Env) (as : List Action) (hg : Binding env as) {d : DownstreamId}
    (hconn : ∀ a ∈ as, a.disconnects d = false) {r : RequestId} {t : JdToken}
    {job : DeclaredCustomJob} (hjob : (System.after env as).jobAt d r = some job)
    (htok : job.token = some t) : Standing env as d t job := by
  induction as using List.reverseRecOn generalizing r job with
  | nil => cases hjob
  | append_singleton as a ih =>
    obtain ⟨hg', hok, -⟩ := Runs.guarded_append.mp hg
    have hconn' : ∀ b ∈ as, b.disconnects d = false :=
      fun b hb => hconn b (List.mem_append_left _ hb)
    have ha := hconn a (List.mem_append_right _ List.mem_cons_self)
    have hb := bound_after env as hg'
    have hd := (recorded_after env as).2
    have hold : (System.after env as).jobAt d r = some job →
        Standing env (as ++ [a]) d t job := by
      intro hj
      exact standing_step hb hd (roster_after env as) hok ha (connected_after env as hconn') hj
        htok (ih hg' hconn' hj htok)
    have hnow := hjob
    rw [System.after_concat] at hjob
    rcases jobAt_step hjob with hj | ⟨w, v, previous, ⟨response, now, rfl⟩, hjds, -⟩
    · exact hold hj
    · rcases waiting_standing (bound_after env _ hg) hjds hnow with hj | hs
      · exact hold hj
      · exact hs

/-- What a token leads to, when the maps are in step. -/
theorem DownstreamState.Paired.take_eq_some {st : DownstreamState} (h : st.Paired)
    {t : JdToken} {job : DeclaredCustomJob} (htake : (st.takeDeclaredCustomJob t).1 = some job) :
    job.token = some t := by
  unfold takeDeclaredCustomJob at htake
  cases hentry : st.allocatedTokenEntries.lookup t with
  | none =>
    rw [hentry] at htake
    cases htake
  | some e =>
    obtain ⟨job', hjob', htok⟩ := h.entry t e hentry
    simp only [hentry, hjob'] at htake
    cases htake
    exact htok

/-- **A token and its job stay bound**, in every run whose steps meet the condition: for the
    messages of the clients with any tokens and request ids, the answers of the node, the
    presentations, the janitors and the disconnects in any order. -/
theorem tokensBound (env : Env) (as : List Action) (hg : Binding env as) :
    TokensBound env as := by
  have hb := bound_after env as hg
  constructor
  · exact hb.paired
  · intro d hconn t job hstored
    obtain ⟨st, hst, hjob⟩ := Option.bind_eq_some_iff.mp hstored
    obtain ⟨e, he, hjob⟩ := Option.bind_eq_some_iff.mp hjob
    obtain ⟨job', hjob', htok⟩ := (hb.paired d st hst).entry t e he
    cases hjob.symm.trans hjob'
    exact standing_after env as hg hconn (Option.bind_eq_some_iff.mpr ⟨st, hst, hjob⟩) htok
  · intro d st t job hst htake
    exact (hb.paired d st hst).take_eq_some htake

/-- A client declares a job with each of its two tokens, the second one under `r`; the node
    approves both. -/
def twoDeclarations (r : RequestId) : List Action :=
  let declare (dmj : DeclareMiningJob) : List Action :=
    [.receive 0 (.declareMiningJob dmj) 1, .jds none 1, .jds none 1, .jds none 1,
     .jds (some (.success Hash256.allZeros 0x207fffff [])) 2, .jds none 2, .jds none 2]
  [.connect, .receive 0 (.allocateMiningJobToken ⟨"farm_01", 0⟩) 0, .jds none 0,
   .receive 0 (.allocateMiningJobToken ⟨"farm_01", 0⟩) 0, .jds none 0] ++
  declare sampleDeclaration ++
  declare { sampleDeclaration with requestId := r, miningJobToken := tokenBytes 1 }

/-- With a request id of its own, each token leads to its own job. -/
theorem tokensBound_twoDeclarations :
    Binding sampleEnv (twoDeclarations 2) ∧ TokensBound sampleEnv (twoDeclarations 2) :=
  ⟨by decide +kernel, tokensBound sampleEnv _ (by decide +kernel)⟩

/-- Under the request id of the first declaration, the first token leads to the job that was
    declared with the second. -/
theorem takes_other_job : ¬ TokensBound sampleEnv (twoDeclarations 1) := by
  intro h
  have hother : ((storedJob (System.after sampleEnv (twoDeclarations 1)).downstreamStates 0 0).map
      DeclaredCustomJob.token) = some (some 1) := by decide +kernel
  obtain ⟨job, hjob, htok⟩ := Option.map_eq_some_iff.mp hother
  obtain ⟨st, hst, hjob⟩ := Option.bind_eq_some_iff.mp hjob
  obtain ⟨e, he, hjob⟩ := Option.bind_eq_some_iff.mp hjob
  have htake : (st.takeDeclaredCustomJob 0).1 = some job := by
    simp only [DownstreamState.takeDeclaredCustomJob, he]
    exact hjob
  have hown := h.taken 0 st 0 job hst htake
  rw [htok] at hown
  exact absurd hown (by decide)

end Sv2Apps.Jds
