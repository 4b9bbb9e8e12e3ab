/-
  Jds/RejectedDeclarations.lean
  =============================
  **What a rejected declaration leaves behind.**  A declaration is recorded in four maps:
  the allocated and the active tokens, the declarations that wait for missing
  transactions, and the engine's token entries and jobs.  The error paths of
  `handle_declare_mining_job` and of the retry each undo a different part of it.

  `orderly` is the condition on a step under which they undo all of it: a declaration
  names a token and a request id that are not on record, the engine's job of the first
  round does not survive a failed second round, and a validated declaration still has its
  token.  `nothing_left` is the result over the runs whose steps are all orderly,
  `secondRound_leaves_job` a run that is not and leaves a job behind.
-/
import Sv2Apps.Jds.AcceptedJobs
import Mathlib.Data.List.Induction

namespace Sv2Apps.Jds

open Bitcoin

/-! ## The records of a declaration -/

def DeclaredCustomJob.token (job : DeclaredCustomJob) : Option JdToken :=
  parseToken job.declareMiningJob.miningJobToken

namespace System

/-- The declaration that waits at `d` for the transactions of request `r`. -/
def pendingAt (s : System) (d : DownstreamId) (r : RequestId) :
    Option (Instant × DeclareMiningJob) :=
  (s.downstreamClients.lookup d).bind fun ds => ds.pendingDeclareMiningJobs.lookup r

def entryAt (s : System) (d : DownstreamId) (t : JdToken) : Option AllocatedTokenEntry :=
  (s.downstreamStates.lookup d).bind fun st => st.allocatedTokenEntries.lookup t

def jobAt (s : System) (d : DownstreamId) (r : RequestId) : Option DeclaredCustomJob :=
  (s.downstreamStates.lookup d).bind fun st => st.declaredCustomJobs.lookup r

/-- Neither the token nor the request id is on record at `d`. -/
def unrecorded (s : System) (d : DownstreamId) (r : RequestId) (t : JdToken) : Bool :=
  (s.pendingAt d r).isNone &&
  (s.downstreamClients.lookup d).all (fun ds => ds.pendingDeclareMiningJobs.entries.all
    fun e => parseToken e.2.2.miningJobToken != some t) &&
  (s.entryAt d t).isNone && (s.jobAt d r).isNone

/-- The condition on a step of the message loop. -/
def orderly (s : System) : Action → Bool
  | .jds response _ =>
    match s.jds with
    | .checking client dmj =>
      match parseToken dmj.miningJobToken with
      | none => true
      | some token =>
        !s.tokenManager.isAllocated token client || s.unrecorded client dmj.requestId token
    | .waiting w _ previous =>
      match response with
      | none => w.provided.isNone || (s.jobAt w.client w.dmj.requestId).isNone
      | some (.missingTransactions _ ctx) =>
        w.provided.isNone || tipDrifted previous ctx ||
          (s.downstreamStates.lookup w.client).isNone
      | some _ => true
    | .concluding w .success =>
      s.tokenManager.isAllocated w.token w.client ||
        (s.jobAt w.client w.dmj.requestId).isNone
    | _ => true
  | _ => true

end System

/-- The engine has neither the token nor the request id. -/
structure Unstored (s : System) (d : DownstreamId) (r : RequestId) (t : JdToken) : Prop where
  entry : s.entryAt d t = none
  job : s.jobAt d r = none

/-- What the engine has of the token and of the request id belongs together. -/
structure Matched (s : System) (d : DownstreamId) (r : RequestId) (t : JdToken) : Prop where
  job : ∀ job, s.jobAt d r = some job → job.token = some t
  entry : ∀ e, s.entryAt d t = some e → e.requestId = r

theorem Unstored.matched {s : System} {d : DownstreamId} {r : RequestId} {t : JdToken}
    (h : Unstored s d r t) : Matched s d r t := by
  constructor
  · intro job hjob
    rw [h.job] at hjob
    cases hjob
  · intro e he
    rw [h.entry] at he
    cases he

/-! ## Entries and jobs in pairs -/

/-- Every token entry leads to a job of that token, and every job has its entry. -/
structure DownstreamState.Paired (st : DownstreamState) : Prop where
  entry : ∀ t e, st.allocatedTokenEntries.lookup t = some e →
    ∃ job, st.declaredCustomJobs.lookup e.requestId = some job ∧ job.token = some t
  job : ∀ r job, st.declaredCustomJobs.lookup r = some job →
    ∃ t e, job.token = some t ∧ st.allocatedTokenEntries.lookup t = some e ∧ e.requestId = r

namespace DownstreamState

theorem paired_default : default.Paired := by
  constructor
  · intro t e h
    cases h
  · intro r job h
    cases h

/-- Another token's entry leads to another request. -/
theorem Paired.entry_ne {st : DownstreamState} (h : st.Paired) {r : RequestId} {t u : JdToken}
    {e : AllocatedTokenEntry} (hu : u ≠ t) (he : st.allocatedTokenEntries.lookup u = some e)
    (hjob : ∀ old, st.declaredCustomJobs.lookup r = some old → old.token = some t) :
    e.requestId ≠ r := by
  intro heq
  obtain ⟨old, hold, hutok⟩ := h.entry u e he
  -- the job under `r` has the token `t`
  rw [heq] at hold
  exact hu (Option.some.inj (hutok.symm.trans (hjob old hold)))

/-- Another request's job has another token. -/
theorem job_ne {st : DownstreamState} {r q : RequestId} {t u : JdToken} {e : AllocatedTokenEntry}
    (hq : q ≠ r) (he : st.allocatedTokenEntries.lookup u = some e) (her : e.requestId = q)
    (hentry : ∀ e, st.allocatedTokenEntries.lookup t = some e → e.requestId = r) : u ≠ t := by
  intro heq
  rw [heq] at he
  exact hq (her.symm.trans (hentry e he))

theorem Paired.insert {st : DownstreamState} (h : st.Paired) {r : RequestId} {t : JdToken}
    {job : DeclaredCustomJob} (htok : job.token = some t)
    (hjob : ∀ old, st.declaredCustomJobs.lookup r = some old → old.token = some t)
    (hentry : ∀ e, st.allocatedTokenEntries.lookup t = some e → e.requestId = r)
    (now : Instant) : (st.insertDeclaredCustomJob r t job now).Paired := by
  constructor
  · intro u e he
    simp only [insertDeclaredCustomJob, KeyMap.lookup_insert_eq] at he ⊢
    by_cases hu : u = t
    · rw [if_pos hu] at he
      cases he
      exact ⟨job, if_pos rfl, hu ▸ htok⟩
    · rw [if_neg hu] at he
      obtain ⟨old, hold, hutok⟩ := h.entry u e he
      exact ⟨old, by rw [if_neg (h.entry_ne hu he hjob)]; exact hold, hutok⟩
  · intro q old hold
    simp only [insertDeclaredCustomJob, KeyMap.lookup_insert_eq] at hold ⊢
    by_cases hq : q = r
    · rw [if_pos hq] at hold
      cases hold
      exact ⟨t, ⟨r, now⟩, htok, if_pos rfl, hq.symm⟩
    · rw [if_neg hq] at hold
      obtain ⟨u, e, hutok, he, her⟩ := h.job q old hold
      exact ⟨u, e, hutok, by rw [if_neg (job_ne hq he her hentry)]; exact he, her⟩

theorem Paired.remove {st : DownstreamState} (h : st.Paired) {r : RequestId} {t : JdToken}
    (hjob : ∀ old, st.declaredCustomJobs.lookup r = some old → old.token = some t)
    (hentry : ∀ e, st.allocatedTokenEntries.lookup t = some e → e.requestId = r) :
    (st.removeDeclaredCustomJob r t).Paired := by
  constructor
  · intro u e he
    simp only [removeDeclaredCustomJob, KeyMap.lookup_erase_eq] at he ⊢
    by_cases hu : u = t
    · rw [if_pos hu] at he
      cases he
    · rw [if_neg hu] at he
      obtain ⟨old, hold, hutok⟩ := h.entry u e he
      exact ⟨old, by rw [if_neg (h.entry_ne hu he hjob)]; exact hold, hutok⟩
  · intro q old hold
    simp only [removeDeclaredCustomJob, KeyMap.lookup_erase_eq] at hold ⊢
    by_cases hq : q = r
    · rw [if_pos hq] at hold
      cases hold
    · rw [if_neg hq] at hold
      obtain ⟨u, e, hutok, he, her⟩ := h.job q old hold
      exact ⟨u, e, hutok, by rw [if_neg (job_ne hq he her hentry)]; exact he, her⟩

theorem Paired.take {st : DownstreamState} (h : st.Paired) (t : JdToken) :
    (st.takeDeclaredCustomJob t).2.Paired := by
  unfold takeDeclaredCustomJob
  cases hentry : st.allocatedTokenEntries.lookup t with
  | none => exact h
  | some e =>
    obtain ⟨job, hjob, htok⟩ := h.entry t e hentry
    refine Paired.remove h (r := e.requestId) ?_ ?_
    · intro old hold
      rw [hjob] at hold
      cases hold
      exact htok
    · intro e' he'
      rw [hentry] at he'
      cases he'
      rfl

/-- The jobs that a prune leaves: none whose request an expired entry names. -/
theorem lookup_pruneExpiredAllocations (st : DownstreamState) (now : Instant) (r : RequestId) :
    (∀ job, (st.pruneExpiredAllocations now).declaredCustomJobs.lookup r = some job →
      st.declaredCustomJobs.lookup r = some job ∧
        ∀ t e, st.allocatedTokenEntries.lookup t = some e → expired now e = true →
          e.requestId ≠ r) ∧
    (∀ job, st.declaredCustomJobs.lookup r = some job →
      (∀ t e, st.allocatedTokenEntries.lookup t = some e → expired now e = true →
        e.requestId ≠ r) →
      (st.pruneExpiredAllocations now).declaredCustomJobs.lookup r = some job) := by
  -- the fold over any list of entries erases the requests of the expired ones
  have hfold : ∀ (entries : List (Σ _ : JdToken, AllocatedTokenEntry))
      (jobs : KeyMap RequestId DeclaredCustomJob),
      (entries.foldl (fun jobs e => if expired now e.2 then jobs.erase e.2.requestId else jobs)
        jobs).lookup r =
      if ∃ e ∈ entries, expired now e.2 = true ∧ e.2.requestId = r then none
      else jobs.lookup r := by
    intro entries
    induction entries with
    | nil => intro jobs; simp
    | cons e rest ih =>
      intro jobs
      rw [List.foldl_cons, ih]
      by_cases hrest : ∃ e ∈ rest, expired now e.2 = true ∧ e.2.requestId = r
      · rw [if_pos hrest, if_pos]
        obtain ⟨e', he', h⟩ := hrest
        exact ⟨e', List.mem_cons_of_mem _ he', h⟩
      · rw [if_neg hrest]
        by_cases he : expired now e.2 = true ∧ e.2.requestId = r
        · rw [if_pos he.1, ← he.2, AList.lookup_erase, if_pos]
          exact ⟨e, List.mem_cons_self, he.1, rfl⟩
        · have hnone : ¬ ∃ e' ∈ e :: rest, expired now e'.2 = true ∧ e'.2.requestId = r := by
            rintro ⟨e', he', h⟩
            rcases List.mem_cons.mp he' with rfl | hin
            · exact he h
            · exact hrest ⟨e', hin, h⟩
          rw [if_neg hnone]
          split
          next hexp => exact AList.lookup_erase_ne fun heq => he ⟨hexp, heq.symm⟩
          next => rfl
  have hiff : (∃ e ∈ st.allocatedTokenEntries.entries, expired now e.2 = true ∧
        e.2.requestId = r) ↔
      ∃ t e, st.allocatedTokenEntries.lookup t = some e ∧ expired now e = true ∧
        e.requestId = r := by
    constructor
    · rintro ⟨⟨t, e⟩, he, h⟩
      exact ⟨t, e, (KeyMap.mem_entries_iff _ t e).mp he, h⟩
    · rintro ⟨t, e, he, h⟩
      exact ⟨⟨t, e⟩, (KeyMap.mem_entries_iff _ t e).mpr he, h⟩
  have hlook := hfold st.allocatedTokenEntries.entries st.declaredCustomJobs
  constructor
  · intro job hjob
    have hjob' := hlook.symm.trans hjob
    split at hjob'
    next => cases hjob'
    next hno =>
      exact ⟨hjob', fun t e he hexp heq => hno (hiff.mpr ⟨t, e, he, hexp, heq⟩)⟩
  · intro job hjob hno
    refine hlook.trans ?_
    rw [if_neg]
    · exact hjob
    · intro hex
      obtain ⟨t, e, he, hexp, heq⟩ := hiff.mp hex
      exact hno t e he hexp heq

theorem Paired.prune {st : DownstreamState} (h : st.Paired) (now : Instant) :
    (st.pruneExpiredAllocations now).Paired := by
  have hentries : ∀ t, (st.pruneExpiredAllocations now).allocatedTokenEntries.lookup t =
      (st.allocatedTokenEntries.lookup t).filter fun e => !expired now e :=
    KeyMap.lookup_retain _ _
  constructor
  · intro t e he
    rw [hentries, Option.filter_eq_some_iff] at he
    obtain ⟨he, hfresh⟩ := he
    obtain ⟨job, hjob, htok⟩ := h.entry t e he
    refine ⟨job, (lookup_pruneExpiredAllocations st now _).2 job hjob ?_, htok⟩
    -- an entry that names the same request is the same entry
    intro u e' he' hexp heq
    obtain ⟨job', hjob', htok'⟩ := h.entry u e' he'
    rw [heq, hjob] at hjob'
    cases hjob'
    cases htok.symm.trans htok'
    rw [he] at he'
    cases he'
    rw [hexp] at hfresh
    cases hfresh
  · intro r job hjob
    obtain ⟨hold, hno⟩ := (lookup_pruneExpiredAllocations st now r).1 job hjob
    obtain ⟨t, e, htok, he, her⟩ := h.job r job hold
    refine ⟨t, e, htok, ?_, her⟩
    rw [hentries, Option.filter_eq_some_iff]
    refine ⟨he, ?_⟩
    cases hexp : expired now e with
    | false => rfl
    | true => exact absurd her (hno t e he hexp)

end DownstreamState

/-! ## The invariant -/

/-- The checks before the request pass, whatever transactions are supplied. -/
def Preparable (env : Env) (dmj : DeclareMiningJob) : Prop :=
  ∃ t tx, parseToken dmj.miningJobToken = some t ∧ getCoinbaseTx env.rb dmj = .ok tx ∧
    tx.input.length = 1

theorem Preparable.of_ok {env : Env} {dmj : DeclareMiningJob}
    {provided : Option ProvideMissingTransactionsSuccess} {t : JdToken} {req : JdRequest}
    (h : prepareDeclareMiningJob env.rb dmj provided = .ok (t, req)) : Preparable env dmj := by
  obtain ⟨ht, htx, hlen, -⟩ := prepareDeclareMiningJob_eq_ok h
  exact ⟨t, req.coinbaseTx, ht, htx, hlen⟩

theorem Preparable.ne_error {env : Env} {dmj : DeclareMiningJob} (h : Preparable env dmj)
    (provided : Option ProvideMissingTransactionsSuccess) (result : DeclareMiningJobResult) :
    prepareDeclareMiningJob env.rb dmj provided ≠ .error result := by
  obtain ⟨t, tx, ht, htx, hlen⟩ := h
  simp [prepareDeclareMiningJob, ht, htx, hlen]

/-- A declaration that waits for its missing transactions. -/
structure Awaited (env : Env) (s : System) (d : DownstreamId) (r : RequestId)
    (dmj : DeclareMiningJob) (t : JdToken) : Prop where
  requestId : dmj.requestId = r
  token : parseToken dmj.miningJobToken = some t
  preparable : Preparable env dmj
  inactive : t ∉ activatedTokens s.history
  matched : Matched s d r t
  alone : ∀ q at' dmj', s.pendingAt d q = some (at', dmj') →
    parseToken dmj'.miningJobToken = some t → q = r

/-- A declaration that the message loop is working on. -/
structure InProgress (s : System) (w : Declaration) : Prop where
  requestId : w.requestId = w.dmj.requestId
  inactive : w.token ∉ activatedTokens s.history
  matched : Matched s w.client w.dmj.requestId w.token
  noPending : s.pendingAt w.client w.dmj.requestId = none
  alone : ∀ q at' dmj', s.pendingAt w.client q = some (at', dmj') →
    parseToken dmj'.miningJobToken ≠ some w.token

/-- Before the node has answered: a first round has stored nothing yet, and the checks of a
    second one pass. -/
structure Asking (env : Env) (s : System) (w : Declaration) : Prop where
  first : w.provided = none → Unstored s w.client w.dmj.requestId w.token
  second : w.provided ≠ none → Preparable env w.dmj

def StageInv (env : Env) (s : System) : JdsTask → Prop
  | .validating w => Asking env s w
  | .ensuring w t _ => Asking env s w ∧ t = w.token ∧ Preparable env w.dmj
  | .waiting w t _ => Asking env s w ∧ t = w.token ∧ Preparable env w.dmj
  | .concluding _ .success => True
  | .concluding w (.missingTransactions _) => w.provided = none ∧ Preparable env w.dmj
  | .concluding w _ => Unstored s w.client w.dmj.requestId w.token
  | _ => True

structure Accounted (env : Env) (s : System) : Prop where
  paired : ∀ d st, s.downstreamStates.lookup d = some st → st.Paired
  awaited : ∀ d r at' dmj, s.pendingAt d r = some (at', dmj) → ∃ t, Awaited env s d r dmj t
  working : ∀ w, s.jds.declaration = some w → InProgress s w
  stage : StageInv env s s.jds

theorem accounted_new (env : Env) : Accounted env System.new := by
  refine ⟨?_, ?_, ?_, trivial⟩
  · intro d st h
    cases h
  · intro d r at' dmj h
    cases h
  · intro w h
    cases h

/-- `s'` has no entry, job, waiting declaration or activation that `s` does not have. -/
structure Fewer (s' s : System) : Prop where
  entry : ∀ d t e, s'.entryAt d t = some e → s.entryAt d t = some e
  job : ∀ d r job, s'.jobAt d r = some job → s.jobAt d r = some job
  pending : ∀ d r x, s'.pendingAt d r = some x → s.pendingAt d r = some x
  activated : ∀ t, t ∈ activatedTokens s'.history → t ∈ activatedTokens s.history

theorem Fewer.matched {s s' : System} (h : Fewer s' s) {d : DownstreamId} {r : RequestId}
    {t : JdToken} (hm : Matched s d r t) : Matched s' d r t :=
  ⟨fun job hj => hm.job job (h.job d r job hj), fun e he => hm.entry e (h.entry d t e he)⟩

theorem Fewer.unstored {s s' : System} (h : Fewer s' s) {d : DownstreamId} {r : RequestId}
    {t : JdToken} (hu : Unstored s d r t) : Unstored s' d r t := by
  constructor
  · cases he : s'.entryAt d t with
    | none => rfl
    | some e =>
      have hold := h.entry d t e he
      rw [hu.entry] at hold
      cases hold
  · cases hj : s'.jobAt d r with
    | none => rfl
    | some job =>
      have hold := h.job d r job hj
      rw [hu.job] at hold
      cases hold

theorem Fewer.awaited {env : Env} {s s' : System} (h : Fewer s' s) {d : DownstreamId}
    {r : RequestId} {dmj : DeclareMiningJob} {t : JdToken} (ha : Awaited env s d r dmj t) :
    Awaited env s' d r dmj t where
  requestId := ha.requestId
  token := ha.token
  preparable := ha.preparable
  inactive := fun hact => ha.inactive (h.activated t hact)
  matched := h.matched ha.matched
  alone := fun q at' dmj' hq => ha.alone q at' dmj' (h.pending d q _ hq)

theorem Fewer.inProgress {s s' : System} (h : Fewer s' s) {w : Declaration}
    (hw : InProgress s w) : InProgress s' w where
  requestId := hw.requestId
  inactive := fun hact => hw.inactive (h.activated _ hact)
  matched := h.matched hw.matched
  noPending := by
    cases hp : s'.pendingAt w.client w.dmj.requestId with
    | none => rfl
    | some x =>
      have hold := h.pending _ _ x hp
      rw [hw.noPending] at hold
      cases hold
  alone := fun q at' dmj' hq => hw.alone q at' dmj' (h.pending _ q _ hq)

theorem Fewer.asking {env : Env} {s s' : System} (h : Fewer s' s) {w : Declaration}
    (ha : Asking env s w) : Asking env s' w :=
  ⟨fun hp => h.unstored (ha.first hp), ha.second⟩

theorem Fewer.stage {env : Env} {s s' : System} (h : Fewer s' s) {task : JdsTask}
    (hs : StageInv env s task) : StageInv env s' task := by
  cases task with
  | validating w => exact h.asking hs
  | ensuring w t previous => exact ⟨h.asking hs.1, hs.2⟩
  | waiting w t previous => exact ⟨h.asking hs.1, hs.2⟩
  | concluding w result =>
    cases result with
    | success => trivial
    | missingTransactions missing => exact hs
    | error code => exact h.unstored hs
    | panic => exact h.unstored hs
  | _ => trivial

/-- A step after which there is less on record, and whose task is accounted for. -/
theorem Accounted.next {env : Env} {s s' : System} (h : Accounted env s) (hf : Fewer s' s)
    (hpaired : ∀ d st, s'.downstreamStates.lookup d = some st → st.Paired)
    (hwork : ∀ w, s'.jds.declaration = some w → InProgress s' w)
    (hstage : StageInv env s' s'.jds) : Accounted env s' := by
  refine ⟨hpaired, ?_, hwork, hstage⟩
  intro d r at' dmj hp
  obtain ⟨t, ht⟩ := h.awaited d r at' dmj (hf.pending d r _ hp)
  exact ⟨t, hf.awaited ht⟩

theorem Accounted.fewer {env : Env} {s s' : System} (h : Accounted env s) (hf : Fewer s' s)
    (hpaired : ∀ d st, s'.downstreamStates.lookup d = some st → st.Paired)
    (hjds : s'.jds = s.jds) : Accounted env s' := by
  refine h.next hf hpaired ?_ ?_
  · intro w hw
    rw [hjds] at hw
    exact hf.inProgress (h.working w hw)
  · rw [hjds]
    exact hf.stage h.stage

/-! ## What a step does to the records -/

theorem System.pendingAt_congr {s s' : System} (h : s'.downstreamClients = s.downstreamClients)
    (d : DownstreamId) (r : RequestId) : s'.pendingAt d r = s.pendingAt d r := by
  simp only [System.pendingAt, h]

theorem System.pendingAt_insert {s s' : System} {client : DownstreamId} {ds : Downstream}
    (h : s'.downstreamClients = s.downstreamClients.insert client ds) (d : DownstreamId)
    (r : RequestId) : s'.pendingAt d r =
      if d = client then ds.pendingDeclareMiningJobs.lookup r else s.pendingAt d r := by
  simp only [System.pendingAt, h, KeyMap.lookup_insert_eq]
  split <;> rfl

theorem Fewer.of_states {s s' : System}
    (hst : ∀ d st', s'.downstreamStates.lookup d = some st' →
      st' = DownstreamState.default ∨
        ∃ st, s.downstreamStates.lookup d = some st ∧ st'.Within st)
    (hpend : ∀ d r x, s'.pendingAt d r = some x → s.pendingAt d r = some x)
    (hact : activatedTokens s'.history = activatedTokens s.history) : Fewer s' s := by
  refine ⟨?_, ?_, hpend, fun t ht => hact ▸ ht⟩
  · intro d t e he
    obtain ⟨st', hst', he'⟩ := Option.bind_eq_some_iff.mp he
    rcases hst d st' hst' with rfl | ⟨st, hold, hw⟩
    · cases he'
    · exact Option.bind_eq_some_iff.mpr ⟨st, hold, hw.entries t e he'⟩
  · intro d r job hj
    obtain ⟨st', hst', hj'⟩ := Option.bind_eq_some_iff.mp hj
    rcases hst d st' hst' with rfl | ⟨st, hold, hw⟩
    · cases hj'
    · exact Option.bind_eq_some_iff.mpr ⟨st, hold, hw.jobs r job hj'⟩

/-- Steps that touch neither the engine's state nor the waiting declarations. -/
theorem Fewer.of_eq {s s' : System} (hst : s'.downstreamStates = s.downstreamStates)
    (hcl : s'.downstreamClients = s.downstreamClients)
    (hact : activatedTokens s'.history = activatedTokens s.history) : Fewer s' s := by
  refine .of_states ?_ ?_ hact
  · intro d st h
    rw [hst] at h
    exact .inr ⟨st, h, .refl st⟩
  · intro d r x h
    rw [System.pendingAt_congr hcl] at h
    exact h

theorem Accounted.paired_eq {env : Env} {s s' : System} (h : Accounted env s)
    (hst : s'.downstreamStates = s.downstreamStates) :
    ∀ d st, s'.downstreamStates.lookup d = some st → st.Paired := by
  rw [hst]
  exact h.paired

/-- The loop has finished with its message and has recorded nothing more. -/
theorem Accounted.rest {env : Env} {s s' : System} (h : Accounted env s)
    (hst : s'.downstreamStates = s.downstreamStates)
    (hcl : s'.downstreamClients = s.downstreamClients)
    (hact : activatedTokens s'.history = activatedTokens s.history)
    (hjds : s'.jds.declaration = none) (hstage : StageInv env s' s'.jds) :
    Accounted env s' := by
  refine h.next (.of_eq hst hcl hact) (h.paired_eq hst) ?_ hstage
  intro w hw
  rw [hjds] at hw
  cases hw

/-- A job and its entry fade together. -/
theorem Accounted.unstored_of_job {env : Env} {s : System} (h : Accounted env s)
    {d : DownstreamId} {r : RequestId} {t : JdToken} (hm : Matched s d r t)
    (hjob : s.jobAt d r = none) : Unstored s d r t := by
  refine ⟨?_, hjob⟩
  cases hentry : s.entryAt d t with
  | none => rfl
  | some e =>
    obtain ⟨st, hst, he⟩ := Option.bind_eq_some_iff.mp hentry
    obtain ⟨job, hj, -⟩ := (h.paired d st hst).entry t e he
    rw [hm.entry e hentry] at hj
    have hsome : s.jobAt d r = some job := Option.bind_eq_some_iff.mpr ⟨st, hst, hj⟩
    rw [hjob] at hsome
    cases hsome

theorem unstored_of_noState {s : System} {d : DownstreamId} (r : RequestId) (t : JdToken)
    (h : s.downstreamStates.lookup d = none) : Unstored s d r t :=
  ⟨by rw [System.entryAt, h]; rfl, by rw [System.jobAt, h]; rfl⟩

/-- An entry of the allocated tokens has not been activated. -/
theorem inactive_of_isAllocated {s : System} (hl : LedgerInv s.ledger) {t : JdToken}
    {d : DownstreamId} (h : s.tokenManager.isAllocated t d = true) :
    t ∉ activatedTokens s.history := by
  obtain ⟨data, hlook, -⟩ := TokenManager.isAllocated_iff.mp h
  intro hact
  have hgone : s.tokenManager.allocatedTokens.lookup t = none := hl.activatedGone t hact
  rw [hlook] at hgone
  cases hgone

theorem System.unrecorded_iff {s : System} {d : DownstreamId} {r : RequestId} {t : JdToken} :
    s.unrecorded d r t = true ↔
      s.pendingAt d r = none ∧
      (∀ q at' dmj, s.pendingAt d q = some (at', dmj) →
        parseToken dmj.miningJobToken ≠ some t) ∧ Unstored s d r t := by
  have hpend : (s.downstreamClients.lookup d).all (fun ds =>
        ds.pendingDeclareMiningJobs.entries.all
          fun e => parseToken e.2.2.miningJobToken != some t) = true ↔
      ∀ q at' dmj, s.pendingAt d q = some (at', dmj) →
        parseToken dmj.miningJobToken ≠ some t := by
    unfold System.pendingAt
    cases s.downstreamClients.lookup d with
    | none => simp
    | some ds =>
      simp only [Option.all_some, List.all_eq_true, Option.bind_some, bne_iff_ne]
      constructor
      · intro h q at' dmj hq
        exact h ⟨q, at', dmj⟩ ((KeyMap.mem_entries_iff _ q _).mpr hq)
      · rintro h ⟨q, at', dmj⟩ he
        exact h q at' dmj ((KeyMap.mem_entries_iff _ q _).mp he)
  unfold System.unrecorded
  rw [Bool.and_eq_true, Bool.and_eq_true, Bool.and_eq_true, hpend]
  simp only [Option.isNone_iff_eq_none]
  constructor
  · rintro ⟨⟨⟨hr, ht⟩, he⟩, hj⟩
    exact ⟨hr, ht, he, hj⟩
  · rintro ⟨hr, ht, he, hj⟩
    exact ⟨⟨⟨hr, ht⟩, he⟩, hj⟩

theorem checking_accounted {env : Env} {s : System} (h : Accounted env s)
    (hl : LedgerInv s.ledger) {client : DownstreamId} {dmj : DeclareMiningJob}
    (hjds : s.jds = .checking client dmj) {response : Option JdResponse} {now : Instant}
    (hok : s.orderly (.jds response now) = true) :
    Accounted env (s.jdsStep env response now) := by
  simp only [System.orderly, hjds] at hok
  unfold System.jdsStep
  simp only [hjds]
  cases hparse : parseToken dmj.miningJobToken with
  | none => exact h.rest rfl rfl rfl rfl trivial
  | some token =>
    rw [hparse] at hok
    dsimp only at hok ⊢
    split
    next hal =>
      rw [hal, Bool.not_true, Bool.false_or] at hok
      obtain ⟨hpend, halone, hun⟩ := System.unrecorded_iff.mp hok
      have hf : Fewer { s with jds := .validating ⟨client, dmj, none, token⟩ } s :=
        .of_eq rfl rfl rfl
      have hun' := hf.unstored hun
      refine h.next hf h.paired ?_ ⟨fun _ => hun', fun hp => absurd rfl hp⟩
      intro w hw
      cases hw
      exact ⟨rfl, inactive_of_isAllocated hl hal, hun'.matched, hpend, halone⟩
    next => exact h.rest rfl rfl rfl rfl trivial

theorem retrying_accounted {env : Env} {s : System} (h : Accounted env s)
    {client : DownstreamId} {msg : ProvideMissingTransactionsSuccess}
    (hjds : s.jds = .retrying client msg) (response : Option JdResponse) (now : Instant) :
    Accounted env (s.jdsStep env response now) := by
  unfold System.jdsStep
  simp only [hjds]
  cases hds : s.downstreamClients.lookup client with
  | none => exact h.rest rfl rfl rfl rfl trivial
  | some ds =>
    dsimp only
    cases hpend : ds.pendingDeclareMiningJobs.lookup msg.requestId with
    | none => exact h.rest rfl rfl rfl rfl trivial
    | some e =>
      obtain ⟨at', dmj⟩ := e
      have hat : s.pendingAt client msg.requestId = some (at', dmj) :=
        Option.bind_eq_some_iff.mpr ⟨ds, hds, hpend⟩
      obtain ⟨t, ht⟩ := h.awaited client msg.requestId at' dmj hat
      dsimp only
      rw [ht.token]
      dsimp only
      -- the declaration is taken out of the waiting ones
      have hfew : ∀ s' : System, s'.downstreamStates = s.downstreamStates →
          s'.downstreamClients =
            s.downstreamClients.insert client ⟨ds.pendingDeclareMiningJobs.erase msg.requestId⟩ →
          s'.history = s.history →
          Fewer s' s ∧ s'.pendingAt client msg.requestId = none := by
        intro s' hst hcl hhist
        have hlook := System.pendingAt_insert hcl
        refine ⟨.of_states ?_ ?_ (by rw [hhist]), ?_⟩
        · intro d st hd
          rw [hst] at hd
          exact .inr ⟨st, hd, .refl st⟩
        · intro d r x hx
          rw [hlook] at hx
          split at hx
          next heq =>
            rw [heq]
            exact Option.bind_eq_some_iff.mpr ⟨ds, hds, KeyMap.lookup_erase_some hx⟩
          next => exact hx
        · rw [hlook, if_pos rfl]
          exact AList.lookup_erase _ _
      obtain ⟨hf, hnone⟩ := hfew { s with
        downstreamClients := s.downstreamClients.insert client
          ⟨ds.pendingDeclareMiningJobs.erase msg.requestId⟩
        jds := .validating ⟨client, dmj, some msg, t⟩ } rfl rfl rfl
      refine h.next hf h.paired ?_ ⟨(by intro hp; cases hp), fun _ => ht.preparable⟩
      intro w hw
      cases hw
      refine ⟨ht.requestId.symm, ht.inactive, ?_, ?_, ?_⟩
      · show Matched _ client dmj.requestId t
        rw [ht.requestId]
        exact hf.matched ht.matched
      · show System.pendingAt _ client dmj.requestId = none
        rw [ht.requestId]
        exact hnone
      · intro q at'' dmj' hq htok
        have hqr := ht.alone q at'' dmj' (hf.pending client q _ hq) htok
        rw [hqr] at hq
        cases hnone.symm.trans hq

theorem prepareDeclareMiningJob_eq_error {env : Env} {dmj : DeclareMiningJob}
    {provided : Option ProvideMissingTransactionsSuccess} {result : DeclareMiningJobResult}
    (h : prepareDeclareMiningJob env.rb dmj provided = .error result) :
    result = .panic ∨ ∃ code, result = .error code := by
  unfold prepareDeclareMiningJob at h
  split at h
  next => cases h; exact .inr ⟨_, rfl⟩
  next =>
    split at h
    next => cases h; exact .inl rfl
    next => cases h; exact .inr ⟨_, rfl⟩
    next =>
      split at h
      · cases h
        exact .inr ⟨_, rfl⟩
      · cases h

theorem validating_accounted {env : Env} {s : System} (h : Accounted env s)
    (hd : DeclarationInv s) {w : Declaration} (hjds : s.jds = .validating w)
    (response : Option JdResponse) (now : Instant) :
    Accounted env (s.jdsStep env response now) := by
  have hstage : Asking env s w := by
    have := h.stage
    rw [hjds] at this
    exact this
  have hwork := h.working w (by rw [hjds]; rfl)
  unfold System.jdsStep
  simp only [hjds]
  cases hprep : prepareDeclareMiningJob env.rb w.dmj w.provided with
  | error result =>
    have hfirst : w.provided = none := by
      by_contra hp
      exact (hstage.second hp).ne_error _ _ hprep
    have hf : Fewer { s with jds := .concluding w result } s := .of_eq rfl rfl rfl
    have hun := hf.unstored (hstage.first hfirst)
    refine h.next hf h.paired ?_ ?_
    · intro v hv
      cases hv
      exact hf.inProgress hwork
    · rcases prepareDeclareMiningJob_eq_error hprep with rfl | ⟨code, rfl⟩
      · exact hun
      · exact hun
  | ok p =>
    obtain ⟨t, req⟩ := p
    have htok := (hd.working w (by rw [hjds]; rfl)).1
    have ht := (prepareDeclareMiningJob_eq_ok hprep).1
    dsimp only
    have hf : Fewer { s with jds := .ensuring w t (previousPendingValidationContext
        s.downstreamStates w.client w.dmj w.provided) } s := .of_eq rfl rfl rfl
    refine h.next hf h.paired ?_ ⟨hf.asking hstage, ?_, .of_ok hprep⟩
    · intro v hv
      cases hv
      exact hf.inProgress hwork
    · exact Option.some.inj (ht.symm.trans htok)

theorem ensuring_accounted {env : Env} {s : System} (h : Accounted env s) {w : Declaration}
    {t : JdToken} {previous : Option ValidationContext} (hjds : s.jds = .ensuring w t previous)
    (response : Option JdResponse) (now : Instant) :
    Accounted env (s.jdsStep env response now) := by
  have hstage : Asking env s w ∧ t = w.token ∧ Preparable env w.dmj := by
    have := h.stage
    rw [hjds] at this
    exact this
  have hwork := h.working w (by rw [hjds]; rfl)
  unfold System.jdsStep
  simp only [hjds]
  have hstates : ∀ d st', (KeyMap.ensure w.client DownstreamState.default
        s.downstreamStates).lookup d = some st' →
      st' = DownstreamState.default ∨ s.downstreamStates.lookup d = some st' := by
    intro d st' hlook
    rw [KeyMap.lookup_ensure] at hlook
    split at hlook
    next heq =>
      subst heq
      cases hst : s.downstreamStates.lookup w.client with
      | none => rw [hst] at hlook; cases hlook; exact .inl rfl
      | some st => rw [hst] at hlook; cases hlook; exact .inr rfl
    next => exact .inr hlook
  have hf : Fewer { s with
      downstreamStates := KeyMap.ensure w.client DownstreamState.default s.downstreamStates
      jds := .waiting w t previous } s := by
    refine .of_states ?_ (fun _ _ _ hx => hx) rfl
    intro d st' hlook
    rcases hstates d st' hlook with hdef | hold
    · exact .inl hdef
    · exact .inr ⟨st', hold, .refl st'⟩
  refine h.next hf ?_ ?_ ⟨hf.asking hstage.1, hstage.2⟩
  · intro d st' hlook
    rcases hstates d st' hlook with rfl | hold
    · exact DownstreamState.paired_default
    · exact h.paired d st' hold
  · intro v hv
    cases hv
    exact hf.inProgress hwork

/-- The state of the system after the engine has stored the job of `w`. -/
def System.stored (s : System) (w : Declaration) (st : DownstreamState)
    (job : DeclaredCustomJob) (now : Instant) (result : DeclareMiningJobResult) : System :=
  { s with
    downstreamStates := s.downstreamStates.insert w.client
      (st.insertDeclaredCustomJob w.dmj.requestId w.token job now)
    jds := .concluding w result }

theorem System.entryAt_stored {s : System} {w : Declaration} {st : DownstreamState}
    (hst : s.downstreamStates.lookup w.client = some st) (job : DeclaredCustomJob)
    (now : Instant) (result : DeclareMiningJobResult) (d : DownstreamId) (t : JdToken) :
    (s.stored w st job now result).entryAt d t =
      if d = w.client ∧ t = w.token then some ⟨w.dmj.requestId, now⟩ else s.entryAt d t := by
  simp only [System.entryAt, System.stored, KeyMap.lookup_insert_eq]
  by_cases hd : d = w.client
  · subst hd
    simp only [if_true, Option.bind_some, DownstreamState.insertDeclaredCustomJob,
      KeyMap.lookup_insert_eq, hst, true_and]
  · simp only [hd, false_and, if_false]

theorem System.jobAt_stored {s : System} {w : Declaration} {st : DownstreamState}
    (hst : s.downstreamStates.lookup w.client = some st) (job : DeclaredCustomJob)
    (now : Instant) (result : DeclareMiningJobResult) (d : DownstreamId) (r : RequestId) :
    (s.stored w st job now result).jobAt d r =
      if d = w.client ∧ r = w.dmj.requestId then some job else s.jobAt d r := by
  simp only [System.jobAt, System.stored, KeyMap.lookup_insert_eq]
  by_cases hd : d = w.client
  · subst hd
    simp only [if_true, Option.bind_some, DownstreamState.insertDeclaredCustomJob,
      KeyMap.lookup_insert_eq, hst, true_and]
  · simp only [hd, false_and, if_false]

theorem Accounted.store {env : Env} {s : System} (h : Accounted env s) {w : Declaration}
    (hwork : InProgress s w) {st : DownstreamState}
    (hst : s.downstreamStates.lookup w.client = some st) {job : DeclaredCustomJob}
    (htok : job.token = some w.token) (now : Instant) {result : DeclareMiningJobResult}
    (hstage : StageInv env (s.stored w st job now result) (.concluding w result)) :
    Accounted env (s.stored w st job now result) := by
  have hentry := System.entryAt_stored hst job now result
  have hjob := System.jobAt_stored hst job now result
  have hown : Matched (s.stored w st job now result) w.client w.dmj.requestId w.token := by
    constructor
    · intro j hj
      rw [hjob, if_pos ⟨rfl, rfl⟩] at hj
      cases hj
      exact htok
    · intro e he
      rw [hentry, if_pos ⟨rfl, rfl⟩] at he
      cases he
      rfl
  refine ⟨?_, ?_, ?_, hstage⟩
  · intro d st' hlook
    simp only [System.stored, KeyMap.lookup_insert_eq] at hlook
    split at hlook
    next heq =>
      subst heq
      cases hlook
      refine (h.paired w.client st hst).insert htok ?_ ?_ now
      · intro old hold
        exact hwork.matched.job old (Option.bind_eq_some_iff.mpr ⟨st, hst, hold⟩)
      · intro e he
        exact hwork.matched.entry e (Option.bind_eq_some_iff.mpr ⟨st, hst, he⟩)
    next => exact h.paired d st' hlook
  · intro d r at' dmj hp
    have hp' : s.pendingAt d r = some (at', dmj) := hp
    obtain ⟨t, ht⟩ := h.awaited d r at' dmj hp'
    refine ⟨t, ht.requestId, ht.token, ht.preparable, ht.inactive, ⟨?_, ?_⟩, ht.alone⟩
    · intro j hj
      have hne : ¬ (d = w.client ∧ r = w.dmj.requestId) := by
        rintro ⟨rfl, rfl⟩
        cases hwork.noPending.symm.trans hp'
      rw [hjob, if_neg hne] at hj
      exact ht.matched.job j hj
    · intro e he
      have hne : ¬ (d = w.client ∧ t = w.token) := by
        rintro ⟨rfl, rfl⟩
        exact hwork.alone r at' dmj hp' ht.token
      rw [hentry, if_neg hne] at he
      exact ht.matched.entry e he
  · intro v hv
    cases hv
    exact ⟨hwork.requestId, hwork.inactive, hown, hwork.noPending, hwork.alone⟩

/-- The engine drops what it has of a declaration. -/
theorem Accounted.drop {env : Env} {s : System} (h : Accounted env s) {w : Declaration}
    (hwork : InProgress s w) (code : DeclareMiningJobErrorCode) :
    Accounted env { s with
      downstreamStates := dropDeclaredJob s.downstreamStates w.client w.dmj.requestId w.token
      jds := .concluding w (.error code) } := by
  have hlook : ∀ d, (dropDeclaredJob s.downstreamStates w.client w.dmj.requestId
      w.token).lookup d = if d = w.client then (s.downstreamStates.lookup w.client).map
        (fun st => st.removeDeclaredCustomJob w.dmj.requestId w.token)
      else s.downstreamStates.lookup d := fun d => KeyMap.lookup_modify _ _ d _
  have hf : Fewer { s with
      downstreamStates := dropDeclaredJob s.downstreamStates w.client w.dmj.requestId w.token
      jds := .concluding w (.error code) } s := by
    refine .of_states ?_ (fun _ _ _ hx => hx) rfl
    intro d st' hd
    dsimp only at hd
    rw [hlook] at hd
    split at hd
    next heq =>
      subst heq
      obtain ⟨st, hst, rfl⟩ := Option.map_eq_some_iff.mp hd
      exact .inr ⟨st, hst, removeDeclaredCustomJob_within st _ _⟩
    next => exact .inr ⟨st', hd, .refl st'⟩
  refine h.next hf ?_ ?_ ?_
  · intro d st' hd
    dsimp only at hd
    rw [hlook] at hd
    split at hd
    next heq =>
      subst heq
      obtain ⟨st, hst, rfl⟩ := Option.map_eq_some_iff.mp hd
      refine (h.paired w.client st hst).remove ?_ ?_
      · intro old hold
        exact hwork.matched.job old (Option.bind_eq_some_iff.mpr ⟨st, hst, hold⟩)
      · intro e he
        exact hwork.matched.entry e (Option.bind_eq_some_iff.mpr ⟨st, hst, he⟩)
    next => exact h.paired d st' hd
  · intro v hv
    cases hv
    exact hf.inProgress hwork
  · constructor
    · simp only [System.entryAt, hlook, if_true]
      cases s.downstreamStates.lookup w.client with
      | none => rfl
      | some st => exact AList.lookup_erase _ _
    · simp only [System.jobAt, hlook, if_true]
      cases s.downstreamStates.lookup w.client with
      | none => rfl
      | some st => exact AList.lookup_erase _ _

theorem waiting_accounted {env : Env} {s : System} (h : Accounted env s)
    (hd : DeclarationInv s) {w : Declaration} {t : JdToken}
    {previous : Option ValidationContext} (hjds : s.jds = .waiting w t previous)
    {response : Option JdResponse} {now : Instant}
    (hok : s.orderly (.jds response now) = true) :
    Accounted env (s.jdsStep env response now) := by
  obtain ⟨hasking, rfl, hprep⟩ :
      Asking env s w ∧ t = w.token ∧ Preparable env w.dmj := by
    have := h.stage
    rw [hjds] at this
    exact this
  have hcur : s.jds.declaration = some w := by rw [hjds]; rfl
  have hwork := h.working w hcur
  have htok : parseToken w.dmj.miningJobToken = some w.token := (hd.working w hcur).1
  -- nothing is stored, and nothing was
  have hsame : ∀ code, Unstored s w.client w.dmj.requestId w.token →
      Accounted env { s with jds := .concluding w (.error code) } := by
    intro code hun
    have hf : Fewer { s with jds := .concluding w (.error code) } s := .of_eq rfl rfl rfl
    refine h.next hf h.paired ?_ (hf.unstored hun)
    intro v hv
    cases hv
    exact hf.inProgress hwork
  have hnone : ∀ job : DeclaredCustomJob, storeDeclaredJob s.downstreamStates w.client w.token
      job now = none → Unstored s w.client w.dmj.requestId w.token := by
    intro job hs
    unfold storeDeclaredJob at hs
    split at hs
    next hst => exact unstored_of_noState _ _ hst
    next => cases hs
  simp only [System.orderly, hjds] at hok
  unfold System.jdsStep
  simp only [hjds]
  unfold applyJdResponse
  rcases response with _ | ⟨prevHash, nbits, txids⟩ | ⟨code, ctx⟩ | ⟨missing, ctx⟩
  · -- the request is lost
    refine hsame _ ?_
    simp only [Bool.or_eq_true, Option.isNone_iff_eq_none] at hok
    rcases hok with hfirst | hjob
    · exact hasking.first hfirst
    · exact h.unstored_of_job hwork.matched hjob
  · dsimp only
    split
    next hs => exact hsame _ (hnone _ hs)
    next states' hs =>
      obtain ⟨st, hst, rfl⟩ := storeDeclaredJob_eq_some hs
      have hstored : Accounted env
          (s.stored w st ⟨w.dmj, ⟨prevHash, nbits⟩, some txids, true⟩ now .success) := by
        refine h.store hwork hst ?_ now trivial
        exact htok
      exact hstored
  · exact h.drop hwork _
  · dsimp only at hok ⊢
    split
    · exact h.drop hwork _
    next hdrift =>
      split
      next hs => exact hsame _ (hnone _ hs)
      next states' hs =>
        obtain ⟨st, hst, rfl⟩ := storeDeclaredJob_eq_some hs
        have hfirst : w.provided = none := by
          rw [hst] at hok
          cases hp : w.provided with
          | none => rfl
          | some msg =>
            rw [hp] at hok hdrift
            simp only [Option.isSome_some, Bool.true_and] at hdrift
            simp [hdrift] at hok
        have hstored : Accounted env
            (s.stored w st ⟨w.dmj, ctx, none, false⟩ now (.missingTransactions missing)) := by
          refine h.store hwork hst ?_ now ⟨hfirst, hprep⟩
          exact htok
        exact hstored

/-- A first round that misses transactions is kept for the retry. -/
theorem Accounted.await {env : Env} {s s' : System} (h : Accounted env s)
    {w : Declaration} (hwork : InProgress s w) (hprep : Preparable env w.dmj)
    (htok : parseToken w.dmj.miningJobToken = some w.token) {ds : Downstream}
    (hds : s.downstreamClients.lookup w.client = some ds) {now : Instant}
    (hst : s'.downstreamStates = s.downstreamStates) (hhist : s'.history = s.history)
    (hcl : s'.downstreamClients = s.downstreamClients.insert w.client
      ⟨ds.pendingDeclareMiningJobs.insert w.dmj.requestId (now, w.dmj)⟩)
    (hjds : s'.jds.declaration = none) (hstage : StageInv env s' s'.jds) :
    Accounted env s' := by
  have hpend : ∀ d r, s'.pendingAt d r =
      if d = w.client ∧ r = w.dmj.requestId then some (now, w.dmj) else s.pendingAt d r := by
    intro d r
    rw [System.pendingAt_insert hcl]
    by_cases hd : d = w.client
    · subst hd
      rw [if_pos rfl, KeyMap.lookup_insert_eq]
      simp only [true_and, System.pendingAt, hds, Option.bind_some]
    · simp only [hd, false_and, if_false]
  have hmatched : ∀ d r t, Matched s d r t → Matched s' d r t := by
    intro d r t hm
    constructor
    · simp only [System.jobAt, hst]
      exact hm.job
    · simp only [System.entryAt, hst]
      exact hm.entry
  refine ⟨h.paired_eq hst, ?_, ?_, hstage⟩
  · intro d r at' dmj hp
    rw [hpend] at hp
    split at hp
    next heq =>
      obtain ⟨rfl, rfl⟩ := heq
      cases hp
      refine ⟨w.token, rfl, htok, hprep, hhist ▸ hwork.inactive, hmatched _ _ _ hwork.matched, ?_⟩
      intro q at'' dmj' hq htok'
      rw [hpend] at hq
      split at hq
      next heq => exact heq.2
      next => exact absurd htok' (hwork.alone q at'' dmj' hq)
    next hne =>
      obtain ⟨t, ht⟩ := h.awaited d r at' dmj hp
      refine ⟨t, ht.requestId, ht.token, ht.preparable, hhist ▸ ht.inactive,
        hmatched _ _ _ ht.matched, ?_⟩
      intro q at'' dmj' hq htok'
      rw [hpend] at hq
      split at hq
      next heq =>
        -- the token of the new declaration waits nowhere else
        obtain ⟨rfl, rfl⟩ := heq
        cases hq
        rw [htok] at htok'
        cases htok'
        exact absurd ht.token (hwork.alone r at' dmj hp)
      next => exact ht.alone q at'' dmj' hq htok'
  · intro v hv
    rw [hjds] at hv
    cases hv

theorem concluding_accounted {env : Env} {s : System} (h : Accounted env s)
    (hd : DeclarationInv s) {w : Declaration} {result : DeclareMiningJobResult}
    (hjds : s.jds = .concluding w result) (response : Option JdResponse) (now : Instant) :
    Accounted env (s.jdsStep env response now) := by
  have hcur : s.jds.declaration = some w := by rw [hjds]; rfl
  have hwork := h.working w hcur
  have htok := (hd.working w hcur).1
  unfold System.jdsStep System.conclude
  simp only [hjds]
  cases result with
  | success =>
    dsimp only
    cases hrem : s.tokenManager.activateRemove w.token w.client with
    | none => exact h.rest rfl rfl rfl rfl trivial
    | some p =>
      have hf : Fewer { s with tokenManager := p.2, jds := .activating w p.1 } s :=
        .of_eq rfl rfl rfl
      refine h.next hf h.paired ?_ trivial
      intro v hv
      cases hv
      exact hf.inProgress hwork
  | error code => exact h.rest rfl rfl rfl rfl trivial
  | missingTransactions missing =>
    obtain ⟨hfirst, hprep⟩ : w.provided = none ∧ Preparable env w.dmj := by
      have := h.stage
      rw [hjds] at this
      exact this
    dsimp only
    rw [hfirst]
    dsimp only
    cases hds : s.downstreamClients.lookup w.client with
    | none => exact h.rest rfl rfl rfl rfl trivial
    | some ds =>
      dsimp only
      split
      · exact h.await hwork hprep htok hds rfl rfl rfl rfl trivial
      · exact h.await hwork hprep htok hds rfl rfl rfl rfl trivial
  | panic => exact h.rest rfl rfl rfl rfl trivial

theorem activating_accounted {env : Env} {s : System} (h : Accounted env s)
    (hl : LedgerInv s.ledger) (hd : DeclarationInv s) {w : Declaration}
    {data : AllocatedTokenData} (hjds : s.jds = .activating w data)
    (response : Option JdResponse) (now : Instant) :
    Accounted env (s.jdsStep env response now) := by
  have hcur : s.jds.declaration = some w := by rw [hjds]; rfl
  have hwork := h.working w hcur
  obtain ⟨-, u, hu⟩ := hd.working w hcur
  unfold System.jdsStep
  simp only [hjds]
  refine ⟨h.paired, ?_, (fun v hv => by cases hv), trivial⟩
  intro d r at' dmj hp
  have hp' : s.pendingAt d r = some (at', dmj) := hp
  obtain ⟨t, ht⟩ := h.awaited d r at' dmj hp'
  refine ⟨t, ht.requestId, ht.token, ht.preparable, ?_, ⟨ht.matched.job, ht.matched.entry⟩,
    ht.alone⟩
  intro hact
  rcases List.mem_cons.mp hact with rfl | hold
  · -- the activated token waits at no client
    obtain ⟨ds, hds, hr⟩ := Option.bind_eq_some_iff.mp hp'
    obtain ⟨t', htok', v, hv⟩ := hd.pending d dmj ⟨ds, r, at', hds, hr⟩
    rw [ht.token] at htok'
    cases htok'
    have heq := hl.issue_eq hu hv rfl
    cases heq
    exact hwork.alone r at' dmj hp' ht.token
  · exact ht.inactive hold

theorem jdsStep_accounted {env : Env} {s : System} (h : Accounted env s)
    (hl : LedgerInv s.ledger) (hd : DeclarationInv s) {response : Option JdResponse}
    {now : Instant} (hok : s.orderly (.jds response now) = true) :
    Accounted env (s.jdsStep env response now) := by
  cases hjds : s.jds with
  | idle => simpa only [System.jdsStep, hjds] using h
  | stopped => simpa only [System.jdsStep, hjds] using h
  | answering client a =>
    simp only [System.jdsStep, hjds]
    split <;> exact h.rest rfl rfl rfl rfl trivial
  | checking client dmj => exact checking_accounted h hl hjds hok
  | retrying client msg => exact retrying_accounted h hjds response now
  | validating w => exact validating_accounted h hd hjds response now
  | ensuring w t previous => exact ensuring_accounted h hjds response now
  | waiting w t previous => exact waiting_accounted h hd hjds hok
  | concluding w result => exact concluding_accounted h hd hjds response now
  | activating w data => exact activating_accounted h hl hd hjds response now

theorem receive_accounted (env : Env) {s : System} (h : Accounted env s)
    (client : DownstreamId) (msg : JobDeclarationMessage) (now : Instant) :
    Accounted env (s.receive env client msg now) := by
  unfold System.receive
  cases hjds : s.jds with
  | idle =>
    cases msg with
    | allocateMiningJobToken m => exact h.rest rfl rfl rfl rfl trivial
    | declareMiningJob m =>
      dsimp only
      split
      · exact h
      · exact h.rest rfl rfl rfl rfl trivial
    | provideMissingTransactionsSuccess m =>
      dsimp only
      split
      · exact h
      · exact h.rest rfl rfl rfl rfl trivial
  | _ => exact h

theorem poolStep_accounted {env : Env} {s : System} (h : Accounted env s) :
    Accounted env (s.poolStep env) := by
  unfold System.poolStep
  cases hpool : s.pool with
  | idle => exact h
  | stopped => exact h
  | deactivating p => exact h.fewer (.of_eq rfl rfl rfl) h.paired rfl
  | taking p =>
    have hstates : ∀ d st', (handleSetCustomMiningJob env.rb s.downstreamStates p.data.owner
          p.msg p.data.allocatedToken).2.lookup d = some st' →
        ∃ st, s.downstreamStates.lookup d = some st ∧ st'.Within st ∧ st'.Paired := by
      intro d st' hlook
      rw [handleSetCustomMiningJob_states] at hlook
      cases hst : s.downstreamStates.lookup p.data.owner with
      | none =>
        rw [hst] at hlook
        exact ⟨st', hlook, .refl st', h.paired d st' hlook⟩
      | some st =>
        rw [hst] at hlook
        dsimp only at hlook
        rw [KeyMap.lookup_insert_eq] at hlook
        split at hlook
        next heq =>
          subst heq
          cases hlook
          exact ⟨st, hst, takeDeclaredCustomJob_within st _, (h.paired _ st hst).take _⟩
        next => exact ⟨st', hlook, .refl st', h.paired d st' hlook⟩
    have hbase : ∀ s' : System, s'.downstreamStates = (handleSetCustomMiningJob env.rb
          s.downstreamStates p.data.owner p.msg p.data.allocatedToken).2 →
        s'.downstreamClients = s.downstreamClients → s'.history = s.history →
        s'.jds = s.jds → Accounted env s' := by
      intro s' hst hcl hhist hj
      refine h.fewer (.of_states ?_ ?_ (by rw [hhist])) ?_ hj
      · intro d st' hd
        rw [hst] at hd
        obtain ⟨st, hold, hw, -⟩ := hstates d st' hd
        exact .inr ⟨st, hold, hw⟩
      · intro d r x hx
        rw [System.pendingAt_congr hcl] at hx
        exact hx
      · intro d st' hd
        rw [hst] at hd
        obtain ⟨-, -, -, hp⟩ := hstates d st' hd
        exact hp
    dsimp only
    split
    · exact hbase _ rfl rfl rfl rfl
    · exact hbase _ rfl rfl rfl rfl
    · exact hbase _ rfl rfl rfl rfl

theorem present_accounted {env : Env} {s : System} (h : Accounted env s)
    (msg : SetCustomMiningJob) (u : Identity) : Accounted env (s.present msg u) := by
  unfold System.present
  split
  · split
    · exact h.fewer (.of_eq rfl rfl rfl) h.paired rfl
    · split
      · exact h.fewer (.of_eq rfl rfl rfl) h.paired rfl
      · split
        · exact h.fewer (.of_eq rfl rfl rfl) h.paired rfl
        · exact h.fewer (.of_eq rfl rfl rfl) h.paired rfl
  · exact h

theorem accounted_step {env : Env} {s : System} (h : Accounted env s)
    (hl : LedgerInv s.ledger) (hd : DeclarationInv s) {a : Action}
    (hok : s.orderly a = true) : Accounted env (s.step env a) := by
  -- the waiting declarations of one client shrink, or are new and empty
  have hclients : ∀ s' : System, s'.downstreamStates = s.downstreamStates →
      s'.history = s.history → s'.jds = s.jds →
      (∀ d r x, s'.pendingAt d r = some x → s.pendingAt d r = some x) → Accounted env s' := by
    intro s' hst hhist hj hp
    refine h.fewer (.of_states ?_ hp (by rw [hhist])) (h.paired_eq hst) hj
    intro d st hlook
    rw [hst] at hlook
    exact .inr ⟨st, hlook, .refl st⟩
  cases a with
  | receive client msg now => exact receive_accounted env h client msg now
  | jds response now => exact jdsStep_accounted h hl hd hok
  | present msg u => exact present_accounted h msg u
  | pool => exact poolStep_accounted h
  | connect =>
    refine hclients _ rfl rfl rfl ?_
    intro d r x hx
    rw [System.pendingAt_insert rfl] at hx
    split at hx
    · cases hx
    · exact hx
  | cleanupClient d =>
    refine hclients _ rfl rfl rfl ?_
    intro e r x hx
    obtain ⟨ds, hds, hr⟩ := Option.bind_eq_some_iff.mp hx
    exact Option.bind_eq_some_iff.mpr ⟨ds, KeyMap.lookup_erase_some hds, hr⟩
  | janitorPending d shard now =>
    refine hclients _ rfl rfl rfl ?_
    intro e r x hx
    obtain ⟨ds, hds, hr⟩ := Option.bind_eq_some_iff.mp hx
    simp only [System.step, KeyMap.lookup_modify] at hds
    split at hds
    next heq =>
      subst heq
      obtain ⟨ds₀, hds₀, rfl⟩ := Option.map_eq_some_iff.mp hds
      exact Option.bind_eq_some_iff.mpr ⟨ds₀, hds₀, KeyMap.lookup_retain_some hr⟩
    next => exact Option.bind_eq_some_iff.mpr ⟨ds, hds, hr⟩
  | cleanupState d =>
    have hstates : ∀ e st, (s.downstreamStates.erase d).lookup e = some st →
        s.downstreamStates.lookup e = some st := fun e st => KeyMap.lookup_erase_some
    refine h.fewer (.of_states ?_ (fun _ _ _ hx => hx) rfl) ?_ rfl
    · intro e st hlook
      exact .inr ⟨st, hstates e st hlook, .refl st⟩
    · intro e st hlook
      exact h.paired e st (hstates e st hlook)
  | janitorDeclared d now =>
    have hstates : ∀ e st', (KeyMap.modify d (fun st => st.pruneExpiredAllocations now)
          s.downstreamStates).lookup e = some st' →
        ∃ st, s.downstreamStates.lookup e = some st ∧ st'.Within st ∧ st'.Paired := by
      intro e st' hlook
      rw [KeyMap.lookup_modify] at hlook
      split at hlook
      next heq =>
        subst heq
        obtain ⟨st, hst, rfl⟩ := Option.map_eq_some_iff.mp hlook
        exact ⟨st, hst, pruneExpiredAllocations_within st now, (h.paired _ st hst).prune now⟩
      next => exact ⟨st', hlook, .refl st', h.paired e st' hlook⟩
    refine h.fewer (.of_states ?_ (fun _ _ _ hx => hx) rfl) ?_ rfl
    · intro e st' hlook
      obtain ⟨st, hst, hw, -⟩ := hstates e st' hlook
      exact .inr ⟨st, hst, hw⟩
    · intro e st' hlook
      obtain ⟨-, -, -, hp⟩ := hstates e st' hlook
      exact hp
  | cleanupSender | cleanupAllocated | cleanupActive | janitorAllocated | janitorActive =>
    exact h.fewer (.of_eq rfl rfl rfl) h.paired rfl

/-! ## After an error answer -/

/-- Nothing of the declaration is left. -/
structure Forgotten (s : System) (w : Declaration) : Prop where
  notAllocated : s.tokenManager.allocatedTokens.lookup w.token = none
  notActive : s.tokenManager.activeTokens.lookup w.token = none
  notActivated : ∀ t data, s.tokenManager.activeTokens.lookup t = some data →
    data.allocatedToken ≠ w.token
  notPending : s.pendingAt w.client w.requestId = none
  unstored : Unstored s w.client w.dmj.requestId w.token

/-- The records that an error answer leaves alone hold nothing of the declaration. -/
theorem InProgress.forgotten {s s' : System} {w : Declaration} (h : InProgress s w)
    (hl : LedgerInv s.ledger) (hal : AllocatedTo s w.token w.client)
    (hun : Unstored s w.client w.dmj.requestId w.token)
    (hst : s'.downstreamStates = s.downstreamStates)
    (hcl : s'.downstreamClients = s.downstreamClients)
    (hact : s'.tokenManager.activeTokens = s.tokenManager.activeTokens)
    (hnone : s'.tokenManager.allocatedTokens.lookup w.token = none) : Forgotten s' w := by
  obtain ⟨u, hu⟩ := hal
  refine ⟨hnone, ?_, ?_, ?_, ⟨?_, ?_⟩⟩
  · rw [hact]
    cases hlook : s.tokenManager.activeTokens.lookup w.token with
    | none => rfl
    | some data => cases hl.issue_eq hu (hl.active w.token data hlook) rfl
  · intro t data hlook heq
    rw [hact] at hlook
    apply h.inactive
    rw [← heq]
    exact List.mem_filterMap.mpr ⟨_, hl.active t data hlook, rfl⟩
  · rw [System.pendingAt_congr hcl, h.requestId]
    exact h.noPending
  · simp only [System.entryAt, hst]
    exact hun.entry
  · simp only [System.jobAt, hst]
    exact hun.job

theorem forgotten_of_rejected {env : Env} {s : System} (h : Accounted env s)
    (hl : LedgerInv s.ledger) (hd : DeclarationInv s) {w : Declaration}
    {result : DeclareMiningJobResult} (hjds : s.jds = .concluding w result)
    {response : Option JdResponse} {now : Instant} {code : DeclareMiningJobErrorCode}
    (hok : s.orderly (.jds response now) = true)
    (hsent : (s.jdsStep env response now).sent =
      (w.client, .declareMiningJobError w.requestId code) :: s.sent) :
    Forgotten (s.jdsStep env response now) w := by
  have hcur : s.jds.declaration = some w := by rw [hjds]; rfl
  have hwork := h.working w hcur
  have hal := (hd.working w hcur).2
  have hstage : StageInv env s (.concluding w result) := hjds ▸ h.stage
  have hsilent : ∀ x : DownstreamId × JobDeclarationAnswer, s.sent ≠ x :: s.sent :=
    fun x hx => List.cons_ne_self x s.sent hx.symm
  simp only [System.orderly, hjds] at hok
  unfold System.jdsStep System.conclude at hsent ⊢
  simp only [hjds] at hsent ⊢
  cases result with
  | success =>
    dsimp only at hsent ⊢
    cases hrem : s.tokenManager.activateRemove w.token w.client with
    | some p =>
      rw [hrem] at hsent
      exact absurd hsent (hsilent _)
    | none =>
      -- the token has gone since it was checked; so, the condition says, has the job
      have hnone : s.tokenManager.allocatedTokens.lookup w.token = none := by
        cases hlook : s.tokenManager.allocatedTokens.lookup w.token with
        | none => rfl
        | some data =>
          have howner := owner_of_allocatedTo hl hal hlook
          simp [TokenManager.activateRemove, KeyMap.removeIf, hlook, howner] at hrem
      have hjob : s.jobAt w.client w.dmj.requestId = none := by
        simpa [TokenManager.isAllocated, hnone] using hok
      exact hwork.forgotten hl hal (h.unstored_of_job hwork.matched hjob) rfl rfl rfl hnone
  | error c =>
    refine hwork.forgotten hl hal hstage rfl rfl rfl ?_
    exact AList.lookup_erase _ _
  | missingTransactions missing =>
    dsimp only at hsent ⊢
    rw [hstage.1] at hsent
    dsimp only at hsent
    split at hsent
    · exact absurd hsent (hsilent _)
    · split at hsent
      · simp [System.answer] at hsent
      · exact absurd hsent (hsilent _)
  | panic => exact absurd hsent (hsilent _)

/-! ## Whom a stored job belongs to -/

/-- The job of request `r` belongs to a token `t` that is active, or whose missing
    transactions are awaited, or that a task is handling right now. -/
inductive Claimed (s : System) (d : DownstreamId) (r : RequestId) (t : JdToken) : Prop where
  | active (a : JdToken) (data : ActiveTokenData)
      (hlook : s.tokenManager.activeTokens.lookup a = some data) (howner : data.owner = d)
      (htoken : data.allocatedToken = t)
  | awaited (at' : Instant) (dmj : DeclareMiningJob)
      (hlook : s.pendingAt d r = some (at', dmj))
      (htoken : parseToken dmj.miningJobToken = some t)
  | handled (w : Declaration) (hjds : s.jds.declaration = some w) (hclient : w.client = d)
      (htoken : w.token = t)
  | presented (p : Presentation) (hpool : s.pool = .taking p) (howner : p.data.owner = d)
      (htoken : p.data.allocatedToken = t)

/-- The janitor that removes active tokens, or waiting declarations, after their time. -/
def Action.expires : Action → Bool
  | .janitorActive _ _ => true
  | .janitorPending _ _ _ => true
  | _ => false

/-- A part of the clean-up after the connection of `d`. -/
def Action.disconnects (a : Action) (d : DownstreamId) : Bool :=
  match a with
  | .cleanupClient e => e == d
  | .cleanupSender e => e == d
  | .cleanupState e => e == d
  | .cleanupAllocated e _ => e == d
  | .cleanupActive e _ => e == d
  | _ => false

theorem Claimed.mono {s s' : System} {d : DownstreamId} {r : RequestId} {t : JdToken}
    (h : Claimed s d r t)
    (hact : ∀ a data, s.tokenManager.activeTokens.lookup a = some data → data.owner = d →
      s'.tokenManager.activeTokens.lookup a = some data)
    (hpend : ∀ x, s.pendingAt d r = some x → s'.pendingAt d r = some x)
    (hjds : ∀ w, s.jds.declaration = some w → s'.jds.declaration = some w)
    (hpool : ∀ p, s.pool = .taking p → s'.pool = .taking p) : Claimed s' d r t := by
  cases h with
  | active a data hlook howner htoken =>
    exact .active a data (hact a data hlook howner) howner htoken
  | awaited at' dmj hlook htoken => exact .awaited at' dmj (hpend _ hlook) htoken
  | handled w hw hclient htoken => exact .handled w (hjds w hw) hclient htoken
  | presented p hp howner htoken => exact .presented p (hpool p hp) howner htoken

/-- A stored job has its token entry. -/
theorem Accounted.entry_of_job {env : Env} {s : System} (h : Accounted env s)
    {d : DownstreamId} {r : RequestId} {job : DeclaredCustomJob}
    (hjob : s.jobAt d r = some job) :
    ∃ t e, job.token = some t ∧ s.entryAt d t = some e ∧ e.requestId = r := by
  obtain ⟨st, hst, hj⟩ := Option.bind_eq_some_iff.mp hjob
  obtain ⟨t, e, htok, he, her⟩ := (h.paired d st hst).job r job hj
  exact ⟨t, e, htok, Option.bind_eq_some_iff.mpr ⟨st, hst, he⟩, her⟩

/-! ### Clients have numbers below the counter -/

/-- The client whose sender has been cloned for the message at hand. -/
def JdsTask.served : JdsTask → Option DownstreamId
  | .checking c _ => some c
  | .retrying c _ => some c
  | task => task.declaration.map Declaration.client

structure Roster (s : System) : Prop where
  clients : ∀ d ds, s.downstreamClients.lookup d = some ds → d < s.downstreamIdFactory
  senders : ∀ d u, s.downstreamClientSenders.lookup d = some u → d < s.downstreamIdFactory
  served : ∀ d, s.jds.served = some d → d < s.downstreamIdFactory

theorem roster_new : Roster System.new := by
  refine ⟨?_, ?_, ?_⟩
  · intro d ds h
    cases h
  · intro d u h
    cases h
  · intro d h
    cases h

/-- A step of the loop keeps the client it serves, and the connections. -/
theorem jdsStep_served (env : Env) (s : System) (response : Option JdResponse) (now : Instant) :
    (∀ d, (s.jdsStep env response now).jds.served = some d → s.jds.served = some d) ∧
    (∀ d, ((s.jdsStep env response now).downstreamClients.lookup d).isSome =
      (s.downstreamClients.lookup d).isSome) ∧
    (s.jdsStep env response now).downstreamClientSenders = s.downstreamClientSenders ∧
    (s.jdsStep env response now).downstreamIdFactory = s.downstreamIdFactory := by
  have hinsert : ∀ {c : DownstreamId} {ds ds' : Downstream},
      s.downstreamClients.lookup c = some ds → ∀ d,
      ((s.downstreamClients.insert c ds').lookup d).isSome =
        (s.downstreamClients.lookup d).isSome := by
    intro c ds ds' hds d
    rw [KeyMap.lookup_insert_eq]
    split
    next heq => rw [heq, hds]; rfl
    next => rfl
  unfold System.jdsStep
  cases hjds : s.jds with
  | idle => exact ⟨(fun d hd => by rw [hjds] at hd; exact hd), fun _ => rfl, rfl, rfl⟩
  | stopped => exact ⟨(fun d hd => by rw [hjds] at hd; exact hd), fun _ => rfl, rfl, rfl⟩
  | answering c a =>
    dsimp only
    split
    · exact ⟨(fun _ hd => by cases hd), fun _ => rfl, rfl, rfl⟩
    · exact ⟨(fun _ hd => by cases hd), fun _ => rfl, rfl, rfl⟩
  | checking c dmj =>
    dsimp only
    split
    · exact ⟨(fun _ hd => by cases hd), fun _ => rfl, rfl, rfl⟩
    · split
      · exact ⟨fun _ hd => hd, fun _ => rfl, rfl, rfl⟩
      · exact ⟨(fun _ hd => by cases hd), fun _ => rfl, rfl, rfl⟩
  | retrying c msg =>
    dsimp only
    split
    · exact ⟨(fun _ hd => by cases hd), fun _ => rfl, rfl, rfl⟩
    next ds hds =>
      split
      · exact ⟨(fun _ hd => by cases hd), fun _ => rfl, rfl, rfl⟩
      · split
        · exact ⟨(fun _ hd => by cases hd), hinsert hds, rfl, rfl⟩
        · exact ⟨fun _ hd => hd, hinsert hds, rfl, rfl⟩
  | validating w =>
    dsimp only
    split
    · exact ⟨fun _ hd => hd, fun _ => rfl, rfl, rfl⟩
    · exact ⟨fun _ hd => hd, fun _ => rfl, rfl, rfl⟩
  | ensuring w t previous => exact ⟨fun _ hd => hd, fun _ => rfl, rfl, rfl⟩
  | waiting w t previous => exact ⟨fun _ hd => hd, fun _ => rfl, rfl, rfl⟩
  | concluding w result =>
    simp only [System.conclude]
    split
    · split
      · exact ⟨fun _ hd => hd, fun _ => rfl, rfl, rfl⟩
      · exact ⟨(fun _ hd => by cases hd), fun _ => rfl, rfl, rfl⟩
    · exact ⟨(fun _ hd => by cases hd), fun _ => rfl, rfl, rfl⟩
    · split
      · exact ⟨(fun _ hd => by cases hd), fun _ => rfl, rfl, rfl⟩
      · split
        · exact ⟨(fun _ hd => by cases hd), fun _ => rfl, rfl, rfl⟩
        next ds hds =>
          split
          · exact ⟨(fun _ hd => by cases hd), hinsert hds, rfl, rfl⟩
          · exact ⟨(fun _ hd => by cases hd), hinsert hds, rfl, rfl⟩
    · exact ⟨(fun _ hd => by cases hd), fun _ => rfl, rfl, rfl⟩
  | activating w data => exact ⟨(fun _ hd => by cases hd), fun _ => rfl, rfl, rfl⟩

theorem jdsStep_roster (env : Env) {s : System} (h : Roster s) (response : Option JdResponse)
    (now : Instant) : Roster (s.jdsStep env response now) := by
  obtain ⟨hserved, hclients, hsenders, hfactory⟩ := jdsStep_served env s response now
  refine ⟨?_, ?_, ?_⟩
  · intro d ds hd
    have hsome := hclients d
    rw [hd] at hsome
    obtain ⟨old, hold⟩ := Option.isSome_iff_exists.mp hsome.symm
    rw [hfactory]
    exact h.clients d old hold
  · intro d u hd
    rw [hsenders] at hd
    rw [hfactory]
    exact h.senders d u hd
  · intro d hd
    rw [hfactory]
    exact h.served d (hserved d hd)

theorem roster_step (env : Env) {s : System} (h : Roster s) (a : Action) :
    Roster (s.step env a) := by
  have hsame : ∀ s' : System, s'.downstreamIdFactory = s.downstreamIdFactory →
      (∀ d ds, s'.downstreamClients.lookup d = some ds →
        ∃ ds', s.downstreamClients.lookup d = some ds') →
      (∀ d u, s'.downstreamClientSenders.lookup d = some u →
        s.downstreamClientSenders.lookup d = some u) →
      (∀ d, s'.jds.served = some d → s.jds.served = some d ∨
        s.downstreamClientSenders.lookup d = some ()) → Roster s' := by
    intro s' hf hcl hse hserved
    refine ⟨?_, ?_, ?_⟩
    · intro d ds hd
      obtain ⟨ds', hds'⟩ := hcl d ds hd
      rw [hf]
      exact h.clients d ds' hds'
    · intro d u hd
      rw [hf]
      exact h.senders d u (hse d u hd)
    · intro d hd
      rw [hf]
      rcases hserved d hd with hold | hsender
      · exact h.served d hold
      · exact h.senders d () hsender
  have hid : ∀ d ds, s.downstreamClients.lookup d = some ds →
      ∃ ds', s.downstreamClients.lookup d = some ds' := fun d ds hd => ⟨ds, hd⟩
  cases a with
  | jds response now => exact jdsStep_roster env h response now
  | connect =>
    refine ⟨?_, ?_, fun d hd => Nat.lt_succ_of_lt (h.served d hd)⟩
    · intro d ds hd
      simp only [System.step, KeyMap.lookup_insert_eq] at hd
      split at hd
      next heq => rw [heq]; exact Nat.lt_succ_self _
      next => exact Nat.lt_succ_of_lt (h.clients d ds hd)
    · intro d u hd
      simp only [System.step, KeyMap.lookup_insert_eq] at hd
      split at hd
      next heq => rw [heq]; exact Nat.lt_succ_self _
      next => exact Nat.lt_succ_of_lt (h.senders d u hd)
  | receive client msg now =>
    simp only [System.step, System.receive]
    cases hjds : s.jds with
    | idle =>
      cases msg with
      | allocateMiningJobToken m =>
        exact hsame _ rfl hid (fun _ _ hd => hd) fun _ hd => by cases hd
      | declareMiningJob m =>
        dsimp only
        cases hsender : s.downstreamClientSenders.lookup client with
        | none => exact h
        | some u =>
          refine hsame _ rfl hid (fun _ _ hd => hd) ?_
          intro d hd
          cases hd
          exact .inr hsender
      | provideMissingTransactionsSuccess m =>
        dsimp only
        cases hsender : s.downstreamClientSenders.lookup client with
        | none => exact h
        | some u =>
          refine hsame _ rfl hid (fun _ _ hd => hd) ?_
          intro d hd
          cases hd
          exact .inr hsender
    | _ => exact h
  | present msg u =>
    obtain ⟨responses, pool, heq⟩ := s.present_frame msg u
    rw [System.step, heq]
    exact hsame _ rfl hid (fun _ _ hd => hd) fun _ hd => .inl hd
  | pool =>
    obtain ⟨tm, states, responses, accepted, pool, heq⟩ := s.poolStep_frame env
    rw [System.step, heq]
    exact hsame _ rfl hid (fun _ _ hd => hd) fun _ hd => .inl hd
  | cleanupClient d =>
    refine hsame _ rfl ?_ (fun _ _ hd => hd) fun _ hd => .inl hd
    intro e ds hd
    exact ⟨ds, KeyMap.lookup_erase_some hd⟩
  | cleanupSender d =>
    refine hsame _ rfl hid ?_ fun _ hd => .inl hd
    intro e u hd
    exact KeyMap.lookup_erase_some hd
  | janitorPending d shard now =>
    refine hsame _ rfl ?_ (fun _ _ hd => hd) fun _ hd => .inl hd
    intro e ds hd
    simp only [System.step, KeyMap.lookup_modify] at hd
    split at hd
    next heq =>
      subst heq
      obtain ⟨ds₀, hds₀, -⟩ := Option.map_eq_some_iff.mp hd
      exact ⟨ds₀, hds₀⟩
    next => exact ⟨ds, hd⟩
  | _ => exact hsame _ rfl hid (fun _ _ hd => hd) fun _ hd => .inl hd

/-! ### A claim outlives every step but an expiry -/

/-- The end of a declaration: it is given up with nothing stored, awaits its transactions,
    or goes on to be activated. -/
theorem concluding_claimed {env : Env} {s : System} (h : Accounted env s)
    (hd : DeclarationInv s) (hr : Roster s) {w : Declaration} {result : DeclareMiningJobResult}
    (hjds : s.jds = .concluding w result) {response : Option JdResponse} {now : Instant}
    (hok : s.orderly (.jds response now) = true) {d : DownstreamId} {r : RequestId}
    {t : JdToken} (hhere : d < s.downstreamIdFactory → (s.downstreamClients.lookup d).isSome)
    (hclaim : Claimed s d r t) {job : DeclaredCustomJob}
    (hjob : (s.jdsStep env response now).jobAt d r = some job) (htok : job.token = some t) :
    Claimed (s.jdsStep env response now) d r t := by
  -- the job of a declaration that is given up has not been stored
  have hgone : ∀ w, s.jds.declaration = some w → s.jobAt d r = some job →
      Unstored s w.client w.dmj.requestId w.token → ¬ (w.client = d ∧ w.token = t) := by
    rintro w - hj hun ⟨rfl, rfl⟩
    obtain ⟨u, e, hu, he, -⟩ := h.entry_of_job hj
    rw [htok] at hu
    cases hu
    cases hun.entry.symm.trans he
  unfold System.jdsStep at hjob ⊢
  have hcur : s.jds.declaration = some w := by rw [hjds]; rfl
  have hwork := h.working w hcur
  have hstage : StageInv env s (.concluding w result) := hjds ▸ h.stage
  -- a declaration without anything stored has no claim to lose
  have hdrop : ∀ s' : System,
      s'.tokenManager.activeTokens = s.tokenManager.activeTokens →
      s'.downstreamClients = s.downstreamClients → s'.pool = s.pool →
      s.jobAt d r = some job → Unstored s w.client w.dmj.requestId w.token →
      Claimed s' d r t := by
    intro s' hact hcl hp hj hun
    cases hclaim with
    | active a data hlook howner htoken =>
      exact .active a data (hact ▸ hlook) howner htoken
    | awaited at' dmj hlook htoken =>
      exact .awaited at' dmj ((System.pendingAt_congr hcl d r).trans hlook) htoken
    | handled v hv hclient htoken =>
      rw [hcur] at hv
      cases hv
      exact absurd ⟨hclient, htoken⟩ (hgone w hcur hj hun)
    | presented p hp' howner htoken => exact .presented p (hp.trans hp') howner htoken
  simp only [hjds, System.orderly] at hjob hok ⊢
  unfold System.conclude at hjob ⊢
  cases result with
  | success =>
    dsimp only at hjob hok ⊢
    cases hrem : s.tokenManager.activateRemove w.token w.client with
    | some p =>
      obtain ⟨data, tm⟩ := p
      obtain ⟨-, -, rfl⟩ := TokenManager.activateRemove_eq_some hrem
      refine hclaim.mono (fun _ _ hlook _ => hlook) (fun _ hx => hx) ?_ (fun _ hp => hp)
      intro v hv
      rw [hjds] at hv
      exact hv
    | none =>
      rw [hrem] at hjob
      have hno : s.tokenManager.isAllocated w.token w.client = false := by
        cases hal : s.tokenManager.isAllocated w.token w.client with
        | false => rfl
        | true =>
          obtain ⟨data, hlook, howner⟩ := TokenManager.isAllocated_iff.mp hal
          simp [TokenManager.activateRemove, KeyMap.removeIf, hlook, howner] at hrem
      rw [hno, Bool.false_or, Option.isNone_iff_eq_none] at hok
      exact hdrop _ rfl rfl rfl hjob (h.unstored_of_job hwork.matched hok)
  | error code => exact hdrop _ rfl rfl rfl hjob hstage
  | panic => exact hdrop _ rfl rfl rfl hjob hstage
  | missingTransactions missing =>
    dsimp only at hjob ⊢
    rw [hstage.1] at hjob ⊢
    dsimp only at hjob ⊢
    have hlt : w.client < s.downstreamIdFactory := by
      apply hr.served
      rw [hjds]
      rfl
    have hwait : ∀ (ds : Downstream) (s' : System),
        s.downstreamClients.lookup w.client = some ds →
        s'.tokenManager.activeTokens = s.tokenManager.activeTokens → s'.pool = s.pool →
        s'.downstreamClients = s.downstreamClients.insert w.client
          ⟨ds.pendingDeclareMiningJobs.insert w.dmj.requestId (now, w.dmj)⟩ →
        s.jobAt d r = some job → Claimed s' d r t := by
      intro ds s' hds hact hp hcl hj
      have hpend : ∀ q, s'.pendingAt w.client q =
          if q = w.dmj.requestId then some (now, w.dmj) else s.pendingAt w.client q := by
        intro q
        rw [System.pendingAt_insert hcl, if_pos rfl, KeyMap.lookup_insert_eq]
        simp only [System.pendingAt, hds, Option.bind_some]
      cases hclaim with
      | active a data hlook howner htoken =>
        exact .active a data (hact ▸ hlook) howner htoken
      | presented p hp' howner htoken => exact .presented p (hp.trans hp') howner htoken
      | awaited at' dmj hlook htoken =>
        by_cases hdc : d = w.client
        · subst hdc
          have hne : r ≠ w.dmj.requestId := by
            intro heq
            rw [heq, hwork.noPending] at hlook
            cases hlook
          refine .awaited at' dmj ?_ htoken
          rw [hpend, if_neg hne]
          exact hlook
        · refine .awaited at' dmj ?_ htoken
          rw [System.pendingAt_insert hcl, if_neg hdc]
          exact hlook
      | handled v hv hclient htoken =>
        rw [hcur] at hv
        cases hv
        subst hclient htoken
        -- the entry of the token names the request that waits now
        obtain ⟨u, e, hu, he, her⟩ := h.entry_of_job hj
        rw [htok] at hu
        cases hu
        have hreq : r = w.dmj.requestId := her.symm.trans (hwork.matched.entry e he)
        refine .awaited now w.dmj ?_ (hd.working w hcur).1
        rw [hpend, if_pos hreq]
    cases hds : s.downstreamClients.lookup w.client with
    | none =>
      rw [hds] at hjob
      cases hclaim with
      | active a data hlook howner htoken => exact .active a data hlook howner htoken
      | awaited at' dmj hlook htoken => exact .awaited at' dmj hlook htoken
      | presented p hp' howner htoken => exact .presented p hp' howner htoken
      | handled v hv hclient htoken =>
        -- a connected client is found
        rw [hcur] at hv
        cases hv
        subst hclient
        have hsome := hhere hlt
        rw [hds] at hsome
        cases hsome
    | some ds =>
      rw [hds] at hjob
      dsimp only at hjob ⊢
      split at hjob
      next hle =>
        rw [if_pos hle]
        exact hwait ds _ hds rfl rfl rfl hjob
      next hle =>
        rw [if_neg hle]
        exact hwait ds _ hds rfl rfl rfl hjob

/-- The loop hands the declaration on, or has already recorded it. -/
theorem jdsStep_claimed {env : Env} {s : System} (h : Accounted env s)
    (hl : LedgerInv s.ledger) (hd : DeclarationInv s) (hr : Roster s)
    {response : Option JdResponse} {now : Instant}
    (hok : s.orderly (.jds response now) = true) {d : DownstreamId} {r : RequestId}
    {t : JdToken} (hhere : d < s.downstreamIdFactory → (s.downstreamClients.lookup d).isSome)
    (hclaim : Claimed s d r t) {job : DeclaredCustomJob}
    (hjob : (s.jdsStep env response now).jobAt d r = some job) (htok : job.token = some t) :
    Claimed (s.jdsStep env response now) d r t := by
  -- a stage that keeps the tokens, the waiting declarations and its own declaration
  have hkeep : ∀ s' : System,
      s'.tokenManager.activeTokens = s.tokenManager.activeTokens →
      s'.downstreamClients = s.downstreamClients → s'.pool = s.pool →
      (∀ w, s.jds.declaration = some w → s'.jds.declaration = some w) →
      Claimed s' d r t := by
    intro s' hact hcl hp hw
    refine hclaim.mono ?_ ?_ hw ?_
    · intro a data hlook _
      rw [hact]
      exact hlook
    · intro x hx
      rw [System.pendingAt_congr hcl]
      exact hx
    · intro p hp'
      rw [hp]
      exact hp'
  unfold System.jdsStep
  cases hjds : s.jds with
  | idle => simpa only [hjds] using hclaim
  | stopped => simpa only [hjds] using hclaim
  | answering c a =>
    dsimp only
    split
    · exact hkeep _ rfl rfl rfl fun w hw => by rw [hjds] at hw; cases hw
    · exact hkeep _ rfl rfl rfl fun w hw => by rw [hjds] at hw; cases hw
  | checking c dmj =>
    dsimp only
    split
    · exact hkeep _ rfl rfl rfl fun w hw => by rw [hjds] at hw; cases hw
    · split
      · exact hkeep _ rfl rfl rfl fun w hw => by rw [hjds] at hw; cases hw
      · exact hkeep _ rfl rfl rfl fun w hw => by rw [hjds] at hw; cases hw
  | retrying c msg =>
    dsimp only
    cases hds : s.downstreamClients.lookup c with
    | none => exact hkeep _ rfl rfl rfl fun w hw => by rw [hjds] at hw; cases hw
    | some ds =>
      dsimp only
      cases hpend : ds.pendingDeclareMiningJobs.lookup msg.requestId with
      | none => exact hkeep _ rfl rfl rfl fun w hw => by rw [hjds] at hw; cases hw
      | some e =>
        obtain ⟨at₀, dmj₀⟩ := e
        have hat : s.pendingAt c msg.requestId = some (at₀, dmj₀) :=
          Option.bind_eq_some_iff.mpr ⟨ds, hds, hpend⟩
        obtain ⟨t₀, ht₀⟩ := h.awaited c msg.requestId at₀ dmj₀ hat
        dsimp only
        rw [ht₀.token]
        dsimp only
        cases hclaim with
        | active a data hlook howner htoken => exact .active a data hlook howner htoken
        | handled w hw hclient htoken => rw [hjds] at hw; cases hw
        | presented p hp howner htoken => exact .presented p hp howner htoken
        | awaited at' dmj hlook htoken =>
          by_cases heq : d = c ∧ r = msg.requestId
          · -- the one that is taken out is handled from now on
            obtain ⟨rfl, rfl⟩ := heq
            cases hat.symm.trans hlook
            cases ht₀.token.symm.trans htoken
            exact .handled _ rfl rfl rfl
          · refine .awaited at' dmj ?_ htoken
            rw [System.pendingAt_insert rfl]
            split
            next hdc =>
              subst hdc
              have hne : r ≠ msg.requestId := fun hr => heq ⟨rfl, hr⟩
              rw [AList.lookup_erase_ne hne]
              simpa [System.pendingAt, hds] using hlook
            next => exact hlook
  | validating w =>
    dsimp only
    split
    · exact hkeep _ rfl rfl rfl fun v hv => by rw [hjds] at hv; exact hv
    · exact hkeep _ rfl rfl rfl fun v hv => by rw [hjds] at hv; exact hv
  | ensuring w u previous => exact hkeep _ rfl rfl rfl fun v hv => by rw [hjds] at hv; exact hv
  | waiting w u previous => exact hkeep _ rfl rfl rfl fun v hv => by rw [hjds] at hv; exact hv
  | concluding w result =>
    have hconc := concluding_claimed h hd hr hjds hok hhere hclaim hjob htok
    simpa only [System.jdsStep, hjds] using hconc
  | activating w data =>
    have hcur : s.jds.declaration = some w := by rw [hjds]; rfl
    dsimp only
    cases hclaim with
    | active a data' hlook howner htoken =>
      refine .active a data' ?_ howner htoken
      show (s.tokenManager.activeTokens.insert _ _).lookup a = some data'
      rw [AList.lookup_insert_ne]
      · exact hlook
      · -- the number of the new active token is fresh
        rintro rfl
        have hfree : s.tokenManager.activeTokens.lookup s.tokenManager.tokenFactory = none :=
          hl.factory_not_active
        cases hfree.symm.trans hlook
    | awaited at' dmj hlook htoken => exact .awaited at' dmj hlook htoken
    | presented p hp' howner htoken => exact .presented p hp' howner htoken
    | handled v hv hclient htoken =>
      rw [hcur] at hv
      cases hv
      exact .active s.tokenManager.tokenFactory ⟨w.token, now, w.client, data.userIdentity⟩
        (AList.lookup_insert _) hclient htoken

/-- A presentation takes the token first and the job with the entry after it. -/
theorem poolStep_claimed {env : Env} {s : System} (h : Accounted env s)
    (hl : Recorded s.ledger) (hu : (s.history.map Issue.token).Nodup) {d : DownstreamId}
    {r : RequestId} {t : JdToken} (hclaim : Claimed s d r t) {job : DeclaredCustomJob}
    (hjob : (s.poolStep env).jobAt d r = some job) (htok : job.token = some t) :
    Claimed (s.poolStep env) d r t := by
  have hacc := poolStep_accounted h
  unfold System.poolStep at hjob hacc ⊢
  cases hpool : s.pool with
  | idle => simpa only [hpool] using hclaim
  | stopped => simpa only [hpool] using hclaim
  | deactivating p =>
    simp only [hpool] at hjob ⊢
    cases hclaim with
    | awaited at' dmj hlook htoken => exact .awaited at' dmj hlook htoken
    | handled w hw hclient htoken => exact .handled w hw hclient htoken
    | presented q hq howner htoken => rw [hpool] at hq; cases hq
    | active a data hlook howner htoken =>
      by_cases ha : a = p.activeToken
      · -- the presented token stood for the same allocated token
        obtain ⟨hpres, -⟩ := hl.presenting p (by
          show s.pool.presentation = some p
          rw [hpool]
          rfl)
        have hact := hl.active a data hlook
        have heq : Issue.activation a data.allocatedToken data.owner data.userIdentity =
            .activation p.activeToken p.data.allocatedToken p.data.owner p.data.userIdentity :=
          List.inj_on_of_nodup_map hu hact hpres ha
        injection heq with _ htoken' howner' _
        exact .presented p rfl (howner'.symm.trans howner) (htoken'.symm.trans htoken)
      · refine .active a data ?_ howner htoken
        exact (AList.lookup_erase_ne ha).trans hlook
  | taking p =>
    simp only [hpool] at hjob hacc ⊢
    have hrest : ∀ s' : System,
        s'.tokenManager.activeTokens = s.tokenManager.activeTokens →
        s'.downstreamClients = s.downstreamClients → s'.jds = s.jds →
        s'.downstreamStates = (handleSetCustomMiningJob env.rb s.downstreamStates p.data.owner
          p.msg p.data.allocatedToken).2 →
        Accounted env s' → s'.jobAt d r = some job → Claimed s' d r t := by
      intro s' hact hcl hj hst hacc' hjob'
      cases hclaim with
      | active a data hlook howner htoken =>
        exact .active a data (hact ▸ hlook) howner htoken
      | awaited at' dmj hlook htoken =>
        exact .awaited at' dmj ((System.pendingAt_congr hcl d r).trans hlook) htoken
      | handled w hw hclient htoken => exact .handled w (hj ▸ hw) hclient htoken
      | presented q hq howner htoken =>
        -- the entry of the token has just been taken
        rw [hpool] at hq
        cases hq
        subst howner htoken
        obtain ⟨u, e, hu', he, -⟩ := hacc'.entry_of_job hjob'
        rw [htok] at hu'
        cases hu'
        simp only [System.entryAt, hst, handleSetCustomMiningJob_states] at he
        cases hlook : s.downstreamStates.lookup p.data.owner with
        | none =>
          rw [hlook] at he
          simp only [hlook] at he
          cases he
        | some st =>
          rw [hlook] at he
          simp only [AList.lookup_insert, Option.bind_some,
            DownstreamState.takeDeclaredCustomJob] at he
          cases hentry : st.allocatedTokenEntries.lookup p.data.allocatedToken with
          | none =>
            rw [hentry] at he
            simp only [hentry] at he
            cases he
          | some e' =>
            rw [hentry] at he
            simp only [AList.lookup_erase] at he
            cases he
    split at hjob
    next heq =>
      rw [heq] at hacc
      exact hrest _ rfl rfl rfl rfl hacc hjob
    next heq =>
      rw [heq] at hacc
      exact hrest _ rfl rfl rfl rfl hacc hjob
    next heq =>
      rw [heq] at hacc
      exact hrest _ rfl rfl rfl rfl hacc hjob

theorem claimed_step {env : Env} {s : System} (h : Accounted env s) (hl : LedgerInv s.ledger)
    (hd : DeclarationInv s) (hr : Roster s) {a : Action} (hok : s.orderly a = true)
    {d : DownstreamId} {r : RequestId} {t : JdToken}
    (hhere : d < s.downstreamIdFactory → (s.downstreamClients.lookup d).isSome)
    (hconn : a.disconnects d = false) (hexp : a.expires = false)
    (hclaim : Claimed s d r t) {job : DeclaredCustomJob}
    (hjob : (s.step env a).jobAt d r = some job) (htok : job.token = some t) :
    Claimed (s.step env a) d r t := by
  have hpend : ∀ s' : System,
      (∀ x, s.pendingAt d r = some x → s'.pendingAt d r = some x) →
      s'.tokenManager.activeTokens = s.tokenManager.activeTokens →
      s'.jds = s.jds → s'.pool = s.pool → Claimed s' d r t := by
    intro s' hp hact hj hpool
    refine hclaim.mono ?_ hp (fun w hw => hj ▸ hw) fun p hp' => hpool ▸ hp'
    intro a data hlook _
    rw [hact]
    exact hlook
  have hid : ∀ x, s.pendingAt d r = some x → s.pendingAt d r = some x := fun _ hx => hx
  cases a with
  | jds response now => exact jdsStep_claimed h hl hd hr hok hhere hclaim hjob htok
  | pool => exact poolStep_claimed h hl.toRecorded hl.issuedOnce hclaim hjob htok
  | receive client msg now =>
    simp only [System.step, System.receive]
    cases hjds : s.jds with
    | idle =>
      have hnone : ∀ s' : System,
          s'.tokenManager.activeTokens = s.tokenManager.activeTokens →
          s'.downstreamClients = s.downstreamClients → s'.pool = s.pool →
          Claimed s' d r t := by
        intro s' hact hcl hpool
        refine hclaim.mono (fun a data hlook _ => hact ▸ hlook) ?_ ?_ (fun p hp => hpool ▸ hp)
        · intro x hx
          exact (System.pendingAt_congr hcl d r).trans hx
        · intro w hw
          rw [hjds] at hw
          cases hw
      cases msg with
      | allocateMiningJobToken m => exact hnone _ rfl rfl rfl
      | declareMiningJob m =>
        dsimp only
        split
        · exact hclaim
        · exact hnone _ rfl rfl rfl
      | provideMissingTransactionsSuccess m =>
        dsimp only
        split
        · exact hclaim
        · exact hnone _ rfl rfl rfl
    | _ => exact hclaim
  | present msg u =>
    simp only [System.step, System.present, System.respond]
    cases hpool : s.pool with
    | idle =>
      have hnone : ∀ s' : System, s'.tokenManager = s.tokenManager →
          s'.downstreamClients = s.downstreamClients → s'.jds = s.jds → Claimed s' d r t := by
        intro s' htm hcl hj
        refine hclaim.mono (fun a data hlook _ => htm ▸ hlook) ?_ (fun w hw => hj ▸ hw) ?_
        · intro x hx
          exact (System.pendingAt_congr hcl d r).trans hx
        · intro p hp
          rw [hpool] at hp
          cases hp
      dsimp only
      split
      · exact hnone _ rfl rfl rfl
      · split
        · exact hnone _ rfl rfl rfl
        · split
          · exact hnone _ rfl rfl rfl
          · exact hnone _ rfl rfl rfl
    | _ => exact hclaim
  | connect =>
    refine hpend _ ?_ rfl rfl rfl
    intro x hx
    obtain ⟨ds, hds, -⟩ := Option.bind_eq_some_iff.mp hx
    rw [System.pendingAt_insert rfl, if_neg]
    · exact hx
    · intro heq
      have hlt := hr.clients d ds hds
      rw [heq] at hlt
      exact Nat.lt_irrefl _ hlt
  | cleanupClient e =>
    refine hpend _ ?_ rfl rfl rfl
    intro x hx
    have hne : d ≠ e := by
      rintro rfl
      simp [Action.disconnects] at hconn
    simp only [System.pendingAt, System.step]
    rw [AList.lookup_erase_ne hne]
    exact hx
  | cleanupActive e shard =>
    refine hclaim.mono ?_ hid (fun _ hw => hw) fun _ hp => hp
    intro a data hlook howner
    have hne : data.owner ≠ e := by
      rintro rfl
      simp [Action.disconnects, howner] at hconn
    show (KeyMap.retain _ s.tokenManager.activeTokens).lookup a = some data
    rw [KeyMap.lookup_retain, hlook]
    simp [hne]
  | janitorActive shard now => cases hexp
  | janitorPending e shard now => cases hexp
  | cleanupSender | cleanupState | cleanupAllocated | janitorAllocated | janitorDeclared =>
    exact hpend _ hid rfl rfl rfl

/-! ### Where a stored job comes from -/

/-- The job is one that is stored for a declaration of `dmj`. -/
structure DeclaredCustomJob.StoredFor (job : DeclaredCustomJob) (dmj : DeclareMiningJob) : Prop where
  declareMiningJob : job.declareMiningJob = dmj
  txidList : job.validated = true → job.txidList.isSome = true

theorem jobAt_applyJdResponse {states : DownstreamStates} {d c : DownstreamId}
    {dmj : DeclareMiningJob} {isRetry : Bool} {t : JdToken}
    {previous : Option ValidationContext} {response : Option JdResponse} {now : Instant}
    {st' : DownstreamState}
    (hlook : (applyJdResponse states c dmj isRetry t previous response now).2.lookup d =
      some st') {r : RequestId} {job : DeclaredCustomJob}
    (hjob : st'.declaredCustomJobs.lookup r = some job) :
    (∃ st, states.lookup d = some st ∧ st.declaredCustomJobs.lookup r = some job) ∨
      d = c ∧ r = dmj.requestId ∧ job.StoredFor dmj := by
  have hdrop : ∀ q, (dropDeclaredJob states c q t).lookup d = some st' →
      ∃ st, states.lookup d = some st ∧ st.declaredCustomJobs.lookup r = some job := by
    intro q hq
    rw [dropDeclaredJob, KeyMap.lookup_modify] at hq
    split at hq
    next heq =>
      subst heq
      obtain ⟨st, hst, rfl⟩ := Option.map_eq_some_iff.mp hq
      exact ⟨st, hst, KeyMap.lookup_erase_some hjob⟩
    next => exact ⟨st', hq, hjob⟩
  have hstore : ∀ (new : DeclaredCustomJob) states', new.StoredFor dmj →
      storeDeclaredJob states c t new now = some states' → states'.lookup d = some st' →
      (∃ st, states.lookup d = some st ∧ st.declaredCustomJobs.lookup r = some job) ∨
        d = c ∧ r = dmj.requestId ∧ job.StoredFor dmj := by
    intro new states' hnew hs hd
    obtain ⟨st, hst, rfl⟩ := storeDeclaredJob_eq_some hs
    rw [KeyMap.lookup_insert_eq] at hd
    split at hd
    next heq =>
      subst heq
      cases hd
      simp only [DownstreamState.insertDeclaredCustomJob, KeyMap.lookup_insert_eq] at hjob
      split at hjob
      next hr =>
        cases hjob
        rw [hnew.declareMiningJob] at hr
        exact .inr ⟨rfl, hr, hnew⟩
      next => exact .inl ⟨st, hst, hjob⟩
    next => exact .inl ⟨st', hd, hjob⟩
  unfold applyJdResponse at hlook
  rcases response with _ | ⟨prevHash, nbits, txids⟩ | ⟨code, ctx⟩ | ⟨missing, ctx⟩
  · exact .inl ⟨st', hlook, hjob⟩
  · dsimp only at hlook
    split at hlook
    next => exact .inl ⟨st', hlook, hjob⟩
    next states' hs => exact hstore _ states' ⟨rfl, fun _ => rfl⟩ hs hlook
  · exact .inl (hdrop _ hlook)
  · dsimp only at hlook
    split at hlook
    · exact .inl (hdrop _ hlook)
    · split at hlook
      next => exact .inl ⟨st', hlook, hjob⟩
      next states' hs => exact hstore _ states' ⟨rfl, fun hv => by cases hv⟩ hs hlook

/-- A job is stored only for the declaration that the loop is working on. -/
theorem jobAt_jdsStep {env : Env} {s : System}
    {response : Option JdResponse} {now : Instant} {d : DownstreamId} {r : RequestId}
    {job : DeclaredCustomJob} (hjob : (s.jdsStep env response now).jobAt d r = some job) :
    s.jobAt d r = some job ∨
      ∃ w t previous, s.jds = .waiting w t previous ∧
        (s.jdsStep env response now).jds.declaration = some w ∧ w.client = d ∧
        r = w.dmj.requestId ∧ job.StoredFor w.dmj := by
  have hsame : ∀ s' : System, s'.downstreamStates = s.downstreamStates →
      s'.jobAt d r = some job → s.jobAt d r = some job := by
    intro s' hst hj
    simpa only [System.jobAt, hst] using hj
  unfold System.jdsStep at hjob ⊢
  cases hjds : s.jds with
  | idle => simp only [hjds] at hjob; exact .inl hjob
  | stopped => simp only [hjds] at hjob; exact .inl hjob
  | answering c a =>
    simp only [hjds] at hjob
    split at hjob
    · exact .inl (hsame _ rfl hjob)
    · exact .inl (hsame _ rfl hjob)
  | checking c dmj =>
    simp only [hjds] at hjob
    split at hjob
    · exact .inl (hsame _ rfl hjob)
    · split at hjob
      · exact .inl (hsame _ rfl hjob)
      · exact .inl (hsame _ rfl hjob)
  | retrying c msg =>
    simp only [hjds] at hjob
    split at hjob
    · exact .inl (hsame _ rfl hjob)
    · split at hjob
      · exact .inl (hsame _ rfl hjob)
      · split at hjob
        · exact .inl (hsame _ rfl hjob)
        · exact .inl (hsame _ rfl hjob)
  | validating w =>
    simp only [hjds] at hjob
    split at hjob
    · exact .inl (hsame _ rfl hjob)
    · exact .inl (hsame _ rfl hjob)
  | ensuring w t previous =>
    simp only [hjds] at hjob
    left
    obtain ⟨st', hlook, hj⟩ := Option.bind_eq_some_iff.mp hjob
    dsimp only at hlook
    rw [KeyMap.lookup_ensure] at hlook
    split at hlook
    next heq =>
      subst heq
      cases hst : s.downstreamStates.lookup w.client with
      | none =>
        rw [hst] at hlook
        cases hlook
        cases hj
      | some st =>
        rw [hst] at hlook
        cases hlook
        exact Option.bind_eq_some_iff.mpr ⟨st, hst, hj⟩
    next => exact Option.bind_eq_some_iff.mpr ⟨st', hlook, hj⟩
  | waiting w t previous =>
    simp only [hjds] at hjob
    obtain ⟨st', hlook, hj⟩ := Option.bind_eq_some_iff.mp hjob
    rcases jobAt_applyJdResponse hlook hj with ⟨st, hst, hold⟩ | ⟨rfl, hr, hfor⟩
    · exact .inl (Option.bind_eq_some_iff.mpr ⟨st, hst, hold⟩)
    · exact .inr ⟨w, t, previous, rfl, rfl, rfl, hr, hfor⟩
  | concluding w result =>
    simp only [hjds, System.conclude] at hjob
    split at hjob
    · split at hjob
      · exact .inl (hsame _ rfl hjob)
      · exact .inl (hsame _ rfl hjob)
    · exact .inl (hsame _ rfl hjob)
    · split at hjob
      · exact .inl (hsame _ rfl hjob)
      · split at hjob
        · exact .inl (hsame _ rfl hjob)
        · split at hjob
          · exact .inl (hsame _ rfl hjob)
          · exact .inl (hsame _ rfl hjob)
    · exact .inl (hsame _ rfl hjob)
  | activating w data => simp only [hjds] at hjob; exact .inl (hsame _ rfl hjob)

theorem jobAt_step {env : Env} {s : System} {a : Action}
    {d : DownstreamId} {r : RequestId} {job : DeclaredCustomJob}
    (hjob : (s.step env a).jobAt d r = some job) :
    s.jobAt d r = some job ∨
      ∃ w t previous, (∃ response now, a = .jds response now) ∧
        s.jds = .waiting w t previous ∧ (s.step env a).jds.declaration = some w ∧ w.client = d ∧
        r = w.dmj.requestId ∧ job.StoredFor w.dmj := by
  have hstates : ∀ s' : System,
      (∀ st', s'.downstreamStates.lookup d = some st' →
        ∃ st, s.downstreamStates.lookup d = some st ∧ st'.Within st) →
      s'.jobAt d r = some job → s.jobAt d r = some job := by
    intro s' hst hj
    obtain ⟨st', hlook, hj'⟩ := Option.bind_eq_some_iff.mp hj
    obtain ⟨st, hold, hw⟩ := hst st' hlook
    exact Option.bind_eq_some_iff.mpr ⟨st, hold, hw.jobs r job hj'⟩
  cases a with
  | jds response now =>
    rcases jobAt_jdsStep hjob with hold | ⟨w, t, previous, hnew⟩
    · exact .inl hold
    · exact .inr ⟨w, t, previous, ⟨response, now, rfl⟩, hnew⟩
  | receive client msg now =>
    left
    obtain ⟨tm, history, jds, heq⟩ := s.receive_frame env client msg now
    rw [System.step, heq] at hjob
    exact hjob
  | present msg u =>
    left
    have hst := (present_maps s msg u).2.1
    simpa only [System.step, System.jobAt, hst] using hjob
  | pool =>
    left
    have htaken : ∀ (p : Presentation) st', (handleSetCustomMiningJob env.rb s.downstreamStates p.data.owner
          p.msg p.data.allocatedToken).2.lookup d = some st' →
        ∃ st, s.downstreamStates.lookup d = some st ∧ st'.Within st := by
      intro p st' hlook
      rw [handleSetCustomMiningJob_states] at hlook
      cases hst : s.downstreamStates.lookup p.data.owner with
      | none => rw [hst] at hlook; exact ⟨st', hlook, .refl st'⟩
      | some st =>
        rw [hst] at hlook
        dsimp only at hlook
        rw [KeyMap.lookup_insert_eq] at hlook
        split at hlook
        next heq =>
          subst heq
          cases hlook
          exact ⟨st, hst, takeDeclaredCustomJob_within st _⟩
        next => exact ⟨st', hlook, .refl st'⟩
    simp only [System.step, System.poolStep, System.respond] at hjob
    split at hjob
    · exact hjob
    · exact hjob
    · exact hjob
    next p _ =>
      split at hjob
      · exact hstates _ (htaken p) hjob
      · exact hstates _ (htaken p) hjob
      · exact hstates _ (htaken p) hjob
  | cleanupState e =>
    left
    refine hstates _ ?_ hjob
    intro st' hlook
    exact ⟨st', KeyMap.lookup_erase_some hlook, .refl st'⟩
  | janitorDeclared e now =>
    left
    refine hstates _ ?_ hjob
    intro st' hlook
    simp only [System.step, KeyMap.lookup_modify] at hlook
    split at hlook
    next heq =>
      subst heq
      obtain ⟨st, hst, rfl⟩ := Option.map_eq_some_iff.mp hlook
      exact ⟨st, hst, pruneExpiredAllocations_within st now⟩
    next => exact ⟨st', hlook, .refl st'⟩
  | _ => exact .inl hjob

/-! ## The result -/

/-- At some earlier step a janitor took the claim of the job away; the job has been stored
    without one since. -/
def Expired (env : Env) (as : List Action) (d : DownstreamId) (r : RequestId) (t : JdToken)
    (job : DeclaredCustomJob) : Prop :=
  ∃ bs a cs, as = bs ++ a :: cs ∧ a.expires = true ∧
    Claimed (System.after env bs) d r t ∧ ¬ Claimed (System.after env (bs ++ [a])) d r t ∧
    ∀ cs', cs' <+: cs → (System.after env (bs ++ a :: cs')).jobAt d r = some job

/-- What is promised of a run. -/
structure NothingLeft (env : Env) (as : List Action) : Prop where
  /-- When a declaration is answered with an error, nothing of it is left. -/
  rejected : ∀ bs response now cs w result code, as = bs ++ .jds response now :: cs →
    (System.after env bs).jds = .concluding w result →
    (System.after env (bs ++ [.jds response now])).sent =
      (w.client, .declareMiningJobError w.requestId code) :: (System.after env bs).sent →
    Forgotten (System.after env (bs ++ [.jds response now])) w
  /-- A job stored for a connected client has a claim, or had one until the janitor came. -/
  stored : ∀ bs, bs <+: as → ∀ d, (∀ a ∈ bs, a.disconnects d = false) → ∀ r job,
    (System.after env bs).jobAt d r = some job →
    ∃ t, job.token = some t ∧
      (Claimed (System.after env bs) d r t ∨ Expired env bs d r t job)

/-- Everything that holds of a state on the way. -/
structure OnRecord (env : Env) (s : System) : Prop where
  ledger : LedgerInv s.ledger
  declarations : DeclarationInv s
  roster : Roster s
  accounted : Accounted env s

theorem System.after_append (env : Env) (as bs : List Action) :
    System.after env (as ++ bs) = Runs.run (System.step env) (System.after env as) bs :=
  Runs.run_append _ _ _ _

theorem System.after_concat (env : Env) (as : List Action) (a : Action) :
    System.after env (as ++ [a]) = (System.after env as).step env a :=
  System.after_append env as [a]

/-- The run is orderly. -/
abbrev Orderly (env : Env) (as : List Action) : Prop :=
  Runs.Guarded (System.step env) (fun s a => s.orderly a = true) System.new as

theorem onRecord_after (env : Env) (as : List Action) (hg : Orderly env as)
    (hlt : (System.after env as).history.length < 2 ^ 64) :
    OnRecord env (System.after env as) := by
  refine Runs.run_invariant_of_guarded
    (fun s : System => s.history.length < 2 ^ 64 → OnRecord env s) ?_
    (fun _ => ⟨ledgerInv_new, declarationInv_new, roster_new, accounted_new env⟩) as hg hlt
  intro s a ih hok hlt'
  have hstep := ledger_step env s a
  have hs := ih (Nat.lt_of_le_of_lt hstep.history_suffix.length_le hlt')
  exact
    { ledger := ledgerInv_step hstep hlt' hs.ledger
      declarations := declarationInv_step env hs.declarations hs.ledger.toRecorded a
      roster := roster_step env hs.roster a
      accounted := accounted_step hs.accounted hs.ledger hs.declarations hok }

/-- A run that is orderly and short enough is so up to any point of it. -/
theorem orderly_prefix {env : Env} {as bs : List Action} (hp : bs <+: as)
    (hg : Orderly env as) (hlt : (System.after env as).history.length < 2 ^ 64) :
    Orderly env bs ∧ (System.after env bs).history.length < 2 ^ 64 := by
  obtain ⟨cs, rfl⟩ := hp
  refine ⟨(Runs.guarded_append.mp hg).1, ?_⟩
  rw [System.after_append] at hlt
  exact Nat.lt_of_le_of_lt (Runs.run_monotone
    (fun s a => (ledger_step env s a).history_suffix.length_le) (System.after env bs) cs) hlt

/-- A connected client is on the list of clients. -/
theorem connected_after (env : Env) (as : List Action) {d : DownstreamId}
    (hconn : ∀ a ∈ as, a.disconnects d = false) :
    d < (System.after env as).downstreamIdFactory →
      ((System.after env as).downstreamClients.lookup d).isSome := by
  induction as using List.reverseRecOn with
  | nil => intro h; exact absurd h (Nat.not_lt_zero d)
  | append_singleton as a ih =>
    have hbefore := ih fun b hb => hconn b (List.mem_append_left _ hb)
    have ha := hconn a (List.mem_append_right _ List.mem_cons_self)
    rw [System.after_concat]
    generalize System.after env as = s at hbefore ⊢
    cases a with
    | connect =>
      intro hlt
      simp only [System.step, KeyMap.lookup_insert_eq]
      split
      · rfl
      next hne => exact hbefore (Nat.lt_of_le_of_ne (Nat.le_of_lt_succ hlt) hne)
    | jds response now =>
      obtain ⟨-, hclients, -, hfactory⟩ := jdsStep_served env s response now
      intro hlt
      show ((s.jdsStep env response now).downstreamClients.lookup d).isSome
      rw [hclients]
      exact hbefore (hfactory ▸ hlt)
    | receive client msg now =>
      obtain ⟨tm, history, jds, heq⟩ := s.receive_frame env client msg now
      rw [System.step, heq]
      exact hbefore
    | present msg u =>
      obtain ⟨responses, pool, heq⟩ := s.present_frame msg u
      rw [System.step, heq]
      exact hbefore
    | pool =>
      obtain ⟨tm, states, responses, accepted, pool, heq⟩ := s.poolStep_frame env
      rw [System.step, heq]
      exact hbefore
    | cleanupClient e =>
      intro hlt
      have hne : d ≠ e := by
        rintro rfl
        simp [Action.disconnects] at ha
      show ((s.downstreamClients.erase e).lookup d).isSome
      rw [AList.lookup_erase_ne hne]
      exact hbefore hlt
    | janitorPending e shard now =>
      intro hlt
      simp only [System.step, KeyMap.lookup_modify]
      split
      next heq =>
        rw [Option.isSome_map, ← heq]
        exact hbefore hlt
      next => exact hbefore hlt
    | _ => exact hbefore

/-- By induction on the run: a new job is claimed by the declaration at hand, an old one
    keeps its claim unless a janitor takes it. -/
theorem stored_claimed {env : Env} {d : DownstreamId} {r : RequestId} {job : DeclaredCustomJob}
    (as : List Action) (hg : Orderly env as)
    (hlt : (System.after env as).history.length < 2 ^ 64)
    (hconn : ∀ a ∈ as, a.disconnects d = false)
    (hjob : (System.after env as).jobAt d r = some job) :
    ∃ t, job.token = some t ∧
      (Claimed (System.after env as) d r t ∨ Expired env as d r t job) := by
  induction as using List.reverseRecOn with
  | nil => cases hjob
  | append_singleton as a ih =>
    obtain ⟨hg', hlt'⟩ := orderly_prefix (List.prefix_append as [a]) hg hlt
    have hconn' : ∀ b ∈ as, b.disconnects d = false :=
      fun b hb => hconn b (List.mem_append_left _ hb)
    have ha := hconn a (List.mem_append_right _ List.mem_cons_self)
    have hrec := onRecord_after env as hg' hlt'
    have hok : (System.after env as).orderly a = true := (Runs.guarded_append.mp hg).2.1
    have hnow := hjob
    rw [System.after_concat] at hjob
    rcases jobAt_step hjob with hold | ⟨w, t, previous, -, hjds, hw, hclient, -, hfor⟩
    · obtain ⟨t, htok, hclaim | hexp⟩ := ih hg' hlt' hconn' hold
      · refine ⟨t, htok, ?_⟩
        by_cases hkept : Claimed (System.after env (as ++ [a])) d r t
        · exact .inl hkept
        · -- only a janitor takes a claim away
          have hjan : a.expires = true := by
            by_contra hno
            apply hkept
            rw [System.after_concat]
            exact claimed_step hrec.accounted hrec.ledger hrec.declarations hrec.roster hok
              (connected_after env as hconn') ha (by simpa using hno) hclaim hjob htok
          refine .inr ⟨as, a, [], rfl, hjan, hclaim, hkept, ?_⟩
          intro cs' hcs
          rw [List.prefix_nil.mp hcs]
          exact hnow
      · obtain ⟨bs, b, cs, rfl, hjan, hhad, hlost, hsince⟩ := hexp
        refine ⟨t, htok, .inr ⟨bs, b, cs ++ [a], by simp, hjan, hhad, hlost, ?_⟩⟩
        intro cs' hcs
        rcases List.prefix_concat_iff.mp hcs with rfl | hcs
        · simpa using hnow
        · exact hsince cs' hcs
    · have htok : job.token = some w.token := by
        rw [DeclaredCustomJob.token, hfor.declareMiningJob]
        exact (hrec.declarations.working w (by rw [hjds]; rfl)).1
      refine ⟨w.token, htok, .inl ?_⟩
      rw [System.after_concat]
      exact .handled w hw hclient rfl

/-- **A rejected declaration leaves nothing behind, in an orderly run.**  For the messages
    of the clients, the answers of the node, the presentations, the janitors and the
    disconnects in any order, with fewer than `2 ^ 64` tokens issued. -/
theorem nothing_left (env : Env) (as : List Action) (hg : Orderly env as)
    (hlt : (System.after env as).history.length < 2 ^ 64) : NothingLeft env as := by
  constructor
  · intro bs response now cs w result code has hjds hsent
    have hp : bs <+: as := ⟨_, has.symm⟩
    obtain ⟨hg', hlt'⟩ := orderly_prefix hp hg hlt
    have hrec := onRecord_after env bs hg' hlt'
    have hok : (System.after env bs).orderly (.jds response now) = true := by
      rw [has] at hg
      exact (Runs.guarded_append.mp hg).2.1
    rw [System.after_concat] at hsent ⊢
    exact forgotten_of_rejected hrec.accounted hrec.ledger hrec.declarations hjds hok hsent
  · intro bs hp d hconn r job hjob
    obtain ⟨hg', hlt'⟩ := orderly_prefix hp hg hlt
    exact stored_claimed bs hg' hlt' hconn hjob

/-- A declaration misses a transaction; the node then answers the second round. -/
def secondRound (response : JdResponse) : List Action :=
  [.connect, .receive 0 (.allocateMiningJobToken ⟨"farm_01", 0⟩) 0, .jds none 0,
   .receive 0 (.declareMiningJob sampleDeclaration) 1, .jds none 1, .jds none 1, .jds none 1,
   .jds (some (.missingTransactions [Hash256.allZeros] ⟨Hash256.allZeros, 0x207fffff⟩)) 2,
   .jds none 2,
   .receive 0 (.provideMissingTransactionsSuccess ⟨1, []⟩) 3, .jds none 3, .jds none 3,
   .jds none 3, .jds (some response) 4]

/-- The node refuses the completed block: every record of it is undone. -/
theorem nothing_left_secondRound :
    Orderly sampleEnv (secondRound (.error "bad-txns" ⟨Hash256.allZeros, 0x207fffff⟩) ++
      [.jds none 5]) ∧
    NothingLeft sampleEnv (secondRound (.error "bad-txns" ⟨Hash256.allZeros, 0x207fffff⟩) ++
      [.jds none 5]) :=
  ⟨by decide +kernel, nothing_left sampleEnv _ (by decide +kernel) (by decide +kernel)⟩

/-- The supplied transactions were not the missing ones. -/
def stillMissing : JdResponse :=
  .missingTransactions [Hash256.allZeros] ⟨Hash256.allZeros, 0x207fffff⟩

deriving instance DecidableEq for Declaration, JdsTask

/-- The second round is answered with an error, and the job that it stored stays with its
    token entry, for a token that is neither active nor awaited. -/
theorem secondRound_leaves_job :
    ¬ NothingLeft sampleEnv (secondRound stillMissing ++ [.jds none 5]) := by
  intro h
  have hleft : (System.after sampleEnv (secondRound stillMissing ++ [.jds none 5])).jobAt 0 1 ≠
      none := by decide +kernel
  apply hleft
  refine (h.rejected (secondRound stillMissing) none 5 []
    ⟨0, sampleDeclaration, some ⟨1, []⟩, 0⟩ (.missingTransactions [Hash256.allZeros]) .missingTxs
    rfl ?_ ?_).unstored.job
  · decide +kernel
  · decide +kernel

end Sv2Apps.Jds
