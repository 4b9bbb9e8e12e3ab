/-
  Jds/AcceptedJobs.lean
  =====================
  **Where an accepted custom job comes from** — over whole runs of the job declarator.

  A presentation that is answered with success has been compared with a job that the node
  approved for the owner of the token.  What the declarator itself never looks at, such as
  who is paid, holds of the accepted jobs only as far as it holds of those declarations:
  if every approved declaration of a client that has a token for an identity in `share` is
  `good`, every presentation accepted under such an identity was compared with a good
  declaration (`DeclaredInv.accepted`).

  The token entry and the job are two maps, and a request id may be used again; so the
  invariant speaks about whatever job a token entry leads to.
-/
import Sv2Apps.Jds.TokenLifecycle

namespace Sv2Apps.Jds

open Bitcoin

section

variable (env : Env) (share : Identity → Bool) (good : DeclareMiningJob → Bool)

/-- The client was allocated a token for an identity in `share`. -/
def owes (s : System) (client : DownstreamId) : Bool :=
  s.history.any fun
    | .allocation _ owner identity => owner == client && share identity
    | .activation _ _ _ _ => false

/-- A declaration that the node approves for a client that owes is good. -/
def approvesGood (s : System) (a : Action) : Bool :=
  match a, s.jds with
  | .jds (some (.success _ _ _)) _, .waiting w _ _ => !owes share s w.client || good w.dmj
  | _, _ => true

structure DeclaredInv (s : System) : Prop where
  engineToken : ∀ w t previous,
    s.jds = .ensuring w t previous ∨ s.jds = .waiting w t previous → t = w.token
  entryOwn : ∀ d st t e, s.downstreamStates.lookup d = some st →
    st.allocatedTokenEntries.lookup t = some e → AllocatedTo s t d
  jobGood : ∀ d st t e job u, s.downstreamStates.lookup d = some st →
    st.allocatedTokenEntries.lookup t = some e →
    st.declaredCustomJobs.lookup e.requestId = some job → job.validated = true →
    Issue.allocation t d u ∈ s.history → share u = true → good job.declareMiningJob = true
  accepted : ∀ p ∈ s.accepted, share p.userIdentity = true →
    ∃ job, good job.declareMiningJob = true ∧ checkSetCustomMiningJob env.rb job p.msg = .success

theorem declaredInv_new : DeclaredInv env share good System.new := by
  refine ⟨?_, ?_, ?_, ?_⟩
  · rintro w t previous (h | h) <;> cases h
  · intro d st t e h
    cases h
  · intro d st t e job u h
    cases h
  · intro p hp
    cases hp

variable {env share good}

theorem owes_of_mem {s : System} {t : JdToken} {client : DownstreamId} {u : Identity}
    (hmem : Issue.allocation t client u ∈ s.history) (hu : share u = true) :
    owes share s client = true := by
  refine List.any_eq_true.mpr ⟨_, hmem, ?_⟩
  simp [hu]

/-! ## Changes of one downstream's state -/

/-- `st'` has no token entry and no job that `st` does not have. -/
structure DownstreamState.Within (st' st : DownstreamState) : Prop where
  entries : ∀ t e, st'.allocatedTokenEntries.lookup t = some e →
    st.allocatedTokenEntries.lookup t = some e
  jobs : ∀ r job, st'.declaredCustomJobs.lookup r = some job →
    st.declaredCustomJobs.lookup r = some job

theorem DownstreamState.Within.refl (st : DownstreamState) : st.Within st :=
  ⟨fun _ _ h => h, fun _ _ h => h⟩

theorem takeDeclaredCustomJob_within (st : DownstreamState) (t : JdToken) :
    (st.takeDeclaredCustomJob t).2.Within st := by
  unfold DownstreamState.takeDeclaredCustomJob
  split
  · exact .refl st
  · exact ⟨fun _ _ h => KeyMap.lookup_erase_some h, fun _ _ h => KeyMap.lookup_erase_some h⟩

theorem removeDeclaredCustomJob_within (st : DownstreamState) (r : RequestId) (t : JdToken) :
    (st.removeDeclaredCustomJob r t).Within st :=
  ⟨fun _ _ h => KeyMap.lookup_erase_some h, fun _ _ h => KeyMap.lookup_erase_some h⟩

theorem pruneExpiredAllocations_within (st : DownstreamState) (now : Instant) :
    (st.pruneExpiredAllocations now).Within st := by
  refine ⟨fun _ _ h => KeyMap.lookup_retain_some h, ?_⟩
  intro r job h
  unfold DownstreamState.pruneExpiredAllocations at h
  dsimp only at h
  -- by induction on the entries that the prune goes through
  generalize st.allocatedTokenEntries.entries = entries at h
  generalize st.declaredCustomJobs = jobs at h ⊢
  induction entries generalizing jobs with
  | nil => exact h
  | cons e rest ih =>
    have hstep := ih _ h
    dsimp only at hstep
    split at hstep
    · exact KeyMap.lookup_erase_some hstep
    · exact hstep

/-! ## One step -/

theorem DeclaredInv.next {s s' : System} (h : DeclaredInv env share good s)
    (hhist : s.history <:+ s'.history)
    (hfresh : ∀ t d u, Issue.allocation t d u ∈ s'.history → AllocatedTo s t d →
      Issue.allocation t d u ∈ s.history)
    (htask : ∀ w t previous,
      s'.jds = .ensuring w t previous ∨ s'.jds = .waiting w t previous → t = w.token)
    (hstates : ∀ d st', s'.downstreamStates.lookup d = some st' →
      st' = DownstreamState.default ∨
        ∃ st, s.downstreamStates.lookup d = some st ∧ st'.Within st)
    (hacc : s'.accepted = s.accepted) : DeclaredInv env share good s' := by
  refine ⟨htask, ?_, ?_, ?_⟩
  · intro d st' t e hd he
    rcases hstates d st' hd with rfl | ⟨st, hst, hw⟩
    · cases he
    · obtain ⟨u, hu⟩ := h.entryOwn d st t e hst (hw.entries t e he)
      exact ⟨u, hhist.subset hu⟩
  · intro d st' t e job u hd he hj hv hu hshare
    rcases hstates d st' hd with rfl | ⟨st, hst, hw⟩
    · cases he
    · have he' := hw.entries t e he
      exact h.jobGood d st t e job u hst he' (hw.jobs _ _ hj) hv
        (hfresh t d u hu (h.entryOwn d st t e hst he')) hshare
  · rw [hacc]
    exact h.accepted

/-- An allocated token is not allocated again. -/
theorem allocation_fresh {l l' : Ledger} (hstep : LedgerStep l l') (hl : LedgerInv l)
    {t : JdToken} {d c : DownstreamId} {u v : Identity}
    (hmem : Issue.allocation t d u ∈ l'.history)
    (hold : Issue.allocation t c v ∈ l.history) : Issue.allocation t d u ∈ l.history := by
  cases hstep with
  | allocate client identity now =>
    rcases List.mem_cons.mp hmem with heq | hin
    · injection heq with ht
      exact absurd ht (hl.token_ne_factory hold)
    · exact hin
  | activateInsert w data now hact =>
    rcases List.mem_cons.mp hmem with heq | hin
    · cases heq
    · exact hin
  | shrink | activateRemove | present | deactivate | accept => exact hmem

/-- Storing a job: it is good if it is validated and the client owes. -/
theorem DeclaredInv.store {s : System} (h : DeclaredInv env share good s)
    {w : Declaration} (hown : AllocatedTo s w.token w.client) {st : DownstreamState}
    (hst : s.downstreamStates.lookup w.client = some st) {job : DeclaredCustomJob}
    (hgood : job.validated = true → owes share s w.client = true →
      good job.declareMiningJob = true) (now : Instant) (result : DeclareMiningJobResult) :
    DeclaredInv env share good
      { s with
        downstreamStates := s.downstreamStates.insert w.client
          (st.insertDeclaredCustomJob w.dmj.requestId w.token job now)
        jds := .concluding w result } := by
  refine ⟨?_, ?_, ?_, h.accepted⟩
  · rintro v t previous (hv | hv) <;> cases hv
  · intro d st' t e hd he
    dsimp only at hd
    rw [KeyMap.lookup_insert_eq] at hd
    split at hd
    next heq =>
      subst heq
      cases hd
      simp only [DownstreamState.insertDeclaredCustomJob, KeyMap.lookup_insert_eq] at he
      split at he
      next ht => subst ht; exact hown
      next => exact h.entryOwn _ st t e hst he
    next => exact h.entryOwn d st' t e hd he
  · intro d st' t e job' u hd he hj hv hu hshare
    dsimp only at hd hu
    rw [KeyMap.lookup_insert_eq] at hd
    split at hd
    next heq =>
      subst heq
      cases hd
      simp only [DownstreamState.insertDeclaredCustomJob, KeyMap.lookup_insert_eq] at he hj
      split at hj
      next =>
        -- whichever entry leads to the new job, its client owes
        cases hj
        exact hgood hv (owes_of_mem hu hshare)
      next hr =>
        split at he
        next => cases he; exact absurd rfl hr
        next => exact h.jobGood _ st t e job' u hst he hj hv hu hshare
    next => exact h.jobGood d st' t e job' u hd he hj hv hu hshare

theorem waiting_declaredInv {s : System} (h : DeclaredInv env share good s)
    (hd : DeclarationInv s) {w : Declaration} {t : JdToken} {previous : Option ValidationContext}
    (hjds : s.jds = .waiting w t previous) {response : Option JdResponse} {now : Instant}
    (hok : approvesGood share good s (.jds response now) = true) :
    DeclaredInv env share good
      (let r := applyJdResponse s.downstreamStates w.client w.dmj w.provided.isSome t previous
        response now
      { s with downstreamStates := r.2, jds := .concluding w r.1 }) := by
  have ht : t = w.token := h.engineToken w t previous (.inr hjds)
  subst ht
  have hown := (hd.working w (by rw [hjds]; rfl)).2
  have hwithin : ∀ (states : DownstreamStates) result,
      (∀ d st', states.lookup d = some st' →
        ∃ st, s.downstreamStates.lookup d = some st ∧ st'.Within st) →
      DeclaredInv env share good
        { s with downstreamStates := states, jds := .concluding w result } := by
    intro states result hst
    refine h.next List.suffix_rfl (fun _ _ _ hm _ => hm) ?_ (fun d st' hl => .inr (hst d st' hl)) rfl
    rintro v u p (hv | hv) <;> cases hv
  have hsame : ∀ result, DeclaredInv env share good
      { s with downstreamStates := s.downstreamStates, jds := .concluding w result } :=
    fun result => hwithin _ result fun d st' hl => ⟨st', hl, .refl st'⟩
  have hdrop : ∀ result, DeclaredInv env share good
      { s with
        downstreamStates := dropDeclaredJob s.downstreamStates w.client w.dmj.requestId w.token
        jds := .concluding w result } := by
    intro result
    apply hwithin
    intro d st' hl
    rw [dropDeclaredJob, KeyMap.lookup_modify] at hl
    split at hl
    next heq =>
      subst heq
      obtain ⟨st, hst, rfl⟩ := Option.map_eq_some_iff.mp hl
      exact ⟨st, hst, removeDeclaredCustomJob_within st _ _⟩
    next => exact ⟨st', hl, .refl st'⟩
  unfold applyJdResponse
  rcases response with _ | ⟨prevHash, nbits, txids⟩ | ⟨code, ctx⟩ | ⟨missing, ctx⟩
  · exact hsame _
  · dsimp only
    split
    · exact hsame _
    next states' hs =>
      obtain ⟨st, hst, rfl⟩ := storeDeclaredJob_eq_some hs
      refine h.store hown hst ?_ now .success
      intro _ howes
      simp only [approvesGood, hjds] at hok
      simpa [howes] using hok
  · exact hdrop _
  · dsimp only
    split
    · exact hdrop _
    · split
      · exact hsame _
      next states' hs =>
        obtain ⟨st, hst, rfl⟩ := storeDeclaredJob_eq_some hs
        refine h.store hown hst ?_ now _
        intro hv
        cases hv

/-- The step that takes a job out and compares it. -/
theorem poolStep_declaredInv {s : System} (h : DeclaredInv env share good s)
    (hr : Recorded s.ledger) : DeclaredInv env share good (s.poolStep env) := by
  have hsame : ∀ s' : System, s'.history = s.history → s'.jds = s.jds →
      (∀ d st', s'.downstreamStates.lookup d = some st' →
        ∃ st, s.downstreamStates.lookup d = some st ∧ st'.Within st) →
      s'.accepted = s.accepted → DeclaredInv env share good s' := by
    intro s' hh hj hst ha
    refine h.next (hh ▸ List.suffix_rfl) (fun _ _ _ hm _ => by rw [← hh]; exact hm) ?_
      (fun d st' hl => .inr (hst d st' hl)) ha
    rw [hj]
    exact h.engineToken
  have hid : ∀ d st', s.downstreamStates.lookup d = some st' →
      ∃ st, s.downstreamStates.lookup d = some st ∧ st'.Within st :=
    fun d st' hl => ⟨st', hl, .refl st'⟩
  unfold System.poolStep
  cases hpool : s.pool with
  | idle => exact h
  | stopped => exact h
  | deactivating p => exact hsame _ rfl rfl hid rfl
  | taking p =>
    have htaken : ∀ d st', (handleSetCustomMiningJob env.rb s.downstreamStates p.data.owner
          p.msg p.data.allocatedToken).2.lookup d = some st' →
        ∃ st, s.downstreamStates.lookup d = some st ∧ st'.Within st := by
      intro d st' hl
      rw [handleSetCustomMiningJob_states] at hl
      cases hst : s.downstreamStates.lookup p.data.owner with
      | none => rw [hst] at hl; exact hid d st' hl
      | some st =>
        rw [hst] at hl
        dsimp only at hl
        rw [KeyMap.lookup_insert_eq] at hl
        split at hl
        next heq =>
          subst heq
          cases hl
          exact ⟨st, hst, takeDeclaredCustomJob_within st _⟩
        next => exact hid d st' hl
    dsimp only
    split
    next hres =>
      -- the comparison was with the job that the entry of the token led to
      have hbase := hsame { s with downstreamStates := (handleSetCustomMiningJob env.rb
        s.downstreamStates p.data.owner p.msg p.data.allocatedToken).2 } rfl rfl htaken rfl
      refine ⟨hbase.engineToken, hbase.entryOwn, hbase.jobGood, ?_⟩
      intro q hq hshare
      rcases List.mem_cons.mp hq with rfl | hq
      · obtain ⟨job, hjob, hcheck⟩ := handleSetCustomMiningJob_success hres
        obtain ⟨hact, hident⟩ := hr.presenting q (by
          show s.pool.presentation = some q
          rw [hpool]
          rfl)
        have halloc := hr.activated _ _ _ _ hact
        rw [← hident] at halloc
        obtain ⟨st, hst, hentry⟩ := Option.bind_eq_some_iff.mp hjob
        obtain ⟨e, he, hj⟩ := Option.bind_eq_some_iff.mp hentry
        have hval := (checkSetCustomMiningJob_eq_success hcheck).1
        exact ⟨job, h.jobGood _ st _ e job _ hst he hj hval halloc hshare, hcheck⟩
      · exact h.accepted q hq hshare
    next => exact hsame _ rfl rfl htaken rfl
    next => exact hsame _ rfl rfl htaken rfl

theorem jdsStep_declaredInv {s : System} (h : DeclaredInv env share good s)
    (hl : LedgerInv s.ledger) (hd : DeclarationInv s) {response : Option JdResponse}
    {now : Instant} (hok : approvesGood share good s (.jds response now) = true) :
    DeclaredInv env share good (s.jdsStep env response now) := by
  have hstep := jdsStep_ledger env s response now
  have hacc := (jdsStep_poolSide env s response now).2.2
  have hfresh : ∀ t d u, Issue.allocation t d u ∈ (s.jdsStep env response now).history →
      AllocatedTo s t d → Issue.allocation t d u ∈ s.history := by
    rintro t d u hmem ⟨v, hv⟩
    exact allocation_fresh hstep hl hmem hv
  -- most stages leave the declared jobs alone and name no engine token
  have hquiet : (s.jdsStep env response now).downstreamStates = s.downstreamStates →
      (∀ w t previous, (s.jdsStep env response now).jds = .ensuring w t previous ∨
        (s.jdsStep env response now).jds = .waiting w t previous → t = w.token) →
      DeclaredInv env share good (s.jdsStep env response now) := by
    intro hst htask
    refine h.next hstep.history_suffix hfresh htask ?_ hacc
    intro d st' hlook
    rw [hst] at hlook
    exact .inr ⟨st', hlook, .refl st'⟩
  unfold System.jdsStep at hquiet hfresh hstep ⊢
  cases hjds : s.jds with
  | idle => exact h
  | stopped => exact h
  | answering c a =>
    simp only [hjds] at hquiet
    apply hquiet
    · split <;> rfl
    · intro w t previous hw
      split at hw <;> rcases hw with hw | hw <;> cases hw
  | checking c dmj =>
    simp only [hjds] at hquiet
    apply hquiet
    · split
      · rfl
      · split <;> rfl
    · intro w t previous hw
      split at hw
      · rcases hw with hw | hw <;> cases hw
      · split at hw <;> rcases hw with hw | hw <;> cases hw
  | retrying c msg =>
    simp only [hjds] at hquiet
    apply hquiet
    · split
      · rfl
      · split
        · rfl
        · split <;> rfl
    · intro w t previous hw
      split at hw
      · rcases hw with hw | hw <;> cases hw
      · split at hw
        · rcases hw with hw | hw <;> cases hw
        · split at hw <;> rcases hw with hw | hw <;> cases hw
  | validating w =>
    simp only [hjds] at hquiet
    apply hquiet
    · split <;> rfl
    · intro v t previous hv
      split at hv
      next => rcases hv with hv | hv <;> cases hv
      next t' req hprep =>
        rcases hv with hv | hv
        · cases hv
          have hown := (hd.working w (by rw [hjds]; rfl)).1
          exact Option.some.inj ((prepareDeclareMiningJob_eq_ok hprep).1.symm.trans hown)
        · cases hv
  | ensuring w t previous =>
    simp only [hjds] at hfresh hstep ⊢
    refine h.next hstep.history_suffix hfresh ?_ ?_ rfl
    · intro v u p hv
      rcases hv with hv | hv
      · cases hv
      · cases hv
        exact h.engineToken w t previous (.inl hjds)
    · intro d st' hlook
      dsimp only at hlook
      rw [KeyMap.lookup_ensure] at hlook
      split at hlook
      next heq =>
        subst heq
        cases hst : s.downstreamStates.lookup w.client with
        | none =>
          rw [hst] at hlook
          cases hlook
          exact .inl rfl
        | some st =>
          rw [hst] at hlook
          cases hlook
          exact .inr ⟨st, rfl, .refl st⟩
      next => exact .inr ⟨st', hlook, .refl st'⟩
  | waiting w t previous => exact waiting_declaredInv h hd hjds hok
  | concluding w result =>
    simp only [hjds] at hquiet
    apply hquiet
    · unfold System.conclude
      split
      · split <;> rfl
      · rfl
      · split
        · rfl
        · split
          · rfl
          · dsimp only
            split <;> rfl
      · rfl
    · intro v t previous hv
      unfold System.conclude at hv
      split at hv
      · split at hv <;> rcases hv with hv | hv <;> cases hv
      · rcases hv with hv | hv <;> cases hv
      · split at hv
        · rcases hv with hv | hv <;> cases hv
        · split at hv
          · rcases hv with hv | hv <;> cases hv
          · dsimp only at hv
            split at hv <;> rcases hv with hv | hv <;> cases hv
      · rcases hv with hv | hv <;> cases hv
  | activating w data =>
    simp only [hjds] at hquiet
    apply hquiet
    · rfl
    · rintro v t previous (hv | hv) <;> cases hv

theorem declaredInv_step {s : System} (h : DeclaredInv env share good s)
    (hl : LedgerInv s.ledger) (hd : DeclarationInv s) {a : Action}
    (hok : approvesGood share good s a = true) : DeclaredInv env share good (s.step env a) := by
  have hstep := ledger_step env s a
  have hfresh : ∀ t d u, Issue.allocation t d u ∈ (s.step env a).history →
      AllocatedTo s t d → Issue.allocation t d u ∈ s.history := by
    rintro t d u hmem ⟨v, hv⟩
    exact allocation_fresh hstep hl hmem hv
  have hkeep : (∀ w t previous, (s.step env a).jds = .ensuring w t previous ∨
        (s.step env a).jds = .waiting w t previous →
        s.jds = .ensuring w t previous ∨ s.jds = .waiting w t previous) →
      (∀ d st', (s.step env a).downstreamStates.lookup d = some st' →
        ∃ st, s.downstreamStates.lookup d = some st ∧ st'.Within st) →
      (s.step env a).accepted = s.accepted → DeclaredInv env share good (s.step env a) := by
    intro htask hst hacc
    exact h.next hstep.history_suffix hfresh
      (fun w t previous hw => h.engineToken w t previous (htask w t previous hw))
      (fun d st' hlook => .inr (hst d st' hlook)) hacc
  have hid : ∀ d st', s.downstreamStates.lookup d = some st' →
      ∃ st, s.downstreamStates.lookup d = some st ∧ st'.Within st :=
    fun d st' hlook => ⟨st', hlook, .refl st'⟩
  cases a with
  | jds response now => exact jdsStep_declaredInv h hl hd hok
  | pool => exact poolStep_declaredInv h hl.toRecorded
  | receive client msg now =>
    simp only [System.step, System.receive] at hkeep ⊢
    cases hjds : s.jds with
    | idle =>
      simp only [hjds] at hkeep
      apply hkeep
      · intro w t previous hw
        split at hw
        · rcases hw with hw | hw <;> cases hw
        · split at hw <;> rcases hw with hw | hw <;> simp [hjds] at hw
        · split at hw <;> rcases hw with hw | hw <;> simp [hjds] at hw
      · split
        · exact hid
        · split <;> exact hid
        · split <;> exact hid
      · split
        · rfl
        · split <;> rfl
        · split <;> rfl
    | _ => exact h
  | present msg u =>
    obtain ⟨responses, pool, heq⟩ := s.present_frame msg u
    rw [System.step, heq] at hkeep ⊢
    exact hkeep (fun _ _ _ hw => hw) hid rfl
  | cleanupState d =>
    refine hkeep (fun _ _ _ hw => hw) ?_ rfl
    intro e st' hlook
    exact hid e st' (KeyMap.lookup_erase_some hlook)
  | janitorDeclared d now =>
    refine hkeep (fun _ _ _ hw => hw) ?_ rfl
    intro e st' hlook
    simp only [System.step, KeyMap.lookup_modify] at hlook
    split at hlook
    next heq =>
      subst heq
      obtain ⟨st, hst, rfl⟩ := Option.map_eq_some_iff.mp hlook
      exact ⟨st, hst, pruneExpiredAllocations_within st now⟩
    next => exact hid e st' hlook
  | _ => exact hkeep (fun _ _ _ hw => hw) hid rfl

end

end Sv2Apps.Jds
