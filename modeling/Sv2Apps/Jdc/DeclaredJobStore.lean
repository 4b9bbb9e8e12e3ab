/-
  Jdc/DeclaredJobStore.lean
  =========================
  **The store of declared jobs is bounded by outstanding work** — an entry of
  `last_declare_job_store` waits to be declared, or for the answer to its declaration, or for the
  answer to its custom job.

  The client itself keeps no record of answers; `Observed` is the client together with the
  requests that have been answered.  `boundsStore` excludes the messages after which an entry
  waits for nothing: a declaration that the server rejects, a declaration that is accepted and
  leads to no custom job, and a prev-hash that passes over a job that has not been declared.
-/
import Sv2Apps.Jdc.CalmMessages

namespace Sv2Apps.Jdc

open Bitcoin

/-! ## Requests and answers -/

/-- The request of a declaration. -/
def Message.declaredRequest : Message → Option RequestId
  | .declareMiningJob declaration => some declaration.requestId
  | _ => none

/-- The request of a custom job. -/
def Message.customRequest : Message → Option RequestId
  | .setCustomMiningJob job _ => some job.requestId
  | _ => none

/-- A message that neither declares a job nor asks for a custom job. -/
structure Message.IsNoRequest (m : Message) : Prop where
  declared : m.declaredRequest = none
  custom : m.customRequest = none

theorem Message.IsAboutShare.noRequest {m : Message} (h : m.IsAboutShare) : m.IsNoRequest := by
  cases m <;> first | exact ⟨rfl, rfl⟩ | cases h

theorem Message.IsJobNotice.noRequest {m : Message} (h : m.IsJobNotice) : m.IsNoRequest := by
  cases m <;> first | exact ⟨rfl, rfl⟩ | cases h

/-- The custom jobs that the handler at work will ask for. -/
def LoopTask.customRequests : LoopTask → List RequestId
  | .newTemplate _ _ _ _ messages => messages.filterMap Message.customRequest
  | .setNewPrevHash _ _ _ _ messages => messages.filterMap Message.customRequest
  | .openSuccess _ customJob _ _ => (customJob.map CustomJob.requestId).toList
  | _ => []

/-- The custom job that is sent once the group channels know the size of the new channel. -/
def LoopTask.openCustomJob : LoopTask → Option CustomJob
  | .openSuccess _ customJob _ _ => customJob
  | _ => none

/-- The templates that have come since the last prev-hash, and the one that it activated. -/
def currentTemplates : List (TemplateMessage × Option (List TxOut)) → List TemplateId
  | [] => []
  | (.newTemplate t, _) :: rest => t.templateId :: currentTemplates rest
  | (.setNewPrevHash p, _) :: _ => [p.templateId]

namespace ChannelManager

variable {env : Env} {s s' : ChannelManager} {d : DownstreamId}

def declaredRequests (s : ChannelManager) : List RequestId :=
  s.sent.filterMap Message.declaredRequest

/-- The custom jobs that have been asked for, or will be at the end of the handler at work. -/
def customRequests (s : ChannelManager) : List RequestId :=
  s.sent.filterMap Message.customRequest ++ s.loop.customRequests

/-- The declaration that a message answers. -/
def Event.declarationAnswer : Event → Option RequestId
  | .declareMiningJobSuccess requestId _ _ => some requestId
  | .declareMiningJobError requestId _ => some requestId
  | _ => none

/-- The custom job that a message answers. -/
def Event.customJobAnswer : Event → Option RequestId
  | .setCustomMiningJobSuccess requestId _ _ _ => some requestId
  | .setCustomMiningJobError requestId _ => some requestId
  | _ => none

/-- The request that an action answers, if its message is taken. -/
def takenAnswer (s : ChannelManager) (f : Event → Option RequestId) : Action → List RequestId
  | .event e => if s.takes e then (f e).toList else []
  | _ => []

end ChannelManager

/-- The client and the requests that have been answered. -/
structure Observed where
  client : ChannelManager
  declarationAnswers : List RequestId
  customJobAnswers : List RequestId

namespace Observed

open ChannelManager

def start (outs : Option (List TxOut)) : Observed := ⟨.start outs, [], []⟩

def step (env : Env) (o : Observed) (a : Action) : Observed where
  client := o.client.step env a
  declarationAnswers := o.client.takenAnswer Event.declarationAnswer a ++ o.declarationAnswers
  customJobAnswers := o.client.takenAnswer Event.customJobAnswer a ++ o.customJobAnswers

/-- A declaration or a custom job of the request has no answer. -/
def Awaits (o : Observed) (r : RequestId) : Prop :=
  (r ∈ o.client.declaredRequests ∧ r ∉ o.declarationAnswers) ∨
    (r ∈ o.client.customRequests ∧ r ∉ o.customJobAnswers)

/-- The server and the pool answer requests that have been sent, each one once. -/
def answersRequests (o : Observed) : Action → Bool
  | .event e =>
    e.declarationAnswer.all (fun r =>
      decide (r ∈ o.client.declaredRequests ∧ r ∉ o.declarationAnswers)) &&
    e.customJobAnswer.all (fun r =>
      decide (r ∈ o.client.sent.filterMap Message.customRequest ∧ r ∉ o.customJobAnswers))
  | _ => true

end Observed

/-! ## Conditions -/

namespace ChannelManager

variable {env : Env} {s s' : ChannelManager} {d : DownstreamId}

/-- The stored job of the last future template that a prev-hash declares. -/
def declaredByPrevHash (env : Env) (s : ChannelManager) (pick : RequestId) : Option RequestId :=
  if env.mode = .fullTemplate then
    (s.lastFutureTemplate.bind fun t => s.storedJobOf t.templateId pick).map Prod.fst
  else none

/-- No message leaves an entry behind that waits for nothing: declarations are not rejected as
    stale, and accepted ones lead to a custom job; a prev-hash declares a job that has not been
    declared, and every other job that has not been declared is one of the template that it
    names; the transactions of a template do not come after a prev-hash has passed it over.  The
    request ids have not come round. -/
def boundsStore (env : Env) (s : ChannelManager) (a : Action) : Bool :=
  decide (s.requestIdFactory.toNat + 2 < 2 ^ 32) && match a with
  | .event (.setNewPrevHash p pick _) => s.lastDeclareJobStore.entries.all fun e =>
      e.2.declareMiningJob.isNone ||
        (if s.declaredByPrevHash env pick = some e.1 then !e.2.declared
        else e.2.declared || decide (e.2.template.templateId = p.templateId))
  | .event (.requestTransactionDataSuccess templateId _ _) =>
    match s.templateStore.lookup templateId with
    | none => true
    | some t => !isPendingFuture t s.lastNewPrevHash ||
        decide (t.templateId ∈ currentTemplates s.history)
  | .event (.declareMiningJobSuccess requestId _ built) =>
    match s.lastDeclareJobStore.lookup requestId with
    | none => true
    | some job => job.prevHash.isSome && s.upstreamChannel.isSome && s.jobFactory && built
  | .event (.declareMiningJobError requestId stale) =>
    !stale || (s.lastDeclareJobStore.lookup requestId).isNone
  | _ => true

end ChannelManager

/-! ## The invariant -/

namespace Observed

open ChannelManager

variable {env : Env} {o : Observed} {s' : ChannelManager}

/-- The job has not been declared, and its template is one of the current tip. -/
def Undeclared (s : ChannelManager) (job : DeclaredJob) : Prop :=
  job.declareMiningJob.isSome = true ∧ job.declared = false ∧
    job.template.templateId ∈ currentTemplates s.history

structure StoreInv (o : Observed) : Prop where
  keys : ∀ r job, o.client.lastDeclareJobStore.lookup r = some job →
    r.toNat < o.client.requestIdFactory.toNat
  declaredKeys : ∀ r ∈ o.client.declaredRequests, r.toNat < o.client.requestIdFactory.toNat
  customKeys : ∀ r ∈ o.client.customRequests, r.toNat < o.client.requestIdFactory.toNat
  declarationAnswers : ∀ r ∈ o.declarationAnswers, r ∈ o.client.declaredRequests
  customJobAnswers : ∀ r ∈ o.customJobAnswers, r ∈ o.client.customRequests ∧
    o.client.lastDeclareJobStore.lookup r = none
  once : ∀ r, o.client.declaredRequests.count r ≤ 1
  own : ∀ r job declaration, o.client.lastDeclareJobStore.lookup r = some job →
    job.declareMiningJob = some declaration → declaration.requestId = r
  undeclared : ∀ r job, o.client.lastDeclareJobStore.lookup r = some job →
    job.declareMiningJob.isSome = true → job.declared = false → r ∉ o.client.declaredRequests
  entries : ∀ r job, o.client.lastDeclareJobStore.lookup r = some job →
    Undeclared o.client job ∨ o.Awaits r

theorem storeInv_start (outs : Option (List TxOut)) : StoreInv (start outs) := by
  refine ⟨?_, ?_, ?_, by simp [start], by simp [start], ?_, ?_, ?_, ?_⟩
  · intro r job h
    cases h
  · intro r h
    simp [start, ChannelManager.start, declaredRequests, Message.declaredRequest] at h
  · intro r h
    simp [start, ChannelManager.start, customRequests, Message.customRequest,
      LoopTask.customRequests] at h
  · intro r
    exact Nat.zero_le 1
  · intro r job declaration h
    cases h
  · intro r job h
    cases h
  · intro r job h
    cases h

/-- Nothing has happened to the store, and no job was declared or asked for. -/
structure StoreKept (s s' : ChannelManager) : Prop where
  store : s'.lastDeclareJobStore = s.lastDeclareJobStore
  declared : s'.declaredRequests = s.declaredRequests
  custom : ∀ r, r ∈ s'.customRequests ↔ r ∈ s.customRequests
  factory : s.requestIdFactory.toNat ≤ s'.requestIdFactory.toNat
  templates : ∀ t ∈ currentTemplates s.history, t ∈ currentTemplates s'.history

theorem StoreInv.of_kept (h : StoreInv o) (hkept : StoreKept o.client s') :
    StoreInv { o with client := s' } := by
  have hawaits : ∀ r, o.Awaits r → Awaits { o with client := s' } r := by
    intro r hr
    rw [Awaits, hkept.declared, hkept.custom]
    exact hr
  refine ⟨?_, ?_, ?_, ?_, ?_, ?_, ?_, ?_, ?_⟩
  · intro r job hjob
    rw [hkept.store] at hjob
    exact Nat.lt_of_lt_of_le (h.keys r job hjob) hkept.factory
  · intro r hr
    rw [hkept.declared] at hr
    exact Nat.lt_of_lt_of_le (h.declaredKeys r hr) hkept.factory
  · intro r hr
    rw [hkept.custom] at hr
    exact Nat.lt_of_lt_of_le (h.customKeys r hr) hkept.factory
  · intro r hr
    rw [hkept.declared]
    exact h.declarationAnswers r hr
  · intro r hr
    rw [hkept.custom, hkept.store]
    exact h.customJobAnswers r hr
  · intro r
    rw [hkept.declared]
    exact h.once r
  · intro r job declaration hjob
    rw [hkept.store] at hjob
    exact h.own r job declaration hjob
  · intro r job hjob
    rw [hkept.store] at hjob
    rw [hkept.declared]
    exact h.undeclared r job hjob
  · intro r job hjob
    rw [hkept.store] at hjob
    rcases h.entries r job hjob with ⟨hsome, hfalse, hcurrent⟩ | hr
    · exact Or.inl ⟨hsome, hfalse, hkept.templates _ hcurrent⟩
    · exact Or.inr (hawaits r hr)

/-- A custom job that was not declared is stored under the next request id and asked for. -/
theorem StoreInv.of_customJob (h : StoreInv o) {stored : DeclaredJob}
    (hstore : s'.lastDeclareJobStore =
      o.client.lastDeclareJobStore.insert o.client.requestIdFactory stored)
    (hnone : stored.declareMiningJob = none)
    (hdeclared : s'.declaredRequests = o.client.declaredRequests)
    (hcustom : ∀ r, r ∈ s'.customRequests ↔
      r = o.client.requestIdFactory ∨ r ∈ o.client.customRequests)
    (hfactory : o.client.requestIdFactory.toNat < s'.requestIdFactory.toNat)
    (htemplates : ∀ t ∈ currentTemplates o.client.history, t ∈ currentTemplates s'.history) :
    StoreInv { o with client := s' } := by
  have hlookup : ∀ r job, s'.lastDeclareJobStore.lookup r = some job →
      (r = o.client.requestIdFactory ∧ job = stored) ∨
        o.client.lastDeclareJobStore.lookup r = some job := by
    intro r job hjob
    rw [hstore, KeyMap.lookup_insert_eq] at hjob
    split at hjob
    next heq =>
      cases hjob
      exact Or.inl ⟨heq, rfl⟩
    · exact Or.inr hjob
  refine ⟨?_, ?_, ?_, ?_, ?_, ?_, ?_, ?_, ?_⟩
  · intro r job hjob
    rcases hlookup r job hjob with ⟨rfl, -⟩ | hjob
    · exact hfactory
    · exact Nat.lt_trans (h.keys r job hjob) hfactory
  · intro r hr
    rw [hdeclared] at hr
    exact Nat.lt_trans (h.declaredKeys r hr) hfactory
  · intro r hr
    rcases (hcustom r).mp hr with rfl | hr
    · exact hfactory
    · exact Nat.lt_trans (h.customKeys r hr) hfactory
  · intro r hr
    rw [hdeclared]
    exact h.declarationAnswers r hr
  · intro r hr
    obtain ⟨hsent, hgone⟩ := h.customJobAnswers r hr
    refine ⟨(hcustom r).mpr (Or.inr hsent), ?_⟩
    rw [hstore, KeyMap.lookup_insert_eq, if_neg]
    · exact hgone
    · rintro rfl
      exact absurd (h.customKeys _ hsent) (Nat.lt_irrefl _)
  · intro r
    rw [hdeclared]
    exact h.once r
  · intro r job declaration hjob hdeclaration
    rcases hlookup r job hjob with ⟨-, rfl⟩ | hjob
    · rw [hnone] at hdeclaration
      cases hdeclaration
    · exact h.own r job declaration hjob hdeclaration
  · intro r job hjob hsome
    rcases hlookup r job hjob with ⟨-, rfl⟩ | hjob
    · rw [hnone] at hsome
      cases hsome
    · rw [hdeclared]
      exact h.undeclared r job hjob hsome
  · intro r job hjob
    rcases hlookup r job hjob with ⟨rfl, -⟩ | hjob
    · -- its answer cannot have come before it was asked for
      refine Or.inr (Or.inr ⟨(hcustom _).mpr (Or.inl rfl), ?_⟩)
      intro hanswered
      exact absurd (h.customKeys _ (h.customJobAnswers _ hanswered).1) (Nat.lt_irrefl _)
    · rcases h.entries r job hjob with ⟨hsome, hfalse, hcurrent⟩ | hr
      · exact Or.inl ⟨hsome, hfalse, htemplates _ hcurrent⟩
      · right
        rw [Awaits, hdeclared, hcustom]
        exact hr.imp_right fun hr => ⟨Or.inr hr.1, hr.2⟩

/-! ## Parts of handlers that ask for nothing -/

/-- The store is as it was and nothing has been declared or asked for. -/
structure Unrequested (s s' : ChannelManager) : Prop where
  store : s'.lastDeclareJobStore = s.lastDeclareJobStore
  history : s'.history = s.history
  factory : s.requestIdFactory.toNat ≤ s'.requestIdFactory.toNat
  sent : ∃ ms, s'.sent = ms ++ s.sent ∧ ∀ m ∈ ms, m.IsNoRequest

namespace Unrequested

variable {s s' : ChannelManager}

theorem refl (s : ChannelManager) : Unrequested s s := ⟨rfl, rfl, Nat.le_refl _, [], rfl, by simp⟩

theorem trans {s₁ s₂ s₃ : ChannelManager} (h : Unrequested s₁ s₂) (h' : Unrequested s₂ s₃) :
    Unrequested s₁ s₃ := by
  obtain ⟨ms, hms, hno⟩ := h.sent
  obtain ⟨ms', hms', hno'⟩ := h'.sent
  refine ⟨h'.store.trans h.store, h'.history.trans h.history, Nat.le_trans h.factory h'.factory,
    ms' ++ ms, by rw [hms', hms, List.append_assoc], ?_⟩
  intro m hm
  rcases List.mem_append.mp hm with hm | hm
  · exact hno' m hm
  · exact hno m hm

theorem fail (s : ChannelManager) (f : Fault) : Unrequested s (s.fail f) := by
  cases f <;> exact ⟨rfl, rfl, Nat.le_refl _, [], rfl, by simp⟩

theorem send {ms : List Message} (h : ∀ m ∈ ms, m.IsNoRequest) : Unrequested s (s.send ms) :=
  ⟨rfl, rfl, Nat.le_refl _, ms.reverse, rfl, by simpa using h⟩

theorem of_sharesMoved (h : SharesMoved s s') : Unrequested s s' := by
  obtain ⟨ms, fw, cs, ac, vs, hms, rfl⟩ := h
  exact ⟨rfl, rfl, Nat.le_refl _, ms, rfl, fun m hm => (hms m hm).noRequest⟩

theorem opens {r : PendingRequest} {ans : OpenAnswers} (h : Opens s r ans s') : Unrequested s s' := by
  have hnotice : ∀ d m, (Message.downstream d m).IsNoRequest := fun _ _ => ⟨rfl, rfl⟩
  cases h with
  | refused ds factory code hds =>
    exact ⟨rfl, rfl, Nat.le_refl _, [_], rfl, by simp [hnotice]⟩
  | standard ds extranoncePrefix t p raw outs jobId group =>
    exact ⟨rfl, rfl, Nat.le_refl _, _, rfl, by simp [announcement, hnotice]⟩
  | extended ds extranoncePrefix m t p raw outs jobId group =>
    exact ⟨rfl, rfl, Nat.le_refl _, _, rfl, by simp [announcement, hnotice]⟩

theorem allocateToken (hids : s.requestIdFactory.toNat + 1 < 2 ^ 32) :
    Unrequested s s.allocateToken := by
  refine ⟨rfl, rfl, ?_, [.allocateMiningJobToken s.requestIdFactory], rfl, by
    simpa using ⟨rfl, rfl⟩⟩
  simp only [ChannelManager.allocateToken, UInt32.toNat_add]
  rw [Nat.mod_eq_of_lt (by simpa using hids)]
  exact Nat.le_add_right _ _

theorem declaredRequests (h : Unrequested s s') : s'.declaredRequests = s.declaredRequests := by
  obtain ⟨ms, hms, hno⟩ := h.sent
  have hnil : ms.filterMap Message.declaredRequest = [] :=
    List.filterMap_eq_nil_iff.mpr fun m hm => (hno m hm).declared
  rw [ChannelManager.declaredRequests, ChannelManager.declaredRequests, hms, List.filterMap_append,
    hnil, List.nil_append]

theorem sentRequests (h : Unrequested s s') :
    s'.sent.filterMap Message.customRequest = s.sent.filterMap Message.customRequest := by
  obtain ⟨ms, hms, hno⟩ := h.sent
  have hnil : ms.filterMap Message.customRequest = [] :=
    List.filterMap_eq_nil_iff.mpr fun m hm => (hno m hm).custom
  rw [hms, List.filterMap_append, hnil, List.nil_append]

theorem kept (h : Unrequested s s') (hloop : s'.loop.customRequests = s.loop.customRequests) :
    StoreKept s s' := by
  refine ⟨h.store, h.declaredRequests, ?_, h.factory, ?_⟩
  · intro r
    rw [customRequests, customRequests, h.sentRequests, hloop]
  · intro t ht
    rw [h.history]
    exact ht

end Unrequested

/-! ## A prev-hash -/

/-- A prev-hash declares the stored job of the last future template, if it has a declaration. -/
theorem declareFutureTemplate_stored (env : Env) (s : ChannelManager) (pick : RequestId) :
    ((∀ r, s.declaredByPrevHash env pick = some r → ∃ job,
        s.lastDeclareJobStore.lookup r = some job ∧ job.declareMiningJob = none) ∧
      s.declareFutureTemplate env pick = s) ∨
    ∃ r job declaration, s.declaredByPrevHash env pick = some r ∧
      s.lastDeclareJobStore.lookup r = some job ∧ job.declareMiningJob = some declaration ∧
      s.declareFutureTemplate env pick = { s with
        lastDeclareJobStore := s.lastDeclareJobStore.insert r { job with declared := true }
        sent := .declareMiningJob declaration :: s.sent } := by
  unfold declareFutureTemplate declaredByPrevHash
  split
  next hmode =>
    split
    next r job hbind =>
      obtain ⟨t, ht, hjob⟩ := Option.bind_eq_some_iff.mp hbind
      have hlookup := (storedJobOf_lookup hjob).1
      rw [hbind]
      split
      next declaration hdeclaration =>
        exact Or.inr ⟨r, job, declaration, rfl, hlookup, hdeclaration, rfl⟩
      next hnone =>
        refine Or.inl ⟨?_, rfl⟩
        intro r' hr'
        cases hr'
        exact ⟨job, hlookup, hnone⟩
    next hbind =>
      refine Or.inl ⟨?_, rfl⟩
      intro r' hr'
      rw [hbind] at hr'
      cases hr'
  · refine Or.inl ⟨?_, rfl⟩
    intro r' hr'
    cases hr'

theorem activate_keeps (p : SetNewPrevHash) (r : RequestId) (job : DeclaredJob) :
    (activate p r job).declareMiningJob = job.declareMiningJob ∧
      (activate p r job).declared = job.declared ∧
      (activate p r job).template.templateId = job.template.templateId := by
  unfold activate
  split <;> exact ⟨rfl, rfl, rfl⟩

/-- A stored job is declared for the first time. -/
theorem StoreInv.of_declared (h : StoreInv o) {r₀ : RequestId} {job₀ : DeclaredJob}
    (hjob₀ : o.client.lastDeclareJobStore.lookup r₀ = some job₀)
    (hsome₀ : job₀.declareMiningJob.isSome = true) (hfalse₀ : job₀.declared = false)
    (hstore : s'.lastDeclareJobStore =
      o.client.lastDeclareJobStore.insert r₀ { job₀ with declared := true })
    (hdeclared : s'.declaredRequests = r₀ :: o.client.declaredRequests)
    (hcustom : s'.customRequests = o.client.customRequests)
    (hfactory : s'.requestIdFactory = o.client.requestIdFactory)
    (hhistory : s'.history = o.client.history) : StoreInv { o with client := s' } := by
  have hfresh := h.undeclared r₀ job₀ hjob₀ hsome₀ hfalse₀
  have hlookup : ∀ r job, s'.lastDeclareJobStore.lookup r = some job →
      (r = r₀ ∧ job = { job₀ with declared := true }) ∨
        (r ≠ r₀ ∧ o.client.lastDeclareJobStore.lookup r = some job) := by
    intro r job hjob
    rw [hstore, KeyMap.lookup_insert_eq] at hjob
    split at hjob
    next heq =>
      cases hjob
      exact Or.inl ⟨heq, rfl⟩
    next hne => exact Or.inr ⟨hne, hjob⟩
  refine ⟨?_, ?_, ?_, ?_, ?_, ?_, ?_, ?_, ?_⟩
  · intro r job hjob
    rw [hfactory]
    rcases hlookup r job hjob with ⟨rfl, -⟩ | ⟨-, hjob⟩
    · exact h.keys _ job₀ hjob₀
    · exact h.keys r job hjob
  · intro r hr
    rw [hdeclared] at hr
    rw [hfactory]
    rcases List.mem_cons.mp hr with rfl | hr
    · exact h.keys _ job₀ hjob₀
    · exact h.declaredKeys r hr
  · intro r hr
    rw [hcustom] at hr
    rw [hfactory]
    exact h.customKeys r hr
  · intro r hr
    rw [hdeclared]
    exact List.mem_cons_of_mem _ (h.declarationAnswers r hr)
  · intro r hr
    obtain ⟨hsent, hgone⟩ := h.customJobAnswers r hr
    rw [hcustom, hstore, KeyMap.lookup_insert_eq, if_neg]
    · exact ⟨hsent, hgone⟩
    · rintro rfl
      rw [hjob₀] at hgone
      cases hgone
  · intro r
    rw [hdeclared, List.count_cons]
    split
    next heq => rw [← beq_iff_eq.mp heq, List.count_eq_zero_of_not_mem hfresh]
    · exact h.once r
  · intro r job declaration hjob hdeclaration
    rcases hlookup r job hjob with ⟨rfl, rfl⟩ | ⟨-, hjob⟩
    · exact h.own _ job₀ declaration hjob₀ hdeclaration
    · exact h.own r job declaration hjob hdeclaration
  · intro r job hjob hsome hfalse
    rcases hlookup r job hjob with ⟨-, rfl⟩ | ⟨hne, hjob⟩
    · cases hfalse
    · rw [hdeclared]
      intro hr
      rcases List.mem_cons.mp hr with heq | hr
      · exact hne heq
      · exact h.undeclared r job hjob hsome hfalse hr
  · intro r job hjob
    rw [Awaits, hdeclared, hcustom, Undeclared, hhistory]
    rcases hlookup r job hjob with ⟨rfl, -⟩ | ⟨-, hjob⟩
    · refine Or.inr (Or.inl ⟨List.mem_cons_self, ?_⟩)
      intro hanswered
      exact hfresh (h.declarationAnswers _ hanswered)
    · rcases h.entries r job hjob with hundeclared | hr | hr
      · exact Or.inl hundeclared
      · exact Or.inr (Or.inl ⟨List.mem_cons_of_mem _ hr.1, hr.2⟩)
      · exact Or.inr (Or.inr hr)

/-- The tip changes, and the jobs that have not been declared are of the new tip. -/
theorem StoreInv.of_activated (h : StoreInv o) {p : SetNewPrevHash}
    (hstore : s'.lastDeclareJobStore =
      KeyMap.mapValues (activate p) o.client.lastDeclareJobStore)
    (hdeclared : s'.declaredRequests = o.client.declaredRequests)
    (hcustom : s'.customRequests = o.client.customRequests)
    (hfactory : s'.requestIdFactory = o.client.requestIdFactory)
    (hhistory : currentTemplates s'.history = [p.templateId])
    (htip : ∀ r job, o.client.lastDeclareJobStore.lookup r = some job →
      job.declareMiningJob.isSome = true → job.declared = false →
      job.template.templateId = p.templateId) : StoreInv { o with client := s' } := by
  have hlookup : ∀ r job', s'.lastDeclareJobStore.lookup r = some job' →
      ∃ job, o.client.lastDeclareJobStore.lookup r = some job ∧
        job'.declareMiningJob = job.declareMiningJob ∧ job'.declared = job.declared ∧
        job'.template.templateId = job.template.templateId := by
    intro r job' hjob'
    rw [hstore, KeyMap.lookup_mapValues] at hjob'
    obtain ⟨job, hjob, rfl⟩ := Option.map_eq_some_iff.mp hjob'
    exact ⟨job, hjob, activate_keeps p r job⟩
  refine ⟨?_, ?_, ?_, ?_, ?_, ?_, ?_, ?_, ?_⟩
  · intro r job' hjob'
    obtain ⟨job, hjob, -⟩ := hlookup r job' hjob'
    rw [hfactory]
    exact h.keys r job hjob
  · intro r hr
    rw [hdeclared] at hr
    rw [hfactory]
    exact h.declaredKeys r hr
  · intro r hr
    rw [hcustom] at hr
    rw [hfactory]
    exact h.customKeys r hr
  · intro r hr
    rw [hdeclared]
    exact h.declarationAnswers r hr
  · intro r hr
    rw [hcustom, hstore, KeyMap.lookup_mapValues, (h.customJobAnswers r hr).2]
    exact ⟨(h.customJobAnswers r hr).1, rfl⟩
  · intro r
    rw [hdeclared]
    exact h.once r
  · intro r job' declaration hjob' hdeclaration
    obtain ⟨job, hjob, hsame, -⟩ := hlookup r job' hjob'
    rw [hsame] at hdeclaration
    exact h.own r job declaration hjob hdeclaration
  · intro r job' hjob' hsome hfalse
    obtain ⟨job, hjob, hsame, hsameDeclared, -⟩ := hlookup r job' hjob'
    rw [hsame] at hsome
    rw [hsameDeclared] at hfalse
    rw [hdeclared]
    exact h.undeclared r job hjob hsome hfalse
  · intro r job' hjob'
    obtain ⟨job, hjob, hsame, hsameDeclared, htemplate⟩ := hlookup r job' hjob'
    rw [Awaits, hdeclared, hcustom, Undeclared, hsame, hsameDeclared, htemplate, hhistory]
    rcases h.entries r job hjob with ⟨hsome, hfalse, -⟩ | hr
    · exact Or.inl ⟨hsome, hfalse, List.mem_singleton.mpr (htip r job hjob hsome hfalse)⟩
    · exact Or.inr hr

/-- The entries after a prev-hash. -/
theorem StoreInv.of_prevHash (h : StoreInv o) {p : SetNewPrevHash} {pick : RequestId} {built : Bool}
    (hok : o.client.boundsStore env (.event (.setNewPrevHash p pick built)) = true)
    (raw : Option (List TxOut)) :
    let s₁ := declareFutureTemplate env { o.client with
      history := (.setNewPrevHash p, raw) :: o.client.history
      cachedShares := ∅ } pick
    StoreInv { o with client := { s₁ with
      lastNewPrevHash := some p
      lastDeclareJobStore := KeyMap.mapValues (activate p) s₁.lastDeclareJobStore } } := by
  -- what the condition says about an entry
  have hentry : ∀ r job, o.client.lastDeclareJobStore.lookup r = some job →
      job.declareMiningJob.isSome = true →
      if o.client.declaredByPrevHash env pick = some r then job.declared = false
      else job.declared = true ∨ job.template.templateId = p.templateId := by
    intro r job hjob hsome
    simp only [boundsStore, Bool.and_eq_true, List.all_eq_true] at hok
    have hall := hok.2 ⟨r, job⟩ ((KeyMap.mem_entries_iff _ _ _).mpr hjob)
    simp only [Bool.or_eq_true, Option.isNone_iff_eq_none] at hall
    rcases hall with hnone | hall
    · rw [hnone] at hsome
      cases hsome
    · split
      next heq =>
        rw [if_pos heq] at hall
        simpa using hall
      next hne =>
        rw [if_neg hne] at hall
        simpa using hall
  have hother : ∀ r job, o.client.lastDeclareJobStore.lookup r = some job →
      job.declareMiningJob.isSome = true → job.declared = false →
      o.client.declaredByPrevHash env pick ≠ some r →
      job.template.templateId = p.templateId := by
    intro r job hjob hsome hfalse hne
    have hcase := hentry r job hjob hsome
    rw [if_neg hne, hfalse] at hcase
    exact hcase.resolve_left (by simp)
  dsimp only
  obtain ⟨hpicked, heq⟩ | ⟨r₀, job₀, declaration₀, hpicked, hjob₀, hdeclaration₀, heq⟩ :=
    declareFutureTemplate_stored env { o.client with
      history := (.setNewPrevHash p, raw) :: o.client.history
      cachedShares := ∅ } pick
  · rw [heq]
    refine h.of_activated rfl rfl rfl rfl rfl ?_
    intro r job hjob hsome hfalse
    refine hother r job hjob hsome hfalse ?_
    intro hdeclaredBy
    obtain ⟨job₁, hjob₁, hnone⟩ := hpicked r hdeclaredBy
    rw [show o.client.lastDeclareJobStore.lookup r = some job₁ from hjob₁] at hjob
    cases hjob
    rw [hnone] at hsome
    cases hsome
  · rw [heq]
    have hjob₀ : o.client.lastDeclareJobStore.lookup r₀ = some job₀ := hjob₀
    have hpicked : o.client.declaredByPrevHash env pick = some r₀ := hpicked
    have hsome₀ : job₀.declareMiningJob.isSome = true := by rw [hdeclaration₀]; rfl
    have hfalse₀ : job₀.declared = false := by
      have hcase := hentry r₀ job₀ hjob₀ hsome₀
      rwa [if_pos hpicked] at hcase
    have hdeclared : StoreInv { o with client := { o.client with
        lastDeclareJobStore :=
          o.client.lastDeclareJobStore.insert r₀ { job₀ with declared := true }
        sent := .declareMiningJob declaration₀ :: o.client.sent } } := by
      refine h.of_declared hjob₀ hsome₀ hfalse₀ rfl ?_ rfl rfl rfl
      rw [← h.own r₀ job₀ declaration₀ hjob₀ hdeclaration₀]
      rfl
    refine hdeclared.of_activated rfl rfl rfl rfl rfl ?_
    intro r job hjob hsome hfalse
    dsimp only at hjob
    rw [KeyMap.lookup_insert_eq] at hjob
    split at hjob
    · cases hjob
      cases hfalse
    next hne =>
      refine hother r job hjob hsome hfalse ?_
      rw [hpicked]
      rintro heq
      cases heq
      exact hne rfl

/-- What holds as long as the loop has not ended. -/
def StoreHolds (o : Observed) : Prop := o.client.loop.isStopped = false → StoreInv o

theorem StoreHolds.kept (h : StoreInv o) (hun : Unrequested o.client s')
    (hloop : s'.loop.customRequests = o.client.loop.customRequests) :
    StoreHolds { o with client := s' } := fun _ => h.of_kept (hun.kept hloop)

/-- An error of a handler that has nothing left to ask for. -/
theorem StoreHolds.fail (h : StoreInv o) (hloop : o.client.loop.customRequests = [])
    (hun : Unrequested o.client s') (f : Fault) : StoreHolds { o with client := s'.fail f } := by
  cases f with
  | log => exact .kept h (hun.trans (.fail s' .log)) hloop.symm
  | disconnect d => exact .kept h (hun.trans (.fail s' (.disconnect d))) hloop.symm
  | _ =>
    intro hrunning
    cases hrunning

theorem StoreHolds.conclude (h : StoreInv o) (hloop : o.client.loop.customRequests = [])
    {r : Except Fault ChannelManager} (hr : ∀ s', r = .ok s' → Unrequested o.client s') :
    StoreHolds { o with client := o.client.conclude r } := by
  cases r with
  | error f => exact .fail h hloop (.refl _) f
  | ok s₁ =>
    have hun := hr s₁ rfl
    exact .kept h ⟨hun.store, hun.history, hun.factory, hun.sent⟩ hloop.symm

theorem succ_toNat {n : UInt32} (h : n.toNat + 2 < 2 ^ 32) : (n + 1).toNat = n.toNat + 1 := by
  rw [UInt32.toNat_add]
  exact Nat.mod_eq_of_lt (by simpa using Nat.lt_of_succ_lt h)

theorem ids_left {a : Action} (hok : o.client.boundsStore env a = true) :
    o.client.requestIdFactory.toNat + 2 < 2 ^ 32 := by
  simp only [boundsStore, Bool.and_eq_true, decide_eq_true_eq] at hok
  exact hok.1

theorem declareFutureTemplate_keeps (env : Env) (s : ChannelManager) (pick : RequestId) :
    (s.declareFutureTemplate env pick).loop = s.loop ∧
      (s.declareFutureTemplate env pick).requestIdFactory = s.requestIdFactory := by
  obtain ⟨-, heq⟩ | ⟨r, job, declaration, -, -, -, heq⟩ := declareFutureTemplate_stored env s pick <;>
    rw [heq] <;> exact ⟨rfl, rfl⟩

theorem StoreHolds.receiveSetNewPrevHash (h : StoreInv o) (hloop : o.client.loop = .idle)
    {p : SetNewPrevHash} {pick : RequestId} {built : Bool}
    (hok : o.client.boundsStore env (.event (.setNewPrevHash p pick built)) = true) :
    StoreHolds { o with client := o.client.receiveSetNewPrevHash env p pick built } := by
  unfold ChannelManager.receiveSetNewPrevHash
  dsimp only
  split
  · intro hrunning
    cases hrunning
  have hinv := h.of_prevHash hok o.client.coinbaseOutputs
  have hkeeps := declareFutureTemplate_keeps env { o.client with
    history := (.setNewPrevHash p, o.client.coinbaseOutputs) :: o.client.history
    cachedShares := ∅ } pick
  dsimp only at hinv hkeeps
  have hids := ids_left hok
  rw [← hkeeps.2] at hids
  have hidle := hkeeps.1.trans hloop
  generalize ChannelManager.declareFutureTemplate env _ pick = s₁ at hinv hids hidle ⊢
  clear hkeeps
  generalize hs₂ : ({ s₁ with
    lastNewPrevHash := some p
    lastDeclareJobStore := KeyMap.mapValues (activate p) s₁.lastDeclareJobStore } :
      ChannelManager) = s₂ at hinv ⊢
  have hidle₂ : s₂.loop = .idle := by rw [← hs₂]; exact hidle
  have hids₂ : s₂.requestIdFactory.toNat + 2 < 2 ^ 32 := by rw [← hs₂]; exact hids
  clear hs₂
  split
  next f hf =>
    intro hrunning
    rw [prevHashCustomJob_error hf] at hrunning
    cases hrunning
  next s₃ consumed ms hjob =>
    have hnothing : LoopTask.customRequests (.setNewPrevHash p consumed s₃.downstream.keys [] []) =
        s₂.loop.customRequests := by
      rw [hidle₂]
      rfl
    obtain ⟨rfl, -, rfl⟩ | ⟨t, token, tokens, -, -, -, hcase⟩ := prevHashCustomJob_ok hjob
    · refine StoreHolds.kept (o := { o with client := s₃ }) hinv ?_ hnothing
      exact ⟨rfl, rfl, Nat.le_refl _, [], rfl, by simp⟩
    obtain ⟨-, rfl, -, rfl⟩ | ⟨-, rfl, rfl⟩ | ⟨channelId, size, stored, -, -, hnone, rfl, rfl⟩ := hcase
    · refine StoreHolds.kept (o := { o with client := s₂ }) hinv ?_ hnothing
      exact ⟨rfl, rfl, Nat.le_refl _, [], rfl, by simp⟩
    · refine StoreHolds.kept (o := { o with client := s₂ }) hinv ?_ hnothing
      refine ⟨rfl, rfl, ?_, [], rfl, by simp⟩
      dsimp only
      rw [succ_toNat hids₂]
      exact Nat.le_succ _
    · intro _
      refine StoreInv.of_customJob (o := { o with client := s₂ }) hinv rfl hnone rfl ?_ ?_
        (fun _ ht => ht)
      · intro r
        simp [customRequests, LoopTask.customRequests, Message.customRequest, hidle₂, or_comm]
      · dsimp only
        rw [succ_toNat hids₂]
        exact Nat.lt_succ_self _

/-! ## Transactions -/

/-- A job is stored under the next request id, with its declaration. -/
theorem StoreInv.of_stored (h : StoreInv o) {stored : DeclaredJob} {declaration : Declaration}
    (hstore : s'.lastDeclareJobStore =
      o.client.lastDeclareJobStore.insert o.client.requestIdFactory stored)
    (hdeclaration : stored.declareMiningJob = some declaration)
    (hown : declaration.requestId = o.client.requestIdFactory)
    (hdeclared : s'.declaredRequests =
      if stored.declared then o.client.requestIdFactory :: o.client.declaredRequests
      else o.client.declaredRequests)
    (hcustom : s'.customRequests = o.client.customRequests)
    (hfactory : o.client.requestIdFactory.toNat < s'.requestIdFactory.toNat)
    (hhistory : s'.history = o.client.history)
    (hcurrent : stored.declared = false →
      stored.template.templateId ∈ currentTemplates o.client.history) :
    StoreInv { o with client := s' } := by
  have hlookup : ∀ r job, s'.lastDeclareJobStore.lookup r = some job →
      (r = o.client.requestIdFactory ∧ job = stored) ∨
        (r ≠ o.client.requestIdFactory ∧ o.client.lastDeclareJobStore.lookup r = some job) := by
    intro r job hjob
    rw [hstore, KeyMap.lookup_insert_eq] at hjob
    split at hjob
    next heq =>
      cases hjob
      exact Or.inl ⟨heq, rfl⟩
    next hne => exact Or.inr ⟨hne, hjob⟩
  have hfresh : o.client.requestIdFactory ∉ o.client.declaredRequests := fun hr =>
    absurd (h.declaredKeys _ hr) (Nat.lt_irrefl _)
  have hmem : ∀ r, r ∈ s'.declaredRequests ↔
      (stored.declared = true ∧ r = o.client.requestIdFactory) ∨ r ∈ o.client.declaredRequests := by
    intro r
    rw [hdeclared]
    split
    next htrue => simp [htrue]
    next hfalse => simp [hfalse]
  refine ⟨?_, ?_, ?_, ?_, ?_, ?_, ?_, ?_, ?_⟩
  · intro r job hjob
    rcases hlookup r job hjob with ⟨rfl, -⟩ | ⟨-, hjob⟩
    · exact hfactory
    · exact Nat.lt_trans (h.keys r job hjob) hfactory
  · intro r hr
    rcases (hmem r).mp hr with ⟨-, rfl⟩ | hr
    · exact hfactory
    · exact Nat.lt_trans (h.declaredKeys r hr) hfactory
  · intro r hr
    rw [hcustom] at hr
    exact Nat.lt_trans (h.customKeys r hr) hfactory
  · intro r hr
    exact (hmem r).mpr (Or.inr (h.declarationAnswers r hr))
  · intro r hr
    obtain ⟨hsent, hgone⟩ := h.customJobAnswers r hr
    rw [hcustom, hstore, KeyMap.lookup_insert_eq, if_neg]
    · exact ⟨hsent, hgone⟩
    · rintro rfl
      exact absurd (h.customKeys _ hsent) (Nat.lt_irrefl _)
  · intro r
    rw [hdeclared]
    split
    · rw [List.count_cons]
      split
      next heq => rw [← beq_iff_eq.mp heq, List.count_eq_zero_of_not_mem hfresh]
      · exact h.once r
    · exact h.once r
  · intro r job declaration' hjob hdeclaration'
    rcases hlookup r job hjob with ⟨rfl, rfl⟩ | ⟨-, hjob⟩
    · rw [hdeclaration] at hdeclaration'
      cases hdeclaration'
      exact hown
    · exact h.own r job declaration' hjob hdeclaration'
  · intro r job hjob hsome hfalse hr
    rcases hlookup r job hjob with ⟨rfl, rfl⟩ | ⟨hne, hjob⟩
    · rcases (hmem _).mp hr with ⟨htrue, -⟩ | hr
      · rw [hfalse] at htrue
        cases htrue
      · exact hfresh hr
    · rcases (hmem r).mp hr with ⟨-, heq⟩ | hr
      · exact hne heq
      · exact h.undeclared r job hjob hsome hfalse hr
  · intro r job hjob
    rw [Awaits, hcustom, Undeclared, hhistory]
    rcases hlookup r job hjob with ⟨rfl, rfl⟩ | ⟨-, hjob⟩
    · by_cases hfalse : job.declared = false
      · exact Or.inl ⟨by rw [hdeclaration]; rfl, hfalse, hcurrent hfalse⟩
      · refine Or.inr (Or.inl ⟨(hmem _).mpr (Or.inl ⟨by simpa using hfalse, rfl⟩), ?_⟩)
        intro hanswered
        exact hfresh (h.declarationAnswers _ hanswered)
    · rcases h.entries r job hjob with hundeclared | hr | hr
      · exact Or.inl hundeclared
      · exact Or.inr (Or.inl ⟨(hmem r).mpr (Or.inr hr.1), hr.2⟩)
      · exact Or.inr (Or.inr hr)

theorem StoreHolds.handleRequestTxDataSuccess (h : StoreInv o) (hloop : o.client.loop = .idle)
    {templateId : TemplateId} {txs : List Bytes} {coinbase : Option (Bytes × Bytes)}
    (hok : o.client.boundsStore env
      (.event (.requestTransactionDataSuccess templateId txs coinbase)) = true) :
    StoreHolds { o with client :=
      o.client.handleRequestTxDataSuccess env templateId txs coinbase } := by
  have hids := ids_left hok
  have hnothing : o.client.loop.customRequests = [] := by rw [hloop]; rfl
  unfold ChannelManager.handleRequestTxDataSuccess
  split
  · exact fun _ => h
  split
  · exact .fail h hnothing (.refl _) _
  dsimp only
  -- two request ids are used, one of them for the token that replaces the one taken
  generalize hs₁ : ChannelManager.allocateToken _ = s₁
  have hfactory : s₁.requestIdFactory.toNat = o.client.requestIdFactory.toNat + 2 := by
    rw [← hs₁]
    simp only [ChannelManager.allocateToken]
    rw [UInt32.toNat_add, succ_toNat hids]
    exact Nat.mod_eq_of_lt (by simpa using hids)
  have hun : Unrequested o.client s₁ := by
    refine ⟨by rw [← hs₁]; rfl, by rw [← hs₁]; rfl, by omega, [_], by rw [← hs₁]; rfl, ?_⟩
    simpa using ⟨rfl, rfl⟩
  have hidle : s₁.loop = .idle := by rw [← hs₁]; exact hloop
  have hprevHash : s₁.lastNewPrevHash = o.client.lastNewPrevHash := by rw [← hs₁]; rfl
  split
  · exact .kept h hun (by rw [hidle, hloop])
  split
  · exact .fail h hnothing hun _
  next t ht =>
  split
  · exact .fail h hnothing hun _
  split
  · exact .fail h hnothing hun _
  split
  · exact .fail h hnothing hun _
  split
  · exact .fail h hnothing hun _
  unfold declareJob
  split
  · split
    · dsimp only
      rw [hprevHash]
      split
      next hpending =>
        intro _
        refine h.of_stored (by rw [← hun.store]) rfl rfl ?_ ?_ ?_ ?_ ?_
        · simp only [hpending]
          exact hun.declaredRequests
        · show s₁.customRequests = o.client.customRequests
          rw [customRequests, customRequests, hun.sentRequests, hidle, hloop]
        · show o.client.requestIdFactory.toNat < s₁.requestIdFactory.toNat
          omega
        · exact hun.history
        · intro _
          simp only [boundsStore, ht, hpending, Bool.and_eq_true] at hok
          simpa using hok.2
      next hpending =>
        intro _
        refine h.of_stored (by rw [← hun.store]; rfl) rfl rfl ?_ ?_ ?_ ?_ ?_
        · simp only [hpending]
          exact congrArg (o.client.requestIdFactory :: ·) hun.declaredRequests
        · show s₁.sent.filterMap Message.customRequest ++ s₁.loop.customRequests = _
          rw [customRequests, hun.sentRequests, hidle, hloop]
        · show o.client.requestIdFactory.toNat < s₁.requestIdFactory.toNat
          omega
        · exact hun.history
        · intro hfalse
          simp only [Bool.not_eq_false'] at hfalse
          exact absurd hfalse hpending
    · exact .kept h hun (by rw [hidle, hloop])
  · exact .kept h hun (by rw [hidle, hloop])

/-! ## Answers -/

/-- The answer to a custom job takes its entry away. -/
theorem StoreInv.of_customAnswer (h : StoreInv o) {r₀ : RequestId}
    (hsent : r₀ ∈ o.client.customRequests)
    (hstore : ∀ r, s'.lastDeclareJobStore.lookup r =
      if r = r₀ then none else o.client.lastDeclareJobStore.lookup r)
    (hdeclared : s'.declaredRequests = o.client.declaredRequests)
    (hcustom : s'.customRequests = o.client.customRequests)
    (hfactory : s'.requestIdFactory = o.client.requestIdFactory)
    (hhistory : s'.history = o.client.history) :
    StoreInv { o with client := s', customJobAnswers := r₀ :: o.customJobAnswers } := by
  have hlookup : ∀ r job, s'.lastDeclareJobStore.lookup r = some job →
      r ≠ r₀ ∧ o.client.lastDeclareJobStore.lookup r = some job := by
    intro r job hjob
    rw [hstore] at hjob
    split at hjob
    · cases hjob
    next hne => exact ⟨hne, hjob⟩
  refine ⟨?_, ?_, ?_, ?_, ?_, ?_, ?_, ?_, ?_⟩
  · intro r job hjob
    rw [hfactory]
    exact h.keys r job (hlookup r job hjob).2
  · intro r hr
    rw [hdeclared] at hr
    rw [hfactory]
    exact h.declaredKeys r hr
  · intro r hr
    rw [hcustom] at hr
    rw [hfactory]
    exact h.customKeys r hr
  · intro r hr
    rw [hdeclared]
    exact h.declarationAnswers r hr
  · intro r hr
    rw [hcustom, hstore]
    rcases List.mem_cons.mp hr with rfl | hr
    · exact ⟨hsent, if_pos rfl⟩
    · refine ⟨(h.customJobAnswers r hr).1, ?_⟩
      split
      · rfl
      · exact (h.customJobAnswers r hr).2
  · intro r
    rw [hdeclared]
    exact h.once r
  · intro r job declaration hjob
    exact h.own r job declaration (hlookup r job hjob).2
  · intro r job hjob
    rw [hdeclared]
    exact h.undeclared r job (hlookup r job hjob).2
  · intro r job hjob
    obtain ⟨hne, hjob⟩ := hlookup r job hjob
    rw [Awaits, hdeclared, hcustom, Undeclared, hhistory]
    rcases h.entries r job hjob with hundeclared | hr | hr
    · exact Or.inl hundeclared
    · exact Or.inr (Or.inl hr)
    · refine Or.inr (Or.inr ⟨hr.1, ?_⟩)
      intro hanswered
      rcases List.mem_cons.mp hanswered with heq | hanswered
      · exact hne heq
      · exact hr.2 hanswered

/-- An accepted declaration is followed by a custom job of the same request. -/
theorem StoreInv.of_accepted (h : StoreInv o) {r₀ : RequestId} {job₀ : DeclaredJob}
    {customJob : Option CustomJob} (hjob₀ : o.client.lastDeclareJobStore.lookup r₀ = some job₀)
    (hsent : r₀ ∈ o.client.declaredRequests)
    (hstore : s'.lastDeclareJobStore =
      o.client.lastDeclareJobStore.insert r₀ { job₀ with setCustomMiningJob := customJob })
    (hdeclared : s'.declaredRequests = o.client.declaredRequests)
    (hcustom : ∀ r, r ∈ s'.customRequests ↔ r = r₀ ∨ r ∈ o.client.customRequests)
    (hfactory : s'.requestIdFactory = o.client.requestIdFactory)
    (hhistory : s'.history = o.client.history) :
    StoreInv { o with client := s', declarationAnswers := r₀ :: o.declarationAnswers } := by
  have hlookup : ∀ r job, s'.lastDeclareJobStore.lookup r = some job →
      ∃ job', o.client.lastDeclareJobStore.lookup r = some job' ∧
        job.declareMiningJob = job'.declareMiningJob ∧ job.declared = job'.declared ∧
        job.template = job'.template := by
    intro r job hjob
    rw [hstore, KeyMap.lookup_insert_eq] at hjob
    split at hjob
    next heq =>
      cases hjob
      rw [heq]
      exact ⟨job₀, hjob₀, rfl, rfl, rfl⟩
    · exact ⟨job, hjob, rfl, rfl, rfl⟩
  have hopen : r₀ ∉ o.customJobAnswers := by
    intro hanswered
    rw [(h.customJobAnswers r₀ hanswered).2] at hjob₀
    cases hjob₀
  refine ⟨?_, ?_, ?_, ?_, ?_, ?_, ?_, ?_, ?_⟩
  · intro r job hjob
    obtain ⟨job', hjob', -⟩ := hlookup r job hjob
    rw [hfactory]
    exact h.keys r job' hjob'
  · intro r hr
    rw [hdeclared] at hr
    rw [hfactory]
    exact h.declaredKeys r hr
  · intro r hr
    rw [hfactory]
    rcases (hcustom r).mp hr with rfl | hr
    · exact h.keys _ job₀ hjob₀
    · exact h.customKeys r hr
  · intro r hr
    rw [hdeclared]
    rcases List.mem_cons.mp hr with rfl | hr
    · exact hsent
    · exact h.declarationAnswers r hr
  · intro r hr
    refine ⟨(hcustom r).mpr (Or.inr (h.customJobAnswers r hr).1), ?_⟩
    rw [hstore, KeyMap.lookup_insert_eq, if_neg]
    · exact (h.customJobAnswers r hr).2
    · rintro rfl
      exact hopen hr
  · intro r
    rw [hdeclared]
    exact h.once r
  · intro r job declaration hjob hdeclaration
    obtain ⟨job', hjob', hsame, -⟩ := hlookup r job hjob
    rw [hsame] at hdeclaration
    exact h.own r job' declaration hjob' hdeclaration
  · intro r job hjob hsome hfalse
    obtain ⟨job', hjob', hsame, hsameDeclared, -⟩ := hlookup r job hjob
    rw [hsame] at hsome
    rw [hsameDeclared] at hfalse
    rw [hdeclared]
    exact h.undeclared r job' hjob' hsome hfalse
  · intro r job hjob
    obtain ⟨job', hjob', hsame, hsameDeclared, htemplate⟩ := hlookup r job hjob
    rw [Awaits, hdeclared, hcustom, Undeclared, hhistory, hsame, hsameDeclared, htemplate]
    by_cases hr₀ : r = r₀
    · subst hr₀
      exact Or.inr (Or.inr ⟨Or.inl rfl, hopen⟩)
    · rcases h.entries r job' hjob' with hundeclared | hr | hr
      · exact Or.inl hundeclared
      · refine Or.inr (Or.inl ⟨hr.1, ?_⟩)
        intro hanswered
        rcases List.mem_cons.mp hanswered with heq | hanswered
        · exact hr₀ heq
        · exact hr.2 hanswered
      · exact Or.inr (Or.inr ⟨Or.inr hr.1, hr.2⟩)

/-- The answer to a declaration whose entry is not there. -/
theorem StoreInv.of_unknownAnswer (h : StoreInv o) {r₀ : RequestId}
    (hsent : r₀ ∈ o.client.declaredRequests)
    (hgone : o.client.lastDeclareJobStore.lookup r₀ = none) :
    StoreInv { o with declarationAnswers := r₀ :: o.declarationAnswers } := by
  refine ⟨h.keys, h.declaredKeys, h.customKeys, ?_, h.customJobAnswers, h.once, h.own, h.undeclared,
    ?_⟩
  · intro r hr
    rcases List.mem_cons.mp hr with rfl | hr
    · exact hsent
    · exact h.declarationAnswers r hr
  · intro r job hjob
    rcases h.entries r job hjob with hundeclared | hr | hr
    · exact Or.inl hundeclared
    · refine Or.inr (Or.inl ⟨hr.1, ?_⟩)
      intro hanswered
      rcases List.mem_cons.mp hanswered with rfl | hanswered
      · rw [hgone] at hjob
        cases hjob
      · exact hr.2 hanswered
    · exact Or.inr (Or.inr hr)

theorem StoreHolds.handleSetCustomMiningJobSuccess (h : StoreInv o) (hloop : o.client.loop = .idle)
    {requestId : RequestId} {jobId : JobId} {ack : AcknowledgementAnswer}
    {answers : List UpstreamShareAnswer} (hsent : requestId ∈ o.client.customRequests) :
    StoreHolds { o with
      client := o.client.handleSetCustomMiningJobSuccess requestId jobId ack answers
      customJobAnswers := requestId :: o.customJobAnswers } := by
  have hcompleted : ∀ t u, StoreInv { o with
      client := o.client.acknowledged requestId jobId t u
      customJobAnswers := requestId :: o.customJobAnswers } := fun t u =>
    h.of_customAnswer hsent (fun r => KeyMap.lookup_erase_eq _ _ _) rfl rfl rfl rfl
  have hcases := handleSetCustomMiningJobSuccess_cases o.client requestId jobId ack answers
  generalize o.client.handleSetCustomMiningJobSuccess requestId jobId ack answers = s' at hcases ⊢
  cases hcases with
  | unknown =>
    intro hrunning
    cases hrunning
  | dropped job f hjob hf =>
    rcases hf with rfl | rfl | rfl
    · intro _
      refine h.of_customAnswer hsent (fun r => KeyMap.lookup_erase_eq _ _ _) rfl ?_ rfl rfl
      rw [customRequests, customRequests, hloop]
      rfl
    · intro hrunning
      cases hrunning
    · intro hrunning
      cases hrunning
  | noShares job u hjob hup => exact fun _ => hcompleted _ u
  | shares job u p cs hjob hup hp hcs =>
    obtain ⟨s₂, hmoved, hend⟩ := @validateCachedShares_moves
      (o.client.acknowledged requestId jobId job.template.templateId u) p (u.acknowledge jobId) jobId
      answers cs
    rcases hend with heq | heq
    · rw [heq]
      intro _
      exact (hcompleted _ u).of_kept ((Unrequested.of_sharesMoved hmoved).kept (by rw [hmoved.loop]))
    · rw [heq]
      intro hrunning
      cases hrunning

theorem StoreHolds.handleDeclareMiningJobSuccess (h : StoreInv o) {requestId : RequestId}
    {newToken : Bytes} {built : Bool}
    (hok : o.client.boundsStore env (.event (.declareMiningJobSuccess requestId newToken built)) = true)
    (hsent : requestId ∈ o.client.declaredRequests) :
    StoreHolds { o with
      client := o.client.handleDeclareMiningJobSuccess requestId newToken built
      declarationAnswers := requestId :: o.declarationAnswers } := by
  unfold ChannelManager.handleDeclareMiningJobSuccess
  split
  next hgone => exact fun _ => h.of_unknownAnswer hsent hgone
  next job hjob =>
  simp only [boundsStore, hjob, Bool.and_eq_true] at hok
  obtain ⟨-, ⟨⟨hprevHash, hup⟩, hfactory⟩, hbuilt⟩ := hok
  split
  next hnone =>
    rw [hnone] at hprevHash
    cases hprevHash
  split
  · intro hrunning
    cases hrunning
  split
  next hnone =>
    rw [upstreamInfo, Option.map_eq_none_iff] at hnone
    rw [hnone] at hup
    cases hup
  rw [if_pos (by rw [hfactory, hbuilt]; rfl)]
  intro _
  refine h.of_accepted hjob hsent rfl rfl ?_ rfl rfl
  intro r
  exact List.mem_cons

/-- The spec of every message. -/
theorem StoreHolds.handle (h : StoreInv o) (hloop : o.client.loop = .idle) {e : Event}
    (hlaw : o.answersRequests (.event e) = true)
    (hok : o.client.boundsStore env (.event e) = true) :
    StoreHolds ⟨o.client.handle env e, e.declarationAnswer.toList ++ o.declarationAnswers,
      e.customJobAnswer.toList ++ o.customJobAnswers⟩ := by
  have hnothing : o.client.loop.customRequests = [] := by rw [hloop]; rfl
  have hstopped : ∀ {s₁ : ChannelManager} {f : Fault} {ds cs : List RequestId},
      f = .shutdown ∨ f = .fallback → StoreHolds ⟨s₁.fail f, ds, cs⟩ := by
    rintro s₁ f ds cs (rfl | rfl)
    · intro hrunning
      cases hrunning
    · intro hrunning
      cases hrunning
  have hsentCustom : ∀ r, e.customJobAnswer = some r → r ∈ o.client.customRequests := by
    intro r hr
    simp only [answersRequests, hr, Option.all_some, Bool.and_eq_true, decide_eq_true_eq] at hlaw
    exact List.mem_append_left _ hlaw.2.1
  have hsentDeclaration : ∀ r, e.declarationAnswer = some r → r ∈ o.client.declaredRequests := by
    intro r hr
    simp only [answersRequests, hr, Option.all_some, Bool.and_eq_true, decide_eq_true_eq] at hlaw
    exact hlaw.1.1
  cases e with
  | newTemplate t =>
    simp only [ChannelManager.handle, receiveNewTemplate]
    split
    · exact hstopped (Or.inl rfl)
    split
    · intro hrunning
      cases hrunning
    intro _
    refine h.of_kept ?_
    split
    · refine ⟨rfl, rfl, ?_, Nat.le_refl _, fun _ ht => List.mem_cons_of_mem _ ht⟩
      intro r
      simp [customRequests, ChannelManager.send, LoopTask.customRequests, Message.customRequest, hloop]
    · refine ⟨rfl, rfl, ?_, Nat.le_refl _, fun _ ht => List.mem_cons_of_mem _ ht⟩
      intro r
      simp [customRequests, LoopTask.customRequests, hloop]
  | setNewPrevHash p pick built => exact .receiveSetNewPrevHash h hloop hok
  | requestTransactionDataSuccess t txs coinbase => exact .handleRequestTxDataSuccess h hloop hok
  | openExtendedMiningChannelSuccess msg ans =>
    have hids := ids_left hok
    have hcases := receiveOpenSuccess_cases env o.client msg ans
    simp only [ChannelManager.handle]
    generalize o.client.receiveOpenSuccess env msg ans = s' at hcases ⊢
    cases hcases with
    | failed f wrapped hf => exact hstopped hf
    | noRequest _ =>
      exact .kept h ⟨rfl, rfl, Nat.le_refl _, [_], rfl, by simpa using ⟨rfl, rfl⟩⟩ rfl
    | refused _ =>
      exact .kept h ⟨rfl, rfl, Nat.le_refl _, [_], rfl, by simpa using ⟨rfl, rfl⟩⟩ rfl
    | configured raw s₁ customJob hraw hsize hpending hallocator hjob =>
      have hcase := openCustomJob_cases env
        { o.client with sizeWrapped := o.client.sizeWrapped || msg.wraps } (openedUpstream msg) raw
        ans.customJobBuilt
      rw [hjob] at hcase
      obtain heq | ⟨t, p, token, tokens, -, -, -, -, -, ⟨-, heq⟩ | ⟨stored, hnone, heq⟩⟩ := hcase <;>
        cases heq
      · exact .kept h ⟨rfl, rfl, Nat.le_refl _, [], rfl, by simp⟩ hnothing.symm
      · refine .kept h ⟨rfl, rfl, ?_, [], rfl, by simp⟩ hnothing.symm
        dsimp only
        rw [succ_toNat hids]
        exact Nat.le_succ _
      · intro _
        refine h.of_customJob rfl hnone rfl ?_ ?_ (fun _ ht => ht)
        · intro r
          simp [customRequests, LoopTask.customRequests, hloop, or_comm]
        · dsimp only
          rw [succ_toNat hids]
          exact Nat.lt_succ_self _
  | setExtranoncePrefix extranoncePrefix accepts built =>
    simp only [ChannelManager.handle, ChannelManager.receiveSetExtranoncePrefix]
    split
    · exact fun _ => h
    split
    · exact hstopped (Or.inr rfl)
    split
    · exact hstopped (Or.inr rfl)
    split
    · exact hstopped (Or.inr rfl)
    · exact .kept h ⟨rfl, rfl, Nat.le_refl _, [], rfl, by simp⟩ hnothing.symm
  | setCustomMiningJobSuccess requestId jobId ack answers =>
    exact .handleSetCustomMiningJobSuccess h hloop (hsentCustom requestId rfl)
  | setCustomMiningJobError requestId stale =>
    simp only [ChannelManager.handle, handleSetCustomMiningJobError]
    have hsent := hsentCustom requestId rfl
    split
    · split
      next hgone =>
        intro _
        refine h.of_customAnswer hsent ?_ rfl rfl rfl rfl
        intro r
        split
        next heq =>
          rw [heq]
          exact hgone
        · rfl
      · exact fun _ => h.of_customAnswer hsent (fun r => KeyMap.lookup_erase_eq _ _ _) rfl rfl rfl rfl
    · exact hstopped (Or.inr rfl)
  | closeUpstreamChannel =>
    simp only [ChannelManager.handle]
    exact hstopped (Or.inr rfl)
  | upstreamFault =>
    simp only [ChannelManager.handle]
    exact hstopped (Or.inr rfl)
  | allocateMiningJobTokenSuccess requestId token outs =>
    simp only [ChannelManager.handle, handleAllocateMiningJobTokenSuccess]
    split
    · split
      · exact hstopped (Or.inl rfl)
      · exact .kept h ⟨rfl, rfl, Nat.le_refl _, [], rfl, by simp⟩ rfl
    · split
      · exact .kept h ⟨rfl, rfl, Nat.le_refl _, [_], rfl, by simpa using ⟨rfl, rfl⟩⟩ rfl
      · exact .kept h ⟨rfl, rfl, Nat.le_refl _, [], rfl, by simp⟩ rfl
  | declareMiningJobSuccess requestId token built =>
    exact .handleDeclareMiningJobSuccess h hok (hsentDeclaration requestId rfl)
  | declareMiningJobError requestId stale =>
    simp only [ChannelManager.handle]
    split
    next hstale =>
      simp only [boundsStore, hstale, Bool.and_eq_true, Bool.not_true, Bool.false_or,
        Option.isNone_iff_eq_none] at hok
      exact fun _ => h.of_unknownAnswer (hsentDeclaration requestId rfl) hok.2
    · exact hstopped (Or.inr rfl)
  | provideMissingTransactions requestId positions =>
    simp only [ChannelManager.handle, handleProvideMissingTransactions]
    split
    · exact fun _ => h
    · exact .kept h (.send (by simpa using ⟨rfl, rfl⟩)) rfl
  | openChannel r ans =>
    simp only [ChannelManager.handle, ChannelManager.handleDownstreamOpen]
    have hnow : StoreHolds { o with
        client := { o.client with openRequests := r :: o.client.openRequests }.handleOpenNow r ans } := by
      unfold ChannelManager.handleOpenNow
      obtain ⟨wrapped, hrecord⟩ :=
        recordRollableSize_calm { o.client with openRequests := r :: o.client.openRequests } r ans
      rw [hrecord]
      dsimp only
      generalize hs₁ : ({ o.client with
        openRequests := r :: o.client.openRequests
        sizeWrapped := wrapped } : ChannelManager) = s₁
      have hinv : StoreInv { o with client := s₁ } := by
        rw [← hs₁]
        exact h.of_kept ⟨rfl, rfl, fun _ => Iff.rfl, Nat.le_refl _, fun _ ht => ht⟩
      have hnothing₁ : s₁.loop.customRequests = [] := by rw [← hs₁]; exact hnothing
      exact .conclude (o := { o with client := s₁ }) hinv hnothing₁
        fun s' hs' => .opens (handleOpen_opens hs')
    split
    · exact .kept h ⟨rfl, rfl, Nat.le_refl _, [_], rfl, by simpa using ⟨rfl, rfl⟩⟩ rfl
    · exact .kept h ⟨rfl, rfl, Nat.le_refl _, [], rfl, by simp⟩ rfl
    · exact hnow
    · exact hnow
  | closeChannel d channelId =>
    refine .conclude h hnothing ?_
    intro s' hs'
    unfold handleCloseChannel at hs'
    split at hs'
    · cases hs'
    · cases hs'
      exact ⟨rfl, rfl, Nat.le_refl _, [], rfl, by simp⟩
  | submitSharesStandard d channelId jobId ans upstream =>
    exact .conclude h hnothing fun s' hs' => .of_sharesMoved (handleSubmitShares_moves hs')
  | submitSharesExtended d channelId jobId extranonce ans upstream =>
    exact .conclude h hnothing fun s' hs' => .of_sharesMoved (handleSubmitShares_moves hs')

/-! ## Visits -/

theorem notices_customRequest {notices : List Message} (h : ∀ m ∈ notices, Message.IsJobNotice m) :
    notices.filterMap Message.customRequest = [] :=
  List.filterMap_eq_nil_iff.mpr fun m hm => (h m hm).noRequest.custom

theorem StoreHolds.visit (h : StoreInv o) (hids : o.client.requestIdFactory.toNat + 2 < 2 ^ 32)
    (d : DownstreamId) (ans : VisitAnswers) :
    StoreHolds { o with client := o.client.visit d ans } := by
  unfold ChannelManager.visit
  split
  · exact fun _ => h
  split
  next t ctx present visited messages hloop =>
    split
    · exact fun _ => h
    split
    next f hf =>
      intro hrunning
      rw [visitNewTemplate_error hf] at hrunning
      cases hrunning
    next s₁ ms hs₁ =>
      obtain ⟨ds', jobs, notices, -, hnotices, rfl, rfl⟩ := visitNewTemplate_ok hs₁
      have hnil := notices_customRequest hnotices
      obtain ⟨n, hn, heq⟩ | ⟨token, channelId, size, p, stored, -, -, -, hnone, heq⟩ :=
        templateCustomJob_cases o.client t ctx ans.template.customJobBuilt
      · rw [heq]
        refine .kept h ⟨rfl, rfl, ?_, [], rfl, by simp⟩ ?_
        · rcases hn with rfl | rfl
          · exact Nat.le_refl _
          · rw [succ_toNat hids]
            exact Nat.le_succ _
        · rw [hloop]
          simp only [LoopTask.customRequests, List.filterMap_append, hnil, List.nil_append,
            List.append_nil]
      · rw [heq]
        intro _
        refine h.of_customJob rfl hnone rfl ?_ ?_ (fun _ ht => ht)
        · intro r
          have hloopRequests : (messages ++ ([Message.setCustomMiningJob
              ⟨channelId, o.client.requestIdFactory, token, p.chainTip, t, ctx.outputs, size⟩ false] ++
                notices)).filterMap Message.customRequest =
              messages.filterMap Message.customRequest ++ [o.client.requestIdFactory] := by
            rw [List.filterMap_append, List.filterMap_append, hnil, List.append_nil]
            rfl
          simp only [customRequests, LoopTask.customRequests, hloopRequests, hloop, List.mem_append,
            List.mem_singleton]
          tauto
        · dsimp only
          rw [succ_toNat hids]
          exact Nat.lt_succ_self _
  next p consumed present visited messages hloop =>
    split
    · exact fun _ => h
    split
    next f hf =>
      intro hrunning
      rcases visitSetNewPrevHash_error hf with rfl | rfl <;> cases hrunning
    next s₁ ms hs₁ =>
      obtain ⟨jobs, rfl, hnotices⟩ := visitSetNewPrevHash_ok hs₁
      refine .kept h ⟨rfl, rfl, Nat.le_refl _, [], rfl, by simp⟩ ?_
      rw [hloop]
      simp only [LoopTask.customRequests, List.filterMap_append, notices_customRequest hnotices,
        List.append_nil]
  next size customJob present visited hloop =>
    split
    · exact fun _ => h
    split
    · refine .kept h ⟨rfl, rfl, Nat.le_refl _, [], rfl, by simp⟩ ?_
      rw [hloop]
      rfl
    · intro hrunning
      cases hrunning
  next present visited renewals hloop =>
    split
    · exact fun _ => h
    · refine .kept h ⟨rfl, rfl, Nat.le_refl _, [], rfl, by simp⟩ ?_
      rw [hloop]
      rfl
  · exact fun _ => h

theorem takePending_customRequests (s : ChannelManager) :
    s.takePending.loop.customRequests = [] := by
  simp only [takePending]
  split <;> rfl

theorem finishOpenSuccess_kept {s : ChannelManager} (hids : s.requestIdFactory.toNat + 2 < 2 ^ 32)
    {size : Nat} {customJob : Option CustomJob} {present visited : List DownstreamId}
    (hloop : s.loop = .openSuccess size customJob present visited)
    (hmode : customJob.isSome = true → env.mode = .coinbaseOnly) :
    StoreKept s (s.finishOpenSuccess env customJob) := by
  have hrequest : Unrequested s (s.requestFutureTemplate env) ∧
      (s.requestFutureTemplate env).requestIdFactory = s.requestIdFactory := by
    unfold requestFutureTemplate
    split
    · exact ⟨.send (by simpa using ⟨rfl, rfl⟩), rfl⟩
    · exact ⟨.refl s, rfl⟩
  unfold finishOpenSuccess
  generalize s.requestFutureTemplate env = s₁ at hrequest
  obtain ⟨hun, hfactory⟩ := hrequest
  rw [← hfactory] at hids
  cases customJob with
  | none =>
    have hsame : s₁.sendOpenCustomJob env none = s₁ := by
      unfold sendOpenCustomJob
      split
      next hjob => cases hjob
      · rfl
    rw [hsame]
    have htaken : Unrequested s s₁.takePending := ⟨hun.store, hun.history, hun.factory, hun.sent⟩
    refine htaken.kept ?_
    rw [takePending_customRequests, hloop]
    rfl
  | some job =>
    have hsame : s₁.sendOpenCustomJob env (some job) =
        (s₁.send [.setCustomMiningJob job false]).allocateToken := by
      simp only [sendOpenCustomJob, hmode rfl]
    rw [hsame]
    have htoken := @Unrequested.allocateToken (s₁.send [.setCustomMiningJob job false])
      (Nat.lt_of_succ_lt hids)
    refine ⟨htoken.store.trans hun.store, ?_, ?_, Nat.le_trans hun.factory htoken.factory, ?_⟩
    · exact htoken.declaredRequests.trans hun.declaredRequests
    · intro r
      have hsent : ChannelManager.customRequests
          ((s₁.send [.setCustomMiningJob job false]).allocateToken.takePending) =
          job.requestId :: s.sent.filterMap Message.customRequest := by
        rw [customRequests, takePending_customRequests, List.append_nil, ← hun.sentRequests]
        exact htoken.sentRequests
      rw [hsent, customRequests, hloop, List.mem_cons, List.mem_append, Or.comm]
      simp [LoopTask.customRequests]
    · intro t ht
      show t ∈ currentTemplates (s₁.send [.setCustomMiningJob job false]).allocateToken.history
      rw [htoken.history, show (s₁.send [.setCustomMiningJob job false]).history = s₁.history from rfl,
        hun.history]
      exact ht

theorem StoreHolds.finish (h : StoreInv o) (hids : o.client.requestIdFactory.toNat + 2 < 2 ^ 32)
    (hjobs : ∀ m ∈ o.client.loop.messages, m.IsJobMessage)
    (hmode : o.client.loop.openCustomJob.isSome = true → env.mode = .coinbaseOnly) :
    StoreHolds { o with client := o.client.finish env } := by
  have hundeclared : ∀ {messages : List Message}, (∀ m ∈ messages, m.IsJobMessage) →
      messages.filterMap Message.declaredRequest = [] := by
    intro messages hmessages
    refine List.filterMap_eq_nil_iff.mpr ?_
    intro m hm
    rcases hmessages m hm with hm | ⟨job, rfl⟩
    · exact hm.noRequest.declared
    · rfl
  have htoken : ∀ b : Bool, Unrequested o.client (if b then o.client.allocateToken else o.client) := by
    intro b
    cases b
    · exact .refl _
    · exact .allocateToken (Nat.lt_of_succ_lt hids)
  -- what the handler has collected is sent
  have hsend : ∀ (b : Bool) (messages : List Message),
      messages.filterMap Message.declaredRequest = [] →
      o.client.loop.customRequests = messages.filterMap Message.customRequest →
      StoreInv { o with client :=
        { (if b then o.client.allocateToken else o.client).send messages with loop := .idle } } := by
    intro b messages hdeclared hcustom
    have hun := htoken b
    refine h.of_kept ⟨hun.store, ?_, ?_, hun.factory, fun t ht => ?_⟩
    · rw [← hun.declaredRequests]
      simp only [declaredRequests, ChannelManager.send, List.filterMap_append, List.filterMap_reverse,
        hdeclared, List.reverse_nil, List.nil_append]
    · intro r
      have hsent : ChannelManager.customRequests
          { (if b then o.client.allocateToken else o.client).send messages with loop := .idle } =
          (messages.filterMap Message.customRequest).reverse ++
            o.client.sent.filterMap Message.customRequest := by
        rw [← hun.sentRequests, ← List.filterMap_reverse, ← List.filterMap_append]
        exact List.append_nil _
      rw [hsent, customRequests, hcustom, List.mem_append, List.mem_append, List.mem_reverse]
      exact Or.comm
    · show t ∈ currentTemplates (if b then o.client.allocateToken else o.client).history
      rw [hun.history]
      exact ht
  unfold ChannelManager.finish
  split
  next t ctx present visited messages hloop =>
    rw [hloop] at hjobs
    split
    · exact fun _ => hsend _ _ (hundeclared hjobs) (by rw [hloop]; rfl)
    · exact fun _ => h
  next p consumed present visited messages hloop =>
    rw [hloop] at hjobs
    split
    · exact fun _ => hsend _ _ (hundeclared hjobs) (by rw [hloop]; rfl)
    · exact fun _ => h
  next size customJob present visited hloop =>
    split
    · intro _
      exact h.of_kept (finishOpenSuccess_kept hids hloop (by rw [hloop] at hmode; exact hmode))
    · exact fun _ => h
  next present visited renewals hloop =>
    split
    · refine fun _ => hsend false _ ?_ ?_
      · refine List.filterMap_eq_nil_iff.mpr ?_
        intro m hm
        obtain ⟨r, -, rfl⟩ := List.mem_map.mp hm
        rfl
      · rw [hloop]
        refine (List.filterMap_eq_nil_iff.mpr ?_).symm
        intro m hm
        obtain ⟨r, -, rfl⟩ := List.mem_map.mp hm
        rfl
    · exact fun _ => h
  · exact fun _ => h

/-! ## Runs -/

/-- Only in coinbase-only mode a custom job is built when the channel at the pool opens. -/
def OpensInMode (env : Env) (s : ChannelManager) : Prop :=
  s.loop.openCustomJob.isSome = true → env.mode = .coinbaseOnly

theorem OpensInMode.of_none {s : ChannelManager} (h : s.loop.openCustomJob = none) :
    OpensInMode env s := by
  intro hsome
  rw [h] at hsome
  cases hsome

theorem OpensInMode.fail (s : ChannelManager) (f : Fault) : OpensInMode env (s.fail f) :=
  .of_none (by cases f <;> rfl)

theorem OpensInMode.conclude (s : ChannelManager) (r : Except Fault ChannelManager) :
    OpensInMode env (s.conclude r) := by
  cases r with
  | error f => exact .fail s f
  | ok s' => exact .of_none rfl

theorem OpensInMode.handle {s : ChannelManager} (hloop : s.loop = .idle) (e : ChannelManager.Event) :
    OpensInMode env (s.handle env e) := by
  have hidle : s.loop.openCustomJob = none := by rw [hloop]; rfl
  by_cases hcalm : e.isCalm = true
  · have hquiet := (@handle_calm env s e hcalm hloop).loop
    refine .of_none ?_
    generalize (s.handle env e).loop = task at hquiet
    cases task <;> first | rfl | cases hquiet
  cases e with
  | openExtendedMiningChannelSuccess msg ans =>
    have hcases := receiveOpenSuccess_cases env s msg ans
    simp only [ChannelManager.handle]
    generalize s.receiveOpenSuccess env msg ans = s' at hcases ⊢
    cases hcases with
    | failed f wrapped hf => exact .fail _ f
    | noRequest _ => exact .of_none hidle
    | refused _ => exact .of_none hidle
    | configured raw s₁ customJob hraw hsize hpending hallocator hjob =>
      intro hsome
      have hcase := openCustomJob_cases env { s with sizeWrapped := s.sizeWrapped || msg.wraps }
        (openedUpstream msg) raw ans.customJobBuilt
      rcases hcase with heq | ⟨t, p, token, tokens, hmode, -⟩
      · rw [heq] at hjob
        cases hjob
        cases hsome
      · exact hmode
  | setExtranoncePrefix extranoncePrefix accepts built =>
    simp only [ChannelManager.handle, ChannelManager.receiveSetExtranoncePrefix]
    split
    · exact .of_none hidle
    split
    · exact .fail _ _
    split
    · exact .fail _ _
    split
    · exact .fail _ _
    · exact .of_none rfl
  | closeUpstreamChannel => exact .fail _ _
  | openChannel r ans =>
    simp only [ChannelManager.handle, ChannelManager.handleDownstreamOpen]
    split
    · exact .of_none hidle
    · exact .of_none hidle
    · exact .conclude _ _
    · exact .conclude _ _
  | closeChannel d channelId => exact .conclude _ _
  | submitSharesStandard d channelId jobId ans upstream => exact .conclude _ _
  | submitSharesExtended d channelId jobId extranonce ans upstream => exact .conclude _ _
  | _ => exact absurd rfl hcalm

theorem OpensInMode.visit {s : ChannelManager} (h : OpensInMode env s) (d : DownstreamId)
    (ans : VisitAnswers) : OpensInMode env (s.visit d ans) := by
  unfold ChannelManager.visit
  split
  · exact h
  split
  · split
    · exact h
    split
    · exact .fail _ _
    · exact .of_none rfl
  · split
    · exact h
    split
    · exact .fail _ _
    · exact .of_none rfl
  next size customJob present visited hloop =>
    split
    · exact h
    split
    · rw [OpensInMode, hloop] at h
      exact h
    · exact .fail _ _
  · split
    · exact h
    · exact .of_none rfl
  · exact h

theorem OpensInMode.finish {s : ChannelManager} (h : OpensInMode env s) :
    OpensInMode env (s.finish env) := by
  unfold ChannelManager.finish
  split
  · split
    · exact .of_none rfl
    · exact h
  · split
    · exact .of_none rfl
    · exact h
  · split
    · refine .of_none ?_
      simp only [finishOpenSuccess, takePending]
      split <;> rfl
    · exact h
  · split
    · exact .of_none rfl
    · exact h
  · exact h

theorem OpensInMode.step {s : ChannelManager} (h : OpensInMode env s) (a : Action) :
    OpensInMode env (s.step env a) := by
  cases a with
  | event e =>
    simp only [ChannelManager.step]
    split
    next htakes => exact .handle (takes_idle htakes) e
    · exact h
  | visit d ans => exact h.visit d ans
  | finish => exact h.finish
  | handlePending ans =>
    simp only [ChannelManager.step, ChannelManager.handlePending]
    split
    · split
      · exact .fail _ _
      · refine .of_none ?_
        dsimp only
        split <;> rfl
    · exact h
  | accept =>
    simp only [ChannelManager.step, ChannelManager.accept]
    split <;> exact h
  | bootstrap d built =>
    simp only [ChannelManager.step, ChannelManager.bootstrap]
    split
    · split
      · split <;> exact h
      · exact h
      · exact h
    · exact h
  | register d =>
    simp only [ChannelManager.step, ChannelManager.register]
    split <;> exact h
  | setUpConnection d requireStdJob => exact h
  | removeDownstream d => exact h

/-- What a run keeps: the store, and what the handler at work will send. -/
structure RunInv (env : Env) (o : Observed) : Prop where
  store : StoreHolds o
  messages : ∀ m ∈ o.client.loop.messages, m.IsJobMessage
  mode : OpensInMode env o.client

theorem runInv_start (outs : Option (List TxOut)) : RunInv env (start outs) := by
  refine ⟨fun _ => storeInv_start outs, ?_, .of_none rfl⟩
  intro m hm
  cases hm

theorem StoreHolds.step (h : RunInv env o) {a : Action} (hlaw : o.answersRequests a = true)
    (hok : o.client.boundsStore env a = true) : StoreHolds (o.step env a) := by
  have hids := ids_left hok
  by_cases hstopped : o.client.loop.isStopped = true
  · intro hrunning
    have hstill : (o.step env a).client.loop.isStopped = true := stopped_step hstopped a
    rw [hstill] at hrunning
    cases hrunning
  have hinv := h.store (by simpa using hstopped)
  -- an action that no task of the loop has a part in
  have hother : ∀ s₁ : ChannelManager, Unrequested o.client s₁ → s₁.loop = o.client.loop →
      StoreHolds { o with client := s₁ } :=
    fun s₁ hun hloop => .kept hinv hun (congrArg LoopTask.customRequests hloop)
  have hkeeps : ∀ s₁ : ChannelManager, s₁.lastDeclareJobStore = o.client.lastDeclareJobStore →
      s₁.history = o.client.history → s₁.requestIdFactory = o.client.requestIdFactory →
      s₁.sent = o.client.sent → s₁.loop = o.client.loop → StoreHolds { o with client := s₁ } :=
    fun s₁ hstore hhistory hfactory hsent hloop => hother s₁
      ⟨hstore, hhistory, by rw [hfactory], [], hsent, by simp⟩ hloop
  cases a with
  | event e =>
    simp only [Observed.step, ChannelManager.step, takenAnswer]
    by_cases htakes : o.client.takes e = true
    · simp only [htakes, if_true]
      exact .handle hinv (takes_idle htakes) hlaw hok
    · simp only [htakes]
      exact fun _ => hinv
  | visit d ans => exact .visit hinv hids d ans
  | finish => exact .finish hinv hids h.messages h.mode
  | handlePending ans =>
    simp only [Observed.step, ChannelManager.step, takenAnswer, List.nil_append,
      ChannelManager.handlePending]
    split
    next r rest hloop =>
      obtain ⟨wrapped, hrecord⟩ := recordRollableSize_calm o.client r ans
      rw [hrecord]
      have hnothing : o.client.loop.customRequests = [] := by rw [hloop]; rfl
      have hwrapped : Unrequested o.client { o.client with sizeWrapped := wrapped } :=
        ⟨rfl, rfl, Nat.le_refl _, [], rfl, by simp⟩
      split
      · exact .fail hinv hnothing hwrapped _
      next s₁ hs₁ =>
        have hun := hwrapped.trans (.opens (handleOpen_opens hs₁))
        refine .kept hinv ⟨hun.store, hun.history, hun.factory, hun.sent⟩ ?_
        rw [hnothing]
        dsimp only
        split <;> rfl
    · exact fun _ => hinv
  | accept =>
    simp only [Observed.step, ChannelManager.step, takenAnswer, List.nil_append,
      ChannelManager.accept]
    split
    · exact hkeeps _ rfl rfl rfl rfl rfl
    · exact fun _ => hinv
  | bootstrap d built =>
    simp only [Observed.step, ChannelManager.step, takenAnswer, List.nil_append,
      ChannelManager.bootstrap]
    split
    · split
      · split
        · exact hkeeps _ rfl rfl rfl rfl rfl
        · exact hkeeps _ rfl rfl rfl rfl rfl
      · exact hkeeps _ rfl rfl rfl rfl rfl
      · exact hkeeps _ rfl rfl rfl rfl rfl
    · exact fun _ => hinv
  | register d =>
    simp only [Observed.step, ChannelManager.step, takenAnswer, List.nil_append,
      ChannelManager.register]
    split
    · exact hkeeps _ rfl rfl rfl rfl rfl
    · exact fun _ => hinv
  | setUpConnection d requireStdJob => exact hkeeps _ rfl rfl rfl rfl rfl
  | removeDownstream d => exact hkeeps _ rfl rfl rfl rfl rfl

theorem RunInv.step (h : RunInv env o) {a : Action} (hlaw : o.answersRequests a = true)
    (hok : o.client.boundsStore env a = true) : RunInv env (o.step env a) :=
  ⟨.step h hlaw hok, step_messages h.messages a, h.mode.step a⟩

theorem run_client (env : Env) (o : Observed) (as : List Action) :
    (Runs.run (step env) o as).client = Runs.run (ChannelManager.step env) o.client as := by
  induction as generalizing o with
  | nil => rfl
  | cons a as ih => exact ih (o.step env a)

/-- In a run in which the server and the pool answer requests, and no message leaves an entry
    behind, an entry of the store belongs to a template of the current tip or to a request without
    an answer; a custom job that has been answered has no entry; and every job is declared at most
    once. -/
theorem declared_jobs_bounded (env : Env) (outs : Option (List TxOut)) (as : List Action)
    (hok : Runs.Guarded (step env) (fun o a =>
      o.answersRequests a = true ∧ o.client.boundsStore env a = true) (start outs) as) :
    let o := Runs.run (step env) (start outs) as
    let s := after env outs as
    o.client = s ∧ (s.loop.isStopped = false →
      (∀ r job, s.lastDeclareJobStore.lookup r = some job →
        job.template.templateId ∈ currentTemplates s.history ∨ o.Awaits r) ∧
      (∀ r ∈ o.customJobAnswers, s.lastDeclareJobStore.lookup r = none) ∧
      ∀ r, s.declaredRequests.count r ≤ 1) := by
  intro o s
  have hinv : RunInv env o := Runs.run_invariant_of_guarded (RunInv env)
    (fun o a h hok => h.step hok.1 hok.2) (runInv_start outs) as hok
  have hclient : o.client = s := run_client env (start outs) as
  refine ⟨hclient, ?_⟩
  intro hrunning
  rw [← hclient] at hrunning ⊢
  have hstore := hinv.store hrunning
  refine ⟨?_, fun r hr => (hstore.customJobAnswers r hr).2, hstore.once⟩
  intro r job hjob
  exact (hstore.entries r job hjob).imp_left fun hundeclared => hundeclared.2.2

/-- A miner has a channel, and the transactions of the active template have come: its job is
    declared. -/
def declaredRun : List Action :=
  sampleConnections 1 ++ sampleUpstream 0 ++
  [.visit 0 (sampleVisit 1 []), .finish, .handlePending (sampleOpen [0xaa, 0, 0]),
   .event (.allocateMiningJobTokenSuccess 0 [1] (some [⟨0, [0x51]⟩])),
   .event (.requestTransactionDataSuccess 1 [] (some ([], [])))]

/-- The server and the pool accept the job. -/
def acceptedRun : List Action :=
  declaredRun ++ [.event (.declareMiningJobSuccess 2 [2] true),
    .event (.setCustomMiningJobSuccess 2 40 .accepted [])]

theorem declared_jobs_bounded_accepted :
    let o := Runs.run (step (sampleEnv .fullTemplate)) (start (some [⟨0, [0x51]⟩])) acceptedRun
    o.client.declaredRequests = [2] ∧ o.customJobAnswers = [2] ∧
      ∀ r ∈ o.customJobAnswers, (after (sampleEnv .fullTemplate) (some [⟨0, [0x51]⟩])
        acceptedRun).lastDeclareJobStore.lookup r = none :=
  ⟨by decide +kernel, by decide +kernel,
    ((declared_jobs_bounded (sampleEnv .fullTemplate) (some [⟨0, [0x51]⟩]) acceptedRun
      (by decide +kernel)).2 (by decide +kernel)).2.1⟩

/-- The server rejects the job as stale, and the next prev-hash comes with its template. -/
def rejectedRun : List Action :=
  declaredRun ++ [.event (.declareMiningJobError 2 true),
    .event (.newTemplate ⟨3, true, 6000⟩), .visit 0 (sampleVisit 3 []), .finish,
    .event (.setNewPrevHash (samplePrevHash 3) 0 true), .visit 0 (sampleVisit 3 []), .finish]

/-- The entry of the rejected job stays: nothing removes it any more. -/
theorem rejected_declaration_stored :
    ¬ ∀ (env : Env) (outs : Option (List TxOut)) (as : List Action),
      Runs.Guarded (step env) (fun o a => o.answersRequests a = true) (start outs) as →
      let o := Runs.run (step env) (start outs) as
      o.client.loop.isStopped = false →
      ∀ r job, o.client.lastDeclareJobStore.lookup r = some job →
        job.template.templateId ∈ currentTemplates o.client.history ∨ o.Awaits r := by
  intro h
  have hstale := h (sampleEnv .fullTemplate) (some [⟨0, [0x51]⟩]) rejectedRun (by decide +kernel)
    (by decide +kernel) 2
  cases hjob : (Runs.run (step (sampleEnv .fullTemplate)) (start (some [⟨0, [0x51]⟩]))
      rejectedRun).client.lastDeclareJobStore.lookup 2 with
  | none =>
    revert hjob
    decide +kernel
  | some job =>
    have htemplate : ((Runs.run (step (sampleEnv .fullTemplate)) (start (some [⟨0, [0x51]⟩]))
        rejectedRun).client.lastDeclareJobStore.lookup 2).map (fun job => job.template.templateId) =
        some 1 := by decide +kernel
    rw [hjob] at htemplate
    rcases hstale job hjob with hcurrent | hawaits
    · rw [show job.template.templateId = 1 from Option.some.inj htemplate] at hcurrent
      revert hcurrent
      decide +kernel
    · revert hawaits
      unfold Awaits
      decide +kernel

end Observed

end Sv2Apps.Jdc
