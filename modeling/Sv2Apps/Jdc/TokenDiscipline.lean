/-
  Jdc/TokenDiscipline.lean
  ========================
  **Every token is used once, and none is lost.**

  A token comes with an `AllocateMiningJobToken.Success`, waits in `allocate_tokens`, and is
  used in a `DeclareMiningJob` or, without declaration, in a `SetCustomMiningJob`.  On its way
  it may be stored with a job that is declared later, or be held by a handler that goes through
  the connections.  `TokenInv` accounts for all of these places and for the tokens that are
  still to come: those asked for and those that the handler at work will ask for.

  The accounting fails in four situations, which `keepsTokens` excludes.
-/
import Sv2Apps.Jdc.HandlerSpecs

namespace Sv2Apps.Jdc

open Bitcoin

/-! ## Where tokens are -/

/-- The token that a message uses up. -/
def Message.usedToken : Message → Option Bytes
  | .setCustomMiningJob job false => some job.token
  | .declareMiningJob declaration => some declaration.miningJobToken
  | _ => none

def usedTokens (ms : List Message) : List Bytes := ms.filterMap Message.usedToken

/-- The token of a stored job whose declaration has not been sent. -/
def DeclaredJob.undeclaredToken (job : DeclaredJob) : Option Bytes :=
  if job.declared then none else job.declareMiningJob.map Declaration.miningJobToken

def undeclaredTokens (store : KeyMap RequestId DeclaredJob) : List Bytes :=
  store.entries.filterMap fun e => e.2.undeclaredToken

namespace LoopTask

/-- The tokens that the handler at work has taken and not yet used. -/
def heldTokens : LoopTask → List Bytes
  | .newTemplate _ ctx _ visited messages =>
    (if visited = [] then ctx.token.toList else []) ++ usedTokens messages
  | .setNewPrevHash _ _ _ _ messages => usedTokens messages
  | .openSuccess _ customJob _ _ => (customJob.map CustomJob.token).toList
  | _ => []

/-- How many tokens the handler at work will ask for at its end. -/
def owedTokens (env : Env) : LoopTask → Nat
  | .newTemplate _ ctx _ _ _ => if ctx.token.isSome then 1 else 0
  | .setNewPrevHash _ tokenConsumed _ _ _ => if tokenConsumed then 1 else 0
  | .openSuccess _ customJob _ _ => if env.mode = .coinbaseOnly ∧ customJob.isSome then 1 else 0
  | _ => 0

/-- The token of a template has not been used at another connection. -/
def tokenIsUnused : LoopTask → Bool
  | .newTemplate _ ctx _ visited _ => decide (ctx.token.isSome → visited = [])
  | _ => true

/-- No handler that takes tokens is at work. -/
def isQuiet : LoopTask → Bool
  | .idle => true
  | .pending _ => true
  | .setExtranoncePrefix _ _ _ => true
  | _ => false

theorem quiet_not_stopped {l : LoopTask} (h : l.isQuiet = true) : l.isStopped = false := by
  cases l <;> simp_all [isQuiet, isStopped]

theorem quiet_tokens {env : Env} {l : LoopTask} (h : l.isQuiet = true ∨ l.isStopped = true) :
    l.heldTokens = [] ∧ l.owedTokens env = 0 := by
  cases l <;> simp_all [isQuiet, isStopped, heldTokens, owedTokens]

end LoopTask

@[simp] theorem usedTokens_nil : usedTokens [] = [] := rfl

@[simp] theorem usedTokens_append (ms ms' : List Message) :
    usedTokens (ms ++ ms') = usedTokens ms ++ usedTokens ms' := List.filterMap_append

theorem usedTokens_eq_nil {ms : List Message} (h : ∀ m ∈ ms, m.usedToken = none) :
    usedTokens ms = [] := List.filterMap_eq_nil_iff.mpr h

theorem usedToken_of_isAboutShare {m : Message} (h : m.IsAboutShare) : m.usedToken = none := by
  cases m <;> first | rfl | cases h

theorem usedToken_of_isJobNotice {m : Message} (h : m.IsJobNotice) : m.usedToken = none := by
  cases m <;> first | rfl | cases h

theorem count_usedTokens_reverse (ms : List Message) (t : Bytes) :
    (usedTokens ms.reverse).count t = (usedTokens ms).count t := by
  unfold usedTokens
  rw [List.filterMap_reverse, List.count_reverse]

/-! ## The store -/

theorem count_undeclared_erase_le (m : KeyMap RequestId DeclaredJob) (k : RequestId) (t : Bytes) :
    (undeclaredTokens (m.erase k)).count t ≤ (undeclaredTokens m).count t := by
  apply List.Sublist.count_le
  exact (List.kerase_sublist k m.entries).filterMap _

theorem undeclaredTokens_insert (m : KeyMap RequestId DeclaredJob) (k : RequestId)
    (job : DeclaredJob) :
    undeclaredTokens (m.insert k job) =
      job.undeclaredToken.toList ++ undeclaredTokens (m.erase k) := by
  unfold undeclaredTokens
  rw [AList.entries_insert, List.filterMap_cons]
  cases job.undeclaredToken <;> rfl

theorem count_undeclared_insert_le (m : KeyMap RequestId DeclaredJob) (k : RequestId)
    (job : DeclaredJob) (t : Bytes) :
    (undeclaredTokens (m.insert k job)).count t ≤
      job.undeclaredToken.toList.count t + (undeclaredTokens m).count t := by
  have herase := count_undeclared_erase_le m k t
  rw [undeclaredTokens_insert, List.count_append]
  omega

theorem count_undeclared_of_lookup {m : KeyMap RequestId DeclaredJob} {k : RequestId}
    {job : DeclaredJob} (h : m.lookup k = some job) (t : Bytes) :
    (undeclaredTokens m).count t =
      job.undeclaredToken.toList.count t + (undeclaredTokens (m.erase k)).count t := by
  have hperm := (KeyMap.entries_perm_erase h).filterMap fun e => e.2.undeclaredToken
  have hcount := hperm.count_eq t
  rw [List.filterMap_cons] at hcount
  unfold undeclaredTokens
  rw [hcount]
  cases job.undeclaredToken with
  | none => simp
  | some token => simp only [List.count_cons, Option.toList_some, List.count_nil]; omega

/-- Replacing a stored job by one with the same undeclared token changes nothing. -/
theorem count_undeclared_replace {m : KeyMap RequestId DeclaredJob} {k : RequestId}
    {job job' : DeclaredJob} (h : m.lookup k = some job)
    (hsame : job'.undeclaredToken = job.undeclaredToken) (t : Bytes) :
    (undeclaredTokens (m.insert k job')).count t = (undeclaredTokens m).count t := by
  rw [undeclaredTokens_insert, List.count_append, hsame, count_undeclared_of_lookup h]

theorem undeclaredTokens_activate (m : KeyMap RequestId DeclaredJob) (p : SetNewPrevHash) :
    undeclaredTokens (KeyMap.mapValues (ChannelManager.activate p) m) = undeclaredTokens m := by
  unfold undeclaredTokens KeyMap.mapValues
  rw [List.filterMap_map]
  congr 1
  funext e
  simp only [Function.comp_apply, ChannelManager.activate]
  split <;> rfl

namespace ChannelManager

variable {env : Env} {s s' : ChannelManager} {d : DownstreamId}

/-! ## The invariant -/

/-- How often a token is used, held or stored. -/
def tokenPlaces (s : ChannelManager) (t : Bytes) : Nat :=
  (usedTokens s.sent).count t + s.allocateTokens.count t +
    (undeclaredTokens s.lastDeclareJobStore).count t + s.loop.heldTokens.count t

/-- The tokens at hand, asked for and still to be asked for. -/
def tokenSupply (env : Env) (s : ChannelManager) : Nat :=
  s.allocateTokens.length + s.allocationRequests.length + s.loop.owedTokens env

structure TokenInv (env : Env) (s : ChannelManager) : Prop where
  places : ∀ t, s.tokenPlaces t ≤ s.receivedTokens.count t
  supply : s.loop.isStopped = false → 2 ≤ s.tokenSupply env

/-- A step that takes no token. -/
structure SameTokens (s s' : ChannelManager) : Prop where
  tokens : s'.allocateTokens = s.allocateTokens
  received : s'.receivedTokens = s.receivedTokens
  requests : s'.allocationRequests = s.allocationRequests
  store : s'.lastDeclareJobStore = s.lastDeclareJobStore
  used : usedTokens s'.sent = usedTokens s.sent

namespace SameTokens

theorem fail (s : ChannelManager) (f : Fault) : SameTokens s (s.fail f) := by
  cases f <;> exact ⟨rfl, rfl, rfl, rfl, rfl⟩

theorem send {ms : List Message} (h : ∀ m ∈ ms, m.usedToken = none) : SameTokens s (s.send ms) := by
  refine ⟨rfl, rfl, rfl, rfl, ?_⟩
  have hms : usedTokens ms.reverse = [] := usedTokens_eq_nil (by simpa using h)
  simp [ChannelManager.send, hms]

theorem of_sharesMoved (h : SharesMoved s s') : SameTokens s s' := by
  obtain ⟨ms, fw, cs, ac, vs, hms, rfl⟩ := h
  have hnil : usedTokens ms = [] :=
    usedTokens_eq_nil fun m hm => usedToken_of_isAboutShare (hms m hm)
  exact ⟨rfl, rfl, rfl, rfl, by simp [hnil]⟩

theorem of_opens {r : PendingRequest} {ans : OpenAnswers} (h : Opens s r ans s') :
    SameTokens s s' := by
  cases h <;> exact ⟨rfl, rfl, rfl, rfl, rfl⟩

end SameTokens

theorem fail_loop (s : ChannelManager) (f : Fault) :
    (s.fail f).loop = .idle ∨ (s.fail f).loop.isStopped = true := by
  cases f <;> first | exact Or.inl rfl | exact Or.inr rfl

/-- Steps between quiet tasks that take no token keep the invariant; so do steps that end the
    loop. -/
theorem TokenInv.of_same (h : TokenInv env s) (same : SameTokens s s')
    (hloop : s.loop.isQuiet = true)
    (hloop' : s'.loop.isQuiet = true ∨ s'.loop.isStopped = true) : TokenInv env s' := by
  obtain ⟨hheld, howed⟩ := @LoopTask.quiet_tokens env _ (Or.inl hloop)
  obtain ⟨hheld', howed'⟩ := @LoopTask.quiet_tokens env _ hloop'
  constructor
  · intro t
    have hplaces := h.places t
    unfold tokenPlaces at hplaces ⊢
    rw [same.used, same.tokens, same.store, same.received, hheld']
    rw [hheld] at hplaces
    exact hplaces
  · intro _
    have hsupply := h.supply (LoopTask.quiet_not_stopped hloop)
    unfold tokenSupply at hsupply ⊢
    rw [same.tokens, same.requests, howed']
    rw [howed] at hsupply
    exact hsupply

/-- A step of another task than the loop. -/
theorem TokenInv.of_same_loop (h : TokenInv env s) (same : SameTokens s s')
    (hloop : s'.loop = s.loop) : TokenInv env s' := by
  constructor
  · intro t
    have hplaces := h.places t
    unfold tokenPlaces at hplaces ⊢
    rw [same.used, same.tokens, same.store, same.received, hloop]
    exact hplaces
  · intro hns
    rw [hloop] at hns
    have hsupply := h.supply hns
    unfold tokenSupply at hsupply ⊢
    rw [same.tokens, same.requests, hloop]
    exact hsupply

theorem TokenInv.fail (h : TokenInv env s) (hloop : s.loop.isQuiet = true) (f : Fault) :
    TokenInv env (s.fail f) := by
  apply h.of_same (.fail s f) hloop
  rcases fail_loop s f with hl | hl
  · rw [hl]
    exact Or.inl rfl
  · exact Or.inr hl

/-- What the invariant says between two messages. -/
theorem TokenInv.of_quiet (h : TokenInv env s) (hloop : s.loop.isQuiet = true) :
    (∀ t, (usedTokens s.sent).count t + s.allocateTokens.count t +
      (undeclaredTokens s.lastDeclareJobStore).count t ≤ s.receivedTokens.count t) ∧
    2 ≤ s.allocateTokens.length + s.allocationRequests.length := by
  obtain ⟨hheld, howed⟩ := @LoopTask.quiet_tokens env _ (Or.inl hloop)
  constructor
  · intro t
    have hplaces := h.places t
    rw [tokenPlaces, hheld] at hplaces
    exact hplaces
  · have hsupply := h.supply (LoopTask.quiet_not_stopped hloop)
    rw [tokenSupply, howed] at hsupply
    exact hsupply

/-- A handler that ends the loop after taking a token. -/
theorem TokenInv.stop (h : ∀ t, (usedTokens s.sent).count t + s.allocateTokens.count t +
      (undeclaredTokens s.lastDeclareJobStore).count t ≤ s.receivedTokens.count t) {f : Fault}
    (hf : (s.fail f).loop.isStopped = true) : TokenInv env (s.fail f) := by
  have same := SameTokens.fail s f
  constructor
  · intro t
    unfold tokenPlaces
    rw [same.used, same.tokens, same.store, same.received,
      (@LoopTask.quiet_tokens env _ (Or.inr hf)).1]
    exact h t
  · intro hns
    rw [hf] at hns
    cases hns

theorem tokenInv_start (outs : Option (List TxOut)) : TokenInv env (start outs) where
  places t := by
    show [].count t + [].count t + [].count t + [].count t ≤ [].count t
    simp
  supply _ := by
    show 2 ≤ 0 + 2 + 0
    omega

/-! ## The condition -/

/-- A token is taken to no purpose or used twice only when
    * a prev-hash arrives in coinbase-only mode and there is no channel to the pool,
    * the declaration of the last future template has been sent and is sent again,
    * no custom job can be built for a new channel to the pool, or
    * a template that takes a token gets to a second connection. -/
def keepsTokens (env : Env) (s : ChannelManager) : Action → Bool
  | .event (.setNewPrevHash _ pick _) => decide
    ((env.mode = .coinbaseOnly → s.lastFutureTemplate.isSome → s.allocateTokens ≠ [] →
      s.upstreamChannel.isSome) ∧
    (env.mode = .fullTemplate → ∀ t ∈ s.lastFutureTemplate,
      ∀ job ∈ s.storedJobOf t.templateId pick, job.2.declareMiningJob.isSome →
        job.2.declared = false))
  | .event (.openExtendedMiningChannelSuccess _ ans) => decide
    (env.mode = .coinbaseOnly → s.jobFactory = true → s.lastFutureTemplate.isSome →
      s.lastNewPrevHash.isSome → s.allocateTokens ≠ [] → ans.customJobBuilt = true)
  | .visit _ _ => s.loop.tokenIsUnused
  | _ => true

/-! ## New templates -/

theorem count_tail_head (l : List Bytes) (t : Bytes) :
    l.tail.count t + l.head?.toList.count t = l.count t := by
  cases l with
  | nil => rfl
  | cons a l =>
    simp only [List.tail_cons, List.head?_cons, Option.toList_some, List.count_cons, List.count_nil]
    omega

theorem length_tail_head (l : List Bytes) :
    l.tail.length + (if l.head?.isSome then 1 else 0) = l.length := by
  cases l <;> simp

theorem TokenInv.receiveNewTemplate (h : TokenInv env s) (hloop : s.loop = .idle)
    (t : NewTemplate) : TokenInv env (s.receiveNewTemplate env t) := by
  obtain ⟨hplaces, hsupply⟩ := h.of_quiet (by rw [hloop]; rfl)
  unfold ChannelManager.receiveNewTemplate
  dsimp only
  split
  · refine TokenInv.stop ?_ rfl
    exact hplaces
  split
  · refine TokenInv.stop ?_ rfl
    exact hplaces
  next raw hraw outs houts =>
  -- the request for transaction data uses no token
  generalize hs₁ : (if env.mode = .fullTemplate ∧ s.upstreamState = .connected then
    ChannelManager.send _ _ else _) = s₁
  have same : SameTokens s s₁ := by
    rw [← hs₁]
    split <;> exact ⟨rfl, rfl, rfl, rfl, rfl⟩
  split
  next htakes =>
    constructor
    · intro x
      have hx := hplaces x
      have hcount := count_tail_head s₁.allocateTokens x
      simp only [tokenPlaces, LoopTask.heldTokens, same.used, same.store, same.received, if_true,
        usedTokens_nil, List.append_nil]
      rw [same.tokens] at hcount ⊢
      omega
    · intro _
      have hlen := length_tail_head s₁.allocateTokens
      simp only [tokenSupply, LoopTask.owedTokens, same.requests] at hsupply ⊢
      rw [same.tokens] at hlen ⊢
      omega
  next htakes =>
    constructor
    · intro x
      have hx := hplaces x
      simpa [tokenPlaces, LoopTask.heldTokens, same.used, same.store, same.received, same.tokens]
        using hx
    · intro _
      simpa [tokenSupply, LoopTask.owedTokens, same.requests, same.tokens] using hsupply

/-- What is used, at hand and stored never exceeds what was received. -/
theorem TokenInv.used_le (h : TokenInv env s) (t : Bytes) :
    (usedTokens s.sent).count t + s.allocateTokens.count t +
      (undeclaredTokens s.lastDeclareJobStore).count t ≤ s.receivedTokens.count t := by
  have hplaces := h.places t
  unfold tokenPlaces at hplaces
  omega

theorem TokenInv.visitNewTemplate (h : TokenInv env s) {t : NewTemplate} {ctx : TemplateContext}
    {present visited : List DownstreamId} {messages : List Message}
    (hloop : s.loop = .newTemplate t ctx present visited messages)
    (hfirst : ctx.token.isSome → visited = []) {ds : Downstream} {ans : TemplateAnswers}
    {out : List Message} (hvisit : s.visitNewTemplate t ctx d ds ans = .ok (s', out)) :
    TokenInv env
      { s' with loop := .newTemplate t ctx present (d :: visited) (messages ++ out) } := by
  obtain ⟨ds', jobs, notices, -, hnotices, rfl, rfl⟩ := visitNewTemplate_ok hvisit
  have hnil : usedTokens notices = [] :=
    usedTokens_eq_nil fun m hm => usedToken_of_isJobNotice (hnotices m hm)
  have hplaces := h.places
  have hsupply := h.supply (by rw [hloop]; rfl)
  simp only [tokenPlaces, tokenSupply, hloop, LoopTask.heldTokens, LoopTask.owedTokens,
    List.count_append] at hplaces hsupply
  obtain ⟨n, -, hjob⟩ | ⟨token, channelId, size, p, stored, htoken, -, -, hstored, hjob⟩ :=
    templateCustomJob_cases s t ctx ans.customJobBuilt
  · rw [hjob]
    constructor
    · intro x
      have hx := hplaces x
      simp only [tokenPlaces, LoopTask.heldTokens, reduceCtorEq, if_false, List.nil_append,
        usedTokens_append, hnil, List.append_nil]
      omega
    · intro _
      exact hsupply
  · rw [hjob]
    have hvisited := hfirst (by rw [htoken]; rfl)
    constructor
    · intro x
      have hx := hplaces x
      have hins := count_undeclared_insert_le s.lastDeclareJobStore s.requestIdFactory stored x
      have hundeclared : stored.undeclaredToken = none := by
        simp [DeclaredJob.undeclaredToken, hstored]
      have hone : ∀ job : CustomJob,
          usedTokens [Message.setCustomMiningJob job false] = [job.token] := fun _ => rfl
      rw [hundeclared] at hins
      simp only [hvisited, if_true, htoken, Option.toList_some] at hx
      simp only [tokenPlaces, LoopTask.heldTokens, reduceCtorEq, if_false, List.nil_append,
        usedTokens_append, hnil, List.append_nil, List.count_append, hone]
      simp only [Option.toList_none, List.count_nil, Nat.zero_add] at hins
      omega
    · intro _
      exact hsupply

theorem TokenInv.visit (h : TokenInv env s) {ans : VisitAnswers}
    (hok : keepsTokens env s (.visit d ans) = true) : TokenInv env (s.visit d ans) := by
  unfold ChannelManager.visit
  split
  · exact h
  next ds hds =>
  split
  next t ctx present visited messages hloop =>
    simp only [keepsTokens, hloop, LoopTask.tokenIsUnused, decide_eq_true_eq] at hok
    split
    · exact h
    split
    next f hf =>
      rw [visitNewTemplate_error hf]
      exact TokenInv.stop h.used_le rfl
    next hvisit => exact h.visitNewTemplate hloop hok hvisit
  next p consumed present visited messages hloop =>
    split
    · exact h
    split
    next f hf =>
      rcases visitSetNewPrevHash_error hf with rfl | rfl <;> exact TokenInv.stop h.used_le rfl
    next s' out hvisit =>
      obtain ⟨jobs, rfl, hnotices⟩ := visitSetNewPrevHash_ok hvisit
      have hnil : usedTokens out = [] :=
        usedTokens_eq_nil fun m hm => usedToken_of_isJobNotice (hnotices m hm)
      have hplaces := h.places
      have hsupply := h.supply (by rw [hloop]; rfl)
      simp only [tokenPlaces, tokenSupply, hloop] at hplaces hsupply
      refine ⟨?_, fun _ => hsupply⟩
      intro x
      simpa [tokenPlaces, LoopTask.heldTokens, hnil] using hplaces x
  next size customJob present visited hloop =>
    have hplaces := h.places
    have hsupply := h.supply (by rw [hloop]; rfl)
    simp only [tokenPlaces, tokenSupply, hloop] at hplaces hsupply
    split
    · exact h
    split
    · exact ⟨hplaces, fun _ => hsupply⟩
    · exact TokenInv.stop h.used_le rfl
  next present visited messages hloop =>
    split
    · exact h
    · exact h.of_same ⟨rfl, rfl, rfl, rfl, rfl⟩ (by rw [hloop]; rfl) (Or.inl rfl)
  · exact h

/-! ## The end of a handler -/

/-- A handler asks for the tokens it owes and sends messages with the tokens it holds. -/
theorem TokenInv.concluded (h : TokenInv env s) (hrunning : s.loop.isStopped = false)
    (hquiet : s'.loop.isQuiet = true) (htokens : s'.allocateTokens = s.allocateTokens)
    (hreceived : s'.receivedTokens = s.receivedTokens)
    (hstore : s'.lastDeclareJobStore = s.lastDeclareJobStore)
    (hrequests : s'.allocationRequests.length =
      s.allocationRequests.length + s.loop.owedTokens env)
    (hused : ∀ t, (usedTokens s'.sent).count t ≤
      (usedTokens s.sent).count t + s.loop.heldTokens.count t) : TokenInv env s' := by
  obtain ⟨hheld, howed⟩ := @LoopTask.quiet_tokens env _ (Or.inl hquiet)
  constructor
  · intro t
    have hplaces := h.places t
    have ht := hused t
    unfold tokenPlaces at hplaces ⊢
    rw [htokens, hstore, hreceived, hheld, List.count_nil]
    omega
  · intro _
    have hsupply := h.supply hrunning
    unfold tokenSupply at hsupply ⊢
    rw [htokens, hrequests, howed]
    omega

/-- The end of a handler of a template message. -/
theorem TokenInv.concludeVisits (h : TokenInv env s) {messages : List Message} {owes : Bool}
    (hrunning : s.loop.isStopped = false)
    (hheld : ∀ t, (usedTokens messages).count t ≤ s.loop.heldTokens.count t)
    (howed : s.loop.owedTokens env = if owes then 1 else 0) :
    TokenInv env { ((if owes then s.allocateToken else s).send messages) with loop := .idle } := by
  refine h.concluded hrunning rfl ?_ ?_ ?_ ?_ ?_
  · cases owes <;> rfl
  · cases owes <;> rfl
  · cases owes <;> rfl
  · rw [howed]
    cases owes
    · rfl
    · exact List.length_append
  · intro t
    have hsent : usedTokens ((if owes then s.allocateToken else s).send messages).sent =
        usedTokens messages.reverse ++ usedTokens s.sent := by
      cases owes <;> exact usedTokens_append _ _
    have ht := hheld t
    have hrev := count_usedTokens_reverse messages t
    show (usedTokens ((if owes then s.allocateToken else s).send messages).sent).count t ≤ _
    rw [hsent, List.count_append]
    omega

theorem SameTokens.requestFutureTemplate (env : Env) (s : ChannelManager) :
    SameTokens s (s.requestFutureTemplate env) := by
  unfold ChannelManager.requestFutureTemplate
  split <;> exact ⟨rfl, rfl, rfl, rfl, rfl⟩

theorem takePending_quiet (s : ChannelManager) : s.takePending.loop.isQuiet = true := by
  unfold takePending
  dsimp only
  split <;> rfl

theorem TokenInv.finishOpenSuccess (h : TokenInv env s) {size : Nat}
    {customJob : Option CustomJob} {present visited : List DownstreamId}
    (hloop : s.loop = .openSuccess size customJob present visited) :
    TokenInv env (s.finishOpenSuccess env customJob) := by
  have same := SameTokens.requestFutureTemplate env s
  have hrunning : s.loop.isStopped = false := by rw [hloop]; rfl
  unfold ChannelManager.finishOpenSuccess sendOpenCustomJob
  split
  next job hmode =>
    refine h.concluded hrunning (takePending_quiet _) same.tokens same.received same.store ?_ ?_
    · have howed : s.loop.owedTokens env = 1 := by
        rw [hloop]
        simp [LoopTask.owedTokens, hmode]
      rw [howed, ← same.requests]
      exact List.length_append
    · intro t
      have hsent : ∀ s₁ : ChannelManager,
          usedTokens (((s₁.send [.setCustomMiningJob job false]).allocateToken).takePending.sent) =
            job.token :: usedTokens s₁.sent := fun _ => rfl
      rw [hsent, same.used, hloop]
      simp only [LoopTask.heldTokens, Option.map_some, Option.toList_some, List.count_cons,
        List.count_nil]
      omega
  next hother =>
    refine h.concluded hrunning (takePending_quiet _) same.tokens same.received same.store ?_ ?_
    · have howed : s.loop.owedTokens env = 0 := by
        rw [hloop]
        apply if_neg
        rintro ⟨hmode, hsome⟩
        obtain ⟨job, rfl⟩ := Option.isSome_iff_exists.mp hsome
        exact hother job hmode rfl
      rw [howed, ← same.requests]
      rfl
    · intro t
      have hsent : ∀ s₁ : ChannelManager, usedTokens s₁.takePending.sent = usedTokens s₁.sent :=
        fun _ => rfl
      rw [hsent, same.used]
      omega

theorem TokenInv.finish (h : TokenInv env s) : TokenInv env (s.finish env) := by
  unfold ChannelManager.finish
  split
  next t ctx present visited messages hloop =>
    split
    · refine h.concludeVisits (by rw [hloop]; rfl) ?_ (by rw [hloop]; rfl)
      intro x
      rw [hloop]
      simp only [LoopTask.heldTokens, List.count_append]
      omega
    · exact h
  next p consumed present visited messages hloop =>
    split
    · refine h.concludeVisits (by rw [hloop]; rfl) ?_ (by rw [hloop]; rfl)
      intro x
      rw [hloop]
      exact Nat.le_refl _
    · exact h
  next size customJob present visited hloop =>
    split
    · exact h.finishOpenSuccess hloop
    · exact h
  next present visited renewals hloop =>
    split
    · refine h.of_same ?_ (by rw [hloop]; rfl) (Or.inl rfl)
      have same : SameTokens s (s.send (renewals.map Renewal.message)) := by
        apply SameTokens.send
        intro m hm
        obtain ⟨r, -, rfl⟩ := List.mem_map.mp hm
        rfl
      exact ⟨same.tokens, same.received, same.requests, same.store, same.used⟩
    · exact h
  · exact h

/-! ## New prev-hashes -/

/-- The declaration that goes out with a prev-hash takes its token out of the store. -/
theorem declareFutureTemplate_tokens {pick : RequestId}
    (hok : env.mode = .fullTemplate → ∀ t ∈ s.lastFutureTemplate,
      ∀ job ∈ s.storedJobOf t.templateId pick, job.2.declareMiningJob.isSome →
        job.2.declared = false) :
    ∃ store ms, s.declareFutureTemplate env pick =
        { s with lastDeclareJobStore := store, sent := ms ++ s.sent } ∧
      ∀ x, (usedTokens ms).count x + (undeclaredTokens store).count x =
        (undeclaredTokens s.lastDeclareJobStore).count x := by
  obtain heq | ⟨t, requestId, job, declaration, hmode, ht, hjob, hdeclaration, heq⟩ :=
    declareFutureTemplate_cases env s pick
  · exact ⟨s.lastDeclareJobStore, [], heq, by simp⟩
  · refine ⟨_, [.declareMiningJob declaration], heq, ?_⟩
    intro x
    obtain ⟨hlookup, -⟩ := storedJobOf_lookup hjob
    have hfresh := hok hmode t ht (requestId, job) hjob (by rw [hdeclaration]; rfl)
    have htoken : job.undeclaredToken = some declaration.miningJobToken := by
      simp only [DeclaredJob.undeclaredToken]
      rw [if_neg (by simpa using hfresh), hdeclaration]
      rfl
    have hnone : ({ job with declared := true } : DeclaredJob).undeclaredToken = none := rfl
    rw [undeclaredTokens_insert, hnone, count_undeclared_of_lookup hlookup, htoken]
    rfl

theorem TokenInv.receiveSetNewPrevHash (h : TokenInv env s) (hloop : s.loop = .idle)
    {p : SetNewPrevHash} {pick : RequestId} {built : Bool}
    (hok : keepsTokens env s (.event (.setNewPrevHash p pick built)) = true) :
    TokenInv env (s.receiveSetNewPrevHash env p pick built) := by
  simp only [keepsTokens, decide_eq_true_eq] at hok
  obtain ⟨hplaces, hsupply⟩ := h.of_quiet (by rw [hloop]; rfl)
  unfold ChannelManager.receiveSetNewPrevHash
  dsimp only
  split
  · refine TokenInv.stop ?_ rfl
    exact hplaces
  next raw hraw =>
  obtain ⟨store, ms, hdeclare, hstore⟩ := @declareFutureTemplate_tokens env
    { s with
      history := (.setNewPrevHash p, s.coinbaseOutputs) :: s.history
      cachedShares := ∅ } pick hok.2
  rw [hdeclare]
  dsimp only
  have hplaces' : ∀ x, (usedTokens (ms ++ s.sent)).count x + s.allocateTokens.count x +
      (undeclaredTokens (KeyMap.mapValues (activate p) store)).count x ≤
        s.receivedTokens.count x := by
    intro x
    have hx := hplaces x
    have hsx := hstore x
    rw [undeclaredTokens_activate, usedTokens_append, List.count_append]
    dsimp only at hsx
    omega
  split
  next f hf =>
    rw [prevHashCustomJob_error hf]
    refine TokenInv.stop ?_ rfl
    exact hplaces'
  next s' consumed messages hjob =>
  obtain ⟨rfl, rfl, rfl⟩ | ⟨t, token, tokens, hmode, ht, htokens, hcase⟩ := prevHashCustomJob_ok hjob
  · exact ⟨hplaces', fun _ => hsupply⟩
  dsimp only at ht htokens
  rw [htokens] at hplaces' hsupply
  obtain ⟨hup, -, -, -⟩ | ⟨rfl, rfl, rfl⟩ | ⟨channelId, size, stored, hup, rfl, hstored, rfl, rfl⟩ :=
    hcase
  · -- without a channel to the pool the token would be lost
    have hsome := hok.1 hmode (by rw [ht]; rfl) (by rw [htokens]; exact List.cons_ne_nil _ _)
    dsimp only at hup
    rw [hup] at hsome
    cases hsome
  · constructor
    · intro x
      have hx := hplaces' x
      simp only [tokenPlaces, LoopTask.heldTokens, usedTokens_nil, List.count_nil, List.count_cons]
        at hx ⊢
      omega
    · intro _
      simp only [tokenSupply, LoopTask.owedTokens, if_true, List.length_cons] at hsupply ⊢
      omega
  · constructor
    · intro x
      have hx := hplaces' x
      have hins := count_undeclared_insert_le (KeyMap.mapValues (activate p) store)
        s.requestIdFactory stored x
      have hundeclared : stored.undeclaredToken = none := by
        simp [DeclaredJob.undeclaredToken, hstored]
      rw [hundeclared] at hins
      have hone : ∀ job : CustomJob,
          usedTokens [Message.setCustomMiningJob job false] = [job.token] := fun _ => rfl
      simp only [tokenPlaces, LoopTask.heldTokens, hone, List.count_cons, List.count_nil,
        Option.toList_none] at hx hins ⊢
      omega
    · intro _
      simp only [tokenSupply, LoopTask.owedTokens, if_true, List.length_cons] at hsupply ⊢
      omega

/-! ## The pool and the server -/

theorem TokenInv.receiveOpenSuccess (h : TokenInv env s) (hloop : s.loop = .idle)
    {msg : OpenSuccess} {ans : OpenSuccessAnswers}
    (hok : keepsTokens env s (.event (.openExtendedMiningChannelSuccess msg ans)) = true) :
    TokenInv env (s.receiveOpenSuccess env msg ans) := by
  simp only [keepsTokens, decide_eq_true_eq] at hok
  have hquiet : s.loop.isQuiet = true := by rw [hloop]; rfl
  obtain ⟨hplaces, hsupply⟩ := h.of_quiet hquiet
  have hcases := receiveOpenSuccess_cases env s msg ans
  generalize s.receiveOpenSuccess env msg ans = s' at hcases ⊢
  cases hcases with
  | failed f wrapped hf =>
    refine TokenInv.stop ?_ ?_
    · exact hplaces
    · rcases hf with rfl | rfl <;> rfl
  | noRequest _ => exact h.of_same ⟨rfl, rfl, rfl, rfl, rfl⟩ hquiet (Or.inl hquiet)
  | refused _ => exact h.of_same ⟨rfl, rfl, rfl, rfl, rfl⟩ hquiet (Or.inl hquiet)
  | configured raw s₁ customJob hraw hsize hpending hallocator hjob =>
    have hcase := openCustomJob_cases env
      { s with sizeWrapped := s.sizeWrapped || msg.wraps } (openedUpstream msg) raw
      ans.customJobBuilt
    rw [hjob] at hcase
    obtain heq | ⟨t, p, token, tokens, hmode, hfactory, ht, hp, htokens, hcase⟩ := hcase
    · cases heq
      constructor
      · intro x
        have hx := hplaces x
        simpa [tokenPlaces, LoopTask.heldTokens] using hx
      · intro _
        simpa [tokenSupply, LoopTask.owedTokens] using hsupply
    dsimp only at htokens ht hp hfactory
    rw [htokens] at hplaces hsupply
    obtain ⟨hbuilt, -⟩ | ⟨stored, hstored, heq⟩ := hcase
    · -- the token would be lost
      rw [hok hmode hfactory (by rw [ht]; rfl) (by rw [hp]; rfl)
        (by rw [htokens]; exact List.cons_ne_nil _ _)] at hbuilt
      cases hbuilt
    · cases heq
      constructor
      · intro x
        have hx := hplaces x
        have hins := count_undeclared_insert_le s.lastDeclareJobStore s.requestIdFactory stored x
        have hundeclared : stored.undeclaredToken = none := by
          simp [DeclaredJob.undeclaredToken, hstored]
        rw [hundeclared] at hins
        simp only [tokenPlaces, LoopTask.heldTokens, Option.map_some, Option.toList_some,
          List.count_cons, List.count_nil, Option.toList_none] at hx hins ⊢
        omega
      · intro _
        simp only [tokenSupply, LoopTask.owedTokens, hmode, Option.isSome_some, and_self, if_true,
          List.length_cons] at hsupply ⊢
        omega

/-- A token that is taken for a declaration goes into the store or into a message. -/
theorem declareJob_tokens {requestId : RequestId} {token : Bytes} {t : NewTemplate}
    {prevHash : Option SetNewPrevHash} {outs : List TxOut} {txs : List Bytes}
    {wtxids : List Hash256} {coinbase : Option (Bytes × Bytes)} :
    ∃ store ms, s.declareJob requestId token t prevHash outs txs wtxids coinbase =
        { s with lastDeclareJobStore := store, sent := ms ++ s.sent } ∧
      ∀ x, (usedTokens ms).count x + (undeclaredTokens store).count x ≤
        [token].count x + (undeclaredTokens s.lastDeclareJobStore).count x := by
  unfold declareJob
  split
  next coinbaseTxPrefix coinbaseTxSuffix hup =>
    split
    · dsimp only
      split
      next hpending =>
        refine ⟨_, [], rfl, ?_⟩
        intro x
        have hins := count_undeclared_insert_le s.lastDeclareJobStore requestId
          ⟨some ⟨requestId, token, t, coinbaseTxPrefix, coinbaseTxSuffix, wtxids⟩, t, prevHash, none,
            some outs, txs, !isPendingFuture t prevHash⟩ x
        have htoken : (DeclaredJob.mk
            (some ⟨requestId, token, t, coinbaseTxPrefix, coinbaseTxSuffix, wtxids⟩) t prevHash none
            (some outs) txs (!isPendingFuture t prevHash)).undeclaredToken = some token := by
          simp [DeclaredJob.undeclaredToken, hpending]
        rw [htoken] at hins
        simpa using hins
      next hpending =>
        refine ⟨_, [.declareMiningJob
          ⟨requestId, token, t, coinbaseTxPrefix, coinbaseTxSuffix, wtxids⟩], rfl, ?_⟩
        intro x
        have hins := count_undeclared_insert_le s.lastDeclareJobStore requestId
          ⟨some ⟨requestId, token, t, coinbaseTxPrefix, coinbaseTxSuffix, wtxids⟩, t, prevHash, none,
            some outs, txs, !isPendingFuture t prevHash⟩ x
        have htoken : (DeclaredJob.mk
            (some ⟨requestId, token, t, coinbaseTxPrefix, coinbaseTxSuffix, wtxids⟩) t prevHash none
            (some outs) txs (!isPendingFuture t prevHash)).undeclaredToken = none := by
          simp [DeclaredJob.undeclaredToken, hpending]
        rw [htoken] at hins
        have hone : ∀ declaration : Declaration, usedTokens [.declareMiningJob declaration] =
          [declaration.miningJobToken] := fun _ => rfl
        rw [hone]
        simp only [Option.toList_none, List.count_nil, Nat.zero_add] at hins
        exact Nat.add_le_add_left hins _
    · exact ⟨s.lastDeclareJobStore, [], rfl, by simp⟩
  · exact ⟨s.lastDeclareJobStore, [], rfl, by simp⟩

theorem TokenInv.handleRequestTxDataSuccess (h : TokenInv env s) (hloop : s.loop = .idle)
    {templateId : TemplateId} {txs : List Bytes} {coinbase : Option (Bytes × Bytes)} :
    TokenInv env (s.handleRequestTxDataSuccess env templateId txs coinbase) := by
  have hquiet : s.loop.isQuiet = true := by rw [hloop]; rfl
  obtain ⟨hplaces, hsupply⟩ := h.of_quiet hquiet
  unfold ChannelManager.handleRequestTxDataSuccess
  split
  · exact h
  split
  · exact h.fail hquiet .shutdown
  dsimp only
  -- the state after the token has been replaced by a request for one
  generalize hs₁ : allocateToken _ = s₁
  have htokens : s₁.allocateTokens = s.allocateTokens.tail := by rw [← hs₁]; rfl
  have hused : usedTokens s₁.sent = usedTokens s.sent := by rw [← hs₁]; rfl
  have hstore : s₁.lastDeclareJobStore = s.lastDeclareJobStore := by rw [← hs₁]; rfl
  have hreceived : s₁.receivedTokens = s.receivedTokens := by rw [← hs₁]; rfl
  have hloop₁ : s₁.loop = .idle := by rw [← hs₁]; exact hloop
  have hrequests : s₁.allocationRequests.length = s.allocationRequests.length + 1 := by
    rw [← hs₁]
    exact List.length_append
  have hinv : TokenInv env s₁ := by
    constructor
    · intro x
      have hx := hplaces x
      have hcount := count_tail_head s.allocateTokens x
      rw [tokenPlaces, hused, htokens, hstore, hreceived, hloop₁]
      simp only [LoopTask.heldTokens, List.count_nil]
      omega
    · intro _
      have hlen : s.allocateTokens.length ≤ s.allocateTokens.tail.length + 1 := by
        cases s.allocateTokens <;> simp
      rw [tokenSupply, htokens, hrequests]
      omega
  have hquiet₁ : s₁.loop.isQuiet = true := by rw [hloop₁]; rfl
  split
  · exact hinv
  next token htoken =>
  split
  · exact hinv.fail hquiet₁ .log
  split
  · exact hinv.fail hquiet₁ .panic
  split
  · exact hinv.fail hquiet₁ .shutdown
  split
  · exact hinv.fail hquiet₁ .shutdown
  split
  · exact hinv.fail hquiet₁ .panic
  obtain ⟨store, ms, hdeclare, hcount⟩ := declareJob_tokens (s := s₁)
  rw [hdeclare]
  constructor
  · intro x
    have hx := hplaces x
    have htail := count_tail_head s.allocateTokens x
    have hcx := hcount x
    rw [htoken] at htail
    rw [hstore] at hcx
    simp only [tokenPlaces, usedTokens_append, List.count_append, hused, htokens, hreceived, hloop₁,
      LoopTask.heldTokens, List.count_nil, Option.toList_some] at htail ⊢
    omega
  · exact hinv.supply

/-- A stored job is removed. -/
theorem TokenInv.eraseJob (h : TokenInv env s) (hloop : s.loop.isQuiet = true) (k : RequestId)
    (hstore : s'.lastDeclareJobStore = s.lastDeclareJobStore.erase k)
    (htokens : s'.allocateTokens = s.allocateTokens) (hreceived : s'.receivedTokens = s.receivedTokens)
    (hrequests : s'.allocationRequests = s.allocationRequests) (hused : s'.sent = s.sent)
    (hloop' : s'.loop = s.loop) : TokenInv env s' := by
  obtain ⟨hplaces, hsupply⟩ := h.of_quiet hloop
  obtain ⟨hheld, howed⟩ := @LoopTask.quiet_tokens env _ (Or.inl hloop)
  constructor
  · intro x
    have hx := hplaces x
    have herase := count_undeclared_erase_le s.lastDeclareJobStore k x
    rw [tokenPlaces, hused, htokens, hstore, hreceived, hloop', hheld, List.count_nil]
    omega
  · intro _
    rw [tokenSupply, htokens, hrequests, hloop', howed]
    exact hsupply

theorem TokenInv.handleSetCustomMiningJobSuccess (h : TokenInv env s) (hloop : s.loop = .idle)
    {requestId : RequestId} {jobId : JobId} {ack : AcknowledgementAnswer}
    {answers : List UpstreamShareAnswer} :
    TokenInv env (s.handleSetCustomMiningJobSuccess requestId jobId ack answers) := by
  have hquiet : s.loop.isQuiet = true := by rw [hloop]; rfl
  have hcomplete : ∀ t, TokenInv env (s.completeJob requestId jobId t) :=
    fun t => h.eraseJob hquiet requestId rfl rfl rfl rfl rfl rfl
  have hack : ∀ t u, TokenInv env (s.acknowledged requestId jobId t u) :=
    fun t u => (hcomplete t).of_same_loop ⟨rfl, rfl, rfl, rfl, rfl⟩ rfl
  have hcases := handleSetCustomMiningJobSuccess_cases s requestId jobId ack answers
  generalize s.handleSetCustomMiningJobSuccess requestId jobId ack answers = s' at hcases ⊢
  cases hcases with
  | unknown => exact h.fail hquiet .fallback
  | dropped job f hjob hf => exact (hcomplete _).fail hquiet f
  | noShares job u hjob hup => exact hack _ u
  | shares job u p cs hjob hup hp hcs =>
    obtain ⟨s₂, hmoved, hend⟩ := @validateCachedShares_moves
      (s.acknowledged requestId jobId job.template.templateId u) p (u.acknowledge jobId) jobId
      answers cs
    have hinv := (hack _ u).of_same_loop (.of_sharesMoved hmoved) hmoved.loop
    rcases hend with heq | heq
    · rw [heq]
      exact hinv
    · rw [heq]
      exact hinv.fail (by rw [hmoved.loop]; exact hquiet) .panic

theorem TokenInv.handleDeclareMiningJobSuccess (h : TokenInv env s) (hloop : s.loop = .idle)
    {requestId : RequestId} {newToken : Bytes} {built : Bool} :
    TokenInv env (s.handleDeclareMiningJobSuccess requestId newToken built) := by
  obtain heq | heq | ⟨job, p, outs, channelId, size, hjob, -, -, -, heq⟩ :=
    handleDeclareMiningJobSuccess_cases s requestId newToken built
  · rw [heq]
    exact h
  · rw [heq]
    exact h.fail (by rw [hloop]; rfl) .shutdown
  · rw [heq]
    refine ⟨?_, h.supply⟩
    intro x
    have hreplace : ∀ customJob, (undeclaredTokens (s.lastDeclareJobStore.insert requestId
        { job with setCustomMiningJob := some customJob })).count x =
          (undeclaredTokens s.lastDeclareJobStore).count x :=
      fun customJob => count_undeclared_replace hjob rfl x
    have hx := h.places x
    rw [tokenPlaces, ← hreplace] at hx
    exact hx

theorem TokenInv.handleAllocateMiningJobTokenSuccess (h : TokenInv env s) (hloop : s.loop = .idle)
    {requestId : RequestId} {token : Bytes} {outs : Option (List TxOut)} :
    TokenInv env (s.handleAllocateMiningJobTokenSuccess requestId token outs) := by
  have hquiet : s.loop.isQuiet = true := by rw [hloop]; rfl
  obtain ⟨hplaces, hsupply⟩ := h.of_quiet hquiet
  unfold ChannelManager.handleAllocateMiningJobTokenSuccess
  dsimp only
  generalize hs₁ : ({ s with
    coinbaseOutputs := outs
    allocateTokens := s.allocateTokens ++ [token]
    receivedTokens := token :: s.receivedTokens
    allocationRequests := s.allocationRequests.erase requestId } : ChannelManager) = s₁
  have hinv : TokenInv env s₁ := by
    subst hs₁
    constructor
    · intro x
      have hx := hplaces x
      simp only [tokenPlaces, hloop, LoopTask.heldTokens, List.count_append, List.count_cons,
        List.count_nil]
      omega
    · intro _
      have hlen : s.allocationRequests.length - 1 ≤
          (s.allocationRequests.erase requestId).length := by
        rw [List.length_erase]
        split <;> omega
      simp only [tokenSupply, hloop, LoopTask.owedTokens, List.length_append, List.length_singleton]
      omega
  have hquiet₁ : s₁.loop.isQuiet = true := by
    subst hs₁
    exact hquiet
  split
  · split
    · exact hinv.fail hquiet₁ .shutdown
    · exact hinv
  · split
    · exact hinv.of_same_loop ⟨rfl, rfl, rfl, rfl, rfl⟩ rfl
    · exact hinv

/-! ## Miners -/

/-- A message that takes no token and ends in one step. -/
theorem TokenInv.conclude (h : TokenInv env s) (hloop : s.loop.isQuiet = true)
    {r : Except Fault ChannelManager} (hr : ∀ s', r = .ok s' → SameTokens s s') :
    TokenInv env (s.conclude r) := by
  cases r with
  | error f => exact h.fail hloop f
  | ok s' =>
    have same := hr s' rfl
    exact h.of_same ⟨same.tokens, same.received, same.requests, same.store, same.used⟩ hloop
      (Or.inl rfl)

theorem SameTokens.recordRollableSize (s : ChannelManager) (r : PendingRequest) (ans : OpenAnswers) :
    SameTokens s (s.recordRollableSize r ans) := by
  unfold ChannelManager.recordRollableSize
  split <;> exact ⟨rfl, rfl, rfl, rfl, rfl⟩

theorem recordRollableSize_loop (s : ChannelManager) (r : PendingRequest) (ans : OpenAnswers) :
    (s.recordRollableSize r ans).loop = s.loop := by
  unfold recordRollableSize
  split <;> rfl

theorem TokenInv.handleOpenNow (h : TokenInv env s) (hloop : s.loop.isQuiet = true)
    {r : PendingRequest} {ans : OpenAnswers} : TokenInv env (s.handleOpenNow r ans) := by
  have hrecord := h.of_same_loop (.recordRollableSize s r ans) (recordRollableSize_loop s r ans)
  apply hrecord.conclude (by rw [recordRollableSize_loop]; exact hloop)
  intro s' hs'
  exact .of_opens (handleOpen_opens hs')

theorem TokenInv.handlePending (h : TokenInv env s) {ans : OpenAnswers} :
    TokenInv env (s.handlePending ans) := by
  unfold ChannelManager.handlePending
  split
  next r rest hloop =>
    have hquiet : s.loop.isQuiet = true := by rw [hloop]; rfl
    have hrecord := h.of_same_loop (.recordRollableSize s r ans) (recordRollableSize_loop s r ans)
    have hquiet₁ : (s.recordRollableSize r ans).loop.isQuiet = true := by
      rw [recordRollableSize_loop]
      exact hquiet
    dsimp only
    split
    · exact hrecord.fail hquiet₁ _
    next s' hs' =>
      have same := SameTokens.of_opens (handleOpen_opens hs')
      refine hrecord.of_same ⟨same.tokens, same.received, same.requests, same.store, same.used⟩
        hquiet₁ (Or.inl ?_)
      dsimp only
      split <;> rfl
  · exact h

theorem TokenInv.handleDownstreamOpen (h : TokenInv env s) (hloop : s.loop = .idle)
    {r : PendingRequest} {ans : OpenAnswers} : TokenInv env (s.handleDownstreamOpen env r ans) := by
  have hquiet : s.loop.isQuiet = true := by rw [hloop]; rfl
  have hinv : TokenInv env { s with openRequests := r :: s.openRequests } :=
    h.of_same_loop ⟨rfl, rfl, rfl, rfl, rfl⟩ rfl
  unfold ChannelManager.handleDownstreamOpen
  dsimp only
  split
  · exact h.of_same_loop ⟨rfl, rfl, rfl, rfl, rfl⟩ rfl
  · exact h.of_same_loop ⟨rfl, rfl, rfl, rfl, rfl⟩ rfl
  · exact hinv.handleOpenNow hquiet
  · exact hinv.handleOpenNow hquiet

/-! ## Runs -/

theorem TokenInv.receiveSetExtranoncePrefix (h : TokenInv env s) (hloop : s.loop = .idle)
    {extranoncePrefix : B032} {upstreamAccepts allocatorBuilt : Bool} :
    TokenInv env
      (s.receiveSetExtranoncePrefix extranoncePrefix upstreamAccepts allocatorBuilt) := by
  have hquiet : s.loop.isQuiet = true := by rw [hloop]; rfl
  unfold ChannelManager.receiveSetExtranoncePrefix
  split
  · exact h
  split
  · exact h.fail hquiet .fallback
  next u _ _ =>
  have hinv : TokenInv env { s with
      upstreamChannel := some { u with extranoncePrefix := extranoncePrefix.val } } :=
    h.of_same_loop ⟨rfl, rfl, rfl, rfl, rfl⟩ rfl
  dsimp only
  split
  · exact hinv.fail hquiet .fallback
  split
  · exact hinv.fail hquiet .fallback
  · exact h.of_same ⟨rfl, rfl, rfl, rfl, rfl⟩ hquiet (Or.inl rfl)

theorem TokenInv.handle (h : TokenInv env s) (hloop : s.loop = .idle) {e : Event}
    (hok : keepsTokens env s (.event e) = true) : TokenInv env (s.handle env e) := by
  have hquiet : s.loop.isQuiet = true := by rw [hloop]; rfl
  cases e with
  | newTemplate t => exact h.receiveNewTemplate hloop t
  | setNewPrevHash p pick built => exact h.receiveSetNewPrevHash hloop hok
  | requestTransactionDataSuccess t txs coinbase => exact h.handleRequestTxDataSuccess hloop
  | openExtendedMiningChannelSuccess msg ans => exact h.receiveOpenSuccess hloop hok
  | setExtranoncePrefix extranoncePrefix accepts built => exact h.receiveSetExtranoncePrefix hloop
  | setCustomMiningJobSuccess requestId jobId ack answers =>
    exact h.handleSetCustomMiningJobSuccess hloop
  | setCustomMiningJobError requestId stale =>
    simp only [ChannelManager.handle, handleSetCustomMiningJobError]
    split
    · split
      · exact h
      · exact h.eraseJob hquiet requestId rfl rfl rfl rfl rfl rfl
    · exact h.fail hquiet .fallback
  | closeUpstreamChannel =>
    have hinv : TokenInv env { s with upstreamChannel := none } :=
      h.of_same_loop ⟨rfl, rfl, rfl, rfl, rfl⟩ rfl
    exact hinv.fail hquiet .fallback
  | upstreamFault => exact h.fail hquiet .fallback
  | allocateMiningJobTokenSuccess requestId token outs =>
    exact h.handleAllocateMiningJobTokenSuccess hloop
  | declareMiningJobSuccess requestId token built => exact h.handleDeclareMiningJobSuccess hloop
  | declareMiningJobError requestId stale =>
    simp only [ChannelManager.handle]
    split
    · exact h
    · exact h.fail hquiet .fallback
  | provideMissingTransactions requestId positions =>
    simp only [ChannelManager.handle, handleProvideMissingTransactions]
    split
    · exact h
    · exact h.of_same_loop ⟨rfl, rfl, rfl, rfl, rfl⟩ rfl
  | openChannel r ans => exact h.handleDownstreamOpen hloop
  | closeChannel d channelId =>
    apply h.conclude hquiet
    intro s' hs'
    unfold handleCloseChannel at hs'
    split at hs' <;> cases hs'
    exact ⟨rfl, rfl, rfl, rfl, rfl⟩
  | submitSharesStandard d channelId jobId ans upstream =>
    apply h.conclude hquiet
    intro s' hs'
    exact .of_sharesMoved (handleSubmitShares_moves hs')
  | submitSharesExtended d channelId jobId extranonce ans upstream =>
    apply h.conclude hquiet
    intro s' hs'
    exact .of_sharesMoved (handleSubmitShares_moves hs')

theorem TokenInv.step (h : TokenInv env s) {a : Action} (hok : keepsTokens env s a = true) :
    TokenInv env (s.step env a) := by
  cases a with
  | event e =>
    simp only [ChannelManager.step]
    split
    next htakes => exact h.handle (takes_idle htakes) hok
    · exact h
  | visit d ans => exact h.visit hok
  | finish => exact h.finish
  | handlePending ans => exact h.handlePending
  | accept =>
    simp only [ChannelManager.step, accept]
    split
    · exact h.of_same_loop ⟨rfl, rfl, rfl, rfl, rfl⟩ rfl
    · exact h
  | bootstrap d built =>
    simp only [ChannelManager.step, bootstrap]
    split
    · split
      · split <;> exact h.of_same_loop ⟨rfl, rfl, rfl, rfl, rfl⟩ rfl
      · exact h.of_same_loop ⟨rfl, rfl, rfl, rfl, rfl⟩ rfl
      · exact h.of_same_loop ⟨rfl, rfl, rfl, rfl, rfl⟩ rfl
    · exact h
  | register d =>
    simp only [ChannelManager.step, register]
    split
    · exact h.of_same_loop ⟨rfl, rfl, rfl, rfl, rfl⟩ rfl
    · exact h
  | setUpConnection d requireStdJob => exact h.of_same_loop ⟨rfl, rfl, rfl, rfl, rfl⟩ rfl
  | removeDownstream d => exact h.of_same_loop ⟨rfl, rfl, rfl, rfl, rfl⟩ rfl

/-- In a run that meets the condition a token is used no more often than it was received, and
    whenever no handler is at work there are two tokens at hand or asked for; so there are two at
    hand whenever the server has answered everything. -/
theorem token_used_once_and_replaced (env : Env) (outs : Option (List TxOut)) (as : List Action)
    (hok : Runs.Guarded (ChannelManager.step env) (fun s a => keepsTokens env s a = true)
      (start outs) as) :
    let s := after env outs as
    (∀ t, (usedTokens s.sent).count t ≤ s.receivedTokens.count t) ∧
    (s.loop = .idle → 2 ≤ s.allocateTokens.length + s.allocationRequests.length ∧
      (s.allocationRequests = [] → 2 ≤ s.allocateTokens.length)) := by
  have hinv : TokenInv env (after env outs as) :=
    Runs.run_invariant_of_guarded (TokenInv env) (fun _ _ h hok => h.step hok)
      (tokenInv_start outs) as hok
  refine ⟨?_, ?_⟩
  · intro t
    have hused := hinv.used_le t
    omega
  · intro hidle
    obtain ⟨-, hsupply⟩ := hinv.of_quiet (by rw [hidle]; rfl)
    refine ⟨hsupply, ?_⟩
    intro hnil
    rw [hnil] at hsupply
    exact hsupply

/-- The outputs of a server that pays to one script. -/
def sampleOutputs : List TxOut := [⟨0, [0x51]⟩]

/-- Two tokens arrive. -/
def sampleTokens : List Action :=
  [.event (.allocateMiningJobTokenSuccess 0 [1] (some sampleOutputs)),
   .event (.allocateMiningJobTokenSuccess 1 [2] (some sampleOutputs))]

/-- One miner is connected when a template arrives that takes a token. -/
def singleMinerRun : List Action :=
  sampleConnections 1 ++ sampleTokens ++ sampleUpstream 0 ++
  [.visit 0 (sampleVisit 1 []), .finish, .handlePending (sampleOpen [0xaa, 0, 0]),
   .event (.newTemplate ⟨2, false, 5000⟩), .visit 0 (sampleVisit 2 []), .finish]

theorem token_used_once_and_replaced_singleMiner :
    let s := after (sampleEnv .coinbaseOnly) (some sampleOutputs) singleMinerRun
    (s.loop = .idle ∧ usedTokens s.sent = [[1]] ∧ s.allocateTokens = [[2]]) ∧
    (∀ t, (usedTokens s.sent).count t ≤ s.receivedTokens.count t) ∧
    (s.loop = .idle → 2 ≤ s.allocateTokens.length + s.allocationRequests.length ∧
      (s.allocationRequests = [] → 2 ≤ s.allocateTokens.length)) :=
  ⟨by decide +kernel,
    token_used_once_and_replaced (sampleEnv .coinbaseOnly) (some sampleOutputs) singleMinerRun
      (by decide +kernel)⟩

/-- Two miners are connected when a template arrives that takes a token. -/
def twoMinersRun : List Action :=
  sampleConnections 2 ++ sampleTokens ++ sampleUpstream 0 ++
  [.visit 0 (sampleVisit 1 []), .visit 1 (sampleVisit 1 []), .finish,
   .handlePending (sampleOpen [0xaa, 0, 0]), .event (.newTemplate ⟨2, false, 5000⟩),
   .visit 0 (sampleVisit 2 []), .visit 1 (sampleVisit 2 []), .finish]

/-- The token is received once and used in two custom jobs. -/
theorem token_used_for_each_miner :
    ¬ ∀ (env : Env) (outs : Option (List TxOut)) (as : List Action),
      let s := after env outs as
      (∀ t, (usedTokens s.sent).count t ≤ s.receivedTokens.count t) ∧
      (s.loop = .idle → 2 ≤ s.allocateTokens.length + s.allocationRequests.length) := by
  intro h
  have hused := (h (sampleEnv .coinbaseOnly) (some sampleOutputs) twoMinersRun).1 [1]
  revert hused
  decide +kernel

end ChannelManager

end Sv2Apps.Jdc
