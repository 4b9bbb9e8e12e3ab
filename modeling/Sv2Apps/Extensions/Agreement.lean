/-
  Extensions/Agreement.lean
  =========================
  **What the two ends agree on** — in every run of a connection at most one extension frame is on
  its way, and what the client stores is exactly what it requires, is what the server stores, and
  contains all that the server requires (`stored_is_required`).

  A second request asks only for what the server has missed in the first (`Retried`).  It is never
  agreed on: a server that accepts it shares nothing with what the client requires.
-/
import Sv2Apps.Extensions.Negotiation
import Mathlib.Data.List.Basic

namespace Sv2Apps.Extensions

open OverflowChecks

/-! ## Lists of extensions -/

section Lists

variable {l q : List UInt16}

theorem mem_missing {e : UInt16} : e ∈ l.filter (!q.contains ·) ↔ e ∈ l ∧ e ∉ q := by
  simp

theorem missing_eq_nil : l.filter (!q.contains ·) = [] ↔ l ⊆ q := by
  simp [List.filter_eq_nil_iff, List.subset_def]

theorem common_eq_nil : l.filter (q.contains ·) = [] ↔ l.Disjoint q := by
  simp [List.filter_eq_nil_iff, List.Disjoint]

theorem common_eq_self (h : l ⊆ q) : l.filter (q.contains ·) = l := by
  rw [List.filter_eq_self]
  intro e he
  simpa using h he

theorem isEmpty_eq_false (h : l ≠ []) : l.isEmpty = false := by
  cases l with
  | nil => exact absurd rfl h
  | cons e l => rfl

theorem eq_of_seq064K {ms : List UInt16} (h : seq064K l = some ms) : ms = l := by
  unfold seq064K at h
  split at h
  · exact (Option.some.inj h).symm
  · exact absurd h (by simp)

theorem seq064K_of_lt (h : l.length < 2 ^ 16) : seq064K l = some l := if_pos h

end Lists

/-! ## One call of each handler -/

/-- What a request for `q` is answered with by a server that has stored `old`. -/
inductive Answered (supported required old q : List UInt16) (onMissing : Option ServerLeave) :
    ServerResult → Prop
  | success (id : UInt16) (hne : q.filter (supported.contains ·) ≠ []) (hreq : required ⊆ q) :
    Answered supported required old q onMissing
      ⟨q.filter (supported.contains ·), some (.success ⟨id, q.filter (supported.contains ·)⟩), none⟩
  | nothing (id : UInt16) (hnone : q.Disjoint supported) (hreq : required ⊆ q) :
    Answered supported required old q onMissing
      ⟨old, some (.error ⟨id, q.filter (!supported.contains ·), []⟩), none⟩
  | missing (id : UInt16) (hmiss : ¬required ⊆ q) :
    Answered supported required old q onMissing
      ⟨old, some (.error ⟨id, q.filter (!supported.contains ·), required.filter (!q.contains ·)⟩),
        onMissing⟩
  | shutdown (stored : List UInt16) :
    Answered supported required old q onMissing ⟨stored, none, some .shutdown⟩

theorem requestExtensions_answered (onMissing : List UInt16 → Option ServerLeave)
    (supported required old : List UInt16) (m : RequestExtensions) :
    Answered supported required old m.requestedExtensions
      (onMissing (required.filter (!m.requestedExtensions.contains ·)))
      (requestExtensions onMissing supported required old m) := by
  obtain ⟨id, q⟩ := m
  simp only [requestExtensions]
  split
  next hbad =>
    split
    next us ms hus hms =>
      rw [eq_of_seq064K hus, eq_of_seq064K hms]
      by_cases hreq : required ⊆ q
      · have hmiss := missing_eq_nil.mpr hreq
        simp only [hmiss, List.isEmpty_nil, Bool.not_true, Bool.or_false, List.isEmpty_iff] at hbad
        simp only [hmiss, List.isEmpty_nil, if_true]
        exact .nothing id (common_eq_nil.mp hbad) hreq
      · have hmiss : required.filter (!q.contains ·) ≠ [] := mt missing_eq_nil.mp hreq
        rw [isEmpty_eq_false hmiss]
        exact .missing id hreq
    next => exact .shutdown old
  next hgood =>
    simp only [Bool.or_eq_true, List.isEmpty_iff, Bool.not_eq_true', not_or, Bool.not_eq_false]
      at hgood
    split
    next ss hss =>
      rw [eq_of_seq064K hss]
      exact .success id hgood.1 (missing_eq_nil.mp hgood.2)
    next => exact .shutdown _

/-- What the server of the connection does with a client that misses `missing`. -/
def onMissing (server : ServerKind) (missing : List UInt16) : Option ServerLeave :=
  match server with
  | .pool => some (.clientDoesNotSupportRequiredExtensions missing)
  | .jdClient => none

theorem answer_answered (p : Parties) (old : List UInt16) (m : RequestExtensions) :
    Answered p.serverSupported p.serverRequired old m.requestedExtensions
      (onMissing p.server (p.serverRequired.filter (!m.requestedExtensions.contains ·)))
      (Session.answer p old m) := by
  unfold Session.answer
  cases hs : p.server with
  | pool => exact requestExtensions_answered _ _ _ _ _
  | jdClient => exact requestExtensions_answered _ _ _ _ _

theorem extensionsSuccess_ok {tooFew : List UInt16 → FallbackReason} {required n : List UInt16}
    {m : RequestExtensionsSuccess} (h : extensionsSuccess tooFew required m = .ok n) :
    required ⊆ m.supportedExtensions ∧ n = m.supportedExtensions := by
  simp only [extensionsSuccess] at h
  split at h
  · cases h
  next hnone =>
    rw [Bool.not_eq_true, Bool.not_eq_false', List.isEmpty_iff] at hnone
    exact ⟨missing_eq_nil.mp hnone, (Except.ok.inj h).symm⟩

theorem extensionsSuccess_of_subset {tooFew : List UInt16 → FallbackReason}
    {required : List UInt16} {m : RequestExtensionsSuccess} (h : required ⊆ m.supportedExtensions) :
    extensionsSuccess tooFew required m = .ok m.supportedExtensions := by
  simp only [extensionsSuccess, missing_eq_nil.mpr h]
  rfl

theorem onSuccess_ok {p : Parties} {m : RequestExtensionsSuccess} {n : List UInt16}
    (h : Session.onSuccess p m = .ok n) :
    p.clientRequired ⊆ m.supportedExtensions ∧ n = m.supportedExtensions := by
  unfold Session.onSuccess at h
  split at h
  · exact extensionsSuccess_ok h
  · exact extensionsSuccess_ok h

theorem onSuccess_of_subset {p : Parties} {m : RequestExtensionsSuccess}
    (h : p.clientRequired ⊆ m.supportedExtensions) :
    Session.onSuccess p m = .ok m.supportedExtensions := by
  unfold Session.onSuccess
  cases p.client with
  | translator => exact extensionsSuccess_of_subset h
  | jdClient => exact extensionsSuccess_of_subset h

/-- A client asks again only for what the server requires, and only when it can support it. -/
theorem onError_retry {p : Parties} {m : RequestExtensionsError} {m' : RequestExtensions}
    (h : Session.onError p m = .ok (some m')) :
    p.clientRequired.Disjoint m.unsupportedExtensions ∧ m.requiredExtensions ≠ [] ∧
      m.requiredExtensions ⊆ p.clientSupported ∧
      m'.requestedExtensions = m.requiredExtensions := by
  simp only [Session.onError, handleRequestExtensionsError] at h
  split at h
  · cases h
  next hun =>
    rw [Bool.not_eq_true, Bool.not_eq_false', List.isEmpty_iff] at hun
    split at h
    next hreq =>
      rw [Bool.not_eq_true', List.isEmpty_eq_false_iff] at hreq
      split at h
      · cases h
      next hcan =>
        rw [Bool.not_eq_true, Bool.not_eq_false', List.isEmpty_iff] at hcan
        have hsub := missing_eq_nil.mp hcan
        split at h
        next id q hid hq =>
          obtain rfl := Option.some.inj (Except.ok.inj h)
          rw [eq_of_seq064K hq, common_eq_self hsub]
          exact ⟨common_eq_nil.mp hun, hreq, hsub, rfl⟩
        · cases h
    · cases h

theorem onError_nothing {p : Parties} {m : RequestExtensionsError}
    (h : Session.onError p m = .ok none) :
    p.clientRequired.Disjoint m.unsupportedExtensions ∧ m.requiredExtensions = [] := by
  simp only [Session.onError, handleRequestExtensionsError] at h
  split at h
  · cases h
  next hun =>
    rw [Bool.not_eq_true, Bool.not_eq_false', List.isEmpty_iff] at hun
    split at h
    · split at h
      · cases h
      · split at h
        · cases h
        · cases h
    next hreq =>
      rw [Bool.not_eq_true, Bool.not_eq_false', List.isEmpty_iff] at hreq
      exact ⟨common_eq_nil.mp hun, hreq⟩

/-! ## The requests of a run -/

variable (p : Parties)

/-- The two configurations go together. -/
def Agreeable : Prop :=
  p.serverRequired ⊆ p.clientRequired ∧ p.clientRequired ⊆ p.serverSupported

/-- A request that follows an error. -/
structure Retried (q : List UInt16) : Prop where
  nonempty : q ≠ []
  required : q ⊆ p.serverRequired
  apart : p.serverRequired ⊆ q → p.clientRequired.Disjoint q

/-- A request that is answered: the first one, or one that follows an error; the pool answers no
    second one. -/
inductive Asked : List UInt16 → Prop
  | first (h : p.clientRequired ≠ []) : Asked p.clientRequired
  | again {q : List UInt16} (h : Retried p q) (hserver : p.server ≠ .pool) : Asked q

variable {p}

/-- What the server misses in a request is what the next one asks for. -/
theorem Asked.retried {q : List UInt16} (h : Asked p q) (hmiss : ¬p.serverRequired ⊆ q) :
    Retried p (p.serverRequired.filter (!q.contains ·)) where
  nonempty := mt missing_eq_nil.mp hmiss
  required := fun _ he => (mem_missing.mp he).1
  apart := by
    intro hall e he hmem
    -- everything the server requires was missed, so the request named nothing of it
    have hnone : ∀ e ∈ p.serverRequired, e ∉ q := fun e he => (mem_missing.mp (hall he)).2
    cases h with
    | first _ => exact (mem_missing.mp hmem).2 he
    | again hq _ =>
      obtain ⟨e', he'⟩ := List.exists_mem_of_ne_nil q hq.nonempty
      exact hnone e' (hq.required he') he'

/-- A request that the server accepts and the client is content with is the first one. -/
theorem Asked.eq_of_accepted {q : List UInt16} (h : Asked p q) (hreq : p.serverRequired ⊆ q)
    (hclient : p.clientRequired ⊆ q.filter (p.serverSupported.contains ·))
    (hne : q.filter (p.serverSupported.contains ·) ≠ [])
    (hfirst : p.clientRequired ≠ []) :
    Agreeable p ∧ q.filter (p.serverSupported.contains ·) = p.clientRequired := by
  cases h with
  | first _ =>
    have hsub : p.clientRequired ⊆ p.serverSupported := by
      intro e he
      simpa using (List.mem_filter.mp (hclient he)).2
    exact ⟨⟨hreq, hsub⟩, common_eq_self hsub⟩
  | again hq _ =>
    obtain ⟨e, he⟩ := List.exists_mem_of_ne_nil _ hfirst
    exact absurd (List.mem_of_mem_filter (hclient he)) (hq.apart hreq he)

/-! ## Every run -/

namespace Session

def requestsOf (l : List ClientFrame) : List RequestExtensions :=
  l.filterMap fun
    | .requestExtensions m => some m
    | .submitShares _ _ => none

/-- The requests on their way. -/
def requests (s : Session) : List RequestExtensions := requestsOf s.toServer

/-- The extension frames on their way. -/
def inFlight (s : Session) : Nat := s.requests.length + s.toClient.length

/-- A reply on its way to the client. -/
inductive Replied (p : Parties) (stored : List UInt16) (left : Option ServerLeave) :
    ServerFrame → Prop
  | success {m : RequestExtensionsSuccess} {q : List UInt16} (hq : Asked p q)
    (hreq : p.serverRequired ⊆ q) (hne : m.supportedExtensions ≠ [])
    (hm : m.supportedExtensions = q.filter (p.serverSupported.contains ·))
    (hstored : stored = m.supportedExtensions) : Replied p stored left (.success m)
  | nothing {m : RequestExtensionsError} {q : List UInt16} (hq : Asked p q)
    (hreq : p.serverRequired ⊆ q) (hnone : q.Disjoint p.serverSupported)
    (hun : m.unsupportedExtensions = q.filter (!p.serverSupported.contains ·))
    (hm : m.requiredExtensions = []) : Replied p stored left (.error m)
  | missing {m : RequestExtensionsError} {q : List UInt16} (hq : Asked p q)
    (hm : m.requiredExtensions = p.serverRequired.filter (!q.contains ·))
    (hun : m.unsupportedExtensions = q.filter (!p.serverSupported.contains ·))
    (hmiss : ¬p.serverRequired ⊆ q) (hleft : p.server = .pool → left.isSome) :
    Replied p stored left (.error m)

/-- What holds in every run of a connection. -/
structure Orderly (p : Parties) (s : Session) : Prop where
  oneInFlight : s.inFlight ≤ 1
  asked : ∀ m ∈ s.requests, s.clientNegotiated = [] ∧ p.clientRequired ≠ [] ∧
    (m.requestedExtensions = p.clientRequired ∨
      Retried p m.requestedExtensions ∧ (p.server = .pool → s.serverLeft.isSome))
  replied : ∀ f ∈ s.toClient, s.clientNegotiated = [] ∧ p.clientRequired ≠ [] ∧
    Replied p s.serverNegotiated s.serverLeft f
  stored : s.clientNegotiated ≠ [] → s.inFlight = 0 ∧ Agreeable p ∧
    s.clientNegotiated = p.clientRequired ∧ s.serverNegotiated = p.clientRequired

end Session

theorem Answered.replied {old q : List UInt16} {r : ServerResult} {f : ServerFrame}
    (h : Answered p.serverSupported p.serverRequired old q
      (onMissing p.server (p.serverRequired.filter (!q.contains ·))) r)
    (hask : Asked p q) (hf : r.reply = some f) :
    Session.Replied p r.negotiatedExtensions r.left f := by
  cases h with
  | shutdown stored => cases hf
  | success id hs hsub =>
    obtain rfl := Option.some.inj hf
    exact .success hask hsub hs rfl rfl
  | nothing id hnone hsub =>
    obtain rfl := Option.some.inj hf
    exact .nothing hask hsub hnone rfl rfl
  | missing id hmiss =>
    obtain rfl := Option.some.inj hf
    refine .missing hask rfl rfl hmiss ?_
    intro hp
    simp [onMissing, hp]

namespace Session

variable {s s' : Session}

theorem Replied.mono {stored : List UInt16} {left left' : Option ServerLeave} {f : ServerFrame}
    (h : Replied p stored left f) (hleft : left.isSome → left'.isSome) :
    Replied p stored left' f := by
  cases h with
  | success hq hreq hne hm hstored => exact .success hq hreq hne hm hstored
  | nothing hq hreq hnone hun hm => exact .nothing hq hreq hnone hun hm
  | missing hq hm hun hmiss hl => exact .missing hq hm hun hmiss fun hp => hleft (hl hp)

/-- A step that stores nothing and puts no extension frame on its way. -/
theorem Orderly.of_fewer (h : Orderly p s) (hreq : s'.requests.Sublist s.requests)
    (hrep : s'.toClient.Sublist s.toClient) (hcn : s'.clientNegotiated = s.clientNegotiated)
    (hsn : s'.serverNegotiated = s.serverNegotiated)
    (hleft : s.serverLeft.isSome → s'.serverLeft.isSome) : Orderly p s' where
  oneInFlight := by
    apply Nat.le_trans _ h.oneInFlight
    exact Nat.add_le_add hreq.length_le hrep.length_le
  asked := by
    intro m hm
    obtain ⟨hnone, hne, hask⟩ := h.asked m (hreq.subset hm)
    refine ⟨hcn.trans hnone, hne, ?_⟩
    rcases hask with hfirst | ⟨hagain, hpool⟩
    · exact .inl hfirst
    · exact .inr ⟨hagain, fun hp => hleft (hpool hp)⟩
  replied := by
    intro f hf
    obtain ⟨hnone, hne, hr⟩ := h.replied f (hrep.subset hf)
    rw [hsn]
    exact ⟨hcn.trans hnone, hne, hr.mono hleft⟩
  stored := by
    intro hne
    rw [hcn] at hne
    obtain ⟨hzero, hagree, hcr, hsr⟩ := h.stored hne
    refine ⟨?_, hagree, hcn.trans hcr, hsn.trans hsr⟩
    have := hreq.length_le
    have := hrep.length_le
    simp only [inFlight] at hzero ⊢
    omega

theorem requestsOf_append_share (l : List ClientFrame) (n : Nat) (tlvs : List Tlv) :
    requestsOf (l ++ [.submitShares n tlvs]) = requestsOf l := by
  simp [requestsOf]

theorem requestsOf_append_request (l : List ClientFrame) (m : RequestExtensions) :
    requestsOf (l ++ [.requestExtensions m]) = requestsOf l ++ [m] := by
  simp [requestsOf]

/-- With a request at the head of its queue the server has nothing else to wait for. -/
theorem Orderly.request_alone (h : Orderly p s) {m : RequestExtensions} {rest : List ClientFrame}
    (hq : s.toServer = .requestExtensions m :: rest) :
    requestsOf rest = [] ∧ s.toClient = [] ∧ s.clientNegotiated = [] ∧
      p.clientRequired ≠ [] ∧ (m.requestedExtensions = p.clientRequired ∨
        Retried p m.requestedExtensions ∧ (p.server = .pool → s.serverLeft.isSome)) := by
  have hcons : s.requests = m :: requestsOf rest := by
    simp [requests, requestsOf, hq]
  have hone := h.oneInFlight
  simp only [inFlight, hcons, List.length_cons] at hone
  obtain ⟨hnone, hne, hask⟩ := h.asked m (by rw [hcons]; exact List.mem_cons_self)
  refine ⟨?_, ?_, hnone, hne, hask⟩
  · apply List.eq_nil_of_length_eq_zero
    omega
  · apply List.eq_nil_of_length_eq_zero
    omega

/-- With a reply at the head of its queue the client has nothing else to wait for. -/
theorem Orderly.reply_alone (h : Orderly p s) {f : ServerFrame} {rest : List ServerFrame}
    (hq : s.toClient = f :: rest) :
    s.requests = [] ∧ rest = [] ∧ s.clientNegotiated = [] ∧ p.clientRequired ≠ [] ∧
      Replied p s.serverNegotiated s.serverLeft f := by
  have hone := h.oneInFlight
  simp only [inFlight, hq, List.length_cons] at hone
  obtain ⟨hnone, hne, hr⟩ := h.replied f (by rw [hq]; exact List.mem_cons_self)
  refine ⟨?_, ?_, hnone, hne, hr⟩
  · apply List.eq_nil_of_length_eq_zero
    omega
  · apply List.eq_nil_of_length_eq_zero
    omega

/-- Nothing on its way and nothing stored by the client. -/
theorem orderly_of_quiet (hreq : s.requests = []) (hrep : s.toClient = [])
    (hcn : s.clientNegotiated = []) : Orderly p s where
  oneInFlight := by simp [inFlight, hreq, hrep]
  asked := by simp [hreq]
  replied := by simp [hrep]
  stored := fun hne => absurd hcn hne

/-- One request on its way and nothing stored by the client. -/
theorem orderly_of_request {m : RequestExtensions} (hreq : s.requests = [m]) (hrep : s.toClient = [])
    (hcn : s.clientNegotiated = []) (hne : p.clientRequired ≠ [])
    (hm : m.requestedExtensions = p.clientRequired ∨
      Retried p m.requestedExtensions ∧ (p.server = .pool → s.serverLeft.isSome)) :
    Orderly p s where
  oneInFlight := by simp [inFlight, hreq, hrep]
  asked := by simpa [hreq] using ⟨hcn, hne, hm⟩
  replied := by simp [hrep]
  stored := fun hne' => absurd hcn hne'

/-- One reply on its way and nothing stored by the client. -/
theorem orderly_of_reply {f : ServerFrame} (hreq : s.requests = []) (hrep : s.toClient = [f])
    (hcn : s.clientNegotiated = []) (hne : p.clientRequired ≠ [])
    (hf : Replied p s.serverNegotiated s.serverLeft f) : Orderly p s where
  oneInFlight := by simp [inFlight, hreq, hrep]
  asked := by simp [hreq]
  replied := by simpa [hrep] using ⟨hcn, hne, hf⟩
  stored := fun hne' => absurd hcn hne'

/-- Nothing on its way, and both sides have stored what the client requires. -/
theorem orderly_of_stored (hreq : s.requests = []) (hrep : s.toClient = []) (hagree : Agreeable p)
    (hcn : s.clientNegotiated = p.clientRequired) (hsn : s.serverNegotiated = p.clientRequired) :
    Orderly p s where
  oneInFlight := by simp [inFlight, hreq, hrep]
  asked := by simp [hreq]
  replied := by simp [hrep]
  stored := fun _ => ⟨by simp [inFlight, hreq, hrep], hagree, hcn, hsn⟩

/-! ### The steps -/

theorem setup_eq (p : Parties) : ∃ id, setup p = Extensions.setupRequest id p.clientRequired := by
  unfold setup
  cases p.client with
  | translator => exact ⟨1, rfl⟩
  | jdClient => exact ⟨0, rfl⟩

theorem setup_ok {m : RequestExtensions} (h : setup p = .ok (some m)) :
    p.clientRequired ≠ [] ∧ m.requestedExtensions = p.clientRequired := by
  obtain ⟨id, hid⟩ := setup_eq p
  rw [hid] at h
  simp only [Extensions.setupRequest] at h
  split at h
  · cases h
  next hne =>
    split at h
    next q hq =>
      obtain rfl := Option.some.inj (Except.ok.inj h)
      exact ⟨by simpa using hne, eq_of_seq064K hq⟩
    · cases h

theorem start_orderly : Orderly p (start p) := by
  unfold start
  split
  · exact orderly_of_quiet rfl rfl rfl
  next m hm =>
    obtain ⟨hne, hreq⟩ := setup_ok hm
    exact orderly_of_request rfl rfl rfl hne (.inl hreq)
  · exact orderly_of_quiet rfl rfl rfl

theorem serverReads_orderly (h : Orderly p s) : Orderly p (serverReads p s) := by
  unfold serverReads
  split
  · exact h
  next hleft _ =>
    split
    · exact h
    · exact h.of_fewer (.refl _) (.refl _) rfl rfl (by simp [hleft])
  next m rest hleft hq =>
    obtain ⟨hreq, hrep, hcn, hne, hm⟩ := h.request_alone hq
    have hask : Asked p m.requestedExtensions := by
      rcases hm with hm | ⟨hm, hpool⟩
      · rw [hm]
        exact .first hne
      · apply Asked.again hm
        intro hp
        simpa [hleft] using hpool hp
    simp only [sendReply]
    split
    · exact orderly_of_quiet hreq hrep hcn
    next f hf =>
      have hr := (answer_answered p s.serverNegotiated m).replied hask hf
      split
      · refine orderly_of_reply hreq ?_ hcn hne hr
        simp [hrep]
      · exact orderly_of_quiet hreq hrep hcn
  next n tlvs rest hleft hq =>
    have hreq : (requestsOf rest).Sublist s.requests := by simp [requests, requestsOf, hq]
    split
    · exact h.of_fewer hreq (.refl _) rfl rfl id
    · exact h.of_fewer hreq (.refl _) rfl rfl (by simp)

theorem clientReads_orderly (h : Orderly p s) : Orderly p (clientReads p s) := by
  unfold clientReads
  split
  · exact h
  next =>
    split
    · exact h
    · exact h.of_fewer (.refl _) (.refl _) rfl rfl id
  next m rest _ hq =>
    obtain ⟨hreq, rfl, hcn, hne, hr⟩ := h.reply_alone hq
    split
    next n hn =>
      obtain ⟨hsub, rfl⟩ := onSuccess_ok hn
      cases hr with
      | success hask hsr hms hm hstored =>
        rw [hm] at hsub hms
        obtain ⟨hagree, heq⟩ := hask.eq_of_accepted hsr hsub hms hne
        exact orderly_of_stored hreq rfl hagree (hm.trans heq) (hstored.trans (hm.trans heq))
    · exact orderly_of_quiet hreq rfl hcn
  next m rest _ hq =>
    obtain ⟨hreq, rfl, hcn, hne, hr⟩ := h.reply_alone hq
    split
    · exact orderly_of_quiet hreq rfl hcn
    next m' hm' =>
      obtain ⟨_, hsome, _, heq⟩ := onError_retry hm'
      unfold sendToServer
      split
      · have hone : requestsOf (s.toServer ++ [.requestExtensions m']) = [m'] := by
          rw [requestsOf_append_request, show requestsOf s.toServer = [] from hreq]
          rfl
        refine orderly_of_request hone rfl hcn hne ?_
        cases hr with
        | nothing _ _ _ _ hm => exact absurd hm hsome
        | missing hask hm _ hmiss hpool =>
          rw [heq, hm]
          exact .inr ⟨hask.retried hmiss, hpool⟩
      · exact orderly_of_quiet hreq rfl hcn
    · exact orderly_of_quiet hreq rfl hcn

theorem submit_orderly (h : Orderly p s) (n : Nat) (name : Option String) :
    Orderly p (submit p s n name) := by
  unfold submit
  split
  · exact h
  · split
    · unfold sendToServer
      split
      · refine h.of_fewer ?_ (.refl _) rfl rfl id
        simp only [requests, requestsOf_append_share]
        exact .refl _
      · exact h.of_fewer (.refl _) (.refl _) rfl rfl id
    · exact h.of_fewer (.refl _) (.refl _) rfl rfl id

theorem step_orderly (h : Orderly p s) (a : Action) : Orderly p (step p s a) := by
  cases a with
  | serverReads => exact serverReads_orderly h
  | managerReads =>
    simp only [step, managerReads]
    split
    · exact h
    · split
      · exact h.of_fewer (.refl _) (.refl _) rfl rfl id
      · exact h.of_fewer (.refl _) (.refl _) rfl rfl id
  | clientReads => exact clientReads_orderly h
  | submit n name => exact submit_orderly h n name
  | hangUp i j =>
    refine h.of_fewer ?_ (List.take_sublist _ _) rfl rfl id
    exact (List.take_sublist _ _).filterMap _
  | remove =>
    simp only [step]
    split
    · exact h.of_fewer (.refl _) (.refl _) rfl rfl id
    · exact h

theorem after_orderly (p : Parties) (as : List Action) : Orderly p (after p as) :=
  Runs.run_invariant (Orderly p) (fun _ a hs => step_orderly hs a) start_orderly as

/-- What a client stores is what it requires, and what the server has stored; it holds all that
    either side requires, and the server supports it. -/
theorem stored_is_required (p : Parties) (as : List Action)
    (h : (after p as).clientNegotiated ≠ []) :
    (after p as).clientNegotiated = p.clientRequired ∧
      (after p as).serverNegotiated = p.clientRequired ∧
      p.serverRequired ⊆ p.clientRequired ∧ p.clientRequired ⊆ p.serverSupported ∧
      (after p as).inFlight = 0 := by
  obtain ⟨hzero, hagree, hclient, hserver⟩ := (after_orderly p as).stored h
  exact ⟨hclient, hserver, hagree.1, hagree.2, hzero⟩

theorem stored_is_required_by_translator :
    (after workerNameParties [.serverReads, .clientReads]).clientNegotiated = [2] ∧
      (after workerNameParties [.serverReads, .clientReads]).serverNegotiated = [2] :=
  ⟨(stored_is_required workerNameParties [.serverReads, .clientReads] (by decide)).1,
    (stored_is_required workerNameParties [.serverReads, .clientReads] (by decide)).2.1⟩

end Session

end Sv2Apps.Extensions
