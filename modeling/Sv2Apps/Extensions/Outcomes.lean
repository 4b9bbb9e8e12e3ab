/-
  Extensions/Outcomes.lean
  ========================
  **How a negotiation ends** — with a pool, once no extension frame is on its way and neither side
  has left, the client has stored what it requires; where the two configurations go together
  neither side refuses the other; and the reads of the frames that wait bring every negotiation to
  an end (`over_of_reads`, `pool_outcome`).

  A server that does not disconnect (the JD-client) may be asked again and again: each of its two
  errors asks for what the request before it named, and no run of the connection comes to an end
  (`endless`).
-/
import Sv2Apps.Extensions.Agreement

namespace Sv2Apps.Extensions

open OverflowChecks

variable {p : Parties}

/-- The client leaves because of the extensions of the server. -/
def ClientLeave.refusesServer : ClientLeave → Bool
  | .fallback .channelRecv => false
  | .fallback _ => true
  | .shutdown => false
  | .panicked => true

/-- The server leaves because of the extensions of the client. -/
def ServerLeave.refusesClient : ServerLeave → Bool
  | .clientDoesNotSupportRequiredExtensions _ => true
  | _ => false

/-- One side has left because of the extensions of the other. -/
def Session.Refused (s : Session) : Prop :=
  (∃ e, s.clientLeft = some e ∧ e.refusesServer) ∨ ∃ e, s.serverLeft = some e ∧ e.refusesClient

/-- The server requires extensions, supports none of them, and the client requires none of them. -/
structure Unheeded (p : Parties) : Prop where
  server : p.server ≠ .pool
  required : p.serverRequired ≠ []
  unsupported : p.serverRequired.Disjoint p.serverSupported
  apart : p.serverRequired.Disjoint p.clientRequired

/-- An error after which the client does nothing. -/
theorem Asked.unheeded {q : List UInt16} (h : Asked p q) (hreq : p.serverRequired ⊆ q)
    (hnone : q.Disjoint p.serverSupported) (hne : p.clientRequired ≠ [])
    (hun : p.clientRequired.Disjoint (q.filter (!p.serverSupported.contains ·))) :
    Unheeded p := by
  cases h with
  | first _ =>
    obtain ⟨e, he⟩ := List.exists_mem_of_ne_nil _ hne
    exact absurd (mem_missing.mpr ⟨he, fun hs => hnone he hs⟩) (hun he)
  | again hq hserver =>
    refine ⟨hserver, ?_, fun e he hs => hnone (hreq he) hs, fun e he hc => hq.apart hreq hc (hreq he)⟩
    intro hnil
    obtain ⟨e, he⟩ := List.exists_mem_of_ne_nil q hq.nonempty
    simpa [hnil] using hq.required he

namespace Session

variable {s s' : Session}

/-! ## Nothing on its way -/

/-- While both sides are there and nothing is on its way, the client has what it requires. -/
def Settled (p : Parties) (s : Session) : Prop :=
  s.connected = true → s.clientLeft = none → s.serverLeft = none → s.inFlight = 0 →
    s.clientNegotiated = p.clientRequired ∨ Unheeded p

theorem Settled.of_same (h : Settled p s) (hcon : s'.connected = true → s.connected = true)
    (hclient : s'.clientLeft = none → s.clientLeft = none)
    (hserver : s'.serverLeft = none → s.serverLeft = none)
    (hflight : s'.inFlight = 0 → s.inFlight = 0)
    (hcn : s'.clientNegotiated = s.clientNegotiated) : Settled p s' := by
  intro hc hcl hsl hin
  rw [hcn]
  exact h (hcon hc) (hclient hcl) (hserver hsl) (hflight hin)

theorem settled_of_left (h : s.serverLeft ≠ none) : Settled p s :=
  fun _ _ hleft _ => absurd hleft h

theorem settled_of_client_left (h : s.clientLeft ≠ none) : Settled p s :=
  fun _ hleft _ _ => absurd hleft h

theorem settled_of_disconnected (h : s.connected ≠ true) : Settled p s :=
  fun hc _ _ _ => absurd hc h

theorem settled_of_inFlight (h : s.inFlight ≠ 0) : Settled p s :=
  fun _ _ _ hin => absurd hin h

theorem inFlight_append_request (l : List ClientFrame) (m : RequestExtensions) (s : Session)
    (hl : s.toServer = l ++ [.requestExtensions m]) : s.inFlight ≠ 0 := by
  simp only [inFlight, requests, hl, requestsOf_append_request, List.length_append]
  simp

theorem setup_none (h : setup p = .ok none) : p.clientRequired = [] := by
  obtain ⟨id, hid⟩ := setup_eq p
  rw [hid] at h
  simp only [Extensions.setupRequest] at h
  split at h
  next hempty => simpa using hempty
  · split at h
    · cases h
    · cases h

theorem setup_error {e : ClientLeave} (h : setup p = .error e) : e = .shutdown := by
  obtain ⟨id, hid⟩ := setup_eq p
  rw [hid] at h
  simp only [Extensions.setupRequest] at h
  split at h
  · cases h
  · split at h
    · cases h
    · exact (Except.error.inj h).symm

theorem start_settled : Settled p (start p) := by
  unfold start
  split
  next hnone => exact fun _ _ _ _ => .inl (setup_none hnone).symm
  next m _ => exact settled_of_inFlight (inFlight_append_request [] m _ rfl)
  · exact settled_of_client_left (by simp)

theorem sendReply_settled {reply : Option ServerFrame} {left : Option ServerLeave}
    (hleft : reply = none → left ≠ none) : Settled p (sendReply s reply left) := by
  unfold sendReply
  split
  · exact settled_of_left (hleft rfl)
  · split
    · apply settled_of_inFlight
      simp [inFlight]
    · exact settled_of_left (by simp)

theorem answer_none {old : List UInt16} {m : RequestExtensions}
    (h : (answer p old m).reply = none) : (answer p old m).left ≠ none := by
  have hans := answer_answered p old m
  generalize answer p old m = r at h hans
  cases hans with
  | shutdown stored => simp
  | success id hne hreq => cases h
  | nothing id hnone hreq => cases h
  | missing id hmiss => cases h

theorem serverReads_settled (h : Settled p s) : Settled p (serverReads p s) := by
  unfold serverReads
  split
  · exact h
  · split
    · exact h
    · exact settled_of_left (by simp)
  · exact sendReply_settled answer_none
  next n tlvs rest hleft hq =>
    split
    · refine h.of_same id id id ?_ rfl
      simp [inFlight, requests, requestsOf, hq]
    · exact settled_of_left (by simp)

theorem clientReads_settled (ho : Orderly p s) (h : Settled p s) : Settled p (clientReads p s) := by
  unfold clientReads
  split
  · exact h
  · split
    · exact h
    · exact settled_of_client_left (by simp)
  next m rest hleft hq =>
    split
    next n hn =>
      have hstored := (clientReads_orderly ho).stored
      simp only [clientReads, hleft, hq, hn] at hstored
      obtain ⟨hsub, rfl⟩ := onSuccess_ok hn
      obtain ⟨_, _, _, _, hr⟩ := ho.reply_alone hq
      cases hr with
      | success hask hsr hms hm hs => exact fun _ _ _ _ => .inl (hstored hms).2.2.1
    · exact settled_of_client_left (by simp)
  next m rest hleft hq =>
    obtain ⟨hreq, rfl, hcn, hne, hr⟩ := ho.reply_alone hq
    split
    next hnothing =>
      obtain ⟨hun, hempty⟩ := onError_nothing hnothing
      cases hr with
      | nothing hask hsr hnone hm _ =>
        rw [hm] at hun
        exact fun _ _ _ _ => .inr (hask.unheeded hsr hnone hne hun)
      | missing hask hm _ hmiss _ =>
        rw [hm] at hempty
        exact absurd (missing_eq_nil.mp hempty) hmiss
    next m' _ =>
      unfold sendToServer
      split
      · exact settled_of_inFlight (inFlight_append_request _ m' _ rfl)
      next hc => exact settled_of_disconnected hc
    · exact settled_of_client_left (by simp)

theorem step_settled (ho : Orderly p s) (h : Settled p s) (a : Action) :
    Settled p (step p s a) := by
  cases a with
  | serverReads => exact serverReads_settled h
  | managerReads =>
    simp only [step, managerReads]
    split
    · exact h
    · split
      · exact h.of_same id id id id rfl
      · exact h.of_same id id id id rfl
  | clientReads => exact clientReads_settled ho h
  | submit n name =>
    simp only [step, submit]
    split
    · exact h
    · split
      · unfold sendToServer
        split
        · refine h.of_same id id id ?_ rfl
          simp [inFlight, requests, requestsOf_append_share]
        · exact h.of_same id id id id rfl
      · exact settled_of_client_left (by simp)
  | hangUp i j => exact settled_of_disconnected (by simp [step, hangUp])
  | remove =>
    simp only [step]
    split
    · exact h.of_same id id id id rfl
    · exact h

theorem after_settled (p : Parties) (as : List Action) : Settled p (after p as) := by
  have hrun := Runs.run_invariant (fun s => Orderly p s ∧ Settled p s)
    (fun _ a hs => ⟨step_orderly hs.1 a, step_settled hs.1 hs.2 a⟩)
    ⟨start_orderly, start_settled⟩ as
  exact hrun.2

/-! ## The end of a negotiation -/

/-- No extension frame will be read any more: one side has gone, or none is on its way. -/
def Over (s : Session) : Prop :=
  s.connected = false ∨ s.clientLeft.isSome ∨ s.serverLeft.isSome ∨ s.inFlight = 0

theorem Over.of_same (h : Over s) (hcon : s.connected = false → s'.connected = false)
    (hclient : s.clientLeft.isSome → s'.clientLeft.isSome)
    (hserver : s.serverLeft.isSome → s'.serverLeft.isSome)
    (hflight : s.inFlight = 0 → s'.inFlight = 0) : Over s' := by
  rcases h with h | h | h | h
  · exact .inl (hcon h)
  · exact .inr (.inl (hclient h))
  · exact .inr (.inr (.inl (hserver h)))
  · exact .inr (.inr (.inr (hflight h)))

theorem Over.sendShare (h : Over s) (n : Nat) (tlvs : List Tlv) :
    Over (sendToServer s (.submitShares n tlvs)) := by
  unfold sendToServer
  split
  · exact h.of_same id id id (by simp [inFlight, requests, requestsOf_append_share])
  · exact h

/-- A reply reaches the client, or the server has left, or the connection stands no more. -/
theorem sendReply_over {reply : Option ServerFrame} {left : Option ServerLeave}
    (hleft : reply = none → left ≠ none) :
    Over (sendReply s reply left) ∨ (sendReply s reply left).toClient ≠ [] := by
  unfold sendReply
  split
  · exact .inl (.inr (.inr (.inl (Option.isSome_iff_ne_none.mpr (hleft rfl)))))
  · split
    · exact .inr (by simp)
    next hc => exact .inl (.inl (Bool.eq_false_iff.mpr hc))

theorem sendReply_toClient (h : s.toClient ≠ []) (reply : Option ServerFrame)
    (left : Option ServerLeave) : (sendReply s reply left).toClient ≠ [] := by
  unfold sendReply
  split
  · exact h
  · split
    · simp
    · exact h

theorem sendReply_gone (h : s.connected = false ∨ s.clientLeft.isSome) (reply : Option ServerFrame)
    (left : Option ServerLeave) : Over (sendReply s reply left) := by
  have hover : ∀ {t : Session}, t.connected = s.connected → t.clientLeft = s.clientLeft → Over t := by
    intro t hcon hclient
    rcases h with h | h
    · exact .inl (hcon.trans h)
    · exact .inr (.inl (by rw [hclient]; exact h))
  unfold sendReply
  split
  · exact hover rfl rfl
  · split
    · exact hover rfl rfl
    · exact hover rfl rfl

theorem Over.step (h : Over s) (a : Action) : Over (step p s a) := by
  cases a with
  | serverReads =>
    simp only [Session.step, serverReads]
    split
    · exact h
    · split
      · exact h
      · exact .inr (.inr (.inl rfl))
    next m rest hleft hq =>
      rcases h with h | h | h | h
      · apply sendReply_gone
        exact .inl h
      · apply sendReply_gone
        exact .inr h
      · rw [hleft] at h
        cases h
      · simp [inFlight, requests, requestsOf, hq] at h
    next n tlvs rest hleft hq =>
      have hreq : requestsOf rest = s.requests := by simp [requests, requestsOf, hq]
      split
      · exact h.of_same id id id (by simp [inFlight, requests, hreq])
      · exact .inr (.inr (.inl rfl))
  | managerReads =>
    simp only [Session.step, managerReads]
    split
    · exact h
    · split
      · exact h.of_same id id id id
      · exact h.of_same id id id id
  | clientReads =>
    simp only [Session.step, clientReads]
    split
    · exact h
    · split
      · exact h
      · exact .inr (.inl rfl)
    next m rest hleft hq =>
      have hread : s.inFlight ≠ 0 := by simp [inFlight, hq]
      split
      · exact h.of_same id id id fun h0 => absurd h0 hread
      · exact .inr (.inl rfl)
    next m rest hleft hq =>
      have hread : s.inFlight ≠ 0 := by simp [inFlight, hq]
      split
      · exact h.of_same id id id fun h0 => absurd h0 hread
      · unfold sendToServer
        split
        · exact h.of_same id id id fun h0 => absurd h0 hread
        next hc => exact .inl (Bool.eq_false_iff.mpr hc)
      · exact .inr (.inl rfl)
  | submit n name =>
    simp only [Session.step, submit]
    split
    · exact h
    · split
      · apply Over.sendShare
        exact h.of_same id id id id
      · exact .inr (.inl rfl)
  | hangUp i j => exact .inl rfl
  | remove =>
    simp only [Session.step]
    split
    · exact h.of_same id id id id
    · exact h

/-- The negotiation is over, or its reply is there for the client, or its request is among the next
    `n` frames for the server. -/
def Due (s : Session) (n : Nat) : Prop :=
  Over s ∨ s.toClient ≠ [] ∨ requestsOf (s.toServer.take n) ≠ []

theorem due_length (s : Session) : Due s s.toServer.length := by
  by_cases hin : s.inFlight = 0
  · exact .inl (.inr (.inr (.inr hin)))
  · by_cases hrep : s.toClient = []
    · refine .inr (.inr ?_)
      rw [List.take_length]
      intro hnil
      exact hin (by simp [inFlight, requests, hnil, hrep])
    · exact .inr (.inl hrep)

theorem requestsOf_append (l l' : List ClientFrame) :
    requestsOf (l ++ l') = requestsOf l ++ requestsOf l' := List.filterMap_append

/-- Frames that are sent go to the end. -/
theorem requestsOf_take_append {l : List ClientFrame} {n : Nat} (h : requestsOf (l.take n) ≠ [])
    (f : ClientFrame) : requestsOf ((l ++ [f]).take n) ≠ [] := by
  rw [List.take_append, requestsOf_append]
  exact List.append_ne_nil_of_left_ne_nil h _

theorem Due.sendToServer {n : Nat} (h : requestsOf (s.toServer.take n) ≠ []) (f : ClientFrame) :
    Due (sendToServer s f) n := by
  unfold Session.sendToServer
  split
  · exact .inr (.inr (requestsOf_take_append h f))
  · exact .inr (.inr h)

/-- A read of the server brings the request closer. -/
theorem Due.serverReads {n : Nat} (h : Due s (n + 1)) : Due (serverReads p s) n := by
  rcases h with h | h | h
  · exact .inl (h.step .serverReads)
  · have hkept : (Session.serverReads p s).toClient ≠ [] := by
      unfold Session.serverReads
      split
      · exact h
      · split
        · exact h
        · exact h
      · apply sendReply_toClient
        exact h
      · split
        · exact h
        · exact h
    exact .inr (.inl hkept)
  · unfold Session.serverReads
    split
    next e rest hleft => exact .inl (.inr (.inr (.inl (by simp [hleft]))))
    next hleft hq => simp [hq, requestsOf] at h
    next m rest hleft hq =>
      rcases sendReply_over (answer_none (p := p)) with hover | hreply
      · exact .inl hover
      · exact .inr (.inl hreply)
    next k tlvs rest hleft hq =>
      have hrest : requestsOf (rest.take n) ≠ [] := by simpa [hq, requestsOf] using h
      split
      · exact .inr (.inr hrest)
      · exact .inl (.inr (.inr (.inl rfl)))

/-- The pool has left after an error to which the client has an answer. -/
theorem clientReads_over (hpool : p.server = .pool) (ho : Orderly p s) (h : s.toClient ≠ []) :
    Over (clientReads p s) := by
  unfold clientReads
  split
  next e _ hleft => exact .inr (.inl (by simp [hleft]))
  next hleft hq => exact absurd hq h
  next m rest hleft hq =>
    obtain ⟨hreq, rfl, -⟩ := ho.reply_alone hq
    have hnone : s.requests.length + 0 = 0 := by rw [hreq]; rfl
    split
    · exact .inr (.inr (.inr hnone))
    · exact .inr (.inl rfl)
  next m rest hleft hq =>
    obtain ⟨hreq, rfl, -, -, hr⟩ := ho.reply_alone hq
    have hnone : s.requests.length + 0 = 0 := by rw [hreq]; rfl
    split
    · exact .inr (.inr (.inr hnone))
    next m' hm' =>
      cases hr with
      | nothing hask hsr hnone hun hm => exact absurd hm (onError_retry hm').2.1
      | missing hask hm hun hmiss hserver =>
        unfold sendToServer
        split
        · exact .inr (.inr (.inl (hserver hpool)))
        · exact .inr (.inr (.inl (hserver hpool)))
    · exact .inr (.inl rfl)

theorem Due.step (hpool : p.server = .pool) (ho : Orderly p s) {n : Nat} (h : Due s n) (a : Action) :
    Due (step p s a) n := by
  cases a with
  | serverReads =>
    cases n with
    | zero =>
      rcases h with h | h | h
      · exact .inl (h.step .serverReads)
      · exact Due.serverReads (.inr (.inl h))
      · exact absurd rfl h
    | succ n =>
      rcases Due.serverReads (p := p) h with h | h | h
      · exact .inl h
      · exact .inr (.inl h)
      · refine .inr (.inr ?_)
        intro hnil
        apply h
        have hle : (Session.serverReads p s).toServer.take n =
            ((Session.serverReads p s).toServer.take (n + 1)).take n := by
          rw [List.take_take, Nat.min_eq_left (Nat.le_succ n)]
        rw [hle]
        exact List.filterMap_eq_nil_iff.mpr fun f hf =>
          List.filterMap_eq_nil_iff.mp hnil f (List.mem_of_mem_take hf)
  | managerReads =>
    simp only [Session.step, managerReads]
    split
    · exact h
    · split
      · exact h
      · exact h
  | clientReads =>
    rcases h with h | h | h
    · exact .inl (h.step .clientReads)
    · exact .inl (clientReads_over hpool ho h)
    · by_cases hrep : s.toClient = []
      · simp only [Session.step, clientReads]
        split
        · exact .inr (.inr h)
        · split
          · exact .inr (.inr h)
          · exact .inl (.inr (.inl rfl))
        next hq => simp [hrep] at hq
        next hq => simp [hrep] at hq
      · exact .inl (clientReads_over hpool ho hrep)
  | submit k name =>
    simp only [Session.step, submit]
    split
    · exact h
    · split
      · rcases h with h | h | h
        · apply Or.inl
          apply Over.sendShare
          exact h.of_same id id id id
        · refine .inr (.inl ?_)
          unfold Session.sendToServer
          split
          · exact h
          · exact h
        · apply Due.sendToServer
          exact h
      · exact .inl (.inr (.inl rfl))
  | hangUp i j => exact .inl (.inl rfl)
  | remove =>
    simp only [Session.step]
    split
    · exact h
    · exact h

/-- `n` reads of the server and then one of the client. -/
def reads (n : Nat) : List Action := List.replicate n .serverReads ++ [.clientReads]

theorem Due.zero_clientReads (hpool : p.server = .pool) (ho : Orderly p s) (h : Due s 0) :
    Over (clientReads p s) := by
  rcases h with h | h | h
  · exact h.step .clientReads
  · exact clientReads_over hpool ho h
  · exact absurd rfl h

/-- Reads of the server bring the request to it, and a read of the client ends the negotiation,
    whatever else happens between these reads. -/
theorem over_of_reads (hpool : p.server = .pool) {n : Nat} {bs : List Action} (ho : Orderly p s)
    (h : Due s n) (hreads : (reads n).Sublist bs) :
    Over (Runs.run (step p) s bs) := by
  induction bs generalizing s n with
  | nil => simp [reads] at hreads
  | cons b bs ih =>
    rw [Runs.run_cons]
    rcases List.sublist_cons_iff.mp hreads with hskip | ⟨rest, htake, hrest⟩
    · exact ih (step_orderly ho b) (h.step hpool ho b) hskip
    · cases n with
      | zero =>
        obtain ⟨rfl, -⟩ := List.cons.inj htake
        exact Runs.run_invariant Over (fun _ a hover => hover.step a) (h.zero_clientReads hpool ho) bs
      | succ n =>
        obtain ⟨rfl, rfl⟩ := List.cons.inj htake
        exact ih (step_orderly ho .serverReads) h.serverReads hrest

/-! ## Configurations that go together -/

/-- Nothing but the first request, its agreement, and nobody refused. -/
structure Smooth (p : Parties) (s : Session) : Prop where
  requests : ∀ m ∈ s.requests, m.requestedExtensions = p.clientRequired
  replies : ∀ f ∈ s.toClient, ∃ m, f = .success m ∧ m.supportedExtensions = p.clientRequired
  client : ∀ e, s.clientLeft = some e → e.refusesServer = false
  server : ∀ e, s.serverLeft = some e → e.refusesClient = false

theorem answer_of_agreeable (h : Agreeable p) (hne : p.clientRequired ≠ []) (old : List UInt16)
    {m : RequestExtensions} (hm : m.requestedExtensions = p.clientRequired) :
    (∀ f, (answer p old m).reply = some f →
      ∃ m', f = .success m' ∧ m'.supportedExtensions = p.clientRequired) ∧
    ∀ e, (answer p old m).left = some e → e.refusesClient = false := by
  have hans := answer_answered p old m
  rw [hm] at hans
  generalize answer p old m = r at hans
  cases hans with
  | shutdown stored => simp [ServerLeave.refusesClient]
  | success id hs hreq =>
    constructor
    · intro f hf
      obtain rfl := Option.some.inj hf
      exact ⟨_, rfl, common_eq_self h.2⟩
    · simp
  | nothing id hnone hreq =>
    obtain ⟨e, he⟩ := List.exists_mem_of_ne_nil _ hne
    exact absurd (h.2 he) (fun hs => hnone he hs)
  | missing id hmiss => exact absurd h.1 hmiss

theorem step_smooth (h : Agreeable p) (ho : Orderly p s) (hs : Smooth p s) (a : Action) :
    Smooth p (step p s a) := by
  cases a with
  | serverReads =>
    simp only [step, serverReads]
    split
    · exact hs
    · split
      · exact hs
      · exact ⟨hs.requests, hs.replies, hs.client, by simp [ServerLeave.refusesClient]⟩
    next m rest hleft hq =>
      obtain ⟨hreq, hrep, _, hne, _⟩ := ho.request_alone hq
      have hm : m.requestedExtensions = p.clientRequired := by
        apply hs.requests
        simp [Session.requests, requestsOf, hq]
      obtain ⟨hreply, hstay⟩ := answer_of_agreeable h hne s.serverNegotiated hm
      simp only [sendReply]
      split
      · exact ⟨by simp [Session.requests, hreq], hs.replies, hs.client, hstay⟩
      next f hf =>
        split
        · refine ⟨by simp [Session.requests, hreq], ?_, hs.client, hstay⟩
          simpa [hrep] using hreply f hf
        · exact ⟨by simp [Session.requests, hreq], hs.replies, hs.client,
            by simp [ServerLeave.refusesClient]⟩
    next n tlvs rest hleft hq =>
      have hreq : requestsOf rest = s.requests := by simp [Session.requests, requestsOf, hq]
      split
      · exact ⟨by simpa [Session.requests, hreq] using hs.requests, hs.replies, hs.client, hs.server⟩
      · exact ⟨by simpa [Session.requests, hreq] using hs.requests, hs.replies, hs.client,
          by simp [ServerLeave.refusesClient]⟩
  | managerReads =>
    simp only [step, managerReads]
    split
    · exact hs
    · split
      · exact ⟨hs.requests, hs.replies, hs.client, hs.server⟩
      · exact ⟨hs.requests, hs.replies, hs.client, hs.server⟩
  | clientReads =>
    simp only [step, clientReads]
    split
    · exact hs
    · split
      · exact hs
      · exact ⟨hs.requests, hs.replies, by simp [ClientLeave.refusesServer], hs.server⟩
    next m rest hleft hq =>
      obtain ⟨m', hm', hsup⟩ := hs.replies (.success m) (by rw [hq]; exact List.mem_cons_self)
      obtain rfl := ServerFrame.success.inj hm'
      have hrest : ∀ f ∈ rest, ∃ m, f = .success m ∧ m.supportedExtensions = p.clientRequired := by
        intro f hf
        exact hs.replies f (by rw [hq]; exact List.mem_cons_of_mem _ hf)
      rw [onSuccess_of_subset (by rw [hsup]; exact List.Subset.refl _)]
      exact ⟨hs.requests, hrest, hs.client, hs.server⟩
    next m rest hleft hq =>
      obtain ⟨m', hm', _⟩ := hs.replies (.error m) (by rw [hq]; exact List.mem_cons_self)
      cases hm'
  | submit n name =>
    simp only [step, submit]
    split
    · exact hs
    · split
      · unfold sendToServer
        split
        · refine ⟨?_, hs.replies, hs.client, hs.server⟩
          simpa [Session.requests, requestsOf_append_share] using hs.requests
        · exact ⟨hs.requests, hs.replies, hs.client, hs.server⟩
      · exact ⟨hs.requests, hs.replies, by simp [ClientLeave.refusesServer], hs.server⟩
  | hangUp i j =>
    refine ⟨?_, ?_, hs.client, hs.server⟩
    · intro m hm
      exact hs.requests m (((List.take_sublist _ _).filterMap _).subset hm)
    · intro f hf
      exact hs.replies f ((List.take_sublist _ _).subset hf)
  | remove =>
    simp only [step]
    split
    · exact ⟨hs.requests, hs.replies, hs.client, hs.server⟩
    · exact hs

theorem start_smooth : Smooth p (start p) := by
  unfold start
  split
  · exact ⟨by simp [Session.requests, requestsOf, idle], by simp [idle], by simp [idle],
      by simp [idle]⟩
  next m hm =>
    exact ⟨by simp [Session.requests, requestsOf, (setup_ok hm).2], by simp [idle], by simp [idle],
      by simp [idle]⟩
  next e he =>
    obtain rfl := setup_error he
    exact ⟨by simp [Session.requests, requestsOf, idle], by simp [idle],
      by simp [ClientLeave.refusesServer], by simp [idle]⟩

/-- With a pool a negotiation ends with what the client requires, stored by both sides, or with one
    side gone; neither side refuses the other if their configurations go together; and once the pool
    has read the frames that wait for it and the client has read after it, the negotiation is over,
    whatever else happens between these reads and after them. -/
theorem pool_outcome (p : Parties) (hpool : p.server = .pool) (as : List Action) :
    (Agreeable p → ¬(after p as).Refused) ∧
    ((after p as).connected = true → (after p as).clientLeft = none →
      (after p as).serverLeft = none → (after p as).inFlight = 0 →
      (after p as).clientNegotiated = p.clientRequired ∧
        (p.clientRequired ≠ [] →
          Agreeable p ∧ (after p as).serverNegotiated = p.clientRequired)) ∧
    ∀ bs, (reads (after p as).toServer.length).Sublist bs → Over (after p (as ++ bs)) := by
  refine ⟨?_, ?_, ?_⟩
  · intro hagree
    have hrun := Runs.run_invariant (fun s => Orderly p s ∧ Smooth p s)
      (fun _ a hs => ⟨step_orderly hs.1 a, step_smooth hagree hs.1 hs.2 a⟩)
      ⟨start_orderly, start_smooth⟩ as
    rintro (⟨e, he, href⟩ | ⟨e, he, href⟩)
    · exact absurd href (by simp [hrun.2.client e he])
    · exact absurd href (by simp [hrun.2.server e he])
  · intro hcon hcl hsl hin
    rcases after_settled p as hcon hcl hsl hin with heq | hun
    · refine ⟨heq, ?_⟩
      intro hne
      obtain ⟨_, hagree, _, hserver⟩ := (after_orderly p as).stored (by rw [heq]; exact hne)
      exact ⟨hagree, hserver⟩
    · exact absurd hpool hun.server
  · intro bs hreads
    rw [after, Runs.run_append]
    exact over_of_reads hpool (after_orderly p as) (due_length _) hreads

theorem pool_outcome_agreed :
    ¬(after workerNameParties [.serverReads, .clientReads]).Refused ∧
    Over (after workerNameParties ([] ++ [.serverReads, .submit 0 none, .clientReads])) :=
  ⟨(pool_outcome workerNameParties rfl [.serverReads, .clientReads]).1
      (by simp [Agreeable, workerNameParties]),
    (pool_outcome workerNameParties rfl []).2.2 _
      (List.Sublist.cons_cons _ (List.Sublist.cons _ (List.Sublist.refl _)))⟩

/-! ## A server that does not disconnect -/

end Session

/-- The client asks for some of what the server requires but not for all of it, and each side
    supports what the other requires. -/
structure Entangled (p : Parties) : Prop where
  server : p.server = .jdClient
  build : p.build = .wrapping
  supported : p.clientRequired ⊆ p.serverSupported
  known : p.serverRequired ⊆ p.clientSupported
  common : ¬p.serverRequired.Disjoint p.clientRequired
  other : ¬p.serverRequired ⊆ p.clientRequired
  client_short : p.clientRequired.length < 2 ^ 16
  server_short : p.serverRequired.length < 2 ^ 16

/-- A request of which the server misses some part, but not all. -/
structure Partial (p : Parties) (q : List UInt16) : Prop where
  common : ¬p.serverRequired.Disjoint q
  other : ¬p.serverRequired ⊆ q
  short : q.length < 2 ^ 16

/-- What is missed in a partial request is again a partial request. -/
theorem Partial.missing {q : List UInt16} (h : Partial p q) (hp : Entangled p) :
    Partial p (p.serverRequired.filter (!q.contains ·)) where
  common := by
    intro hdis
    apply h.other
    intro e he
    by_contra hmiss
    exact hdis he (mem_missing.mpr ⟨he, hmiss⟩)
  other := by
    intro hall
    exact h.common fun e he hq => (mem_missing.mp (hall he)).2 hq
  short := Nat.lt_of_le_of_lt (List.length_filter_le _ _) hp.server_short

theorem addU16_wrapping (x y : UInt16) : addU16 .wrapping x y = some (x + y) := by
  simp [addU16]

theorem Entangled.answer (hp : Entangled p) {q : List UInt16} (h : Partial p q)
    (old : List UInt16) (id : UInt16) :
    Session.answer p old ⟨id, q⟩ =
      ⟨old, some (.error ⟨id, q.filter (!p.serverSupported.contains ·),
        p.serverRequired.filter (!q.contains ·)⟩), none⟩ := by
  have hmiss : p.serverRequired.filter (!q.contains ·) ≠ [] := mt missing_eq_nil.mp h.other
  have hun : (q.filter (!p.serverSupported.contains ·)).length < 2 ^ 16 :=
    Nat.lt_of_le_of_lt (List.length_filter_le _ _) h.short
  simp only [Session.answer, hp.server, Jdc.handleRequestExtensions, requestExtensions,
    seq064K_of_lt hun, seq064K_of_lt (h.missing hp).short, isEmpty_eq_false hmiss]
  simp

theorem Entangled.onError (hp : Entangled p) {q : List UInt16} (h : Partial p q) (id : UInt16) :
    Session.onError p ⟨id, q.filter (!p.serverSupported.contains ·),
        p.serverRequired.filter (!q.contains ·)⟩ =
      .ok (some ⟨id + 1, p.serverRequired.filter (!q.contains ·)⟩) := by
  have hun : p.clientRequired.filter ((q.filter (!p.serverSupported.contains ·)).contains ·) = [] := by
    rw [common_eq_nil]
    intro e he hmem
    exact (mem_missing.mp hmem).2 (hp.supported he)
  have hmiss : p.serverRequired.filter (!q.contains ·) ≠ [] := mt missing_eq_nil.mp h.other
  have hknown : p.serverRequired.filter (!q.contains ·) ⊆ p.clientSupported :=
    fun _ he => hp.known (mem_missing.mp he).1
  simp only [Session.onError, handleRequestExtensionsError, hun, missing_eq_nil.mpr hknown,
    common_eq_self hknown, isEmpty_eq_false hmiss, hp.build, addU16_wrapping,
    seq064K_of_lt (h.missing hp).short]
  rfl

namespace Session

/-- Partial requests and their errors are all that is on its way, and nobody has stored anything;
    while the connection stands one of them is on its way, and nobody has left for it. -/
structure Restless (p : Parties) (s : Session) : Prop where
  client : s.clientNegotiated = []
  server : s.serverNegotiated = []
  asked : ∀ m ∈ s.requests, Partial p m.requestedExtensions
  replied : ∀ f ∈ s.toClient, ∃ id q, Partial p q ∧
    f = .error ⟨id, q.filter (!p.serverSupported.contains ·),
      p.serverRequired.filter (!q.contains ·)⟩
  serverStays : ∀ e, s.serverLeft = some e → e.refusesClient = false
  clientStays : s.connected = true → s.clientLeft = none ∧ s.inFlight = 1

/-- A step that reads, sends and loses no extension frame while the connection stands. -/
theorem Restless.of_same (h : Restless p s) (hcn : s'.clientNegotiated = s.clientNegotiated)
    (hsn : s'.serverNegotiated = s.serverNegotiated) (hreq : s'.requests = s.requests)
    (hrep : s'.toClient = s.toClient) (hsl : ∀ e, s'.serverLeft = some e → e.refusesClient = false)
    (hcl : s'.connected = true → s.connected = true ∧ s'.clientLeft = s.clientLeft) :
    Restless p s' where
  client := hcn.trans h.client
  server := hsn.trans h.server
  asked := by rw [hreq]; exact h.asked
  replied := by rw [hrep]; exact h.replied
  serverStays := hsl
  clientStays := by
    intro hcon
    obtain ⟨hcon', hleft⟩ := hcl hcon
    rw [hleft, inFlight, hreq, hrep]
    exact h.clientStays hcon'

theorem shareTlvs_of_nothing (hcn : s.clientNegotiated = []) (name : Option String) :
    shareTlvs p s name = some (none, []) := by
  unfold shareTlvs
  cases p.client with
  | translator => simp [attachedName, hcn]
  | jdClient => rfl

theorem serverReads_restless (hp : Entangled p) (ho : Orderly p s) (h : Restless p s) :
    Restless p (serverReads p s) := by
  unfold serverReads
  split
  · exact h
  · split
    · exact h
    next hc =>
      exact h.of_same rfl rfl rfl rfl (by simp [ServerLeave.refusesClient])
        (fun hcon => absurd hcon hc)
  next m rest hleft hq =>
    obtain ⟨hreq, hrep, _⟩ := ho.request_alone hq
    obtain ⟨id, q⟩ := m
    have hm : Partial p q := h.asked ⟨id, q⟩ (by simp [requests, requestsOf, hq])
    rw [hp.answer hm]
    simp only [sendReply]
    split
    next hc =>
      refine ⟨h.client, h.server, by simp [requests, hreq], ?_, by simp, ?_⟩
      · intro f hf
        rw [hrep, List.nil_append, List.mem_singleton] at hf
        exact ⟨id, q, hm, hf⟩
      · intro _
        exact ⟨(h.clientStays hc).1, by simp [inFlight, requests, hreq, hrep]⟩
    next hc =>
      exact ⟨h.client, h.server, by simp [requests, hreq], h.replied,
        by simp [ServerLeave.refusesClient], fun hcon => absurd hcon hc⟩
  next n tlvs rest hleft hq =>
    have hreq : requestsOf rest = s.requests := by simp [requests, requestsOf, hq]
    split
    · exact h.of_same rfl rfl hreq rfl h.serverStays (fun hcon => ⟨hcon, rfl⟩)
    · exact h.of_same rfl rfl hreq rfl (by simp [ServerLeave.refusesClient])
        (fun hcon => ⟨hcon, rfl⟩)

theorem clientReads_restless (hp : Entangled p) (ho : Orderly p s) (h : Restless p s) :
    Restless p (clientReads p s) := by
  unfold clientReads
  split
  · exact h
  · split
    · exact h
    next hc => exact h.of_same rfl rfl rfl rfl h.serverStays (fun hcon => absurd hcon hc)
  next m rest hleft hq =>
    obtain ⟨id, q, _, heq⟩ := h.replied (.success m) (by rw [hq]; exact List.mem_cons_self)
    cases heq
  next m rest hleft hq =>
    obtain ⟨hreq, rfl, _⟩ := ho.reply_alone hq
    obtain ⟨id, q, hm, heq⟩ := h.replied (.error m) (by rw [hq]; exact List.mem_cons_self)
    obtain rfl := ServerFrame.error.inj heq
    rw [hp.onError hm]
    simp only [sendToServer]
    split
    next hc =>
      have hone : requestsOf (s.toServer ++ [.requestExtensions
          ⟨id + 1, p.serverRequired.filter (!q.contains ·)⟩]) =
          [⟨id + 1, p.serverRequired.filter (!q.contains ·)⟩] := by
        rw [requestsOf_append_request, show requestsOf s.toServer = [] from hreq]
        rfl
      refine ⟨h.client, h.server, ?_, by simp, h.serverStays, ?_⟩
      · intro m hmem
        rw [requests, hone, List.mem_singleton] at hmem
        rw [hmem]
        exact hm.missing hp
      · intro _
        exact ⟨(h.clientStays hc).1, by rw [inFlight, requests, hone]; rfl⟩
    next hc =>
      exact ⟨h.client, h.server, h.asked, by simp, h.serverStays, fun hcon => absurd hcon hc⟩

theorem step_restless (hp : Entangled p) (ho : Orderly p s) (h : Restless p s) (a : Action) :
    Restless p (step p s a) := by
  cases a with
  | serverReads => exact serverReads_restless hp ho h
  | managerReads =>
    simp only [step, managerReads]
    split
    · exact h
    · split
      · exact h.of_same rfl rfl rfl rfl h.serverStays (fun hcon => ⟨hcon, rfl⟩)
      · exact h.of_same rfl rfl rfl rfl h.serverStays (fun hcon => ⟨hcon, rfl⟩)
  | clientReads => exact clientReads_restless hp ho h
  | submit n name =>
    simp only [step, submit]
    split
    · exact h
    · rw [shareTlvs_of_nothing h.client]
      simp only [sendToServer]
      split
      · refine h.of_same rfl rfl ?_ rfl h.serverStays (fun hcon => ⟨hcon, rfl⟩)
        simp [requests, requestsOf_append_share]
      · exact h.of_same rfl rfl rfl rfl h.serverStays (fun hcon => ⟨hcon, rfl⟩)
  | hangUp i j =>
    refine ⟨h.client, h.server, ?_, ?_, h.serverStays, by simp [step, hangUp]⟩
    · intro m hm
      exact h.asked m (((List.take_sublist _ _).filterMap _).subset hm)
    · intro f hf
      exact h.replied f ((List.take_sublist _ _).subset hf)
  | remove =>
    simp only [step]
    split
    · exact h.of_same rfl rfl rfl rfl h.serverStays (fun hcon => ⟨hcon, rfl⟩)
    · exact h

theorem start_restless (hp : Entangled p) : Restless p (start p) := by
  have hne : p.clientRequired ≠ [] := by
    intro hnil
    apply hp.common
    simp [hnil]
  have hm : Partial p p.clientRequired := ⟨hp.common, hp.other, hp.client_short⟩
  obtain ⟨id, hid⟩ := setup_eq p
  have hsetup : setup p = .ok (some ⟨id, p.clientRequired⟩) := by
    rw [hid, Extensions.setupRequest, isEmpty_eq_false hne, seq064K_of_lt hp.client_short]
    rfl
  unfold start
  rw [hsetup]
  refine ⟨rfl, rfl, ?_, by simp [idle], by simp [idle], ?_⟩
  · intro m hmem
    obtain rfl : m = ⟨id, p.clientRequired⟩ := by simpa [requests, requestsOf] using hmem
    exact hm
  · intro _
    exact ⟨rfl, rfl⟩

/-- With a server that does not disconnect the negotiation of entangled configurations never ends:
    while the connection stands an extension frame is on its way, and in no state has either side
    stored anything or refused the other. -/
theorem endless (p : Parties) (hp : Entangled p) (as : List Action) :
    (after p as).clientNegotiated = [] ∧ (after p as).serverNegotiated = [] ∧
    ((after p as).connected = true → (after p as).inFlight = 1 ∧ ¬(after p as).Refused) := by
  have hrun := Runs.run_invariant (fun s => Orderly p s ∧ Restless p s)
    (fun _ a hs => ⟨step_orderly hs.1 a, step_restless hp hs.1 hs.2 a⟩)
    ⟨start_orderly, start_restless hp⟩ as
  obtain ⟨_, hrest⟩ := hrun
  refine ⟨hrest.client, hrest.server, ?_⟩
  intro hcon
  obtain ⟨hstays, hone⟩ := hrest.clientStays hcon
  refine ⟨hone, ?_⟩
  rintro (⟨e, he, _⟩ | ⟨e, he, href⟩)
  · change (after p as).clientLeft = none at hstays
    rw [hstays] at he
    cases he
  · exact absurd href (by simp [hrest.serverStays e he])

/-- A translator that requires one of the two extensions that a JD-client requires. -/
def entangledParties : Parties where
  build := .wrapping
  crate := plainCrate
  client := .translator
  clientSupported := [2, 3]
  clientRequired := [2]
  server := .jdClient
  serverSupported := [2, 3]
  serverRequired := [2, 3]

theorem entangledParties_entangled : Entangled entangledParties where
  server := rfl
  build := rfl
  supported := by simp [entangledParties]
  known := by simp [entangledParties]
  common := by simp [entangledParties, List.Disjoint]
  other := by simp [entangledParties]
  client_short := by simp [entangledParties]
  server_short := by simp [entangledParties]

theorem endless_entangled :
    (after entangledParties [.serverReads, .clientReads, .serverReads]).inFlight = 1 :=
  ((endless entangledParties entangledParties_entangled
    [.serverReads, .clientReads, .serverReads]).2.2 (by decide)).1

end Session

end Sv2Apps.Extensions
