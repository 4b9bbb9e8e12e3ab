/-
  Translator/OpeningRace.lean
  ===========================
  **Every channel is closed exactly once** — whatever the order in which a miner's channel is
  opened and the miner is disconnected.

  The proof is about who holds a channel: every channel that was opened is either in exactly one
  hand or was closed once (`Inv.opened`), and every live one is either in a hand or its close is
  on the way (`Inv.live`).  The hands are the success in the queue, the server task, the data of a
  registered miner and the call that cleans up after it; a step passes a channel from one to
  another.  Ids of live channels are different, so that a route, which belongs to a registered
  miner or to the call that cleans up after it (`Inv.routes`), is never one of a channel that
  somebody else is about to close.
-/
import Sv2Apps.Translator.DownstreamLifecycle

namespace Sv2Apps.Translator.DownstreamLifecycle

open Sv2Apps

variable {s s' : State}

/-! ## Hands -/

def ServerMessage.opening : ServerMessage → Option Opening
  | .openExtendedMiningChannelSuccess o => some o
  | .openMiningChannelError _ => none

def ManagerMessage.closing : ManagerMessage → Option Opening
  | .closeChannel o => some o
  | .openExtendedMiningChannel _ => none

/-- The channel in the hand of the server task, until the miner's data have it. -/
def ServerTask.holds : ServerTask → Multiset Opening
  | .received o | .orphaned o | .orphanUnrouted o | .claimed o _ | .guarded o _ | .unregistered o => {o}
  | _ => 0

/-- The channel in the hand of a call that cleans up, as long as its route may be there. -/
def Cleanup.routable (x : DownstreamData) : Cleanup → Multiset Opening
  | .removed true | .retained => ↑x.channelId.toList
  | .channelRead o => {o}
  | _ => 0

/-- The channel that a call is about to close. -/
def Cleanup.closing : Cleanup → Multiset Opening
  | .unrouted o => {o}
  | _ => 0

namespace State

/-- Channels whose route may be there. -/
def routable (s : State) : Multiset Opening :=
  ∑ d ∈ s.downstreams, (↑(s.data d).channelId.toList : Multiset Opening) +
    (s.cleanups.map fun c => c.2.routable (s.data c.1)).sum

/-- Channels without a route. -/
def unroutable (s : State) : Multiset Opening :=
  ↑(s.toServer.filterMap ServerMessage.opening) + s.server.holds +
    (s.cleanups.map fun c => c.2.closing).sum

def held (s : State) : Multiset Opening := s.unroutable + s.routable

/-- Channels whose close is on the way. -/
def closing (s : State) : Multiset Opening := ↑(s.toManager.filterMap ManagerMessage.closing)

def liveOpenings (s : State) : Multiset Opening := ↑(s.live.entries.map (·.2))

end State

/-! ## Requests -/

def ServerMessage.request : ServerMessage → Request
  | .openExtendedMiningChannelSuccess o => o.request
  | .openMiningChannelError q => q

def ManagerMessage.request : ManagerMessage → Option Request
  | .openExtendedMiningChannel q => some q
  | .closeChannel _ => none

/-- The request of the server task, as long as its id may be in the map. -/
def ServerTask.requests : ServerTask → Multiset Request
  | .registered q | .forwarding q | .withdrawing q | .refused q => {q}
  | .received o => {o.request}
  | _ => 0

/-- The server task is about to draw a request id. -/
def ServerTask.draws : ServerTask → Bool
  | .registering _ => true
  | _ => false

/-- The miner for which the server task is opening a channel, if it has no request in hand. -/
def ServerTask.opens : ServerTask → Multiset DownstreamId
  | .checking d | .registering d | .claimed _ d | .guarded _ d => {d}
  | _ => 0

namespace State

/-- Requests that are not answered yet. -/
def requests (s : State) : Multiset Request :=
  ↑(s.toManager.filterMap ManagerMessage.request) + ↑s.pending +
    ↑(s.toServer.map ServerMessage.request) + s.server.requests

/-- The id that the counter gives is not that of an unanswered request; so it is as long as no
    request is overtaken by `2 ^ 32` later ones. -/
def drawsFree (s : State) (a : Action) : Prop :=
  s.server.draws = true → a = .server → ∀ q ∈ s.requests, q.requestId ≠ s.nextRequestId

instance (s : State) (a : Action) : Decidable (s.drawsFree a) :=
  inferInstanceAs (Decidable (_ → _ → _))

/-- The miners that wait for a channel. -/
def opens (s : State) : Multiset DownstreamId := s.requests.map (·.downstreamId) + s.server.opens

end State

/-! ## The invariant -/

/-- What is known of the tasks. -/
structure TasksInv (s : State) : Prop where
  fresh : ∀ d, s.nextDownstreamId ≤ d → s.data d = ⟨none, false⟩
  known : ∀ d ∈ s.downstreams, d < s.nextDownstreamId
  cleanupKnown : ∀ c ∈ s.cleanups, c.1 < s.nextDownstreamId
  cleanupGone : ∀ c ∈ s.cleanups, c.2 ≠ .started → c.1 ∉ s.downstreams
  guarded : ∀ d, s.server.guards = some d → d ∈ s.downstreams
  assigned : ∀ o d, s.server = .assigned o d ∨ s.server = .queueTaken o d →
    (s.data d).channelId = some o
  dataOwner : ∀ d o, (s.data d).channelId = some o → o.request.downstreamId = d
  serverOwner : ∀ o d, s.server = .claimed o d ∨ s.server = .guarded o d →
    o.request.downstreamId = d
  cleanupOwner : ∀ c ∈ s.cleanups, ∀ o, c.2 = .channelRead o ∨ c.2 = .unrouted o →
    o.request.downstreamId = c.1

/-- What is known of the requests. -/
structure RequestsInv (s : State) : Prop where
  mapped : ∀ r d, s.requestIdToDownstreamId.lookup r = some d → ⟨r, d⟩ ∈ s.requests
  consistent : ∀ q ∈ s.requests, ∀ d, s.requestIdToDownstreamId.lookup q.requestId = some d →
    d = q.downstreamId
  once : ∀ d, s.opens.count d ≤ 1
  waiting : ∀ d ∈ s.opens, s.data d = ⟨none, true⟩

/-- A route belongs to a channel that is held by its miner, or by a call that cleans up after it. -/
def RoutesInv (s : State) : Prop :=
  ∀ k d, s.channelIdToDownstreamId.lookup k = some d →
    ∃ o ∈ s.routable, o.channelId = k ∧ o.request.downstreamId = d

/-- A request id belongs to a registered miner, or to a task that is about to remove it. -/
def RegisteredInv (s : State) : Prop :=
  ∀ r d, s.requestIdToDownstreamId.lookup r = some d →
    d ∈ s.downstreams ∨ (∃ present, (d, .removed present) ∈ s.cleanups) ∨
      s.server = .registered ⟨r, d⟩ ∨ s.server = .withdrawing ⟨r, d⟩

structure Inv (s : State) : Prop where
  tasks : TasksInv s
  requests : RequestsInv s
  registered : RegisteredInv s
  opened : (↑s.openings : Multiset Opening) = s.held + ↑s.closed
  live : s.liveOpenings = s.held + s.closing
  liveIds : ∀ k o, s.live.lookup k = some o → o.channelId = k
  serials : ∀ o ∈ s.openings, o.serial < s.openings.length
  distinct : s.openings.Nodup
  routes : RoutesInv s

/-! ## Steps of a call that cleans up -/

theorem mem_moveCleanup {c : DownstreamId × Cleanup} {next : Option Cleanup}
    {c' : DownstreamId × Cleanup} (h : c' ∈ (s.moveCleanup c next).cleanups) :
    (c'.1 = c.1 ∧ next = some c'.2) ∨ c' ∈ s.cleanups := by
  simp only [State.moveCleanup, List.mem_append, Option.mem_toList, Option.map_eq_some_iff] at h
  rcases h with ⟨p, hp, rfl⟩ | h
  · exact Or.inl ⟨rfl, hp⟩
  · exact Or.inr (List.mem_of_mem_erase h)

/-- What the calls hold together, when one of them goes on. -/
theorem sum_moveCleanup (f : DownstreamId × Cleanup → Multiset Opening)
    {c : DownstreamId × Cleanup} (hc : c ∈ s.cleanups) (next : Option Cleanup) :
    ((s.moveCleanup c next).cleanups.map f).sum + f c =
      (s.cleanups.map f).sum + (next.elim 0 fun p => f (c.1, p)) := by
  have hperm := (List.perm_cons_erase hc).map f
  rw [hperm.sum_eq]
  cases next with
  | none => simp [State.moveCleanup, add_comm]
  | some p =>
    simp only [State.moveCleanup, Option.map_some, Option.toList_some, List.singleton_append,
      List.map_cons, List.sum_cons, Option.elim_some]
    ac_rfl

/-- A call goes on; it may have removed the entry of its miner, unless that is guarded. -/
theorem TasksInv.cleaned (h : TasksInv s) {c : DownstreamId × Cleanup} (hc : c ∈ s.cleanups)
    (next : Option Cleanup) (hnext : s'.nextDownstreamId = s.nextDownstreamId)
    (hdata : s'.data = s.data) (hserver : s'.server = s.server)
    (hcleanups : s'.cleanups = (s.moveCleanup c next).cleanups)
    (hdownstreams : s'.downstreams ⊆ s.downstreams)
    (hguarded : ∀ d, s.server.guards = some d → d ∈ s'.downstreams)
    (hgone : next ≠ none → c.1 ∉ s'.downstreams)
    (howner : ∀ o, next = some (.channelRead o) ∨ next = some (.unrouted o) →
      o.request.downstreamId = c.1) : TasksInv s' := by
  have hmem : ∀ c' ∈ s'.cleanups, (c'.1 = c.1 ∧ next = some c'.2) ∨ c' ∈ s.cleanups := by
    intro c' hc'
    rw [hcleanups] at hc'
    exact mem_moveCleanup hc'
  refine ⟨?_, ?_, ?_, ?_, ?_, ?_, ?_, ?_, ?_⟩
  · rw [hnext, hdata]
    exact h.fresh
  · rw [hnext]
    exact fun d hd => h.known d (hdownstreams hd)
  · rw [hnext]
    intro c' hc'
    rcases hmem c' hc' with ⟨hid, -⟩ | hc'
    · rw [hid]
      exact h.cleanupKnown c hc
    · exact h.cleanupKnown c' hc'
  · intro c' hc' hstarted hd
    rcases hmem c' hc' with ⟨hid, hp⟩ | hc'
    · rw [hid] at hd
      exact hgone (by simp [hp]) hd
    · exact h.cleanupGone c' hc' hstarted (hdownstreams hd)
  · rw [hserver]
    exact hguarded
  · rw [hserver, hdata]
    exact h.assigned
  · rw [hdata]
    exact h.dataOwner
  · rw [hserver]
    exact h.serverOwner
  · intro c' hc' o ho
    rcases hmem c' hc' with ⟨hid, hp⟩ | hc'
    · rw [hid]
      refine howner o ?_
      rcases ho with ho | ho <;> simp [hp, ho]
    · exact h.cleanupOwner c' hc' o ho

theorem cleanupStep_tasks (h : TasksInv s) {c : DownstreamId × Cleanup} (hc : c ∈ s.cleanups) :
    TasksInv (s.cleanupStep c) := by
  obtain ⟨d, p⟩ := c
  have hgone : p ≠ .started → d ∉ s.downstreams := h.cleanupGone (d, p) hc
  cases p with
  | started =>
    simp only [State.cleanupStep]
    split
    · exact h
    next hguard =>
      refine h.cleaned hc _ rfl rfl rfl rfl (Finset.erase_subset _ _) ?_ ?_ ?_
      · intro e he
        refine Finset.mem_erase.mpr ⟨?_, h.guarded e he⟩
        rintro rfl
        exact hguard he
      · intro _
        exact Finset.notMem_erase d _
      · rintro o (ho | ho) <;> cases ho
  | removed present =>
    refine h.cleaned hc (if present then some .retained else none) rfl rfl rfl rfl (Finset.Subset.refl _) h.guarded
      (fun _ => hgone nofun) ?_
    rintro o ho
    cases present <;> simp at ho
  | retained =>
    refine h.cleaned hc _ rfl rfl rfl rfl (Finset.Subset.refl _) h.guarded (fun _ => hgone nofun) ?_
    intro o ho
    simp only [Option.map_eq_some_iff, Cleanup.channelRead.injEq, exists_eq_right, reduceCtorEq,
      and_false, exists_false, or_false] at ho
    exact h.dataOwner d o ho
  | channelRead o =>
    refine h.cleaned hc _ rfl rfl rfl rfl (Finset.Subset.refl _) h.guarded (fun _ => hgone nofun) ?_
    rintro o' (ho' | ho')
    · cases ho'
    · cases ho'
      exact h.cleanupOwner _ hc o (Or.inl rfl)
  | unrouted o =>
    refine h.cleaned hc none rfl rfl rfl rfl (Finset.Subset.refl _) h.guarded
      (fun hne => absurd rfl hne) ?_
    rintro o' (ho' | ho') <;> cases ho'

/-! ## Steps of the server task -/

/-- The server task goes on without writing a miner's data. -/
theorem TasksInv.served (h : TasksInv s) (hnext : s'.nextDownstreamId = s.nextDownstreamId)
    (hdownstreams : s'.downstreams = s.downstreams) (hcleanups : s'.cleanups = s.cleanups)
    (hdata : s'.data = s.data) (hguarded : ∀ d, s'.server.guards = some d → d ∈ s.downstreams)
    (hassigned : ∀ o d, s'.server = .assigned o d ∨ s'.server = .queueTaken o d →
      (s.data d).channelId = some o)
    (howner : ∀ o d, s'.server = .claimed o d ∨ s'.server = .guarded o d →
      o.request.downstreamId = d) : TasksInv s' := by
  refine ⟨?_, ?_, ?_, ?_, ?_, ?_, ?_, howner, ?_⟩
  · rw [hnext, hdata]
    exact h.fresh
  · rw [hnext, hdownstreams]
    exact h.known
  · rw [hnext, hcleanups]
    exact h.cleanupKnown
  · rw [hcleanups, hdownstreams]
    exact h.cleanupGone
  · rw [hdownstreams]
    exact hguarded
  · rw [hdata]
    exact hassigned
  · rw [hdata]
    exact h.dataOwner
  · rw [hcleanups]
    exact h.cleanupOwner

/-- The server task writes the data of a registered miner. -/
theorem TasksInv.wrote (h : TasksInv s) {d : DownstreamId} (hd : d ∈ s.downstreams)
    (x : DownstreamData) (hx : ∀ o, x.channelId = some o → o.request.downstreamId = d)
    (task : ServerTask) (hguarded : ∀ e, task.guards = some e → e ∈ s.downstreams)
    (hassigned : ∀ o e, task = .assigned o e ∨ task = .queueTaken o e → e = d ∧ x.channelId = some o)
    (howner : ∀ o e, task = .claimed o e ∨ task = .guarded o e → o.request.downstreamId = e) :
    TasksInv { s.setData d x with server := task } := by
  refine ⟨?_, h.known, h.cleanupKnown, h.cleanupGone, hguarded, ?_, ?_, howner, h.cleanupOwner⟩
  · intro e he
    have hne : e ≠ d := by
      rintro rfl
      exact absurd (h.known e hd) (Nat.not_lt.mpr he)
    simp only [State.setData, Function.update_of_ne hne]
    exact h.fresh e he
  · intro o e he
    obtain ⟨rfl, hchannel⟩ := hassigned o e he
    simp only [State.setData, Function.update_self]
    exact hchannel
  · intro e o ho
    by_cases hne : e = d
    · subst hne
      simp only [State.setData, Function.update_self] at ho
      exact hx o ho
    · simp only [State.setData, Function.update_of_ne hne] at ho
      exact h.dataOwner e o ho

theorem serverStep_tasks (h : TasksInv s) (hrequests : RequestsInv s) :
    TasksInv s.serverStep := by
  unfold State.serverStep
  cases hserver : s.server with
  | idle =>
    dsimp only
    split
    · exact h
    · refine h.served rfl rfl rfl rfl ?_ ?_ ?_ <;> simp [ServerTask.guards]
    · refine h.served rfl rfl rfl rfl ?_ ?_ ?_ <;> simp [ServerTask.guards]
  | checking d =>
    refine h.served rfl rfl rfl rfl ?_ ?_ ?_ <;> dsimp only <;> split <;> simp [ServerTask.guards]
  | registering d => refine h.served rfl rfl rfl rfl ?_ ?_ ?_ <;> simp [ServerTask.guards]
  | registered q =>
    refine h.served rfl rfl rfl rfl ?_ ?_ ?_ <;> dsimp only <;> split <;> simp [ServerTask.guards]
  | forwarding q => refine h.served rfl rfl rfl rfl ?_ ?_ ?_ <;> simp [ServerTask.guards]
  | withdrawing q => refine h.served rfl rfl rfl rfl ?_ ?_ ?_ <;> simp [ServerTask.guards]
  | refused q => refine h.served rfl rfl rfl rfl ?_ ?_ ?_ <;> simp [ServerTask.guards]
  | received o =>
    dsimp only
    split
    next d hd =>
      refine h.served rfl rfl rfl rfl ?_ ?_ ?_
      · simp [ServerTask.guards]
      · simp
      · intro o' d' ho'
        have hin : o.request ∈ s.requests := by simp [State.requests, hserver, ServerTask.requests]
        simp only [ServerTask.claimed.injEq, reduceCtorEq, or_false] at ho'
        obtain ⟨rfl, rfl⟩ := ho'
        exact (hrequests.consistent _ hin d hd).symm
    · refine h.served rfl rfl rfl rfl ?_ ?_ ?_ <;> simp [ServerTask.guards]
  | orphaned o =>
    refine h.served rfl rfl rfl rfl ?_ ?_ ?_ <;> dsimp only <;> split <;> simp [ServerTask.guards]
  | orphanUnrouted o => refine h.served rfl rfl rfl rfl ?_ ?_ ?_ <;> simp [ServerTask.guards]
  | unregistered o => refine h.served rfl rfl rfl rfl ?_ ?_ ?_ <;> simp [ServerTask.guards]
  | claimed o d =>
    have howner := h.serverOwner o d (Or.inl hserver)
    dsimp only
    split
    next hd =>
      refine h.served rfl rfl rfl rfl ?_ ?_ ?_
      · rintro e ⟨⟩
        exact hd
      · simp
      · rintro o' d' (ho' | ho') <;> cases ho'
        exact howner
    · refine h.served rfl rfl rfl rfl ?_ ?_ ?_ <;> simp [ServerTask.guards]
  | guarded o d =>
    have howner := h.serverOwner o d (Or.inr hserver)
    have hd := h.guarded d (by rw [hserver]; rfl)
    refine h.wrote hd _ ?_ _ ?_ ?_ ?_
    · rintro o' ⟨⟩
      exact howner
    · rintro e ⟨⟩
      exact hd
    · rintro o' e (he | he) <;> cases he
      exact ⟨rfl, rfl⟩
    · rintro o' e (he | he) <;> cases he
  | assigned o d =>
    have hchannel := h.assigned o d (Or.inl hserver)
    have hd := h.guarded d (by rw [hserver]; rfl)
    refine h.wrote hd _ ?_ _ ?_ ?_ ?_
    · intro o' ho'
      exact h.dataOwner d o' ho'
    · rintro e ⟨⟩
      exact hd
    · rintro o' e (he | he) <;> cases he
      exact ⟨rfl, hchannel⟩
    · rintro o' e (he | he) <;> cases he
  | queueTaken o d => refine h.served rfl rfl rfl rfl ?_ ?_ ?_ <;> simp [ServerTask.guards]

/-! ## Steps and requests -/

/-- Requests are answered or go on, and ids of requests leave the map with them. -/
theorem RequestsInv.answered (h : RequestsInv s) (hrequests : s'.requests ≤ s.requests) (hopens : s'.opens ≤ s.opens)
    (hmap : ∀ r d, s'.requestIdToDownstreamId.lookup r = some d →
      s.requestIdToDownstreamId.lookup r = some d ∧ (⟨r, d⟩ ∈ s.requests → ⟨r, d⟩ ∈ s'.requests))
    (hdata : ∀ d ∈ s'.opens, s'.data d = s.data d) : RequestsInv s' := by
  refine ⟨?_, ?_, ?_, ?_⟩
  · intro r d hd
    obtain ⟨hold, hkept⟩ := hmap r d hd
    exact hkept (h.mapped r d hold)
  · intro q hq d hd
    exact h.consistent q (Multiset.mem_of_le hrequests hq) d (hmap _ d hd).1
  · intro d
    exact Nat.le_trans (Multiset.count_le_of_le d hopens) (h.once d)
  · intro d hd
    rw [hdata d hd]
    exact h.waiting d (Multiset.mem_of_le hopens hd)

/-- The requests are the same, and the map has no new entry. -/
theorem RequestsInv.same (h : RequestsInv s) (hrequests : s'.requests = s.requests)
    (hopens : s'.server.opens ≤ s.server.opens)
    (hmap : ∀ r d, s'.requestIdToDownstreamId.lookup r = some d →
      s.requestIdToDownstreamId.lookup r = some d)
    (hdata : ∀ d ∈ s'.opens, s'.data d = s.data d) : RequestsInv s' := by
  refine h.answered hrequests.le ?_ (fun r d hd => ⟨hmap r d hd, ?_⟩) hdata
  · unfold State.opens
    rw [hrequests]
    exact add_le_add_right hopens _
  · rw [hrequests]
    exact id

theorem mem_requests_erase {q : Request} {m : KeyMap RequestId DownstreamId} {r : RequestId}
    {d : DownstreamId}
    {A : Multiset Request} (h : (m.erase q.requestId).lookup r = some d)
    (hmem : (⟨r, d⟩ : Request) ∈ A + {q}) : (⟨r, d⟩ : Request) ∈ A := by
  rw [KeyMap.lookup_erase_eq] at h
  split at h
  · cases h
  next hne =>
    rcases Multiset.mem_add.mp hmem with hmem | hmem
    · exact hmem
    · rw [Multiset.mem_singleton] at hmem
      exact absurd (congrArg Request.requestId hmem) hne

/-- The id of a request is removed from the map, with the request in the hand of the server. -/
theorem RequestsInv.removed (h : RequestsInv s) (q : Request) (hdata : s'.data = s.data)
    (hmap : s'.requestIdToDownstreamId = s.requestIdToDownstreamId.erase q.requestId)
    (hrequests : s.requests = s'.requests + {q})
    (hopens : s'.server.opens ≤ {q.downstreamId} + s.server.opens) : RequestsInv s' := by
  refine h.answered ?_ ?_ ?_ (fun d _ => by rw [hdata])
  · rw [hrequests]
    exact Multiset.le_add_right _ _
  · simp only [State.opens, hrequests, Multiset.map_add, Multiset.map_singleton, add_assoc]
    exact add_le_add_right hopens _
  · intro r d hd
    rw [hmap] at hd
    refine ⟨KeyMap.lookup_erase_some hd, ?_⟩
    rw [hrequests]
    exact mem_requests_erase hd

theorem serverStep_requests (htasks : TasksInv s) (h : RequestsInv s)
    (hfree : s.drawsFree .server) : RequestsInv s.serverStep := by
  unfold State.serverStep
  cases hserver : s.server with
  | idle =>
    dsimp only
    split
    · exact h
    next o rest hqueue =>
      refine h.same ?_ ?_ (fun _ _ hd => hd) (fun _ _ => rfl)
      · simp only [State.requests, hserver, hqueue, ServerTask.requests, List.map_cons,
          ServerMessage.request, ← Multiset.cons_coe, ← Multiset.singleton_add, add_zero]
        ac_rfl
      · exact Multiset.zero_le _
    next q rest hqueue =>
      refine h.same ?_ ?_ (fun _ _ hd => hd) (fun _ _ => rfl)
      · simp only [State.requests, hserver, hqueue, ServerTask.requests, List.map_cons,
          ServerMessage.request, ← Multiset.cons_coe, ← Multiset.singleton_add, add_zero]
        ac_rfl
      · exact Multiset.zero_le _
  | checking d =>
    refine h.same ?_ ?_ (fun _ _ hd => hd) (fun _ _ => rfl)
    · simp only [State.requests, hserver]
      split <;> rfl
    · simp only [hserver]
      split <;> simp [ServerTask.opens]
  | registering d =>
    have hrequests : State.requests { s with
        server := .registered ⟨s.nextRequestId, d⟩
        requestIdToDownstreamId := s.requestIdToDownstreamId.insert s.nextRequestId d
        nextRequestId := s.nextRequestId + 1 } = s.requests + {⟨s.nextRequestId, d⟩} := by
      simp [State.requests, hserver, ServerTask.requests]
    have hopens : State.opens { s with
        server := .registered ⟨s.nextRequestId, d⟩
        requestIdToDownstreamId := s.requestIdToDownstreamId.insert s.nextRequestId d
        nextRequestId := s.nextRequestId + 1 } = s.opens := by
      simp [State.opens, hrequests, hserver, ServerTask.opens]
    have hnew : ∀ q ∈ s.requests, q.requestId ≠ s.nextRequestId :=
      hfree (by rw [hserver]; rfl) rfl
    refine ⟨?_, ?_, ?_, ?_⟩
    · intro r e he
      rw [hrequests, Multiset.mem_add, Multiset.mem_singleton]
      dsimp only at he
      rw [KeyMap.lookup_insert_eq] at he
      split at he
      next hr =>
        cases he
        rw [hr]
        exact Or.inr rfl
      · exact Or.inl (h.mapped r e he)
    · intro q hq e he
      rw [hrequests, Multiset.mem_add, Multiset.mem_singleton] at hq
      dsimp only at he
      rw [KeyMap.lookup_insert_eq] at he
      rcases hq with hq | rfl
      · rw [if_neg (hnew q hq)] at he
        exact h.consistent q hq e he
      · rw [if_pos rfl] at he
        exact (Option.some.inj he).symm
    · rw [hopens]
      exact h.once
    · rw [hopens]
      exact h.waiting
  | registered q =>
    refine h.same ?_ ?_ (fun _ _ hd => hd) (fun _ _ => rfl)
    · simp only [State.requests, hserver]
      split <;> rfl
    · simp only [hserver]
      split <;> simp [ServerTask.opens]
  | forwarding q =>
    refine h.same ?_ ?_ (fun _ _ hd => hd) (fun _ _ => rfl)
    · simp only [State.requests, State.sendManager, hserver, ServerTask.requests,
        List.filterMap_append, List.filterMap_cons, List.filterMap_nil, ManagerMessage.request,
        ← Multiset.coe_add, Multiset.coe_singleton, add_zero]
      ac_rfl
    · exact Multiset.zero_le _
  | withdrawing q =>
    refine h.removed q rfl rfl ?_ (Multiset.zero_le _)
    simp [State.requests, hserver, ServerTask.requests]
  | refused q =>
    refine h.removed q rfl rfl ?_ (Multiset.zero_le _)
    simp [State.requests, hserver, ServerTask.requests]
  | received o =>
    dsimp only
    split
    next d hd =>
      refine h.removed o.request rfl rfl ?_ ?_
      · simp [State.requests, hserver, ServerTask.requests]
      · have hin : o.request ∈ s.requests := by
          simp [State.requests, hserver, ServerTask.requests]
        rw [h.consistent _ hin d hd]
        exact Multiset.le_add_right _ _
    · refine h.removed o.request rfl rfl ?_ (Multiset.zero_le _)
      simp [State.requests, hserver, ServerTask.requests]
  | orphaned o =>
    refine h.same ?_ ?_ (fun _ _ hd => hd) (fun _ _ => rfl)
    · simp only [State.requests, hserver]
      split <;> rfl
    · simp only [hserver]
      split <;> simp [ServerTask.opens]
  | orphanUnrouted o =>
    refine h.same ?_ ?_ (fun _ _ hd => hd) (fun _ _ => rfl)
    · simp [State.requests, State.sendClose, State.sendManager, hserver, ServerTask.requests,
        ManagerMessage.request, List.filterMap_cons]
    · exact Multiset.zero_le _
  | unregistered o =>
    refine h.same ?_ ?_ (fun _ _ hd => hd) (fun _ _ => rfl)
    · simp [State.requests, State.sendClose, State.sendManager, hserver, ServerTask.requests,
        ManagerMessage.request, List.filterMap_cons]
    · exact Multiset.zero_le _
  | claimed o d =>
    refine h.same ?_ ?_ (fun _ _ hd => hd) (fun _ _ => rfl)
    · simp only [State.requests, hserver]
      split <;> rfl
    · simp only [hserver]
      split
      · exact le_refl _
      · exact Multiset.zero_le _
  | guarded o d =>
    -- no other request of the miner is on its way
    have hfree : d ∉ s.requests.map (·.downstreamId) := by
      have hcount := h.once d
      simp only [State.opens, hserver, ServerTask.opens, Multiset.count_add,
        Multiset.count_singleton_self] at hcount
      rw [← Multiset.count_eq_zero]
      omega
    have hsame : State.requests { s.setData d { s.data d with channelId := some o } with
        server := .assigned o d } = s.requests := by
      simp [State.requests, State.setData, hserver, ServerTask.requests]
    refine h.same hsame ?_ (fun _ _ hd => hd) ?_
    · exact Multiset.zero_le _
    · intro e he
      have hne : e ≠ d := by
        rintro rfl
        simp only [State.opens, hsame, ServerTask.opens, add_zero] at he
        exact hfree he
      simp only [State.setData, Function.update_of_ne hne]
  | assigned o d =>
    -- a miner that has a channel does not wait for one
    have hfree : d ∉ s.opens := by
      intro hd
      have hdata := h.waiting d hd
      have hchannel := htasks.assigned o d (Or.inl hserver)
      rw [hdata] at hchannel
      cases hchannel
    have hsame : State.requests { s.setData d { s.data d with opening := false } with
        server := .queueTaken o d } = s.requests := by
      simp [State.requests, State.setData, hserver, ServerTask.requests]
    refine h.same hsame ?_ (fun _ _ hd => hd) ?_
    · exact Multiset.zero_le _
    · intro e he
      have hne : e ≠ d := by
        rintro rfl
        refine hfree ?_
        simp only [State.opens, hsame, ServerTask.opens, add_zero] at he
        exact Multiset.mem_add.mpr (Or.inl he)
      simp only [State.setData, Function.update_of_ne hne]
  | queueTaken o d =>
    refine h.same ?_ (Multiset.zero_le _) (fun _ _ hd => hd) (fun _ _ => rfl)
    simp [State.requests, hserver, ServerTask.requests]

theorem cleanupStep_requests (h : RequestsInv s) (c : DownstreamId × Cleanup) :
    RequestsInv (s.cleanupStep c) := by
  obtain ⟨d, p⟩ := c
  cases p with
  | started =>
    simp only [State.cleanupStep]
    split
    · exact h
    · exact h.same rfl (le_refl _) (fun _ _ hd => hd) (fun _ _ => rfl)
  | removed present =>
    refine h.same rfl (le_refl _) ?_ (fun _ _ => rfl)
    intro r e he
    exact (KeyMap.lookup_retain_some he)
  | retained => exact h.same rfl (le_refl _) (fun _ _ hd => hd) (fun _ _ => rfl)
  | channelRead o => exact h.same rfl (le_refl _) (fun _ _ hd => hd) (fun _ _ => rfl)
  | unrouted o =>
    refine h.same ?_ (le_refl _) (fun _ _ hd => hd) (fun _ _ => rfl)
    simp [State.cleanupStep, State.requests, State.sendClose, State.sendManager, State.moveCleanup,
      ManagerMessage.request, List.filterMap_cons]

/-! ## Channels pass from hand to hand -/

/-- What the step lets go of is closed, and nothing else. -/
structure Conserved (s s' : State) : Prop where
  openings : s'.openings = s.openings
  live : s'.live = s.live
  closed : s'.held + (↑s'.closed : Multiset Opening) = s.held + ↑s.closed
  closing : s'.held + s'.closing = s.held + s.closing

theorem Conserved.of_held (hopenings : s'.openings = s.openings) (hlive : s'.live = s.live)
    (hclosed : s'.closed = s.closed) (hclosing : s'.closing = s.closing) (hheld : s'.held = s.held) :
    Conserved s s' :=
  ⟨hopenings, hlive, by rw [hheld, hclosed], by rw [hheld, hclosing]⟩

/-- The server task goes on with what it holds. -/
theorem Conserved.of_holds (hopenings : s'.openings = s.openings) (hlive : s'.live = s.live)
    (hclosed : s'.closed = s.closed) (hclosing : s'.closing = s.closing)
    (hroutable : s'.routable = s.routable) (hqueue : s'.toServer = s.toServer)
    (hcleanups : s'.cleanups = s.cleanups) (hholds : s'.server.holds = s.server.holds) :
    Conserved s s' := by
  refine .of_held hopenings hlive hclosed hclosing ?_
  unfold State.held State.unroutable
  rw [hroutable, hqueue, hcleanups, hholds]

/-- A channel leaves a hand, and its close is sent. -/
theorem Conserved.of_sendClose {t : State} {o : Opening} (hopenings : t.openings = s.openings)
    (hlive : t.live = s.live) (hclosed : t.closed = s.closed) (hsent : t.toManager = s.toManager)
    (hheld : t.held + {o} = s.held) : Conserved s (t.sendClose o) := by
  have hsame : (t.sendClose o).held = t.held := rfl
  refine ⟨hopenings, hlive, ?_, ?_⟩
  · rw [hsame, ← hheld]
    simp only [State.sendClose, State.sendManager, hclosed, ← Multiset.coe_add, Multiset.coe_singleton]
    ac_rfl
  · rw [hsame, ← hheld]
    simp only [State.sendClose, State.sendManager, State.closing, hsent, List.filterMap_append,
      List.filterMap_cons, List.filterMap_nil, ManagerMessage.closing, ← Multiset.coe_add,
      Multiset.coe_singleton]
    ac_rfl

/-- The data of a registered miner are written; no call that cleans up has removed its entry. -/
theorem routable_setData (h : TasksInv s) {d : DownstreamId} (hd : d ∈ s.downstreams)
    (x : DownstreamData) :
    (s.setData d x).routable + (↑(s.data d).channelId.toList : Multiset Opening) =
      s.routable + ↑x.channelId.toList := by
  have hcleanups : (s.cleanups.map fun c => c.2.routable ((s.setData d x).data c.1)) =
      s.cleanups.map fun c => c.2.routable (s.data c.1) := by
    refine List.map_congr_left ?_
    rintro ⟨e, p⟩ hc
    by_cases hp : p = .started
    · subst hp
      rfl
    · have hne : e ≠ d := by
        rintro rfl
        exact h.cleanupGone _ hc hp hd
      simp only [State.setData, Function.update_of_ne hne]
  have hothers : ∑ e ∈ s.downstreams.erase d,
      (↑((s.setData d x).data e).channelId.toList : Multiset Opening) =
        ∑ e ∈ s.downstreams.erase d, (↑(s.data e).channelId.toList : Multiset Opening) := by
    refine Finset.sum_congr rfl ?_
    intro e he
    simp only [State.setData, Function.update_of_ne (Finset.ne_of_mem_erase he)]
  have hself : (s.setData d x).data d = x := Function.update_self _ _ _
  unfold State.routable
  rw [show (s.setData d x).downstreams = s.downstreams from rfl,
    show (s.setData d x).cleanups = s.cleanups from rfl, hcleanups,
    ← Finset.add_sum_erase _ _ hd, ← Finset.add_sum_erase _ _ hd, hothers, hself]
  ac_rfl

theorem serverStep_conserved (htasks : TasksInv s) (hrequests : RequestsInv s)
    (hunrouted : ∀ o, s.server = .orphaned o → s.channelIdToDownstreamId.lookup o.channelId = none) :
    Conserved s s.serverStep := by
  unfold State.serverStep
  cases hserver : s.server with
  | idle =>
    dsimp only
    split
    · exact .of_held rfl rfl rfl rfl rfl
    next o rest hqueue =>
      refine .of_held rfl rfl rfl rfl ?_
      simp only [State.held, State.unroutable, hserver, hqueue, ServerTask.holds,
        List.filterMap_cons, ServerMessage.opening, ← Multiset.cons_coe, ← Multiset.singleton_add,
        add_zero]
      rw [add_comm ({o} : Multiset Opening)]
      rfl
    next q rest hqueue =>
      refine .of_held rfl rfl rfl rfl ?_
      simp only [State.held, State.unroutable, hserver, hqueue, ServerTask.holds,
        List.filterMap_cons, ServerMessage.opening]
      rfl
  | checking d =>
    refine .of_holds rfl rfl rfl rfl rfl rfl rfl ?_
    dsimp only
    rw [hserver]
    split <;> rfl
  | registering d => exact .of_holds rfl rfl rfl rfl rfl rfl rfl (by rw [hserver]; rfl)
  | registered q =>
    refine .of_holds rfl rfl rfl rfl rfl rfl rfl ?_
    dsimp only
    rw [hserver]
    split <;> rfl
  | forwarding q =>
    refine .of_holds rfl rfl rfl ?_ rfl rfl rfl (by rw [hserver]; rfl)
    simp [State.closing, State.sendManager, ManagerMessage.closing, List.filterMap_cons]
  | withdrawing q => exact .of_holds rfl rfl rfl rfl rfl rfl rfl (by rw [hserver]; rfl)
  | refused q => exact .of_holds rfl rfl rfl rfl rfl rfl rfl (by rw [hserver]; rfl)
  | received o =>
    refine .of_holds rfl rfl rfl rfl rfl rfl rfl ?_
    dsimp only
    rw [hserver]
    split <;> rfl
  | orphaned o =>
    refine .of_holds rfl rfl rfl rfl rfl rfl rfl ?_
    dsimp only
    rw [hserver, hunrouted o hserver]
    rfl
  | orphanUnrouted o =>
    refine Conserved.of_sendClose (t := { s with server := .idle }) rfl rfl rfl rfl ?_
    simp only [State.held, State.unroutable, hserver, ServerTask.holds, add_zero]
    ac_rfl
  | unregistered o =>
    refine Conserved.of_sendClose (t := { s with server := .idle }) rfl rfl rfl rfl ?_
    simp only [State.held, State.unroutable, hserver, ServerTask.holds, add_zero]
    ac_rfl
  | claimed o d =>
    refine .of_holds rfl rfl rfl rfl rfl rfl rfl ?_
    dsimp only
    rw [hserver]
    split <;> rfl
  | guarded o d =>
    -- the channel passes to the miner's data, which had none
    refine .of_held rfl rfl rfl rfl ?_
    have hd := htasks.guarded d (by rw [hserver]; rfl)
    have hdata : s.data d = ⟨none, true⟩ := by
      refine hrequests.waiting d ?_
      simp [State.opens, hserver, ServerTask.opens]
    have hset : (s.setData d { s.data d with channelId := some o }).routable = s.routable + {o} := by
      simpa [hdata] using routable_setData htasks hd { s.data d with channelId := some o }
    simp only [State.held, State.unroutable, hserver, ServerTask.holds, add_zero]
    refine (congrArg (_ + ·) hset).trans ?_
    dsimp only [State.setData]
    ac_rfl
  | assigned o d =>
    refine .of_holds rfl rfl rfl rfl ?_ rfl rfl (by rw [hserver]; rfl)
    have hd := htasks.guarded d (by rw [hserver]; rfl)
    have hset := routable_setData htasks hd { s.data d with opening := false }
    exact add_right_cancel hset
  | queueTaken o d => exact .of_holds rfl rfl rfl rfl rfl rfl rfl (by rw [hserver]; rfl)

/-- What the calls hold when one of them goes on: by what it had and what it has. -/
theorem routable_moveCleanup {c : DownstreamId × Cleanup} (hc : c ∈ s.cleanups)
    (next : Option Cleanup) :
    (s.moveCleanup c next).routable + c.2.routable (s.data c.1) =
      s.routable + next.elim 0 (Cleanup.routable (s.data c.1)) := by
  have hroutable := sum_moveCleanup (fun c => c.2.routable (s.data c.1)) hc next
  simp only [State.routable]
  rw [show (s.moveCleanup c next).data = s.data from rfl,
    show (s.moveCleanup c next).downstreams = s.downstreams from rfl, add_assoc, hroutable, add_assoc]

theorem unroutable_moveCleanup {c : DownstreamId × Cleanup} (hc : c ∈ s.cleanups)
    (next : Option Cleanup) :
    (s.moveCleanup c next).unroutable + c.2.closing =
      s.unroutable + next.elim 0 Cleanup.closing := by
  have hclosing := sum_moveCleanup (fun c => c.2.closing) hc next
  simp only [State.unroutable]
  rw [show (s.moveCleanup c next).toServer = s.toServer from rfl,
    show (s.moveCleanup c next).server = s.server from rfl, add_assoc _ _ c.2.closing, hclosing,
    ← add_assoc]

theorem held_moveCleanup {c : DownstreamId × Cleanup} (hc : c ∈ s.cleanups) (next : Option Cleanup) :
    (s.moveCleanup c next).held + (c.2.closing + c.2.routable (s.data c.1)) =
      s.held + (next.elim 0 Cleanup.closing + next.elim 0 (Cleanup.routable (s.data c.1))) := by
  unfold State.held
  rw [add_add_add_comm, unroutable_moveCleanup hc, routable_moveCleanup hc, add_add_add_comm]

/-- A call goes on with what it holds. -/
theorem Conserved.of_moveCleanup {c : DownstreamId × Cleanup} (hc : c ∈ s.cleanups)
    {next : Option Cleanup} (h : c.2.closing + c.2.routable (s.data c.1) =
      next.elim 0 Cleanup.closing + next.elim 0 (Cleanup.routable (s.data c.1))) :
    Conserved s (s.moveCleanup c next) := by
  refine .of_held rfl rfl rfl rfl ?_
  have hheld := held_moveCleanup hc next
  rw [h] at hheld
  exact add_right_cancel hheld

/-- The entry of a miner is removed, and what it held passes to the call that removes it. -/
theorem routable_started {d : DownstreamId} (hc : (d, Cleanup.started) ∈ s.cleanups) :
    State.routable { s.moveCleanup (d, .started) (some (.removed (d ∈ s.downstreams))) with
      downstreams := s.downstreams.erase d } = s.routable := by
  have hmoved := routable_moveCleanup hc (some (.removed (d ∈ s.downstreams)))
  by_cases hd : d ∈ s.downstreams
  · simp only [hd, decide_true, Cleanup.routable, Option.elim_some, add_zero] at hmoved ⊢
    have herase : State.routable { s.moveCleanup (d, .started) (some (.removed true)) with
        downstreams := s.downstreams.erase d } + (↑(s.data d).channelId.toList : Multiset Opening) =
          (s.moveCleanup (d, .started) (some (.removed true))).routable := by
      simp only [State.routable]
      rw [show (s.moveCleanup (d, .started) (some (.removed true))).downstreams = s.downstreams from rfl,
        ← Finset.add_sum_erase _ _ hd]
      dsimp only [State.moveCleanup]
      ac_rfl
    rw [hmoved] at herase
    exact add_right_cancel herase
  · simp only [hd, decide_false, Cleanup.routable, Option.elim_some, add_zero] at hmoved ⊢
    rw [Finset.erase_eq_of_notMem hd]
    exact hmoved

theorem unroutable_started {d : DownstreamId} (hc : (d, Cleanup.started) ∈ s.cleanups) :
    State.unroutable { s.moveCleanup (d, .started) (some (.removed (d ∈ s.downstreams))) with
      downstreams := s.downstreams.erase d } = s.unroutable := by
  have hmoved := unroutable_moveCleanup hc (some (.removed (d ∈ s.downstreams)))
  simp only [Cleanup.closing, Option.elim_some, add_zero] at hmoved
  exact hmoved

theorem cleanupStep_conserved {c : DownstreamId × Cleanup} (hc : c ∈ s.cleanups) :
    Conserved s (s.cleanupStep c) := by
  obtain ⟨d, p⟩ := c
  cases p with
  | started =>
    simp only [State.cleanupStep]
    split
    · exact .of_held rfl rfl rfl rfl rfl
    refine .of_held rfl rfl rfl rfl ?_
    exact congrArg₂ (· + ·) (unroutable_started hc) (routable_started hc)
  | removed present =>
    have hmoved : Conserved s (s.moveCleanup (d, .removed present)
        (if present then some .retained else none)) := by
      refine .of_moveCleanup hc ?_
      cases present <;> rfl
    exact ⟨rfl, rfl, hmoved.closed, hmoved.closing⟩
  | retained =>
    refine .of_moveCleanup hc ?_
    dsimp only [Cleanup.closing, Cleanup.routable]
    cases hchannel : (s.data d).channelId with
    | none => rfl
    | some o => rfl
  | channelRead o =>
    have hmoved : Conserved s (s.moveCleanup (d, .channelRead o) (some (.unrouted o))) := by
      refine .of_moveCleanup hc ?_
      simp [Cleanup.closing, Cleanup.routable]
    exact ⟨rfl, rfl, hmoved.closed, hmoved.closing⟩
  | unrouted o =>
    refine .of_sendClose rfl rfl rfl rfl ?_
    simpa [Cleanup.closing, Cleanup.routable] using held_moveCleanup hc none

/-! ## Ids in different hands -/

theorem Inv.liveChannelIds (h : Inv s) : ((s.held + s.closing).map (·.channelId)).Nodup := by
  have hkeys : s.liveOpenings.map (·.channelId) = ↑s.live.keys := by
    simp only [State.liveOpenings, Multiset.map_coe, List.map_map, AList.keys, List.keys]
    refine congrArg _ (List.map_congr_left ?_)
    intro e he
    exact h.liveIds e.1 e.2 ((KeyMap.mem_entries_iff _ _ _).mp he)
  rw [← h.live, hkeys]
  exact AList.keys_nodup s.live

/-- The route of a channel that is about to be closed, or whose close is on the way, is not there:
    the channel of a route is in another hand and has another id. -/
theorem Inv.unrouted (h : Inv s) {o : Opening} (ho : o ∈ s.unroutable + s.closing) :
    s.channelIdToDownstreamId.lookup o.channelId = none := by
  cases hroute : s.channelIdToDownstreamId.lookup o.channelId with
  | none => rfl
  | some d =>
    obtain ⟨o', ho', hid, -⟩ := h.routes _ d hroute
    have hids := h.liveChannelIds
    rw [State.held, add_right_comm, Multiset.map_add, Multiset.nodup_add] at hids
    refine (Multiset.disjoint_left.mp hids.2.2 (Multiset.mem_map_of_mem _ ho) ?_).elim
    rw [Multiset.mem_map]
    exact ⟨o', ho', hid⟩

/-- The channel whose close is on the way is still live. -/
theorem Inv.live_of_closing (h : Inv s) {o : Opening} (ho : o ∈ s.closing) :
    s.live.lookup o.channelId = some o := by
  have hlive : o ∈ s.liveOpenings := by
    rw [h.live, Multiset.mem_add]
    exact Or.inr ho
  simp only [State.liveOpenings, Multiset.mem_coe, List.mem_map] at hlive
  obtain ⟨⟨k, o'⟩, he, rfl⟩ := hlive
  have hk := (KeyMap.mem_entries_iff _ _ _).mp he
  rw [h.liveIds k o' hk]
  exact hk

theorem mem_sum_iff {α : Type} {f : α → Multiset Opening} {l : List α} {o : Opening} :
    o ∈ (l.map f).sum ↔ ∃ a ∈ l, o ∈ f a := by
  induction l with
  | nil => simp
  | cons b l ih => rw [List.map_cons, List.sum_cons, Multiset.mem_add, ih, List.exists_mem_cons_iff]

theorem mem_unroutable_of_holds {o : Opening} (h : o ∈ s.server.holds) : o ∈ s.unroutable := by
  simp only [State.unroutable, Multiset.mem_add]
  exact Or.inl (Or.inr h)

/-! ## Routes -/

theorem RoutesInv.of_le (h : RoutesInv s) (hle : s.routable ≤ s'.routable)
    (hroutes : s'.channelIdToDownstreamId = s.channelIdToDownstreamId) : RoutesInv s' := by
  intro k d hk
  rw [hroutes] at hk
  obtain ⟨o, ho, hid⟩ := h k d hk
  exact ⟨o, Multiset.mem_of_le hle ho, hid⟩

theorem cleanupStep_routes (h : RoutesInv s) {c : DownstreamId × Cleanup} (hc : c ∈ s.cleanups) :
    RoutesInv (s.cleanupStep c) := by
  obtain ⟨d, p⟩ := c
  cases p with
  | started =>
    simp only [State.cleanupStep]
    split
    · exact h
    · exact h.of_le (routable_started hc).ge rfl
  | removed present =>
    have hmoved := routable_moveCleanup hc (if present then some .retained else none)
    have hroutable : (State.cleanupStep s (d, .removed present)).routable = s.routable := by
      cases present with
      | true => exact add_right_cancel hmoved
      | false => exact add_right_cancel hmoved
    exact h.of_le hroutable.ge rfl
  | retained =>
    refine h.of_le ?_ rfl
    have hmoved := routable_moveCleanup hc ((s.data d).channelId.map .channelRead)
    refine (add_right_cancel (hmoved.trans ?_)).ge
    cases hchannel : (s.data d).channelId with
    | none => simp [Cleanup.routable, hchannel]
    | some o => simp [Cleanup.routable, hchannel]
  | channelRead o =>
    have hmoved := routable_moveCleanup hc (some (.unrouted o))
    simp only [Cleanup.routable, Option.elim_some, add_zero] at hmoved
    intro k e hk
    simp only [State.cleanupStep, KeyMap.lookup_erase_eq] at hk
    split at hk
    · cases hk
    next hne =>
      obtain ⟨o', ho', hid, howner⟩ := h k e hk
      rw [← hmoved, Multiset.mem_add, Multiset.mem_singleton] at ho'
      rcases ho' with ho' | rfl
      · exact ⟨o', ho', hid, howner⟩
      · exact absurd hid.symm hne
  | unrouted o =>
    have hmoved := routable_moveCleanup hc none
    simp only [Cleanup.routable, Option.elim_none, add_zero] at hmoved
    have hroutable : (State.cleanupStep s (d, .unrouted o)).routable = s.routable := hmoved
    exact h.of_le hroutable.ge rfl

theorem serverStep_routes (htasks : TasksInv s) (hrequests : RequestsInv s) (h : RoutesInv s) :
    RoutesInv s.serverStep := by
  unfold State.serverStep
  cases hserver : s.server with
  | idle =>
    dsimp only
    split
    · exact h
    · exact h.of_le (le_refl _) rfl
    · exact h.of_le (le_refl _) rfl
  | guarded o d =>
    have hd := htasks.guarded d (by rw [hserver]; rfl)
    have hdata : s.data d = ⟨none, true⟩ := by
      refine hrequests.waiting d ?_
      simp [State.opens, hserver, ServerTask.opens]
    refine h.of_le ?_ rfl
    have hset : (s.setData d { s.data d with channelId := some o }).routable = s.routable + {o} := by
      simpa [hdata] using routable_setData htasks hd { s.data d with channelId := some o }
    exact (Multiset.le_add_right _ _).trans hset.ge
  | assigned o d =>
    have hd := htasks.guarded d (by rw [hserver]; rfl)
    have hset := routable_setData htasks hd { s.data d with opening := false }
    exact h.of_le (add_right_cancel hset).ge rfl
  | queueTaken o d =>
    have hd := htasks.guarded d (by rw [hserver]; rfl)
    have hchannel := htasks.assigned o d (Or.inr hserver)
    intro k e hk
    dsimp only at hk
    rw [KeyMap.lookup_insert_eq] at hk
    split at hk
    next hko =>
      cases hk
      refine ⟨o, ?_, hko.symm, htasks.dataOwner d o hchannel⟩
      simp only [State.routable, Multiset.mem_add, Multiset.mem_sum]
      exact Or.inl ⟨d, hd, by rw [hchannel]; simp⟩
    · exact h k e hk
  | _ => exact h.of_le (le_refl _) rfl

/-! ## Request ids -/

/-- The map has no new entry, and nobody has left its task undone. -/
theorem RegisteredInv.kept (h : RegisteredInv s)
    (hmap : ∀ r d, s'.requestIdToDownstreamId.lookup r = some d →
      s.requestIdToDownstreamId.lookup r = some d)
    (hdownstreams : s.downstreams ⊆ s'.downstreams)
    (hcleanups : ∀ d present, (d, .removed present) ∈ s.cleanups →
      (d, .removed present) ∈ s'.cleanups)
    (hserver : ∀ q, s.server = .registered q ∨ s.server = .withdrawing q →
      s'.server = s.server) : RegisteredInv s' := by
  intro r d hd
  rcases h r d (hmap r d hd) with hreg | ⟨present, hremoved⟩ | htask | htask
  · exact Or.inl (hdownstreams hreg)
  · exact Or.inr (Or.inl ⟨present, hcleanups d present hremoved⟩)
  · exact Or.inr (Or.inr (Or.inl ((hserver _ (Or.inl htask)).trans htask)))
  · exact Or.inr (Or.inr (Or.inr ((hserver _ (Or.inr htask)).trans htask)))

theorem serverStep_registered (h : RegisteredInv s) : RegisteredInv s.serverStep := by
  unfold State.serverStep
  cases hserver : s.server with
  | idle =>
    dsimp only
    split
    · exact h
    · exact h.kept (fun _ _ hd => hd) (Finset.Subset.refl _) (fun _ _ hc => hc) (by simp [hserver])
    · exact h.kept (fun _ _ hd => hd) (Finset.Subset.refl _) (fun _ _ hc => hc) (by simp [hserver])
  | registering d =>
    intro r e he
    dsimp only at he
    rw [KeyMap.lookup_insert_eq] at he
    split at he
    next hr =>
      cases he
      rw [hr]
      exact Or.inr (Or.inr (Or.inl rfl))
    · rcases h r e he with hreg | hremoved | htask | htask
      · exact Or.inl hreg
      · exact Or.inr (Or.inl hremoved)
      · simp [hserver] at htask
      · simp [hserver] at htask
  | registered q =>
    intro r e he
    rcases h r e he with hreg | hremoved | htask | htask
    · exact Or.inl hreg
    · exact Or.inr (Or.inl hremoved)
    · rw [hserver] at htask
      cases htask
      dsimp only
      split
      next hd => exact Or.inl hd
      · exact Or.inr (Or.inr (Or.inr rfl))
    · simp [hserver] at htask
  | withdrawing q =>
    intro r e he
    dsimp only at he
    rw [KeyMap.lookup_erase_eq] at he
    split at he
    · cases he
    next hne =>
      rcases h r e he with hreg | hremoved | htask | htask
      · exact Or.inl hreg
      · exact Or.inr (Or.inl hremoved)
      · simp [hserver] at htask
      · rw [hserver] at htask
        cases htask
        exact absurd rfl hne
  | refused q =>
    exact h.kept (fun _ _ hd => KeyMap.lookup_erase_some hd) (Finset.Subset.refl _)
      (fun _ _ hc => hc) (by simp [hserver])
  | received o =>
    exact h.kept (fun _ _ hd => KeyMap.lookup_erase_some hd) (Finset.Subset.refl _)
      (fun _ _ hc => hc) (by simp [hserver])
  | _ => exact h.kept (fun _ _ hd => hd) (Finset.Subset.refl _) (fun _ _ hc => hc) (by simp [hserver])

/-- A call that goes on keeps the others where they are. -/
theorem mem_moveCleanup_of_ne {c c' : DownstreamId × Cleanup} (h : c' ∈ s.cleanups) (hne : c' ≠ c)
    (next : Option Cleanup) : c' ∈ (s.moveCleanup c next).cleanups := by
  simp only [State.moveCleanup, List.mem_append]
  exact Or.inr ((List.mem_erase_of_ne hne).mpr h)

theorem cleanupStep_registered (h : RegisteredInv s) (c : DownstreamId × Cleanup) :
    RegisteredInv (s.cleanupStep c) := by
  obtain ⟨d, p⟩ := c
  cases p with
  | started =>
    simp only [State.cleanupStep]
    split
    · exact h
    intro r e he
    rcases h r e he with hreg | ⟨present, hremoved⟩ | htask
    · by_cases hne : e = d
      · subst hne
        exact Or.inr (Or.inl ⟨_, by simp [State.moveCleanup]; exact Or.inl rfl⟩)
      · exact Or.inl (Finset.mem_erase.mpr ⟨hne, hreg⟩)
    · exact Or.inr (Or.inl ⟨present, mem_moveCleanup_of_ne hremoved (by simp) _⟩)
    · exact Or.inr (Or.inr htask)
  | removed present =>
    intro r e he
    simp only [State.cleanupStep, KeyMap.lookup_retain, Option.filter_eq_some_iff,
      decide_eq_true_eq] at he
    rcases h r e he.1 with hreg | ⟨present', hremoved⟩ | htask
    · exact Or.inl hreg
    · refine Or.inr (Or.inl ⟨present', mem_moveCleanup_of_ne hremoved ?_ _⟩)
      rintro ⟨⟩
      exact he.2 rfl
    · exact Or.inr (Or.inr htask)
  | retained =>
    exact h.kept (fun _ _ hd => hd) (Finset.Subset.refl _)
      (fun _ _ hc => mem_moveCleanup_of_ne hc (by simp) _) (fun _ _ => rfl)
  | channelRead o =>
    exact h.kept (fun _ _ hd => hd) (Finset.Subset.refl _)
      (fun _ _ hc => mem_moveCleanup_of_ne hc (by simp) _) (fun _ _ => rfl)
  | unrouted o =>
    exact h.kept (fun _ _ hd => hd) (Finset.Subset.refl _)
      (fun _ _ hc => mem_moveCleanup_of_ne hc (by simp) _) (fun _ _ => rfl)

/-! ## Every step -/

/-- A step of the tasks, which passes channels on. -/
theorem Inv.of_conserved (h : Inv s) (hconserved : Conserved s s') (htasks : TasksInv s')
    (hrequests : RequestsInv s') (hregistered : RegisteredInv s') (hroutes : RoutesInv s') :
    Inv s' := by
  refine ⟨htasks, hrequests, hregistered, ?_, ?_, ?_, ?_, ?_, hroutes⟩
  · rw [hconserved.openings, hconserved.closed]
    exact h.opened
  · rw [hconserved.closing, ← h.live]
    unfold State.liveOpenings
    rw [hconserved.live]
  · rw [hconserved.live]
    exact h.liveIds
  · rw [hconserved.openings]
    exact h.serials
  · rw [hconserved.openings]
    exact h.distinct

theorem serverStep_inv (h : Inv s) (hfree : s.drawsFree .server) : Inv s.serverStep := by
  refine h.of_conserved (serverStep_conserved h.tasks h.requests ?_)
    (serverStep_tasks h.tasks h.requests) (serverStep_requests h.tasks h.requests hfree)
    (serverStep_registered h.registered) (serverStep_routes h.tasks h.requests h.routes)
  intro o ho
  refine h.unrouted (Multiset.mem_add.mpr (Or.inl (mem_unroutable_of_holds ?_)))
  rw [ho]
  exact Multiset.mem_singleton_self o

theorem cleanupStep_inv (h : Inv s) {c : DownstreamId × Cleanup} (hc : c ∈ s.cleanups) :
    Inv (s.cleanupStep c) :=
  h.of_conserved (cleanupStep_conserved hc) (cleanupStep_tasks h.tasks hc)
    (cleanupStep_requests h.requests c) (cleanupStep_registered h.registered c)
    (cleanupStep_routes h.routes hc)

theorem connect_inv (h : Inv s) : Inv (step s .connect) := by
  have hdata := h.tasks.fresh s.nextDownstreamId (Nat.le_refl _)
  have hnew : s.nextDownstreamId ∉ s.downstreams := by
    intro hd
    exact absurd (h.tasks.known _ hd) (Nat.lt_irrefl _)
  have hroutable : (step s .connect).routable = s.routable := by
    simp only [State.routable, step, Finset.sum_insert hnew, hdata]
    simp
  refine h.of_conserved (.of_held rfl rfl rfl rfl ?_) ?_ ?_ ?_ (h.routes.of_le hroutable.ge rfl)
  · exact congrArg (s.unroutable + ·) hroutable
  · refine ⟨?_, ?_, ?_, ?_, ?_, h.tasks.assigned, h.tasks.dataOwner, h.tasks.serverOwner,
      h.tasks.cleanupOwner⟩
    · intro d hd
      exact h.tasks.fresh d (Nat.le_of_succ_le hd)
    · intro d hd
      rcases Finset.mem_insert.mp hd with rfl | hd
      · exact Nat.lt_succ_self _
      · exact Nat.lt_succ_of_lt (h.tasks.known d hd)
    · intro c hc
      exact Nat.lt_succ_of_lt (h.tasks.cleanupKnown c hc)
    · intro c hc hstarted hd
      rcases Finset.mem_insert.mp hd with hid | hd
      · exact absurd (h.tasks.cleanupKnown c hc) (by rw [hid]; exact Nat.lt_irrefl _)
      · exact h.tasks.cleanupGone c hc hstarted hd
    · intro d hd
      exact Finset.mem_insert_of_mem (h.tasks.guarded d hd)
  · exact h.requests.same rfl (le_refl _) (fun _ _ hd => hd) (fun _ _ => rfl)
  · exact h.registered.kept (fun _ _ hd => hd) (Finset.subset_insert _ _) (fun _ _ hc => hc)
      (fun _ _ => rfl)

theorem startRequest_inv (h : Inv s) (d : DownstreamId) : Inv (s.startRequest d) := by
  unfold State.startRequest
  split
  next hstart =>
    obtain ⟨hserver, hd, hdata⟩ := hstart
    have hset := routable_setData h.tasks hd ⟨none, true⟩
    rw [hdata] at hset
    have hroutable : State.routable { s.setData d ⟨none, true⟩ with server := .checking d } =
        s.routable := add_right_cancel hset
    refine h.of_conserved (.of_holds rfl rfl rfl rfl hroutable rfl rfl (by rw [hserver]; rfl))
      ?_ ?_ ?_ (h.routes.of_le hroutable.ge rfl)
    · refine h.tasks.wrote hd ⟨none, true⟩ ?_ _ ?_ ?_ ?_ <;> simp [ServerTask.guards]
    · have hsame : State.requests { s.setData d ⟨none, true⟩ with server := .checking d } =
          s.requests := by
        simp [State.requests, State.setData, hserver, ServerTask.requests]
      have hopens : State.opens { s.setData d ⟨none, true⟩ with server := .checking d } =
          s.opens + {d} := by
        simp only [State.opens, hsame, hserver, ServerTask.opens, add_zero]
      have hfree : d ∉ s.opens := by
        intro hin
        rw [h.requests.waiting d hin] at hdata
        cases hdata
      refine ⟨?_, ?_, ?_, ?_⟩
      · rw [hsame]
        exact h.requests.mapped
      · rw [hsame]
        exact h.requests.consistent
      · intro e
        rw [hopens, Multiset.count_add, Multiset.count_singleton]
        split
        next he => rw [he, Multiset.count_eq_zero_of_notMem hfree]
        · exact h.requests.once e
      · intro e he
        rw [hopens, Multiset.mem_add, Multiset.mem_singleton] at he
        by_cases hne : e = d
        · subst hne
          simp [State.setData]
        · simp only [State.setData, Function.update_of_ne hne]
          exact h.requests.waiting e (he.resolve_right hne)
    · exact h.registered.kept (fun _ _ he => he) (Finset.Subset.refl _) (fun _ _ hc => hc)
        (by simp [hserver])
  · exact h

theorem disconnect_inv (h : Inv s) (d : DownstreamId) : Inv (step s (.disconnect d)) := by
  simp only [step]
  split
  next hd =>
    have hroutable : State.routable { s with cleanups := (d, .started) :: s.cleanups } =
        s.routable := by
      simp [State.routable, Cleanup.routable]
    refine h.of_conserved (.of_held rfl rfl rfl rfl ?_) ?_ ?_ ?_ (h.routes.of_le hroutable.ge rfl)
    · refine congrArg₂ (· + ·) ?_ hroutable
      simp [State.unroutable, Cleanup.closing]
    · refine ⟨h.tasks.fresh, h.tasks.known, ?_, ?_, h.tasks.guarded, h.tasks.assigned,
        h.tasks.dataOwner, h.tasks.serverOwner, ?_⟩
      · intro c hc
        rcases List.mem_cons.mp hc with rfl | hc
        · exact hd
        · exact h.tasks.cleanupKnown c hc
      · intro c hc hstarted
        rcases List.mem_cons.mp hc with rfl | hc
        · exact absurd rfl hstarted
        · exact h.tasks.cleanupGone c hc hstarted
      · intro c hc o ho
        rcases List.mem_cons.mp hc with rfl | hc
        · simp at ho
        · exact h.tasks.cleanupOwner c hc o ho
    · exact h.requests.same rfl (le_refl _) (fun _ _ he => he) (fun _ _ => rfl)
    · exact h.registered.kept (fun _ _ he => he) (Finset.Subset.refl _)
        (fun _ _ hc => List.mem_cons_of_mem _ hc) (fun _ _ => rfl)
  · exact h

theorem managerReceive_inv (h : Inv s) : Inv s.managerReceive := by
  unfold State.managerReceive
  split
  · exact h
  next q rest hqueue =>
    refine h.of_conserved (.of_held rfl rfl rfl ?_ rfl) ?_ ?_ ?_ h.routes
    · simp [State.closing, hqueue, ManagerMessage.closing, List.filterMap_cons]
    · exact h.tasks.served rfl rfl rfl rfl h.tasks.guarded h.tasks.assigned h.tasks.serverOwner
    · refine h.requests.same ?_ (le_refl _) (fun _ _ hd => hd) (fun _ _ => rfl)
      simp only [State.requests, hqueue, List.filterMap_cons, ManagerMessage.request,
        ← Multiset.cons_coe, ← Multiset.singleton_add]
      ac_rfl
    · exact h.registered.kept (fun _ _ hd => hd) (Finset.Subset.refl _) (fun _ _ hc => hc)
        (fun _ _ => rfl)
  next o rest hqueue =>
    have hlive := h.live_of_closing (o := o) (by simp [State.closing, hqueue, ManagerMessage.closing])
    refine ⟨?_, ?_, ?_, h.opened, ?_, ?_, h.serials, h.distinct, h.routes⟩
    · exact h.tasks.served rfl rfl rfl rfl h.tasks.guarded h.tasks.assigned h.tasks.serverOwner
    · refine h.requests.same ?_ (le_refl _) (fun _ _ hd => hd) (fun _ _ => rfl)
      simp [State.requests, hqueue, ManagerMessage.request, List.filterMap_cons]
    · exact h.registered.kept (fun _ _ hd => hd) (Finset.Subset.refl _) (fun _ _ hc => hc)
        (fun _ _ => rfl)
    · have hperm := (KeyMap.entries_perm_erase hlive).map (·.2)
      have hold := h.live
      simp only [State.liveOpenings, Multiset.coe_eq_coe.mpr hperm, State.closing, hqueue,
        ManagerMessage.closing, List.filterMap_cons, List.map_cons, ← Multiset.cons_coe,
        Multiset.add_cons] at hold
      exact Multiset.cons_inj_right _ |>.mp hold
    · intro k o' hk
      exact h.liveIds k o' (KeyMap.lookup_erase_some hk)

theorem managerRefuse_inv (h : Inv s) (q : Request) : Inv (s.managerRefuse q) := by
  unfold State.managerRefuse
  split
  next hq =>
    refine h.of_conserved (.of_held rfl rfl rfl rfl ?_) ?_ ?_ ?_ h.routes
    · simp [State.held, State.unroutable, State.sendServer, ServerMessage.opening,
        List.filterMap_cons, State.routable]
    · exact h.tasks.served rfl rfl rfl rfl h.tasks.guarded h.tasks.assigned h.tasks.serverOwner
    · refine h.requests.same ?_ (le_refl _) (fun _ _ hd => hd) (fun _ _ => rfl)
      have hpending : (↑s.pending : Multiset Request) = {q} + ↑(s.pending.erase q) :=
        Multiset.coe_eq_coe.mpr (List.perm_cons_erase hq)
      simp only [State.requests, State.sendServer, List.map_append, List.map_cons, List.map_nil,
        ServerMessage.request, ← Multiset.coe_add, Multiset.coe_singleton, hpending]
      ac_rfl
    · exact h.registered.kept (fun _ _ hd => hd) (Finset.Subset.refl _) (fun _ _ hc => hc)
        (fun _ _ => rfl)
  · exact h

theorem managerOpen_inv (h : Inv s) (q : Request) (channelId : ChannelId) :
    Inv (s.managerOpen q channelId) := by
  unfold State.managerOpen
  split
  next hopen =>
    obtain ⟨hq, hfree⟩ := hopen
    have hnew : (⟨channelId, q, s.openings.length⟩ : Opening) ∉ s.openings := by
      intro hin
      exact absurd (h.serials _ hin) (Nat.lt_irrefl _)
    dsimp only
    generalize ho : (⟨channelId, q, s.openings.length⟩ : Opening) = o at hnew ⊢
    have hheld : State.held { s.sendServer (.openExtendedMiningChannelSuccess o) with
        pending := s.pending.erase q
        live := s.live.insert channelId o
        openings := s.openings ++ [o] } = {o} + s.held := by
      simp only [State.held, State.unroutable, State.sendServer, State.routable,
        List.filterMap_append, List.filterMap_cons, List.filterMap_nil, ServerMessage.opening,
        ← Multiset.coe_add, Multiset.coe_singleton]
      ac_rfl
    refine ⟨?_, ?_, ?_, ?_, ?_, ?_, ?_, ?_, h.routes⟩
    · exact h.tasks.served rfl rfl rfl rfl h.tasks.guarded h.tasks.assigned h.tasks.serverOwner
    · refine h.requests.same ?_ (le_refl _) (fun _ _ hd => hd) (fun _ _ => rfl)
      have hpending : (↑s.pending : Multiset Request) = {q} + ↑(s.pending.erase q) :=
        Multiset.coe_eq_coe.mpr (List.perm_cons_erase hq)
      have hrequest : o.request = q := by rw [← ho]
      simp only [State.requests, State.sendServer, List.map_append, List.map_cons, List.map_nil,
        ServerMessage.request, ← Multiset.coe_add, Multiset.coe_singleton, hpending, hrequest]
      ac_rfl
    · exact h.registered.kept (fun _ _ hd => hd) (Finset.Subset.refl _) (fun _ _ hc => hc)
        (fun _ _ => rfl)
    · rw [hheld, add_assoc]
      dsimp only [State.sendServer]
      rw [← h.opened, ← Multiset.coe_add, Multiset.coe_singleton, add_comm]
    · rw [hheld, add_assoc]
      have hentries := AList.entries_insert_of_notMem (b := o) (AList.lookup_eq_none.mp hfree)
      simp only [State.liveOpenings, hentries, List.map_cons, ← Multiset.cons_coe]
      exact congrArg ({o} + ·) h.live
    · intro k o' hk
      dsimp only at hk
      rw [KeyMap.lookup_insert_eq] at hk
      split at hk
      next hk' =>
        cases hk
        rw [← ho, hk']
      · exact h.liveIds k o' hk
    · intro o' ho'
      rw [List.length_append]
      rcases List.mem_append.mp ho' with ho' | ho'
      · exact Nat.lt_succ_of_lt (h.serials o' ho')
      · rw [List.mem_singleton.mp ho', ← ho]
        exact Nat.lt_succ_self _
    · refine List.nodup_append.mpr ⟨h.distinct, List.nodup_singleton o, ?_⟩
      rintro a ha b hb rfl
      exact hnew (List.mem_singleton.mp hb ▸ ha)
  · exact h

theorem inv_start : Inv start := by
  refine ⟨?_, ?_, ?_, rfl, rfl, ?_, ?_, List.nodup_nil, ?_⟩
  · refine ⟨fun _ _ => rfl, ?_, ?_, ?_, ?_, ?_, ?_, ?_, ?_⟩ <;> simp [start, ServerTask.guards]
  · have hrequests : start.requests = 0 := rfl
    have hopens : start.opens = 0 := rfl
    refine ⟨?_, ?_, ?_, ?_⟩
    · simp [start]
    · simp [hrequests]
    · simp [hopens]
    · simp [hopens]
  · simp [RegisteredInv, start]
  · simp [start]
  · simp [start]
  · simp [RoutesInv, start]

theorem step_inv (h : Inv s) {a : Action} (hfree : s.drawsFree a) : Inv (step s a) := by
  cases a with
  | connect => exact connect_inv h
  | startRequest d => exact startRequest_inv h d
  | server => exact serverStep_inv h hfree
  | disconnect d => exact disconnect_inv h d
  | cleanup c =>
    simp only [step]
    split
    next hc => exact cleanupStep_inv h hc
    · exact h
  | managerReceive => exact managerReceive_inv h
  | managerOpen q channelId => exact managerOpen_inv h q channelId
  | managerRefuse q => exact managerRefuse_inv h q

/-- No id is drawn while a request with it is unanswered. -/
def DrawsFree (as : List Action) : Prop := Runs.Guarded step State.drawsFree start as

theorem after_inv {as : List Action} (hfree : DrawsFree as) : Inv (after as) :=
  Runs.run_invariant_of_guarded Inv (fun _ _ h hok => step_inv h hok) inv_start as hfree

/-! ## Who has gone -/

/-- The miner that the server task is busy with. -/
def ServerTask.downstreamId : ServerTask → Option DownstreamId
  | .idle => none
  | .checking d | .registering d => some d
  | .registered q | .forwarding q | .withdrawing q | .refused q => some q.downstreamId
  | .received o | .orphaned o | .orphanUnrouted o | .claimed o _ | .guarded o _ | .assigned o _
  | .queueTaken o _ | .unregistered o => some o.request.downstreamId

/-- The miner is not registered, and neither the server task nor a call that cleans up is busy
    with it. -/
structure Gone (s : State) (d : DownstreamId) : Prop where
  removed : d ∉ s.downstreams
  cleaned : ∀ c ∈ s.cleanups, c.1 ≠ d
  served : s.server.downstreamId ≠ some d

theorem ServerTask.downstreamId_of_holds {task : ServerTask} {o : Opening} (h : o ∈ task.holds) :
    task.downstreamId = some o.request.downstreamId := by
  cases task <;> simp_all [ServerTask.holds, ServerTask.downstreamId]

theorem TasksInv.of_mem_routable (h : TasksInv s) {o : Opening} (ho : o ∈ s.routable) :
    o.request.downstreamId ∈ s.downstreams ∨ ∃ c ∈ s.cleanups, c.1 = o.request.downstreamId := by
  simp only [State.routable, Multiset.mem_add, Multiset.mem_sum, Multiset.mem_coe,
    Option.mem_toList, mem_sum_iff] at ho
  rcases ho with ⟨d, hd, hdata⟩ | ⟨c, hc, hroutable⟩
  · rw [h.dataOwner d o hdata]
    exact Or.inl hd
  refine Or.inr ⟨c, hc, ?_⟩
  obtain ⟨d, p⟩ := c
  cases p with
  | removed present =>
    cases present with
    | true =>
      simp only [Cleanup.routable, Multiset.mem_coe, Option.mem_toList] at hroutable
      exact (h.dataOwner d o hroutable).symm
    | false => simp [Cleanup.routable] at hroutable
  | retained =>
    simp only [Cleanup.routable, Multiset.mem_coe, Option.mem_toList] at hroutable
    exact (h.dataOwner d o hroutable).symm
  | channelRead o' =>
    simp only [Cleanup.routable, Multiset.mem_singleton] at hroutable
    rw [hroutable]
    exact (h.cleanupOwner _ hc o' (Or.inl rfl)).symm
  | started => simp [Cleanup.routable] at hroutable
  | unrouted o' => simp [Cleanup.routable] at hroutable

/-- A channel of a miner that has gone is in nobody's hand, unless its success is still queued. -/
theorem Inv.notMem_held (h : Inv s) {d : DownstreamId} (hgone : Gone s d) {o : Opening}
    (howner : o.request.downstreamId = d)
    (hqueue : .openExtendedMiningChannelSuccess o ∉ s.toServer) : o ∉ s.held := by
  intro ho
  simp only [State.held, State.unroutable, Multiset.mem_add] at ho
  rcases ho with ((hsuccess | hserver) | hclosing) | hroutable
  · simp only [Multiset.mem_coe, List.mem_filterMap] at hsuccess
    obtain ⟨m, hm, hopening⟩ := hsuccess
    cases m with
    | openExtendedMiningChannelSuccess o' =>
      cases hopening
      exact hqueue hm
    | openMiningChannelError q => cases hopening
  · exact hgone.served (by rw [ServerTask.downstreamId_of_holds hserver, howner])
  · obtain ⟨⟨e, p⟩, hc, ho⟩ := mem_sum_iff.mp hclosing
    cases p with
    | unrouted o' =>
      simp only [Cleanup.closing, Multiset.mem_singleton] at ho
      subst ho
      exact hgone.cleaned _ hc ((h.tasks.cleanupOwner _ hc o (Or.inr rfl)).symm.trans howner)
    | _ => simp [Cleanup.closing] at ho
  · rcases h.tasks.of_mem_routable hroutable with hreg | ⟨c, hc, hid⟩
    · exact hgone.removed (howner ▸ hreg)
    · exact hgone.cleaned c hc (hid.trans howner)

theorem Inv.count_closed (h : Inv s) {o : Opening} (ho : o ∈ s.openings) :
    s.held.count o + s.closed.count o = 1 := by
  have hcount := congrArg (Multiset.count o) h.opened
  rw [Multiset.count_add, Multiset.coe_count, Multiset.coe_count,
    List.count_eq_one_of_mem h.distinct ho] at hcount
  exact hcount.symm

/-! ## Closed exactly once -/

theorem closed_exactly_once (as : List Action) (hfree : DrawsFree as) :
    (∀ d, Gone (after as) d →
      (∀ o ∈ (after as).openings, o.request.downstreamId = d →
        .openExtendedMiningChannelSuccess o ∉ (after as).toServer →
          (after as).closed.count o = 1) ∧
      (∀ k, (after as).channelIdToDownstreamId.lookup k ≠ some d) ∧
      (∀ r, (after as).requestIdToDownstreamId.lookup r ≠ some d)) ∧
    (∀ o ∈ (after as).closed, o ∈ (after as).openings ∧ (after as).closed.count o = 1) ∧
    (∀ o, .closeChannel o ∈ (after as).toManager →
      (after as).live.lookup o.channelId = some o ∧
        (after as).channelIdToDownstreamId.lookup o.channelId = none) := by
  have h := after_inv hfree
  refine ⟨?_, ?_, ?_⟩
  · intro d hgone
    refine ⟨?_, ?_, ?_⟩
    · intro o ho howner hqueue
      have hcount := h.count_closed ho
      rw [Multiset.count_eq_zero_of_notMem (h.notMem_held hgone howner hqueue)] at hcount
      omega
    · intro k hk
      obtain ⟨o, ho, -, howner⟩ := h.routes k d hk
      rcases h.tasks.of_mem_routable ho with hreg | ⟨c, hc, hid⟩
      · exact hgone.removed (howner ▸ hreg)
      · exact hgone.cleaned c hc (hid.trans howner)
    · intro r hr
      rcases h.registered r d hr with hreg | ⟨present, hremoved⟩ | htask | htask
      · exact hgone.removed hreg
      · exact hgone.cleaned _ hremoved rfl
      · exact hgone.served (by rw [htask]; rfl)
      · exact hgone.served (by rw [htask]; rfl)
  · intro o ho
    have hin : o ∈ (after as).openings := by
      rw [← Multiset.mem_coe, h.opened, Multiset.mem_add]
      exact Or.inr ho
    have hcount := h.count_closed hin
    have hpos := List.count_pos_iff.mpr ho
    exact ⟨hin, by omega⟩
  · intro o ho
    have hclosing : o ∈ (after as).closing := by
      simp only [State.closing, Multiset.mem_coe, List.mem_filterMap]
      exact ⟨_, ho, rfl⟩
    exact ⟨h.live_of_closing hclosing, h.unrouted (Multiset.mem_add.mpr (Or.inr hclosing))⟩

/-- A miner disconnects while its channel is being opened, after the server has found it. -/
theorem closed_exactly_once_raced :
    let o : Opening := ⟨1, ⟨1, 1⟩, 0⟩
    (after [.connect, .startRequest 1, .server, .server, .server, .server, .managerReceive,
      .managerOpen ⟨1, 1⟩ 1, .server, .server, .disconnect 1, .cleanup (1, .started), .server,
      .cleanup (1, .removed true), .cleanup (1, .retained), .server]).closed.count o = 1 := by
  intro o
  refine ((closed_exactly_once _ ?_).1 1 ⟨?_, ?_, ?_⟩).1 o ?_ ?_ ?_
  · unfold DrawsFree
    decide +kernel
  all_goals decide +kernel

end Sv2Apps.Translator.DownstreamLifecycle
