/-
  Translator/MinerMaps.lean
  =========================
  **What is left of a miner that is gone** — the maps of the `Sv1Server` that name a miner or its
  channel, over any interleaving of the server task with calls of `handle_downstream_disconnect`.

  A call removes from one map after the other.  Each map has its place in that order
  (`Cleanup.stage`), and an entry for a miner is covered as long as a call for the miner has still
  to come to that place, or none has been made (`Ahead`).  The server task adds to a map only for a
  miner that is covered there, with two exceptions.  The entry in `vardiff` is made outside the
  guard of the registration; if the miner has gone by then, the replay that comes next fails and
  covers it.  The history of a channel is removed by no call: that goes into the condition on a
  step (`tidy`), and the runs that keep to it leave nothing behind (`nothing_outlives`).
-/
import Sv2Apps.Translator.Sv1Server
import Sv2Apps.Lib.Runs

namespace Sv2Apps.Translator

open Bitcoin

namespace Sv1Server

/-! ## The property -/

/-- The miner that the server task works for. -/
def Task.serves : Task → Option DownstreamId
  | .idle | .orphaned _ | .closing _ | .storing _ _ _ | .keptAlive _ => none
  | .queueing d _ | .checking d | .registering d | .registered _ d | .forwarding _ d
  | .withdrawing _ d | .claimed _ d | .guarded _ d | .assigned _ d | .queueTaken _ d _
  | .opened d _ | .replaying d _ | .retargeting d _ | .clearing _ d | .adjusting d _ _ => some d

/-- A call of `handle_downstream_disconnect` has returned, and nothing runs for the miner. -/
structure Gone (s : Sv1Server) (d : DownstreamId) : Prop where
  returned : d ∈ s.disconnected
  noCall : ∀ k ∈ s.cleanups, k.1 ≠ d
  noTask : s.task.serves ≠ some d

/-- No map has an entry for the miner. -/
structure Forgotten (s : Sv1Server) (d : DownstreamId) : Prop where
  downstreams : d ∉ s.downstreams
  sender : d ∉ s.sv1ServerToDownstreamSender
  requests : ∀ r, s.requestIdToDownstreamId.lookup r ≠ some d
  channels : ∀ c, s.channelIdToDownstreamId.lookup c ≠ some d
  vardiff : d ∉ s.vardiff
  pendingTarget : s.pendingTargetUpdates.lookup d = none

/-- A channel that is opened with this id starts without prev-hash and without jobs. -/
structure Fresh (s : Sv1Server) (c : ChannelId) : Prop where
  prevhash : s.prevhashes.lookup c = none
  jobs : s.validSv1Jobs.lookup c = none

/-- Nothing is left of the miners that are gone, nor of the channels that are nobody's. -/
structure NothingLeft (s : Sv1Server) : Prop where
  miners : ∀ d, s.Gone d → s.Forgotten d
  channels : ∀ c, s.channelIdToDownstreamId.lookup c = none → s.Fresh c

/-- How far a call of `handle_downstream_disconnect` has come. -/
def Cleanup.stage : Cleanup → Nat
  | .started => 0
  | .vardiffRemoved => 1
  | .targetsRemoved => 2
  | .senderRemoved => 3
  | .removed _ => 4
  | .retained => 5
  | .channelRead _ => 6
  | .unrouted _ => 7

/-- A call for the miner has not come past the stage, or none has been made. -/
def Ahead (s : Sv1Server) (n : Nat) (d : DownstreamId) : Prop :=
  (∃ k ∈ s.cleanups, k.1 = d ∧ k.2.stage ≤ n) ∨
    (d ∉ s.disconnected ∧ ∀ k ∈ s.cleanups, k.1 ≠ d)

/-- The condition on a step: a prev-hash comes on a channel that has a miner, and a channel loses
    its miner before its first prev-hash. -/
def tidy (s : Sv1Server) : Action → Prop
  | .upstreamMessage m =>
    match s.task, m with
    | .idle, .setNewPrevHash m => s.channelIdToDownstreamId.lookup m.channelId ≠ none
    | .idle, .closeChannel c =>
      s.channelIdToDownstreamId.lookup c = none ∨ s.prevhashes.lookup c = none
    | _, _ => True
  | .cleanup k =>
    match k.2 with
    | .channelRead c => k ∈ s.cleanups → s.prevhashes.lookup c = none
    | _ => True
  | _ => True

instance : LawfulBEq (DownstreamId × Cleanup) := inferInstance

instance (s : Sv1Server) (a : Action) : Decidable (tidy s a) := by
  cases a with
  | upstreamMessage m =>
    unfold tidy
    dsimp only
    split <;> infer_instance
  | cleanup k =>
    unfold tidy
    dsimp only
    split <;> infer_instance
  | _ => exact isTrue trivial

/-! ## The calls -/

section Ahead

variable {cfg : Sv1Config} {s t : Sv1Server} {n m : Nat} {d : DownstreamId}
  {k : DownstreamId × Cleanup}

theorem Ahead.mono (h : s.Ahead n d) (hle : n ≤ m) : s.Ahead m d := by
  rcases h with ⟨k, hk, hd, hn⟩ | h
  · exact Or.inl ⟨k, hk, hd, Nat.le_trans hn hle⟩
  · exact Or.inr h

/-- Only the calls matter. -/
theorem Ahead.congr (h : s.Ahead n d) (hcleanups : t.cleanups = s.cleanups)
    (hdisconnected : t.disconnected = s.disconnected) : t.Ahead n d := by
  unfold Ahead
  rw [hcleanups, hdisconnected]
  exact h

theorem Gone.not_ahead (h : s.Gone d) : ¬s.Ahead n d := by
  rintro (⟨k, hk, hd, -⟩ | ⟨hd, -⟩)
  · exact h.noCall k hk hd
  · exact hd h.returned

/-- A call goes on, but not past the stage. -/
theorem Ahead.moveCleanup (h : s.Ahead n d) (hk : k ∈ s.cleanups) {next : Cleanup}
    (hnext : k.1 = d → k.2.stage ≤ n → next.stage ≤ n) : (s.moveCleanup k next).Ahead n d := by
  rcases h with ⟨k', hk', hd, hn⟩ | ⟨hd, hno⟩
  · refine Or.inl ?_
    by_cases heq : k' = k
    · subst heq
      exact ⟨(k'.1, next), List.mem_cons_self, hd, hnext hd hn⟩
    · exact ⟨k', List.mem_cons_of_mem _ ((List.mem_erase_of_ne heq).mpr hk'), hd, hn⟩
  · refine Or.inr ⟨hd, ?_⟩
    intro k' hk'
    rcases List.mem_cons.mp hk' with rfl | hk'
    · exact hno k hk
    · exact hno k' (List.mem_of_mem_erase hk')

/-- A call returns, but after the stage. -/
theorem Ahead.endCleanup (h : s.Ahead n d) (hk : k ∈ s.cleanups)
    (hlate : k.1 = d → n < k.2.stage) : (s.endCleanup k).Ahead n d := by
  rcases h with ⟨k', hk', hd, hn⟩ | ⟨hd, hno⟩
  · refine Or.inl ⟨k', (List.mem_erase_of_ne ?_).mpr hk', hd, hn⟩
    rintro rfl
    exact absurd hn (Nat.not_le.mpr (hlate hd))
  · refine Or.inr ⟨?_, ?_⟩
    · intro hmem
      rcases Finset.mem_insert.mp hmem with heq | hmem
      · exact hno k hk heq.symm
      · exact hd hmem
    · intro k' hk'
      exact hno k' (List.mem_of_mem_erase hk')

/-- A step of a call, other than the removal of the stage, leaves the removal ahead. -/
theorem Ahead.cleanupStep (h : s.Ahead n d) (hk : k ∈ s.cleanups) (hle : n ≤ 4)
    (hstage : k.1 = d → k.2.stage ≠ n) (hvardiff : n < 2 → cfg.enableVardiff = true) :
    (cleanupStep cfg s k).Ahead n d := by
  have hmove : ∀ next : Cleanup, next.stage ≤ k.2.stage + 1 → (s.moveCleanup k next).Ahead n d := by
    intro next hnext
    refine h.moveCleanup hk ?_
    intro hd hn
    have hne := hstage hd
    omega
  obtain ⟨e, at_⟩ := k
  unfold Sv1Server.cleanupStep
  cases at_ with
  | started =>
    dsimp only
    split
    next hv =>
      split
      · exact h
      · exact (hmove .vardiffRemoved (Nat.le_refl 1)).congr rfl rfl
    next hv =>
      refine h.moveCleanup hk ?_
      intro _ _
      by_contra hlt
      exact hv (hvardiff (Nat.not_le.mp hlt))
  | vardiffRemoved => exact (hmove .targetsRemoved (Nat.le_refl 2)).congr rfl rfl
  | targetsRemoved => exact (hmove .senderRemoved (Nat.le_refl 3)).congr rfl rfl
  | senderRemoved =>
    dsimp only
    split
    · exact h
    · exact (hmove (.removed (decide (e ∈ s.downstreams))) (Nat.le_refl 4)).congr rfl rfl
  | removed present =>
    have hlate : e = d → n < 4 := by
      intro hd
      exact Nat.lt_of_le_of_ne hle fun heq => hstage hd heq.symm
    cases present with
    | true => exact (hmove .retained (Nat.le_refl 5)).congr rfl rfl
    | false => exact (h.endCleanup hk hlate).congr rfl rfl
  | retained =>
    dsimp only
    split
    next c _ => exact hmove (.channelRead c) (Nat.le_refl 6)
    · exact h.endCleanup hk fun _ => Nat.lt_of_le_of_lt hle (Nat.lt_succ_self 4)
  | channelRead c => exact (hmove (.unrouted c) (Nat.le_refl 7)).congr rfl rfl
  | unrouted c =>
    have hlate : n < 7 := by omega
    exact (h.endCleanup hk fun _ => hlate).congr rfl rfl

end Ahead

/-! ## A step of a call -/

/-- A call removes, and touches nothing else. -/
structure Shrinks (s t : Sv1Server) : Prop where
  task : t.task = s.task
  factory : t.downstreamIdFactory = s.downstreamIdFactory
  data : t.downstreamData = s.downstreamData
  closed : t.closed = s.closed
  prevhashes : t.prevhashes = s.prevhashes
  jobs : t.validSv1Jobs = s.validSv1Jobs
  downstreams : t.downstreams ⊆ s.downstreams
  sender : t.sv1ServerToDownstreamSender ⊆ s.sv1ServerToDownstreamSender
  vardiff : t.vardiff ⊆ s.vardiff
  pending : ∀ d target, t.pendingTargetUpdates.lookup d = some target →
    s.pendingTargetUpdates.lookup d = some target
  requests : ∀ r d, t.requestIdToDownstreamId.lookup r = some d →
    s.requestIdToDownstreamId.lookup r = some d
  routes : ∀ c d, t.channelIdToDownstreamId.lookup c = some d →
    s.channelIdToDownstreamId.lookup c = some d
  disconnected : ∀ d ∈ t.disconnected, d ∈ s.disconnected ∨ ∃ k ∈ s.cleanups, k.1 = d
  cleanups : ∀ k ∈ t.cleanups, ∃ k' ∈ s.cleanups, k'.1 = k.1

section CleanupStep

variable {cfg : Sv1Config} {s : Sv1Server} {d : DownstreamId} {k : DownstreamId × Cleanup}

theorem shrinks_moveCleanup (hk : k ∈ s.cleanups) (next : Cleanup) :
    Shrinks s (s.moveCleanup k next) := by
  refine ⟨rfl, rfl, rfl, rfl, rfl, rfl, subset_rfl, subset_rfl, subset_rfl, fun _ _ h => h,
    fun _ _ h => h, fun _ _ h => h, fun _ h => Or.inl h, ?_⟩
  intro k' hk'
  rcases List.mem_cons.mp hk' with rfl | hk'
  · exact ⟨k, hk, rfl⟩
  · exact ⟨k', List.mem_of_mem_erase hk', rfl⟩

theorem shrinks_endCleanup (hk : k ∈ s.cleanups) : Shrinks s (s.endCleanup k) := by
  refine ⟨rfl, rfl, rfl, rfl, rfl, rfl, subset_rfl, subset_rfl, subset_rfl, fun _ _ h => h,
    fun _ _ h => h, fun _ _ h => h, ?_, ?_⟩
  · intro d hd
    rcases Finset.mem_insert.mp hd with rfl | hd
    · exact Or.inr ⟨k, hk, rfl⟩
    · exact Or.inl hd
  · intro k' hk'
    exact ⟨k', List.mem_of_mem_erase hk', rfl⟩

theorem shrinks_refl (s : Sv1Server) : Shrinks s s :=
  ⟨rfl, rfl, rfl, rfl, rfl, rfl, subset_rfl, subset_rfl, subset_rfl, fun _ _ h => h,
    fun _ _ h => h, fun _ _ h => h, fun _ h => Or.inl h, fun k hk => ⟨k, hk, rfl⟩⟩

theorem shrinks_cleanupStep (hk : k ∈ s.cleanups) : Shrinks s (cleanupStep cfg s k) := by
  obtain ⟨e, at_⟩ := k
  unfold cleanupStep
  cases at_ with
  | started =>
    dsimp only
    split_ifs with hv hguard
    · exact shrinks_refl s
    · exact { shrinks_moveCleanup hk .vardiffRemoved with vardiff := Finset.erase_subset e s.vardiff }
    · exact shrinks_moveCleanup hk .targetsRemoved
  | vardiffRemoved =>
    exact { shrinks_moveCleanup hk .targetsRemoved with
      pending := fun _ _ h => KeyMap.lookup_erase_some h }
  | targetsRemoved =>
    exact { shrinks_moveCleanup hk .senderRemoved with
      sender := Finset.erase_subset e s.sv1ServerToDownstreamSender }
  | senderRemoved =>
    dsimp only
    split_ifs with hguard
    · exact shrinks_refl s
    · exact { shrinks_moveCleanup hk (.removed (decide (e ∈ s.downstreams))) with
        downstreams := Finset.erase_subset e s.downstreams }
  | removed present =>
    cases present with
    | true =>
      exact { shrinks_moveCleanup hk .retained with
        requests := fun _ _ h => KeyMap.lookup_retain_some h }
    | false =>
      exact { shrinks_endCleanup hk with
        requests := fun _ _ h => KeyMap.lookup_retain_some h }
  | retained =>
    dsimp only
    split
    next c _ => exact shrinks_moveCleanup hk (.channelRead c)
    · exact shrinks_endCleanup hk
  | channelRead c =>
    exact { shrinks_moveCleanup hk (.unrouted c) with
      routes := fun _ _ h => KeyMap.lookup_erase_some h }
  | unrouted c => exact { shrinks_endCleanup hk with }

/-- The entry that the vardiff loop works on stays. -/
theorem vardiff_kept (hd : d ∈ s.vardiff) (hadjusts : s.task.adjusts = some d) :
    d ∈ (cleanupStep cfg s k).vardiff := by
  obtain ⟨e, at_⟩ := k
  unfold cleanupStep
  cases at_ with
  | started =>
    dsimp only
    split_ifs with hv hguard
    · exact hd
    · refine Finset.mem_erase.mpr ⟨?_, hd⟩
      rintro rfl
      exact hguard hadjusts
    · exact hd
  | removed present => cases present <;> exact hd
  | retained =>
    dsimp only
    split <;> exact hd
  | senderRemoved =>
    dsimp only
    split <;> exact hd
  | _ => exact hd

/-- The entry that a registration is made on stays. -/
theorem downstreams_kept (hd : d ∈ s.downstreams) (hguards : s.task.guards = some d) :
    d ∈ (cleanupStep cfg s k).downstreams := by
  obtain ⟨e, at_⟩ := k
  unfold cleanupStep
  cases at_ with
  | senderRemoved =>
    dsimp only
    split
    · exact hd
    next hguard =>
      refine Finset.mem_erase.mpr ⟨?_, hd⟩
      rintro rfl
      exact hguard hguards
  | started =>
    dsimp only
    split_ifs <;> exact hd
  | removed present => cases present <;> exact hd
  | retained =>
    dsimp only
    split <;> exact hd
  | _ => exact hd

/-- The other calls stay where they are. -/
theorem others_kept {k' : DownstreamId × Cleanup} (hk' : k' ∈ s.cleanups) (hne : k' ≠ k) :
    k' ∈ (cleanupStep cfg s k).cleanups := by
  have herase : k' ∈ s.cleanups.erase k := (List.mem_erase_of_ne hne).mpr hk'
  obtain ⟨e, at_⟩ := k
  unfold cleanupStep
  cases at_ with
  | started =>
    dsimp only
    split_ifs
    · exact hk'
    · exact List.mem_cons_of_mem _ herase
    · exact List.mem_cons_of_mem _ herase
  | senderRemoved =>
    dsimp only
    split
    · exact hk'
    · exact List.mem_cons_of_mem _ herase
  | removed present =>
    cases present with
    | true => exact List.mem_cons_of_mem _ herase
    | false => exact herase
  | retained =>
    dsimp only
    split
    · exact List.mem_cons_of_mem _ herase
    · exact herase
  | unrouted c => exact herase
  | _ => exact List.mem_cons_of_mem _ herase

/-- The call that takes a miner out of `downstreams` goes on to its channel. -/
theorem downstreams_or_removed (hd : d ∈ s.downstreams) :
    d ∈ (cleanupStep cfg s k).downstreams ∨
      (d, .removed true) ∈ (cleanupStep cfg s k).cleanups := by
  obtain ⟨e, at_⟩ := k
  unfold cleanupStep
  cases at_ with
  | senderRemoved =>
    dsimp only
    split
    · exact Or.inl hd
    · by_cases hde : d = e
      · subst hde
        rw [decide_eq_true hd]
        exact Or.inr List.mem_cons_self
      · exact Or.inl (Finset.mem_erase.mpr ⟨hde, hd⟩)
  | started =>
    dsimp only
    split_ifs <;> exact Or.inl hd
  | removed present => cases present <;> exact Or.inl hd
  | retained =>
    dsimp only
    split <;> exact Or.inl hd
  | _ => exact Or.inl hd

/-- A removal takes place, unless a guard is in its way. -/
theorem removed_or_blocked :
    match k.2 with
    | .started => cfg.enableVardiff = true → k.1 ∈ (cleanupStep cfg s k).vardiff →
      cleanupStep cfg s k = s
    | .vardiffRemoved => (cleanupStep cfg s k).pendingTargetUpdates.lookup k.1 = none
    | .targetsRemoved => k.1 ∉ (cleanupStep cfg s k).sv1ServerToDownstreamSender
    | .senderRemoved => k.1 ∈ (cleanupStep cfg s k).downstreams → cleanupStep cfg s k = s
    | .removed _ => ∀ r, (cleanupStep cfg s k).requestIdToDownstreamId.lookup r ≠ some k.1
    | _ => True := by
  obtain ⟨e, at_⟩ := k
  unfold cleanupStep
  cases at_ with
  | started =>
    intro hv hmem
    dsimp only at hmem ⊢
    rw [if_pos hv] at hmem ⊢
    split at hmem
    next hguard => rw [if_pos hguard]
    · exact absurd hmem (Finset.notMem_erase e s.vardiff)
  | vardiffRemoved => exact AList.lookup_erase e s.pendingTargetUpdates
  | targetsRemoved => exact Finset.notMem_erase e s.sv1ServerToDownstreamSender
  | senderRemoved =>
    intro hmem
    dsimp only at hmem ⊢
    split at hmem
    next hguard => rw [if_pos hguard]
    · exact absurd hmem (Finset.notMem_erase e s.downstreams)
  | removed present =>
    intro r hr
    dsimp only at hr
    rw [KeyMap.lookup_retain] at hr
    obtain ⟨-, hne⟩ := Option.filter_eq_some_iff.mp hr
    exact of_decide_eq_true hne rfl
  | _ => trivial

end CleanupStep

/-! ## A step of the server task -/

/-- The request that the server task has made and not yet sent. -/
def Task.asks : Task → Option (RequestId × DownstreamId)
  | .registered r d | .withdrawing r d => some (r, d)
  | _ => none

/-- The miner whose channel has been opened, its queued messages not having been replayed yet. -/
def Task.opens : Task → Option DownstreamId
  | .opened d _ | .replaying d _ => some d
  | _ => none

/-- What the server task does to the maps of the miners, unless it calls for a disconnect. -/
structure Serves (cfg : Sv1Config) (s t : Sv1Server) : Prop where
  cleanups : t.cleanups = s.cleanups
  disconnected : t.disconnected = s.disconnected
  closed : t.closed = s.closed
  factory : t.downstreamIdFactory = s.downstreamIdFactory
  downstreams : t.downstreams = s.downstreams
  sender : t.sv1ServerToDownstreamSender = s.sv1ServerToDownstreamSender
  vardiff : ∀ d ∈ t.vardiff, d ∈ s.vardiff ∨ (t.task.opens = some d ∧ cfg.enableVardiff = true)
  vardiffKept : s.vardiff ⊆ t.vardiff
  opens : ∀ d, t.task.opens = some d → s.task.opens = some d ∨ s.task.guards = some d
  stillOpens : ∀ d, s.task.opens = some d → t.task.opens = some d
  adjusts : ∀ d, t.task.adjusts = some d → s.task.adjusts = some d ∨ d ∈ s.vardiff
  guards : ∀ d, t.task.guards = some d → s.task.guards = some d ∨ d ∈ s.downstreams
  pending : ∀ d target, t.pendingTargetUpdates.lookup d = some target →
    s.task.adjusts = some d ∨ ∃ old, s.pendingTargetUpdates.lookup d = some old
  requests : ∀ r d, t.requestIdToDownstreamId.lookup r = some d →
    t.task.asks = some (r, d) ∨
      (s.requestIdToDownstreamId.lookup r = some d ∧
        (s.task.asks = some (r, d) → d ∈ s.downstreams))

section ServerTask

variable {cfg : Sv1Config} {s : Sv1Server} {d : DownstreamId}

theorem serves_refl (cfg : Sv1Config) (s : Sv1Server) : Serves cfg s s := by
  refine ⟨rfl, rfl, rfl, rfl, rfl, rfl, fun _ h => Or.inl h, subset_rfl, fun _ h => Or.inl h,
    fun _ h => h, fun _ h => Or.inl h, fun _ h => Or.inl h, fun _ target h => Or.inr ⟨target, h⟩, ?_⟩
  intro r d h
  by_cases hasks : s.task.asks = some (r, d)
  · exact Or.inl hasks
  · exact Or.inr ⟨h, fun ha => absurd ha hasks⟩

/-- The task moves, from a place where it has no request to send, and opens no channel. -/
theorem serves_move (cfg : Sv1Config) (s : Sv1Server) {task : Task}
    (hfree : s.task.asks = none ∧ s.task.opens = none) (hopens : task.opens = none)
    (hadjusts : ∀ d, task.adjusts = some d → s.task.adjusts = some d ∨ d ∈ s.vardiff)
    (hguards : ∀ d, task.guards = some d → s.task.guards = some d ∨ d ∈ s.downstreams) :
    Serves cfg s { s with task := task } := by
  refine ⟨rfl, rfl, rfl, rfl, rfl, rfl, fun _ h => Or.inl h, subset_rfl, ?_, ?_, hadjusts, hguards,
    fun _ target h => Or.inr ⟨target, h⟩, ?_⟩
  · intro d hd
    rw [hopens] at hd
    cases hd
  · intro d hd
    rw [hfree.2] at hd
    cases hd
  · intro r d h
    refine Or.inr ⟨h, ?_⟩
    intro ha
    rw [hfree.1] at ha
    cases ha

theorem of_none {o : Option DownstreamId} {P : DownstreamId → Prop} (h : o = none) :
    ∀ d, o = some d → P d := by
  intro d hd
  rw [h] at hd
  cases hd

theorem serves_takeSetupMessage (cfg : Sv1Config) (s : Sv1Server) (d : DownstreamId) :
    Serves cfg s (s.takeSetupMessage d) := by
  unfold takeSetupMessage
  cases htask : s.task with
  | idle =>
    dsimp only
    split
    · exact serves_move cfg s (by rw [htask]; exact ⟨rfl, rfl⟩) rfl (of_none rfl) (of_none rfl)
    · exact serves_refl cfg s
  | _ => exact serves_refl cfg s

/-- The server task takes nothing up before it has finished. -/
theorem takes_when_idle (cfg : Sv1Config) (h : s.task ≠ .idle) (d : DownstreamId) (m : Sv1Message)
    (target : Target) (parked : Bool) :
    s.takeSetupMessage d = s ∧ takeUpstreamMessage cfg s m = s ∧ s.collectKeepalive d = s ∧
      s.adjust d target parked = s := by
  unfold takeSetupMessage takeUpstreamMessage collectKeepalive adjust
  cases htask : s.task with
  | idle => exact absurd htask h
  | _ => exact ⟨rfl, rfl, rfl, rfl⟩

theorem serves_collectKeepalive (cfg : Sv1Config) (s : Sv1Server) (d : DownstreamId) :
    Serves cfg s (s.collectKeepalive d) := by
  unfold collectKeepalive
  cases htask : s.task with
  | idle =>
    dsimp only
    split
    · split
      · exact serves_move cfg s (by rw [htask]; exact ⟨rfl, rfl⟩) rfl (of_none rfl) (of_none rfl)
      · exact serves_refl cfg s
    · exact serves_refl cfg s
  | _ => exact serves_refl cfg s

theorem serves_adjust (cfg : Sv1Config) (s : Sv1Server) (d : DownstreamId) (target : Target)
    (parked : Bool) : Serves cfg s (s.adjust d target parked) := by
  unfold adjust
  cases htask : s.task with
  | idle =>
    dsimp only
    split
    next hd =>
      refine serves_move cfg s (by rw [htask]; exact ⟨rfl, rfl⟩) rfl ?_ (of_none rfl)
      intro e he
      cases he
      exact Or.inr hd.1
    · exact serves_refl cfg s
  | _ => exact serves_refl cfg s

theorem serves_takeUpstreamMessage (cfg : Sv1Config) (s : Sv1Server) (m : Sv1Message) :
    Serves cfg s (takeUpstreamMessage cfg s m) := by
  unfold takeUpstreamMessage
  cases htask : s.task with
  | idle =>
    have hfree : s.task.asks = none ∧ s.task.opens = none := by rw [htask]; exact ⟨rfl, rfl⟩
    have hmove : ∀ task : Task, task.opens = none → task.adjusts = none → task.guards = none →
        Serves cfg s { s with task := task } := by
      intro task hopens hadjusts hguards
      exact serves_move cfg s hfree hopens (of_none hadjusts) (of_none hguards)
    cases m with
    | openExtendedMiningChannelSuccess m =>
      have hmoved : ∀ task : Task, task.opens = none → task.adjusts = none → task.guards = none →
          Serves cfg s { s with
            task := task
            requestIdToDownstreamId := s.requestIdToDownstreamId.erase m.requestId } := by
        intro task hopens hadjusts hguards
        refine { hmove task hopens hadjusts hguards with requests := ?_ }
        intro r d h
        refine Or.inr ⟨KeyMap.lookup_erase_some h, ?_⟩
        intro ha
        rw [hfree.1] at ha
        cases ha
      dsimp only
      cases s.requestIdToDownstreamId.lookup m.requestId with
      | some d => exact hmoved (.claimed m.channelId d) rfl rfl rfl
      | none => exact hmoved (.orphaned m.channelId) rfl rfl rfl
    | openMiningChannelError r code =>
      dsimp only
      refine { hmove .idle rfl rfl rfl with requests := ?_ }
      intro r' d h
      refine Or.inr ⟨KeyMap.lookup_erase_some h, ?_⟩
      intro ha
      rw [hfree.1] at ha
      cases ha
    | setExtranoncePrefix c p => exact serves_refl cfg s
    | newExtendedMiningJob m =>
      dsimp only
      split
      · exact hmove _ rfl rfl rfl
      · exact serves_refl cfg s
    | setNewPrevHash m => exact { hmove .idle rfl rfl rfl with }
    | setTarget c target =>
      dsimp only
      split
      · split
        · exact hmove _ rfl rfl rfl
        · exact serves_refl cfg s
      · split
        · exact serves_refl cfg s
        · exact hmove _ rfl rfl rfl
    | closeChannel c =>
      dsimp only
      split
      next d _ => exact { hmove (.clearing c d) rfl rfl rfl with }
      · exact serves_refl cfg s
  | _ => exact serves_refl cfg s

/-- The data of a miner, or what is queued for the channel manager, changes. -/
theorem Serves.setData {t : Sv1Server} (h : Serves cfg s t) (x : DownstreamData) :
    Serves cfg s (t.setData d x) := { h with }

theorem serves_taskStep (cfg : Sv1Config) (s : Sv1Server)
    (hreplays : ∀ d queued, s.task ≠ .replaying d queued) : Serves cfg s (taskStep cfg s) := by
  have hmove : ∀ task : Task, s.task.asks = none ∧ s.task.opens = none → task.opens = none →
      task.adjusts = none → task.guards = none → Serves cfg s { s with task := task } := by
    intro task hfree hopens hadjusts hguards
    exact serves_move cfg s hfree hopens (of_none hadjusts) (of_none hguards)
  unfold taskStep
  cases htask : s.task with
  | idle => exact serves_refl cfg s
  | queueing d opening =>
    have hfree : s.task.asks = none ∧ s.task.opens = none := by rw [htask]; exact ⟨rfl, rfl⟩
    dsimp only
    split
    · split
      · exact { hmove .idle hfree rfl rfl rfl with }
      · exact { hmove (.checking d) hfree rfl rfl rfl with }
    · exact hmove .idle hfree rfl rfl rfl
  | checking d =>
    have hfree : s.task.asks = none ∧ s.task.opens = none := by rw [htask]; exact ⟨rfl, rfl⟩
    dsimp only
    split
    · exact hmove (.registering d) hfree rfl rfl rfl
    · exact hmove .idle hfree rfl rfl rfl
  | registering d =>
    have hfree : s.task.asks = none ∧ s.task.opens = none := by rw [htask]; exact ⟨rfl, rfl⟩
    refine { hmove (.registered s.requestIdFactory d) hfree rfl rfl rfl with requests := ?_ }
    intro r e h
    dsimp only at h
    rw [KeyMap.lookup_insert_eq] at h
    split at h
    next hr =>
      cases h
      exact Or.inl (by rw [hr]; rfl)
    · refine Or.inr ⟨h, ?_⟩
      intro ha
      rw [hfree.1] at ha
      cases ha
  | registered r d =>
    dsimp only
    split
    next hd =>
      refine { serves_refl cfg s with
        vardiff := fun _ h => Or.inl h, opens := of_none rfl,
        stillOpens := of_none (by rw [htask]; rfl), adjusts := of_none rfl,
        guards := of_none rfl, requests := ?_ }
      intro r' e h
      refine Or.inr ⟨h, ?_⟩
      intro ha
      rw [htask] at ha
      cases ha
      exact hd
    · refine { serves_refl cfg s with
        vardiff := fun _ h => Or.inl h, opens := of_none rfl,
        stillOpens := of_none (by rw [htask]; rfl), adjusts := of_none rfl,
        guards := of_none rfl, requests := ?_ }
      intro r' e h
      by_cases ha : s.task.asks = some (r', e)
      · rw [htask] at ha
        exact Or.inl ha
      · exact Or.inr ⟨h, fun ha' => absurd ha' ha⟩
  | forwarding r d => exact { hmove .idle (by rw [htask]; exact ⟨rfl, rfl⟩) rfl rfl rfl with }
  | withdrawing r d =>
    refine { serves_refl cfg s with
      vardiff := fun _ h => Or.inl h, opens := of_none rfl,
      stillOpens := of_none (by rw [htask]; rfl), adjusts := of_none rfl,
      guards := of_none rfl, requests := ?_ }
    intro r' e h
    dsimp only at h
    rw [KeyMap.lookup_erase_eq] at h
    split at h
    · cases h
    next hr =>
      refine Or.inr ⟨h, ?_⟩
      intro ha
      rw [htask] at ha
      cases ha
      exact absurd rfl hr
  | orphaned c =>
    have hfree : s.task.asks = none ∧ s.task.opens = none := by rw [htask]; exact ⟨rfl, rfl⟩
    dsimp only
    split
    · exact hmove .idle hfree rfl rfl rfl
    · exact hmove (.closing c) hfree rfl rfl rfl
  | claimed c d =>
    have hfree : s.task.asks = none ∧ s.task.opens = none := by rw [htask]; exact ⟨rfl, rfl⟩
    dsimp only
    split
    next hd =>
      refine serves_move cfg s hfree rfl (of_none rfl) ?_
      intro e he
      cases he
      exact Or.inr hd
    · exact hmove (.closing c) hfree rfl rfl rfl
  | guarded c d =>
    have hmoved : Serves cfg s { s with task := .assigned c d } := by
      refine serves_move cfg s (by rw [htask]; exact ⟨rfl, rfl⟩) rfl (of_none rfl) ?_
      intro e he
      rw [htask]
      exact Or.inl he
    exact hmoved.setData _
  | assigned c d =>
    have hmoved : Serves cfg s { s with
        task := .queueTaken c d (s.downstreamData d).queuedSv1HandshakeMessages } := by
      refine serves_move cfg s (by rw [htask]; exact ⟨rfl, rfl⟩) rfl (of_none rfl) ?_
      intro e he
      rw [htask]
      exact Or.inl he
    exact hmoved.setData _
  | queueTaken c d queued =>
    refine { serves_refl cfg s with
      vardiff := fun _ h => Or.inl h, opens := ?_, stillOpens := of_none (by rw [htask]; rfl),
      adjusts := of_none rfl, guards := of_none rfl, requests := ?_ }
    · intro e he
      cases he
      exact Or.inr (by rw [htask]; rfl)
    · intro r e h
      refine Or.inr ⟨h, ?_⟩
      intro ha
      rw [htask] at ha
      cases ha
  | opened d queued =>
    refine { serves_refl cfg s with
      vardiff := ?_, vardiffKept := ?_, opens := ?_, stillOpens := ?_, adjusts := of_none rfl,
      guards := of_none rfl, requests := ?_ }
    · intro e he
      dsimp only at he
      split at he
      next hv =>
        rcases Finset.mem_insert.mp he with rfl | he
        · exact Or.inr ⟨rfl, hv⟩
        · exact Or.inl he
      · exact Or.inl he
    · dsimp only
      split
      · exact Finset.subset_insert d s.vardiff
      · exact subset_rfl
    · intro e he
      rw [htask]
      exact Or.inl he
    · intro e he
      rw [htask] at he
      exact he
    · intro r e h
      refine Or.inr ⟨h, ?_⟩
      intro ha
      rw [htask] at ha
      cases ha
  | replaying d queued => exact absurd htask (hreplays d queued)
  | closing c => exact { hmove .idle (by rw [htask]; exact ⟨rfl, rfl⟩) rfl rfl rfl with }
  | storing c job cleanJobs => exact { hmove .idle (by rw [htask]; exact ⟨rfl, rfl⟩) rfl rfl rfl with }
  | retargeting d target =>
    refine { hmove .idle (by rw [htask]; exact ⟨rfl, rfl⟩) rfl rfl rfl with pending := ?_ }
    intro e pending h
    dsimp only at h
    split at h
    · exact Or.inr ⟨pending, KeyMap.lookup_retain_some h⟩
    · exact Or.inr ⟨pending, h⟩
  | clearing c d =>
    have hfree : s.task.asks = none ∧ s.task.opens = none := by rw [htask]; exact ⟨rfl, rfl⟩
    dsimp only
    split
    · exact { hmove .idle hfree rfl rfl rfl with }
    · exact hmove .idle hfree rfl rfl rfl
  | keptAlive c =>
    have hfree : s.task.asks = none ∧ s.task.opens = none := by rw [htask]; exact ⟨rfl, rfl⟩
    dsimp only
    unfold createKeepaliveJob
    split
    · exact hmove .idle hfree rfl rfl rfl
    · split
      · exact hmove .idle hfree rfl rfl rfl
      · exact { hmove .idle hfree rfl rfl rfl with }
  | adjusting d target parked =>
    refine { hmove .idle (by rw [htask]; exact ⟨rfl, rfl⟩) rfl rfl rfl with pending := ?_ }
    intro e pending h
    rw [htask]
    dsimp only at h
    split at h
    · split at h
      · rw [KeyMap.lookup_insert_eq] at h
        split at h
        next he => exact Or.inl (by rw [he]; rfl)
        · exact Or.inr ⟨pending, h⟩
      · exact Or.inr ⟨pending, KeyMap.lookup_erase_some h⟩
    · exact Or.inr ⟨pending, h⟩

end ServerTask

/-! ## The maps of the miners -/

/-- What is in a map has its removal ahead; the vardiff state of a miner whose messages are still to
    be replayed may have missed it. -/
structure MinersInv (cfg : Sv1Config) (s : Sv1Server) : Prop where
  called : ∀ k ∈ s.cleanups, k.1 < s.downstreamIdFactory ∧ ¬s.listens k.1
  returned : ∀ d ∈ s.disconnected, d < s.downstreamIdFactory ∧ ¬s.listens d
  known : ∀ d ∈ s.downstreams, d < s.downstreamIdFactory
  opens : ∀ d, s.task.opens = some d → d < s.downstreamIdFactory
  adjusts : ∀ d, s.task.adjusts = some d → d ∈ s.vardiff
  guards : ∀ d, s.task.guards = some d → d ∈ s.downstreams
  vardiff : ∀ d ∈ s.vardiff, cfg.enableVardiff = true ∧
    (s.Ahead Cleanup.started.stage d ∨ s.task.opens = some d)
  pending : ∀ d target, s.pendingTargetUpdates.lookup d = some target →
    cfg.enableVardiff = true ∧ s.Ahead Cleanup.vardiffRemoved.stage d
  sender : ∀ d ∈ s.sv1ServerToDownstreamSender, s.Ahead Cleanup.targetsRemoved.stage d
  downstreams : ∀ d ∈ s.downstreams, s.Ahead Cleanup.senderRemoved.stage d
  requests : ∀ r d, s.requestIdToDownstreamId.lookup r = some d →
    s.task.asks = some (r, d) ∨ s.Ahead (Cleanup.removed true).stage d

theorem minersInv_start (cfg : Sv1Config) : MinersInv cfg start := by
  constructor
  · intro k hk
    cases hk
  · intro d hd
    cases hd
  · intro d hd
    cases hd
  · intro d hd
    cases hd
  · intro d hd
    cases hd
  · intro d hd
    cases hd
  · intro d hd
    cases hd
  · intro d target h
    cases h
  · intro d hd
    cases hd
  · intro d hd
    cases hd
  · intro r d h
    cases h

namespace MinersInv

variable {cfg : Sv1Config} {s t : Sv1Server}

/-- The entry that the vardiff loop works on is covered. -/
theorem ahead_adjusts (h : MinersInv cfg s) {d : DownstreamId} (hd : s.task.adjusts = some d) :
    cfg.enableVardiff = true ∧ s.Ahead Cleanup.started.stage d := by
  obtain ⟨hv, ha | hopens⟩ := h.vardiff d (h.adjusts d hd)
  · exact ⟨hv, ha⟩
  · cases htask : s.task <;> rw [htask] at hd hopens <;> cases hd
    cases hopens

theorem serves (h : MinersInv cfg s) (ht : Serves cfg s t) : MinersInv cfg t := by
  have hahead : ∀ n d, s.Ahead n d → t.Ahead n d := by
    intro n d hd
    exact hd.congr ht.cleanups ht.disconnected
  have hlistens : ∀ d, t.listens d ↔ s.listens d := by
    intro d
    unfold listens
    rw [ht.downstreams, ht.closed]
  constructor
  · rw [ht.cleanups, ht.factory]
    intro k hk
    rw [hlistens]
    exact h.called k hk
  · rw [ht.disconnected, ht.factory]
    intro d hd
    rw [hlistens]
    exact h.returned d hd
  · rw [ht.downstreams, ht.factory]
    exact h.known
  · rw [ht.factory]
    intro d hd
    rcases ht.opens d hd with hd | hd
    · exact h.opens d hd
    · exact h.known d (h.guards d hd)
  · intro d hd
    rcases ht.adjusts d hd with hd | hd
    · exact ht.vardiffKept (h.adjusts d hd)
    · exact ht.vardiffKept hd
  · intro d hd
    rw [ht.downstreams]
    rcases ht.guards d hd with hd | hd
    · exact h.guards d hd
    · exact hd
  · intro d hd
    rcases ht.vardiff d hd with hd | ⟨hopens, hv⟩
    · obtain ⟨hv, ha | hopens⟩ := h.vardiff d hd
      · exact ⟨hv, Or.inl (hahead _ _ ha)⟩
      · exact ⟨hv, Or.inr (ht.stillOpens d hopens)⟩
    · exact ⟨hv, Or.inr hopens⟩
  · intro d target hd
    rcases ht.pending d target hd with hadjusts | ⟨old, hold⟩
    · obtain ⟨hv, ha⟩ := h.ahead_adjusts hadjusts
      exact ⟨hv, hahead _ _ (ha.mono (by decide))⟩
    · exact ⟨(h.pending d old hold).1, hahead _ _ (h.pending d old hold).2⟩
  · rw [ht.sender]
    intro d hd
    exact hahead _ _ (h.sender d hd)
  · rw [ht.downstreams]
    intro d hd
    exact hahead _ _ (h.downstreams d hd)
  · intro r d hr
    rcases ht.requests r d hr with ha | ⟨hold, hd⟩
    · exact Or.inl ha
    · refine Or.inr (hahead _ _ ?_)
      rcases h.requests r d hold with ha | ha
      · exact (h.downstreams d (hd ha)).mono (by decide)
      · exact ha

/-- No call has been made for a miner that listens. -/
theorem ahead_of_listens (h : MinersInv cfg s) {d : DownstreamId} (hd : s.listens d) (n : Nat) :
    s.Ahead n d := by
  refine Or.inr ⟨?_, ?_⟩
  · intro hreturned
    exact (h.returned d hreturned).2 hd
  · rintro k hk rfl
    exact (h.called k hk).2 hd

/-- A miner connects; no call can have been made for it. -/
theorem accept (h : MinersInv cfg s) : MinersInv cfg s.accept := by
  have hnew : ∀ n, s.Ahead n s.downstreamIdFactory := by
    intro n
    refine Or.inr ⟨?_, ?_⟩
    · intro hd
      exact absurd (h.returned _ hd).1 (Nat.lt_irrefl _)
    · intro k hk heq
      exact absurd (h.called k hk).1 (by rw [heq]; exact Nat.lt_irrefl _)
  have hlistens : ∀ d, d < s.downstreamIdFactory → ¬s.listens d → ¬s.accept.listens d := by
    rintro d hlt hd ⟨hmem, hopen⟩
    rcases Finset.mem_insert.mp hmem with rfl | hmem
    · exact Nat.lt_irrefl _ hlt
    · exact hd ⟨hmem, hopen⟩
  constructor
  · intro k hk
    obtain ⟨hlt, hoff⟩ := h.called k hk
    exact ⟨Nat.lt_succ_of_lt hlt, hlistens k.1 hlt hoff⟩
  · intro d hd
    obtain ⟨hlt, hoff⟩ := h.returned d hd
    exact ⟨Nat.lt_succ_of_lt hlt, hlistens d hlt hoff⟩
  · intro d hd
    rcases Finset.mem_insert.mp hd with rfl | hd
    · exact Nat.lt_succ_self _
    · exact Nat.lt_succ_of_lt (h.known d hd)
  · intro d hd
    exact Nat.lt_succ_of_lt (h.opens d hd)
  · exact h.adjusts
  · intro d hd
    exact Finset.mem_insert_of_mem (h.guards d hd)
  · exact h.vardiff
  · exact h.pending
  · intro d hd
    rcases Finset.mem_insert.mp hd with rfl | hd
    · exact hnew _
    · exact h.sender d hd
  · intro d hd
    rcases Finset.mem_insert.mp hd with rfl | hd
    · exact hnew _
    · exact h.downstreams d hd
  · exact h.requests

/-- The channels of a miner are closed. -/
theorem close (h : MinersInv cfg s) (e : DownstreamId) :
    MinersInv cfg { s with closed := insert e s.closed } := by
  have hlistens : ∀ d, ¬s.listens d → ¬listens { s with closed := insert e s.closed } d := by
    rintro d hd ⟨hmem, hopen⟩
    exact hd ⟨hmem, fun hclosed => hopen (Finset.mem_insert_of_mem hclosed)⟩
  refine { h with called := ?_, returned := ?_ }
  · intro k hk
    exact ⟨(h.called k hk).1, hlistens k.1 (h.called k hk).2⟩
  · intro d hd
    exact ⟨(h.returned d hd).1, hlistens d (h.returned d hd).2⟩

/-- A call begins, with all removals ahead. -/
theorem callDisconnect (h : MinersInv cfg s) {e : DownstreamId} (he : e < s.downstreamIdFactory)
    (hoff : ¬s.listens e) : MinersInv cfg (s.callDisconnect e) := by
  have hahead : ∀ n d, s.Ahead n d → (s.callDisconnect e).Ahead n d := by
    rintro n d (⟨k, hk, hd⟩ | ⟨hd, hno⟩)
    · exact Or.inl ⟨k, List.mem_cons_of_mem _ hk, hd⟩
    · by_cases hed : e = d
      · exact Or.inl ⟨(e, .started), List.mem_cons_self, hed, Nat.zero_le n⟩
      · refine Or.inr ⟨hd, ?_⟩
        intro k hk
        rcases List.mem_cons.mp hk with rfl | hk
        · exact hed
        · exact hno k hk
  constructor
  · intro k hk
    rcases List.mem_cons.mp hk with rfl | hk
    · exact ⟨he, hoff⟩
    · exact h.called k hk
  · exact h.returned
  · exact h.known
  · exact h.opens
  · exact h.adjusts
  · exact h.guards
  · intro d hd
    obtain ⟨hv, ha | hopens⟩ := h.vardiff d hd
    · exact ⟨hv, Or.inl (hahead _ _ ha)⟩
    · exact ⟨hv, Or.inr hopens⟩
  · intro d target hd
    exact ⟨(h.pending d target hd).1, hahead _ _ (h.pending d target hd).2⟩
  · intro d hd
    exact hahead _ _ (h.sender d hd)
  · intro d hd
    exact hahead _ _ (h.downstreams d hd)
  · intro r d hr
    rcases h.requests r d hr with ha | ha
    · exact Or.inl ha
    · exact Or.inr (hahead _ _ ha)

/-- The replay is over, and the miner is covered. -/
theorem replayed (h : MinersInv cfg s) {e : DownstreamId} {queued : Nat}
    (htask : s.task = .replaying e queued) (he : s.Ahead Cleanup.started.stage e) :
    MinersInv cfg { s with task := .idle } := by
  refine { h with opens := of_none rfl, adjusts := of_none rfl, guards := of_none rfl, vardiff := ?_,
                  requests := ?_ }
  · intro d hd
    obtain ⟨hv, ha | hopens⟩ := h.vardiff d hd
    · exact ⟨hv, Or.inl ha⟩
    · rw [htask] at hopens
      cases hopens
      exact ⟨hv, Or.inl he⟩
  · intro r d hr
    rcases h.requests r d hr with hasks | ha
    · rw [htask] at hasks
      cases hasks
    · exact Or.inr ha

/-- The replay for a miner that is gone calls for a disconnect; no call has been made otherwise. -/
theorem taskStep (h : MinersInv cfg s)
    (hqueued : ∀ d queued, s.task = .replaying d queued → 0 < queued) :
    MinersInv cfg (taskStep cfg s) := by
  by_cases hreplays : ∃ d queued, s.task = .replaying d queued
  · obtain ⟨d, queued, htask⟩ := hreplays
    simp only [Sv1Server.taskStep, htask, hqueued d queued htask, true_and]
    have hd : d < s.downstreamIdFactory := h.opens d (by rw [htask]; rfl)
    by_cases hlistens : s.listens d
    · rw [if_neg (not_not.mpr hlistens)]
      exact h.replayed htask (h.ahead_of_listens hlistens _)
    · rw [if_pos hlistens]
      have hcalled : (s.callDisconnect d).Ahead Cleanup.started.stage d :=
        Or.inl ⟨(d, .started), List.mem_cons_self, rfl, Nat.le_refl 0⟩
      exact (h.callDisconnect hd hlistens).replayed htask hcalled
  · refine h.serves (serves_taskStep cfg s ?_)
    intro d queued htask
    exact hreplays ⟨d, queued, htask⟩

theorem cleanupStep (h : MinersInv cfg s) {k : DownstreamId × Cleanup} (hk : k ∈ s.cleanups) :
    MinersInv cfg (cleanupStep cfg s k) := by
  have ht : Shrinks s (Sv1Server.cleanupStep cfg s k) := shrinks_cleanupStep hk
  -- an entry that is still there has its removal ahead, unless this step was that removal
  have hahead : ∀ n d, s.Ahead n d → n ≤ 4 → (n < 2 → cfg.enableVardiff = true) →
      (k.1 = d → k.2.stage = n → Sv1Server.cleanupStep cfg s k = s) →
      (Sv1Server.cleanupStep cfg s k).Ahead n d := by
    intro n d hd hle hv hsame
    by_cases hstage : k.1 = d ∧ k.2.stage = n
    · rw [hsame hstage.1 hstage.2]
      exact hd
    · exact hd.cleanupStep hk hle (fun hkd hn => hstage ⟨hkd, hn⟩) hv
  have hremoved := @removed_or_blocked cfg s k
  have hlistens : ∀ d, ¬s.listens d → ¬(Sv1Server.cleanupStep cfg s k).listens d := by
    rintro d hd ⟨hmem, hopen⟩
    rw [ht.closed] at hopen
    exact hd ⟨ht.downstreams hmem, hopen⟩
  constructor
  · intro k' hk'
    obtain ⟨k₀, hk₀, heq⟩ := ht.cleanups k' hk'
    rw [ht.factory, ← heq]
    exact ⟨(h.called k₀ hk₀).1, hlistens k₀.1 (h.called k₀ hk₀).2⟩
  · intro d hd
    rw [ht.factory]
    rcases ht.disconnected d hd with hd | ⟨k₀, hk₀, rfl⟩
    · exact ⟨(h.returned d hd).1, hlistens d (h.returned d hd).2⟩
    · exact ⟨(h.called k₀ hk₀).1, hlistens k₀.1 (h.called k₀ hk₀).2⟩
  · intro d hd
    rw [ht.factory]
    exact h.known d (ht.downstreams hd)
  · rw [ht.task, ht.factory]
    exact h.opens
  · intro d hd
    rw [ht.task] at hd
    exact vardiff_kept (h.adjusts d hd) hd
  · intro d hd
    rw [ht.task] at hd
    exact downstreams_kept (h.guards d hd) hd
  · intro d hd
    rw [ht.task]
    obtain ⟨hv, ha | hopens⟩ := h.vardiff d (ht.vardiff hd)
    · refine ⟨hv, Or.inl (hahead _ _ ha (by decide) (fun _ => hv) ?_)⟩
      rintro rfl hstage
      obtain ⟨e, at_⟩ := k
      cases at_ with
      | started => exact hremoved hv hd
      | _ => cases hstage
    · exact ⟨hv, Or.inr hopens⟩
  · intro d target hd
    obtain ⟨hv, ha⟩ := h.pending d target (ht.pending d target hd)
    refine ⟨hv, hahead _ _ ha (by decide) (fun _ => hv) ?_⟩
    rintro rfl hstage
    obtain ⟨e, at_⟩ := k
    cases at_ with
    | vardiffRemoved =>
      rw [hremoved] at hd
      cases hd
    | _ => cases hstage
  · intro d hd
    refine hahead _ _ (h.sender d (ht.sender hd)) (by decide) (absurd · (by decide)) ?_
    rintro rfl hstage
    obtain ⟨e, at_⟩ := k
    cases at_ with
    | targetsRemoved => exact absurd hd hremoved
    | _ => cases hstage
  · intro d hd
    refine hahead _ _ (h.downstreams d (ht.downstreams hd)) (by decide) (absurd · (by decide)) ?_
    rintro rfl hstage
    obtain ⟨e, at_⟩ := k
    cases at_ with
    | senderRemoved => exact hremoved hd
    | _ => cases hstage
  · intro r d hr
    rw [ht.task]
    rcases h.requests r d (ht.requests r d hr) with ha | ha
    · exact Or.inl ha
    · refine Or.inr (hahead _ _ ha (Nat.le_refl 4) (absurd · (by decide)) ?_)
      rintro rfl hstage
      obtain ⟨e, at_⟩ := k
      cases at_ with
      | removed present => exact absurd hr (hremoved r)
      | _ => cases hstage

end MinersInv

/-! ## The channel of a miner -/

/-- The call is going to remove the route of the channel. -/
def Cleanup.frees (c : ChannelId) : Cleanup → Prop
  | .removed present => present = true
  | .retained => True
  | .channelRead c' => c' = c
  | _ => False

/-- The miner waits for a channel, and no answer to a request is to come. -/
structure Waits (s : Sv1Server) (d : DownstreamId) : Prop where
  channel : (s.downstreamData d).channelId = none
  queued : 0 < (s.downstreamData d).queuedSv1HandshakeMessages
  requests : ∀ r, s.requestIdToDownstreamId.lookup r ≠ some d

/-- What the server task relies on where it is. -/
def Opens (s : Sv1Server) : Task → Prop
  | .queueing d opening => (s.downstreamData d).channelId = none ∧
    (opening = false → (s.downstreamData d).queuedSv1HandshakeMessages = 0)
  | .checking d | .registering d | .claimed _ d | .guarded _ d => s.Waits d
  | .assigned c d => (s.downstreamData d).channelId = some c ∧
    0 < (s.downstreamData d).queuedSv1HandshakeMessages
  | .queueTaken c d queued => (s.downstreamData d).channelId = some c ∧ 0 < queued
  | .opened _ queued | .replaying _ queued => 0 < queued
  | .clearing c _ => s.channelIdToDownstreamId.lookup c = none
  | _ => True

theorem Opens.congr {s t : Sv1Server} {task : Task} (h : s.Opens task)
    (hdata : t.downstreamData = s.downstreamData)
    (hrequests : ∀ r d, t.requestIdToDownstreamId.lookup r = some d →
      s.requestIdToDownstreamId.lookup r = some d)
    (hroutes : ∀ c d, t.channelIdToDownstreamId.lookup c = some d →
      s.channelIdToDownstreamId.lookup c = some d) : t.Opens task := by
  have hwaits : ∀ d, s.Waits d → t.Waits d := by
    intro d hd
    refine ⟨by rw [hdata]; exact hd.channel, by rw [hdata]; exact hd.queued, ?_⟩
    intro r hr
    exact hd.requests r (hrequests r d hr)
  cases task with
  | queueing d opening =>
    unfold Opens at h ⊢
    rw [hdata]
    exact h
  | checking d => exact hwaits d h
  | registering d => exact hwaits d h
  | claimed c d => exact hwaits d h
  | guarded c d => exact hwaits d h
  | assigned c d =>
    unfold Opens at h ⊢
    rw [hdata]
    exact h
  | queueTaken c d queued =>
    unfold Opens at h ⊢
    rw [hdata]
    exact h
  | opened d queued => exact h
  | replaying d queued => exact h
  | clearing c d =>
    have hnone : s.channelIdToDownstreamId.lookup c = none := h
    apply Option.eq_none_iff_forall_ne_some.mpr
    intro e he
    rw [hroutes c e he] at hnone
    cases hnone
  | _ => trivial

/-- A miner asks for one channel at a time, and a route leads to the miner whose channel it is. -/
structure ChannelsInv (s : Sv1Server) : Prop where
  single : ∀ r r' d, s.requestIdToDownstreamId.lookup r = some d →
    s.requestIdToDownstreamId.lookup r' = some d → r = r'
  waiting : ∀ r d, s.requestIdToDownstreamId.lookup r = some d →
    (s.downstreamData d).channelId = none ∧
      0 < (s.downstreamData d).queuedSv1HandshakeMessages
  routes : ∀ c d, s.channelIdToDownstreamId.lookup c = some d →
    (s.downstreamData d).channelId = some c
  kept : ∀ c d, s.channelIdToDownstreamId.lookup c = some d →
    d ∈ s.downstreams ∨ ∃ k ∈ s.cleanups, k.1 = d ∧ k.2.frees c
  task : s.Opens s.task

theorem channelsInv_start : ChannelsInv start := by
  constructor
  · intro r r' d h
    cases h
  · intro r d h
    cases h
  · intro c d h
    cases h
  · intro c d h
    cases h
  · trivial

namespace ChannelsInv

variable {cfg : Sv1Config} {s t : Sv1Server}

/-- The task moves; requests and routes may go. -/
theorem move (h : ChannelsInv s) (hdata : t.downstreamData = s.downstreamData)
    (hrequests : ∀ r d, t.requestIdToDownstreamId.lookup r = some d →
      s.requestIdToDownstreamId.lookup r = some d)
    (hroutes : ∀ c d, t.channelIdToDownstreamId.lookup c = some d →
      s.channelIdToDownstreamId.lookup c = some d)
    (hdownstreams : t.downstreams = s.downstreams) (hcleanups : t.cleanups = s.cleanups)
    (htask : t.Opens t.task) : ChannelsInv t := by
  constructor
  · intro r r' d hr hr'
    exact h.single r r' d (hrequests r d hr) (hrequests r' d hr')
  · rw [hdata]
    intro r d hr
    exact h.waiting r d (hrequests r d hr)
  · rw [hdata]
    intro c d hc
    exact h.routes c d (hroutes c d hc)
  · rw [hdownstreams, hcleanups]
    intro c d hc
    exact h.kept c d (hroutes c d hc)
  · exact htask

/-- The task moves, and nothing that concerns channels changes. -/
theorem go (h : ChannelsInv s) {task : Task} (htask : s.Opens task) :
    ChannelsInv { s with task := task } :=
  h.move rfl (fun _ _ hr => hr) (fun _ _ hc => hc) rfl rfl
    (htask.congr rfl (fun _ _ hr => hr) fun _ _ hc => hc)

/-- The data of a miner changes, as its request and its routes allow. -/
theorem setData (h : ChannelsInv s) {d : DownstreamId} {x : DownstreamData} {task : Task}
    (hrequests : ∀ r, s.requestIdToDownstreamId.lookup r = some d →
      x.channelId = none ∧ 0 < x.queuedSv1HandshakeMessages)
    (hroutes : ∀ c, s.channelIdToDownstreamId.lookup c = some d → x.channelId = some c)
    (htask : (s.setData d x).Opens task) : ChannelsInv { s.setData d x with task := task } := by
  constructor
  · exact h.single
  · intro r e hr
    by_cases he : e = d
    · subst he
      simp only [Sv1Server.setData, Function.update_self]
      exact hrequests r hr
    · simp only [Sv1Server.setData, Function.update_of_ne he]
      exact h.waiting r e hr
  · intro c e hc
    by_cases he : e = d
    · subst he
      simp only [Sv1Server.setData, Function.update_self]
      exact hroutes c hc
    · simp only [Sv1Server.setData, Function.update_of_ne he]
      exact h.routes c e hc
  · exact h.kept
  · exact htask.congr rfl (fun _ _ hr => hr) fun _ _ hc => hc

theorem takeSetupMessage (h : ChannelsInv s) (d : DownstreamId) :
    ChannelsInv (s.takeSetupMessage d) := by
  unfold Sv1Server.takeSetupMessage
  split
  · split
    next hd =>
      refine h.go ⟨hd.2, ?_⟩
      intro hopening
      exact Nat.eq_zero_of_not_pos (of_decide_eq_false hopening)
    · exact h
  · exact h

theorem collectKeepalive (h : ChannelsInv s) (d : DownstreamId) :
    ChannelsInv (s.collectKeepalive d) := by
  unfold Sv1Server.collectKeepalive
  split
  · split
    next c _ =>
      split
      · exact h.go trivial
      · exact h
    · exact h
  · exact h

theorem adjust (h : ChannelsInv s) (d : DownstreamId) (target : Target) (parked : Bool) :
    ChannelsInv (s.adjust d target parked) := by
  unfold Sv1Server.adjust
  split
  · split
    · exact h.go trivial
    · exact h
  · exact h

theorem takeUpstreamMessage (h : ChannelsInv s) (m : Sv1Message) :
    ChannelsInv (takeUpstreamMessage cfg s m) := by
  unfold Sv1Server.takeUpstreamMessage
  cases htask : s.task with
  | idle =>
    cases m with
    | openExtendedMiningChannelSuccess m =>
      dsimp only
      cases hr : s.requestIdToDownstreamId.lookup m.requestId with
      | some d =>
        refine h.move rfl (fun _ _ hr => KeyMap.lookup_erase_some hr) (fun _ _ hc => hc) rfl rfl ?_
        obtain ⟨hchannel, hqueued⟩ := h.waiting m.requestId d hr
        refine ⟨hchannel, hqueued, ?_⟩
        -- it was the only request of the miner
        intro r hr'
        rw [KeyMap.lookup_erase_eq] at hr'
        split at hr'
        · cases hr'
        next hne => exact hne (h.single r m.requestId d hr' hr)
      | none =>
        exact h.move rfl (fun _ _ hr => KeyMap.lookup_erase_some hr) (fun _ _ hc => hc) rfl rfl trivial
    | openMiningChannelError r code =>
      exact h.move rfl (fun _ _ hr => KeyMap.lookup_erase_some hr) (fun _ _ hc => hc) rfl rfl trivial
    | setExtranoncePrefix c p => exact h
    | newExtendedMiningJob m =>
      dsimp only
      split
      · exact h.move rfl (fun _ _ hr => hr) (fun _ _ hc => hc) rfl rfl trivial
      · exact h
    | setNewPrevHash m => exact h.move rfl (fun _ _ hr => hr) (fun _ _ hc => hc) rfl rfl trivial
    | setTarget c target =>
      dsimp only
      split
      · split
        · exact h.move rfl (fun _ _ hr => hr) (fun _ _ hc => hc) rfl rfl trivial
        · exact h
      · split
        · exact h
        · exact h.move rfl (fun _ _ hr => hr) (fun _ _ hc => hc) rfl rfl trivial
    | closeChannel c =>
      dsimp only
      split
      · exact h.move rfl (fun _ _ hr => hr) (fun _ _ hc => KeyMap.lookup_erase_some hc) rfl rfl
          (AList.lookup_erase c s.channelIdToDownstreamId)
      · exact h
  | _ => exact h

/-- A call of `handle_downstream_disconnect` begins. -/
theorem callDisconnect (h : ChannelsInv s) (d : DownstreamId) : ChannelsInv (s.callDisconnect d) := by
  refine ⟨h.single, h.waiting, h.routes, ?_, ?_⟩
  · intro c e hc
    rcases h.kept c e hc with he | ⟨k, hk, hfrees⟩
    · exact Or.inl he
    · exact Or.inr ⟨k, List.mem_cons_of_mem _ hk, hfrees⟩
  · exact h.task.congr rfl (fun _ _ hr => hr) fun _ _ hc => hc

theorem taskStep (h : ChannelsInv s) (hguards : ∀ d, s.task.guards = some d → d ∈ s.downstreams) :
    ChannelsInv (taskStep cfg s) := by
  have hgo : ∀ task : Task, s.Opens task → ChannelsInv { s with task := task } := fun _ => h.go
  have hopens := h.task
  unfold Sv1Server.taskStep
  cases htask : s.task with
  | idle => exact h
  | queueing d opening =>
    rw [htask] at hopens
    obtain ⟨hchannel, hqueued⟩ := hopens
    dsimp only
    split
    · refine h.setData ?_ ?_ ?_
      · intro r _
        exact ⟨hchannel, Nat.succ_pos _⟩
      · intro c hc
        exact h.routes c d hc
      · cases opening with
        | true => trivial
        | false =>
          refine ⟨?_, ?_, ?_⟩
          · simp only [Sv1Server.setData, Function.update_self]
            exact hchannel
          · simp only [Sv1Server.setData, Function.update_self]
            exact Nat.succ_pos _
          · -- a miner with a request has queued a message
            intro r hr
            have hpos := (h.waiting r d hr).2
            rw [hqueued rfl] at hpos
            exact absurd hpos (Nat.lt_irrefl 0)
    · exact hgo .idle trivial
  | checking d =>
    rw [htask] at hopens
    dsimp only
    split
    · exact hgo (.registering d) hopens
    · exact hgo .idle trivial
  | registering d =>
    rw [htask] at hopens
    have hwaits : s.Waits d := hopens
    constructor
    · intro r r' e hr hr'
      dsimp only at hr hr'
      rw [KeyMap.lookup_insert_eq] at hr hr'
      split at hr
      next heq =>
        cases hr
        split at hr'
        next heq' => exact heq.trans heq'.symm
        · exact absurd hr' (hwaits.requests r')
      · split at hr'
        · cases hr'
          exact absurd hr (hwaits.requests r)
        · exact h.single r r' e hr hr'
    · intro r e hr
      dsimp only at hr
      rw [KeyMap.lookup_insert_eq] at hr
      split at hr
      · cases hr
        exact ⟨hwaits.channel, hwaits.queued⟩
      · exact h.waiting r e hr
    · exact h.routes
    · exact h.kept
    · trivial
  | registered r d =>
    dsimp only
    split
    · exact hgo (.forwarding r d) trivial
    · exact hgo (.withdrawing r d) trivial
  | forwarding r d =>
    exact h.move rfl (fun _ _ hr => hr) (fun _ _ hc => hc) rfl rfl trivial
  | withdrawing r d =>
    exact h.move rfl (fun _ _ hr => KeyMap.lookup_erase_some hr) (fun _ _ hc => hc) rfl rfl trivial
  | orphaned c =>
    dsimp only
    split
    · exact hgo .idle trivial
    · exact hgo (.closing c) trivial
  | claimed c d =>
    rw [htask] at hopens
    dsimp only
    split
    · exact hgo (.guarded c d) hopens
    · exact hgo (.closing c) trivial
  | guarded c d =>
    rw [htask] at hopens
    have hwaits : s.Waits d := hopens
    refine h.setData ?_ ?_ ?_
    · intro r hr
      exact absurd hr (hwaits.requests r)
    · intro c' hc'
      have hsome := h.routes c' d hc'
      rw [hwaits.channel] at hsome
      cases hsome
    · simp only [Opens, Sv1Server.setData, Function.update_self]
      exact ⟨trivial, hwaits.queued⟩
  | assigned c d =>
    rw [htask] at hopens
    obtain ⟨hchannel, hqueued⟩ := hopens
    refine h.setData ?_ ?_ ?_
    · intro r hr
      have hnone := (h.waiting r d hr).1
      rw [hchannel] at hnone
      cases hnone
    · intro c' hc'
      exact h.routes c' d hc'
    · simp only [Opens, Sv1Server.setData, Function.update_self]
      exact ⟨hchannel, hqueued⟩
  | queueTaken c d queued =>
    have hd : d ∈ s.downstreams := hguards d (by rw [htask]; rfl)
    rw [htask] at hopens
    obtain ⟨hchannel, hqueued⟩ := hopens
    constructor
    · exact h.single
    · exact h.waiting
    · intro c' e hc'
      dsimp only at hc'
      rw [KeyMap.lookup_insert_eq] at hc'
      split at hc'
      next heq =>
        cases hc'
        rw [heq]
        exact hchannel
      · exact h.routes c' e hc'
    · intro c' e hc'
      dsimp only at hc'
      rw [KeyMap.lookup_insert_eq] at hc'
      split at hc'
      · cases hc'
        exact Or.inl hd
      · exact h.kept c' e hc'
    · exact hqueued
  | opened d queued =>
    rw [htask] at hopens
    exact h.move rfl (fun _ _ hr => hr) (fun _ _ hc => hc) rfl rfl hopens
  | replaying d queued =>
    dsimp only
    split
    · exact (h.callDisconnect d).go trivial
    · exact hgo .idle trivial
  | closing c => exact h.move rfl (fun _ _ hr => hr) (fun _ _ hc => hc) rfl rfl trivial
  | storing c job cleanJobs => exact h.move rfl (fun _ _ hr => hr) (fun _ _ hc => hc) rfl rfl trivial
  | retargeting d target => exact h.move rfl (fun _ _ hr => hr) (fun _ _ hc => hc) rfl rfl trivial
  | clearing c d =>
    rw [htask] at hopens
    have hnone : s.channelIdToDownstreamId.lookup c = none := hopens
    dsimp only
    split
    next hd =>
      refine h.setData ?_ ?_ trivial
      · intro r hr
        exact ⟨rfl, (h.waiting r d hr).2⟩
      · -- the only route of the miner was that of `c`
        intro c' hc'
        have hsome := h.routes c' d hc'
        rw [hd.2] at hsome
        cases hsome
        rw [hnone] at hc'
        cases hc'
    · exact hgo .idle trivial
  | keptAlive c =>
    dsimp only
    unfold createKeepaliveJob
    split
    · exact hgo .idle trivial
    · split
      · exact hgo .idle trivial
      · exact h.move rfl (fun _ _ hr => hr) (fun _ _ hc => hc) rfl rfl trivial
  | adjusting d target parked =>
    exact h.move rfl (fun _ _ hr => hr) (fun _ _ hc => hc) rfl rfl trivial

/-- A call that is going to remove the route of a channel goes on. -/
theorem frees_cleanupStep (h : ChannelsInv s) {k : DownstreamId × Cleanup} (hk : k ∈ s.cleanups)
    {c : ChannelId} {d : DownstreamId} (hd : k.1 = d) (hfrees : k.2.frees c)
    (hc : (cleanupStep cfg s k).channelIdToDownstreamId.lookup c = some d) :
    ∃ k' ∈ (cleanupStep cfg s k).cleanups, k'.1 = d ∧ k'.2.frees c := by
  have ht : Shrinks s (cleanupStep cfg s k) := shrinks_cleanupStep hk
  have hroute := ht.routes c d hc
  obtain ⟨e, at_⟩ := k
  cases at_ with
  | removed present =>
    have hpresent : present = true := hfrees
    subst hpresent
    exact ⟨(e, .retained), List.mem_cons_self, hd, trivial⟩
  | retained =>
    have hchannel := h.routes c d hroute
    rw [← hd] at hchannel
    unfold Sv1Server.cleanupStep
    dsimp only at hchannel ⊢
    rw [hchannel]
    exact ⟨(e, .channelRead c), List.mem_cons_self, hd, rfl⟩
  | channelRead c' =>
    have hc' : c' = c := hfrees
    subst hc'
    unfold Sv1Server.cleanupStep at hc
    dsimp only at hc
    rw [AList.lookup_erase c' s.channelIdToDownstreamId] at hc
    cases hc
  | _ => cases hfrees

theorem cleanupStep (h : ChannelsInv s) {k : DownstreamId × Cleanup} (hk : k ∈ s.cleanups) :
    ChannelsInv (cleanupStep cfg s k) := by
  have ht : Shrinks s (Sv1Server.cleanupStep cfg s k) := shrinks_cleanupStep hk
  constructor
  · intro r r' d hr hr'
    exact h.single r r' d (ht.requests r d hr) (ht.requests r' d hr')
  · rw [ht.data]
    intro r d hr
    exact h.waiting r d (ht.requests r d hr)
  · rw [ht.data]
    intro c d hc
    exact h.routes c d (ht.routes c d hc)
  · intro c d hc
    rcases h.kept c d (ht.routes c d hc) with hd | ⟨k₀, hk₀, hd, hfrees⟩
    · rcases downstreams_or_removed (k := k) hd with hd | hremoved
      · exact Or.inl hd
      · exact Or.inr ⟨(d, .removed true), hremoved, rfl, rfl⟩
    · by_cases heq : k₀ = k
      · subst heq
        exact Or.inr (h.frees_cleanupStep hk hd hfrees hc)
      · exact Or.inr ⟨k₀, others_kept hk₀ heq, hd, hfrees⟩
  · rw [ht.task]
    exact h.task.congr ht.data ht.requests ht.routes

end ChannelsInv

/-! ## The history of a channel -/

/-- A channel has jobs only once it has a prev-hash, and that only while it has a miner. -/
structure HistoryInv (s : Sv1Server) : Prop where
  jobs : ∀ c, s.prevhashes.lookup c = none → s.validSv1Jobs.lookup c = none
  prevhashes : ∀ c, s.channelIdToDownstreamId.lookup c = none → s.prevhashes.lookup c = none
  task : ∀ c job cleanJobs, s.task = .storing c job cleanJobs → s.prevhashes.lookup c ≠ none

theorem historyInv_start : HistoryInv start := by
  constructor
  · intro c _
    rfl
  · intro c _
    rfl
  · intro c job cleanJobs h
    cases h

namespace HistoryInv

variable {cfg : Sv1Config} {s t : Sv1Server}

/-- The histories stay, and so do the routes. -/
theorem keep (h : HistoryInv s) (hprevhashes : t.prevhashes = s.prevhashes)
    (hjobs : ∀ c, s.validSv1Jobs.lookup c = none → t.validSv1Jobs.lookup c = none)
    (hroutes : ∀ c, t.channelIdToDownstreamId.lookup c = none →
      s.channelIdToDownstreamId.lookup c = none ∨ s.prevhashes.lookup c = none)
    (htask : ∀ c job cleanJobs, t.task = .storing c job cleanJobs →
      s.prevhashes.lookup c ≠ none) : HistoryInv t := by
  constructor
  · rw [hprevhashes]
    intro c hc
    exact hjobs c (h.jobs c hc)
  · rw [hprevhashes]
    intro c hc
    rcases hroutes c hc with hnone | hnone
    · exact h.prevhashes c hnone
    · exact hnone
  · rw [hprevhashes]
    exact htask

/-- The task moves to a place where it has no job to store. -/
theorem go (h : HistoryInv s) (hprevhashes : t.prevhashes = s.prevhashes)
    (hjobs : t.validSv1Jobs = s.validSv1Jobs)
    (hroutes : t.channelIdToDownstreamId = s.channelIdToDownstreamId)
    (htask : ∀ c job cleanJobs, t.task ≠ .storing c job cleanJobs) : HistoryInv t := by
  refine h.keep hprevhashes ?_ ?_ ?_
  · rw [hjobs]
    exact fun _ hc => hc
  · rw [hroutes]
    exact fun _ hc => Or.inl hc
  · intro c job cleanJobs hstoring
    exact absurd hstoring (htask c job cleanJobs)

theorem takeSetupMessage (h : HistoryInv s) (d : DownstreamId) :
    HistoryInv (s.takeSetupMessage d) := by
  unfold Sv1Server.takeSetupMessage
  split
  · split
    · refine h.go rfl rfl rfl ?_
      intro c job cleanJobs hstoring
      cases hstoring
    · exact h
  · exact h

theorem collectKeepalive (h : HistoryInv s) (d : DownstreamId) :
    HistoryInv (s.collectKeepalive d) := by
  unfold Sv1Server.collectKeepalive
  split
  · split
    · split
      · refine h.go rfl rfl rfl ?_
        intro c job cleanJobs hstoring
        cases hstoring
      · exact h
    · exact h
  · exact h

theorem adjust (h : HistoryInv s) (d : DownstreamId) (target : Target) (parked : Bool) :
    HistoryInv (s.adjust d target parked) := by
  unfold Sv1Server.adjust
  split
  · split
    · refine h.go rfl rfl rfl ?_
      intro c job cleanJobs hstoring
      cases hstoring
    · exact h
  · exact h

theorem takeUpstreamMessage (h : HistoryInv s) (m : Sv1Message)
    (hok : tidy s (.upstreamMessage m)) : HistoryInv (takeUpstreamMessage cfg s m) := by
  unfold tidy at hok
  unfold Sv1Server.takeUpstreamMessage
  cases htask : s.task with
  | idle =>
    rw [htask] at hok
    cases m with
    | openExtendedMiningChannelSuccess m =>
      dsimp only
      refine h.go rfl rfl rfl ?_
      intro c job cleanJobs hstoring
      dsimp only at hstoring
      split at hstoring <;> cases hstoring
    | openMiningChannelError r code =>
      refine h.go rfl rfl rfl ?_
      intro c job cleanJobs hstoring
      cases hstoring
    | setExtranoncePrefix c p => exact h
    | newExtendedMiningJob m =>
      dsimp only
      split
      next prevhash hprevhash =>
        refine h.keep rfl (fun _ hc => hc) (fun _ hc => Or.inl hc) ?_
        intro c job cleanJobs hstoring
        cases hstoring
        rw [hprevhash]
        exact Option.some_ne_none prevhash
      · exact h
    | setNewPrevHash m =>
      have hroute : s.channelIdToDownstreamId.lookup m.channelId ≠ none := hok
      constructor
      · intro c hc
        dsimp only at hc
        rw [KeyMap.lookup_insert_eq] at hc
        split at hc
        · cases hc
        · exact h.jobs c hc
      · intro c hc
        dsimp only at hc ⊢
        rw [KeyMap.lookup_insert_eq]
        split
        next heq =>
          rw [heq] at hc
          exact absurd hc hroute
        · exact h.prevhashes c hc
      · intro c job cleanJobs hstoring
        cases hstoring
    | setTarget c target =>
      dsimp only
      split
      · split
        · refine h.go rfl rfl rfl ?_
          intro c job cleanJobs hstoring
          cases hstoring
        · exact h
      · split
        · exact h
        · refine h.go rfl rfl rfl ?_
          intro c job cleanJobs hstoring
          cases hstoring
    | closeChannel c =>
      have hroute : s.channelIdToDownstreamId.lookup c = none ∨ s.prevhashes.lookup c = none := hok
      dsimp only
      split
      next d hd =>
        have hnone : s.prevhashes.lookup c = none := by
          rcases hroute with hnone | hnone
          · rw [hnone] at hd
            cases hd
          · exact hnone
        refine h.keep rfl (fun _ hc => hc) ?_ ?_
        · intro c' hc'
          dsimp only at hc'
          rw [KeyMap.lookup_erase_eq] at hc'
          split at hc'
          next heq =>
            rw [heq]
            exact Or.inr hnone
          · exact Or.inl hc'
        · intro c' job cleanJobs hstoring
          cases hstoring
      · exact h
  | _ => exact h

theorem createKeepaliveJob (h : HistoryInv s) (c : ChannelId) :
    HistoryInv { createKeepaliveJob cfg s c with task := .idle } := by
  have hidle : ∀ c' job cleanJobs, Task.idle ≠ .storing c' job cleanJobs := by
    intro c' job cleanJobs hstoring
    cases hstoring
  unfold Sv1Server.createKeepaliveJob
  split
  · exact h.go rfl rfl rfl hidle
  · split
    · exact h.go rfl rfl rfl hidle
    · refine h.keep rfl ?_ (fun _ hc => Or.inl hc) ?_
      · -- a history that was removed is not made again
        intro c' hc'
        dsimp only
        rw [KeyMap.lookup_modify]
        split
        next heq =>
          rw [← heq, hc']
          rfl
        · exact hc'
      · intro c' job cleanJobs hstoring
        cases hstoring

theorem taskStep (h : HistoryInv s) : HistoryInv (taskStep cfg s) := by
  unfold Sv1Server.taskStep
  cases htask : s.task with
  | idle => exact h
  | queueing d opening =>
    dsimp only
    split
    · refine h.go rfl rfl rfl ?_
      intro c job cleanJobs hstoring
      dsimp only at hstoring
      split at hstoring <;> cases hstoring
    · refine h.go rfl rfl rfl ?_
      intro c job cleanJobs hstoring
      cases hstoring
  | queueTaken c d queued =>
    refine h.keep rfl (fun _ hc => hc) ?_ ?_
    · intro c' hc'
      dsimp only at hc'
      rw [KeyMap.lookup_insert_eq] at hc'
      split at hc'
      · cases hc'
      · exact Or.inl hc'
    · intro c job cleanJobs hstoring
      cases hstoring
  | storing c job cleanJobs =>
    have hprevhash := h.task c job cleanJobs htask
    refine ⟨?_, h.prevhashes, ?_⟩
    · intro c' hc'
      dsimp only at hc' ⊢
      rw [KeyMap.lookup_insert_eq]
      split
      next heq =>
        rw [heq] at hc'
        exact absurd hc' hprevhash
      · exact h.jobs c' hc'
    · intro c' job' cleanJobs' hstoring
      cases hstoring
  | keptAlive c => exact h.createKeepaliveJob c
  | replaying d queued =>
    dsimp only
    split
    · refine h.go rfl rfl rfl ?_
      intro c job cleanJobs hstoring
      cases hstoring
    · refine h.go rfl rfl rfl ?_
      intro c job cleanJobs hstoring
      cases hstoring
  | clearing c d =>
    dsimp only
    split
    · refine h.go rfl rfl rfl ?_
      intro c job cleanJobs hstoring
      cases hstoring
    · refine h.go rfl rfl rfl ?_
      intro c job cleanJobs hstoring
      cases hstoring
  | _ =>
    refine h.go rfl rfl rfl ?_
    intro c job cleanJobs hstoring
    dsimp only at hstoring
    first
      | cases hstoring
      | split at hstoring <;> cases hstoring

theorem cleanupStep (h : HistoryInv s) {k : DownstreamId × Cleanup} (hk : k ∈ s.cleanups)
    (hok : tidy s (.cleanup k)) : HistoryInv (cleanupStep cfg s k) := by
  have ht : Shrinks s (Sv1Server.cleanupStep cfg s k) := shrinks_cleanupStep hk
  refine h.keep ht.prevhashes ?_ ?_ ?_
  · rw [ht.jobs]
    exact fun _ hc => hc
  · intro c hc
    obtain ⟨e, at_⟩ := k
    cases at_ with
    | channelRead c' =>
      unfold Sv1Server.cleanupStep at hc
      dsimp only at hc
      rw [KeyMap.lookup_erase_eq] at hc
      split at hc
      next heq =>
        rw [heq]
        exact Or.inr (hok hk)
      · exact Or.inl hc
    | started =>
      unfold Sv1Server.cleanupStep at hc
      dsimp only at hc
      split_ifs at hc <;> exact Or.inl hc
    | senderRemoved =>
      unfold Sv1Server.cleanupStep at hc
      dsimp only at hc
      split at hc <;> exact Or.inl hc
    | removed present => cases present <;> exact Or.inl hc
    | retained =>
      unfold Sv1Server.cleanupStep at hc
      dsimp only at hc
      split at hc <;> exact Or.inl hc
    | _ => exact Or.inl hc
  · rw [ht.task]
    exact h.task

end HistoryInv

/-! ## Runs -/

/-- What holds between two steps of a run that keeps to the condition. -/
structure MapsInv (cfg : Sv1Config) (s : Sv1Server) : Prop where
  miners : MinersInv cfg s
  channels : ChannelsInv s
  history : HistoryInv s

section Runs

variable {cfg : Sv1Config} {s : Sv1Server}

theorem mapsInv_start (cfg : Sv1Config) : MapsInv cfg start :=
  ⟨minersInv_start cfg, channelsInv_start, historyInv_start⟩

theorem mapsInv_step (s : Sv1Server) (a : Action) (h : MapsInv cfg s) (hok : tidy s a) :
    MapsInv cfg (step cfg s a) := by
  obtain ⟨hminers, hchannels, hhistory⟩ := h
  have htakes : ∀ {t : Sv1Server}, Serves cfg s t → (s.task ≠ .idle → t = s) →
      MinersInv cfg t := by
    intro t ht hbusy
    by_cases hidle : s.task = .idle
    · exact hminers.serves ht
    · rw [hbusy hidle]
      exact hminers
  cases a with
  | accept =>
    refine ⟨hminers.accept, ?_, hhistory.keep rfl (fun _ hc => hc) (fun _ hc => Or.inl hc) hhistory.task⟩
    refine ⟨hchannels.single, hchannels.waiting, hchannels.routes, ?_, ?_⟩
    · intro c d hc
      rcases hchannels.kept c d hc with hd | hcall
      · exact Or.inl (Finset.mem_insert_of_mem hd)
      · exact Or.inr hcall
    · exact hchannels.task.congr rfl (fun _ _ hr => hr) fun _ _ hc => hc
  | setupMessage d =>
    refine ⟨htakes (serves_takeSetupMessage cfg s d) ?_, hchannels.takeSetupMessage d,
      hhistory.takeSetupMessage d⟩
    intro hbusy
    exact (takes_when_idle cfg hbusy d (.closeChannel 0) 0 false).1
  | upstreamMessage m =>
    refine ⟨htakes (serves_takeUpstreamMessage cfg s m) ?_, hchannels.takeUpstreamMessage m,
      hhistory.takeUpstreamMessage m hok⟩
    intro hbusy
    exact (takes_when_idle cfg hbusy 0 m 0 false).2.1
  | keepalive d =>
    refine ⟨htakes (serves_collectKeepalive cfg s d) ?_, hchannels.collectKeepalive d,
      hhistory.collectKeepalive d⟩
    intro hbusy
    exact (takes_when_idle cfg hbusy d (.closeChannel 0) 0 false).2.2.1
  | adjust d target parked =>
    refine ⟨htakes (serves_adjust cfg s d target parked) ?_, hchannels.adjust d target parked,
      hhistory.adjust d target parked⟩
    intro hbusy
    exact (takes_when_idle cfg hbusy d (.closeChannel 0) target parked).2.2.2
  | task =>
    refine ⟨hminers.taskStep ?_, hchannels.taskStep hminers.guards, hhistory.taskStep⟩
    intro d queued htask
    have hopens := hchannels.task
    rw [htask] at hopens
    exact hopens
  | disconnect d =>
    dsimp only [step]
    split
    next hd =>
      have hcalled := hchannels.callDisconnect d
      refine ⟨(hminers.close d).callDisconnect hd ?_,
        ⟨hcalled.single, hcalled.waiting, hcalled.routes, hcalled.kept,
          hcalled.task.congr rfl (fun _ _ hr => hr) fun _ _ hc => hc⟩,
        hhistory.keep rfl (fun _ hc => hc) (fun _ hc => Or.inl hc) hhistory.task⟩
      rintro ⟨-, hopen⟩
      exact hopen (Finset.mem_insert_self d s.closed)
    · exact ⟨hminers, hchannels, hhistory⟩
  | cleanup k =>
    dsimp only [step]
    split
    next hk =>
      exact ⟨hminers.cleanupStep hk, hchannels.cleanupStep hk, hhistory.cleanupStep hk hok⟩
    · exact ⟨hminers, hchannels, hhistory⟩

theorem MapsInv.nothingLeft (h : MapsInv cfg s) : NothingLeft s := by
  constructor
  · intro d hd
    constructor
    · intro hmem
      exact hd.not_ahead (h.miners.downstreams d hmem)
    · intro hmem
      exact hd.not_ahead (h.miners.sender d hmem)
    · intro r hr
      rcases h.miners.requests r d hr with hasks | ha
      · -- the task that has made the request serves the miner
        apply hd.noTask
        cases htask : s.task with
        | registered r' d' =>
          rw [htask] at hasks
          cases hasks
          rfl
        | withdrawing r' d' =>
          rw [htask] at hasks
          cases hasks
          rfl
        | _ =>
          rw [htask] at hasks
          cases hasks
      · exact hd.not_ahead ha
    · intro c hc
      rcases h.channels.kept c d hc with hmem | ⟨k, hk, hkd, -⟩
      · exact hd.not_ahead (h.miners.downstreams d hmem)
      · exact hd.noCall k hk hkd
    · intro hmem
      rcases (h.miners.vardiff d hmem).2 with ha | hopens
      · exact hd.not_ahead ha
      · -- the messages of the miner are still to be replayed
        apply hd.noTask
        cases htask : s.task with
        | opened d' queued =>
          rw [htask] at hopens
          exact hopens
        | replaying d' queued =>
          rw [htask] at hopens
          exact hopens
        | _ =>
          rw [htask] at hopens
          cases hopens
    · apply Option.eq_none_iff_forall_ne_some.mpr
      intro target htarget
      exact hd.not_ahead (h.miners.pending d target htarget).2
  · intro c hc
    have hprevhash := h.history.prevhashes c hc
    exact ⟨hprevhash, h.history.jobs c hprevhash⟩

/-- In a run that keeps to the condition, nothing outlives a miner. -/
theorem nothing_outlives (cfg : Sv1Config) (as : List Action)
    (hg : Runs.Guarded (step cfg) tidy start as) : NothingLeft (after cfg as) :=
  (Runs.run_invariant_of_guarded (MapsInv cfg) mapsInv_step (mapsInv_start cfg) as hg).nothingLeft

end Runs

/-! ## A server to try things on -/

def sampleSv1Config : Sv1Config :=
  ⟨true, 60, 4, none, "farm", fun p m cleanJobs =>
    ⟨⟨m.jobId, none⟩, p.prevHash, p.minNtime, cleanJobs, m⟩⟩

/-- The first miner connects and asks for a channel; channel 5 is opened for it.  The vardiff state
    comes next. -/
def openingRun : List Action :=
  [.accept, .setupMessage 1, .task, .task, .task, .task, .task,
   .upstreamMessage (.openExtendedMiningChannelSuccess ⟨1, 5, 9, 4, ⟨[7], by decide⟩, 1⟩),
   .task, .task, .task, .task]

/-- A call of `handle_downstream_disconnect` for the first miner, which takes it out of
    `downstreams`, or does not find it there any more. -/
def leavingCall : Bool → List Action
  | true =>
    [.cleanup (1, .started), .cleanup (1, .vardiffRemoved), .cleanup (1, .targetsRemoved),
     .cleanup (1, .senderRemoved), .cleanup (1, .removed true), .cleanup (1, .retained),
     .cleanup (1, .channelRead 5), .cleanup (1, .unrouted 5)]
  | false =>
    [.cleanup (1, .started), .cleanup (1, .vardiffRemoved), .cleanup (1, .targetsRemoved),
     .cleanup (1, .senderRemoved), .cleanup (1, .removed false)]

/-- The miner leaves before its vardiff state is made, and before the channel has a prev-hash; the
    replay calls for a second disconnect. -/
def leavingRun : List Action :=
  openingRun ++ [.disconnect 1] ++ leavingCall true ++ [.task, .task] ++ leavingCall false

theorem nothing_outlives_leavingRun :
    (after sampleSv1Config leavingRun).Gone 1 ∧ NothingLeft (after sampleSv1Config leavingRun) := by
  have hg : Runs.Guarded (step sampleSv1Config) tidy start leavingRun := by
    decide +kernel
  exact ⟨⟨by decide +kernel, by decide +kernel, by decide +kernel⟩, nothing_outlives _ _ hg⟩

/-- It leaves after the first prev-hash. -/
theorem not_nothingLeft :
    ¬NothingLeft (after sampleSv1Config (openingRun ++ [.task, .task,
      .upstreamMessage (.setNewPrevHash ⟨5, 1, Hash256.allZeros, 100, 0x207fffff⟩),
      .disconnect 1] ++ leavingCall true)) := by
  intro h
  exact absurd (h.channels 5 (by decide +kernel)).prevhash (by decide +kernel)

end Sv1Server

end Sv2Apps.Translator
