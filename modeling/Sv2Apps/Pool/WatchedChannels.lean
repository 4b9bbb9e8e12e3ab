/-
  Pool/WatchedChannels.lean
  =========================
  **What the pool's maps say about each other** — the vardiff map watches the open channels, and a
  connection keeps its sender as long as it is registered; what a miner was told agrees with the
  channels of its connection (`Inv`).

  Most steps are frames: they serve every connection and take nothing away (`Frame`).  The others
  are the registration of a connection, the opening and closing of a channel, and the steps of
  `remove_downstream` (`Removed`), which takes the connection first, so that no other map is short
  of an entry that a registered connection needs.
-/
import Sv2Apps.Pool.TargetHandlers

namespace Sv2Apps.Pool.Difficulty

open Bitcoin SeriesTable
open ChannelManager (Downstream MiningMessage OpenMiningChannel AllocationAnswer
  ConstructionAnswer TemplateMessage Reply Fault OpenChannel)

variable {Ch V F32 : Type}

namespace PoolState

/-! ## The invariant -/

/-- A call of `remove_downstream` is about to take this step. -/
def Removing (s : PoolState Ch V) (d : DownstreamId) (step : RemovalStep) : Prop :=
  s.removals.lookup d = some step ∨ s.phase = .removing d step

/-- The vardiff states of the connection are still to be taken away. -/
def Leaving (s : PoolState Ch V) (d : DownstreamId) : Prop :=
  ∃ step, step ≠ .downstreamSender ∧ s.Removing d step

/-- What was sent to the miner or will be by the messages already collected. -/
def log (s : PoolState Ch V) (d : DownstreamId) : List ToMiner :=
  (s.downstreamSender.lookup d).getD [] ++ s.phase.pending.filterMap (forMiner d)

/-- The loop neither was told to stop nor has panicked. -/
def Running (s : PoolState Ch V) : Prop :=
  s.manager.cancelled = false ∧ s.manager.loop ≠ .stopped

/-- A channel with this id is open on the connection. -/
def IsOpen (s : PoolState Ch V) (d : DownstreamId) (channelId : ChannelId) : Prop :=
  ∃ ds kind, s.manager.downstreams.lookup d = some ds ∧
    ((channels ds kind).lookup channelId).isSome = true

/-- The ids of the accept tasks have been given out. -/
def Accepted (m : ChannelManager Ch) : Prop :=
  ∀ d, (m.accepting.lookup d).isSome = true → d < m.downstreamIdFactory

/-- After at most `n` channels have been opened. -/
structure Inv (api : Mining Ch V F32) (n : Nat) (s : PoolState Ch V) : Prop where
  numbered : ∀ d ds, s.manager.downstreams.lookup d = some ds → Numbered n ds
  accepted : Accepted s.manager
  known : ∀ d, (s.manager.downstreams.lookup d).isSome = true → s.knows d = true
  gone : ∀ d step, s.Removing d step → s.knows d = true ∧
    (step ≠ .downstreams → s.manager.downstreams.lookup d = none)
  watched : ∀ d channelId, s.IsOpen d channelId → (s.vardiff.lookup (d, channelId)).isSome = true
  connected : ∀ d, (s.manager.downstreams.lookup d).isSome = true →
    (s.downstreamSender.lookup d).isSome = true
  told : ∀ d ds, s.manager.downstreams.lookup d = some ds → Agrees api ds (s.log d)
  strays : ∀ d channelId, (s.vardiff.lookup (d, channelId)).isSome = true →
    s.IsOpen d channelId ∨ s.phase = .closing (d, channelId) ∨ s.Leaving d
  senders : ∀ d, (s.downstreamSender.lookup d).isSome = true →
    (s.manager.downstreams.lookup d).isSome = true ∨
    (s.manager.accepting.lookup d).isSome = true ∨ ∃ step, s.Removing d step
  keeping : ∀ d, Keeping (s.log d)
  closed : ∀ d channelId, s.phase = .closing (d, channelId) → ¬ s.IsOpen d channelId

/-! ## Steps that open, close and remove nothing -/

/-- The step serves every connection, and takes nothing away. -/
structure Frame (api : Mining Ch V F32) (s s' : PoolState Ch V) : Prop where
  serves : ∀ d ds', s'.manager.downstreams.lookup d = some ds' →
    ∃ ds new, s.manager.downstreams.lookup d = some ds ∧ Serves api ds ds' new ∧
      s'.log d = s.log d ++ new
  kept : ∀ d, (s.manager.downstreams.lookup d).isSome = true →
    (s'.manager.downstreams.lookup d).isSome = true
  knows : ∀ d, s'.knows d = s.knows d
  accepting : ∀ d, (s.manager.accepting.lookup d).isSome = true →
    (s'.manager.accepting.lookup d).isSome = true
  accepted : Accepted s.manager → Accepted s'.manager
  vardiff : ∀ key, (s'.vardiff.lookup key).isSome = (s.vardiff.lookup key).isSome
  connected : ∀ d, (s.downstreamSender.lookup d).isSome = true →
    (s'.downstreamSender.lookup d).isSome = true
  senders : ∀ d, (s'.downstreamSender.lookup d).isSome = true →
    (s.downstreamSender.lookup d).isSome = true ∨ (s.manager.accepting.lookup d).isSome = true
  removing : ∀ d step, s'.Removing d step →
    s.Removing d step ∨ (step = .downstreams ∧ s.knows d = true)
  removes : ∀ d step, s.Removing d step → s'.Removing d step
  closing : ∀ key, s'.phase = .closing key ↔ s.phase = .closing key
  keeping : ∀ d m, m ∈ s'.log d → m ∈ s.log d ∨ m.closes = false

section Frames

variable {api : Mining Ch V F32} {s s' : PoolState Ch V} {n : Nat}

theorem IsOpen.kept (hf : Frame api s s') {d : DownstreamId} {channelId : ChannelId}
    (h : s.IsOpen d channelId) : s'.IsOpen d channelId := by
  obtain ⟨ds, kind, hds, hopen⟩ := h
  obtain ⟨ds', hds'⟩ := Option.isSome_iff_exists.mp (hf.kept d (by rw [hds]; rfl))
  obtain ⟨ds₀, new, hds₀, hs, -⟩ := hf.serves d ds' hds'
  rw [hds] at hds₀
  obtain rfl := Option.some.inj hds₀
  exact ⟨ds', kind, hds', by rw [hs.opened]; exact hopen⟩

theorem IsOpen.was (hf : Frame api s s') {d : DownstreamId} {channelId : ChannelId}
    (h : s'.IsOpen d channelId) : s.IsOpen d channelId := by
  obtain ⟨ds', kind, hds', hopen⟩ := h
  obtain ⟨ds, new, hds, hs, -⟩ := hf.serves d ds' hds'
  rw [hs.opened] at hopen
  exact ⟨ds, kind, hds, hopen⟩

theorem Inv.framed (h : Inv api n s) (hn : n + 3 < 2 ^ 32) (hf : Frame api s s') :
    Inv api (n + 1) s' := by
  refine ⟨?_, hf.accepted h.accepted, ?_, ?_, ?_, ?_, ?_, ?_, ?_, ?_, ?_⟩
  · intro d ds' hds'
    obtain ⟨ds, new, hds, hs, -⟩ := hf.serves d ds' hds'
    exact (h.numbered d ds hds).served hn hs
  · intro d hd
    obtain ⟨ds', hds'⟩ := Option.isSome_iff_exists.mp hd
    obtain ⟨ds, new, hds, -⟩ := hf.serves d ds' hds'
    rw [hf.knows]
    exact h.known d (by rw [hds]; rfl)
  · intro d step hstep
    rw [hf.knows]
    rcases hf.removing d step hstep with hold | ⟨rfl, hknown⟩
    · obtain ⟨hknown, hnone⟩ := h.gone d step hold
      refine ⟨hknown, ?_⟩
      intro hne
      cases hds' : s'.manager.downstreams.lookup d with
      | none => rfl
      | some ds' =>
        obtain ⟨ds, new, hds, -⟩ := hf.serves d ds' hds'
        rw [hnone hne] at hds
        cases hds
    · exact ⟨hknown, fun hne => absurd rfl hne⟩
  · intro d channelId hopen
    rw [hf.vardiff]
    exact h.watched d channelId (hopen.was hf)
  · intro d hd
    obtain ⟨ds', hds'⟩ := Option.isSome_iff_exists.mp hd
    obtain ⟨ds, new, hds, -⟩ := hf.serves d ds' hds'
    exact hf.connected d (h.connected d (by rw [hds]; rfl))
  · intro d ds' hds'
    obtain ⟨ds, new, hds, hs, hlog⟩ := hf.serves d ds' hds'
    rw [hlog]
    exact (h.told d ds hds).follow hs.follows
  · intro d channelId hkey
    rw [hf.vardiff] at hkey
    rcases h.strays d channelId hkey with hopen | hclosing | ⟨step, hne, hstep⟩
    · exact .inl (hopen.kept hf)
    · exact .inr (.inl ((hf.closing _).mpr hclosing))
    · exact .inr (.inr ⟨step, hne, hf.removes d step hstep⟩)
  · intro d hd
    rcases hf.senders d hd with hold | haccepting
    · rcases h.senders d hold with hreg | haccepting | ⟨step, hstep⟩
      · exact .inl (hf.kept d hreg)
      · exact .inr (.inl (hf.accepting d haccepting))
      · exact .inr (.inr ⟨step, hf.removes d step hstep⟩)
    · exact .inr (.inl (hf.accepting d haccepting))
  · intro d m hm
    rcases hf.keeping d m hm with hold | hnew
    · exact h.keeping d m hold
    · exact hnew
  · intro d channelId hclosing hopen
    exact h.closed d channelId ((hf.closing _).mp hclosing) (hopen.was hf)

theorem Inv.mono (h : Inv api n s) : Inv api (n + 1) s :=
  { h with numbered := fun d ds hds => (h.numbered d ds hds).mono }

/-- Only the state of `Pool/ChannelManager` changes, and its connections are served. -/
theorem Frame.of_manager (m : ChannelManager Ch)
    (hserves : ∀ d ds', m.downstreams.lookup d = some ds' →
      ∃ ds, s.manager.downstreams.lookup d = some ds ∧ Serves api ds ds' [])
    (hkept : ∀ d, (s.manager.downstreams.lookup d).isSome = true →
      (m.downstreams.lookup d).isSome = true)
    (hknows : ∀ d, ({ s with manager := m } : PoolState Ch V).knows d = s.knows d)
    (haccepting : ∀ d, (s.manager.accepting.lookup d).isSome = true →
      (m.accepting.lookup d).isSome = true)
    (haccepted : Accepted s.manager → Accepted m) :
    Frame api s { s with manager := m } := by
  refine ⟨?_, hkept, hknows, haccepting, haccepted, fun _ => rfl, fun _ h => h, fun _ h => .inl h,
    fun _ _ h => .inl h, fun _ _ h => h, fun _ => Iff.rfl, fun _ _ h => .inl h⟩
  intro d ds' hds'
  obtain ⟨ds, hds, hs⟩ := hserves d ds' hds'
  exact ⟨ds, [], hds, hs, (List.append_nil _).symm⟩

/-- A handler of one connection that opens and closes no channel. -/
theorem Frame.collected {d : DownstreamId} {ds ds' : Downstream Ch}
    {messages : List RouteMessageTo} (hds : s.manager.downstreams.lookup d = some ds)
    (hc : Collects api d ds ds' messages) {vardiff : KeyMap VardiffKey V} {phase : Phase}
    (hvardiff : ∀ key, (vardiff.lookup key).isSome = (s.vardiff.lookup key).isSome)
    (hpending : phase.pending = s.phase.pending ++ messages)
    (hclosing : ∀ key, s.phase ≠ .closing key) (hcloses : ∀ key, phase ≠ .closing key)
    (hremoving : ∀ d step, s.phase ≠ .removing d step)
    (hremoves : ∀ d' step, phase = .removing d' step → step = .downstreams ∧ s.knows d' = true) :
    Frame api s { s.putDownstream d ds' with vardiff := vardiff, phase := phase } := by
  have hlog : ∀ d', ({ s.putDownstream d ds' with vardiff := vardiff, phase := phase } :
      PoolState Ch V).log d' = s.log d' ++ messages.filterMap (forMiner d') := by
    intro d'
    simp only [log, putDownstream, hpending, List.filterMap_append, List.append_assoc]
  refine ⟨?_, ?_, fun _ => rfl, fun _ h => h, fun h => h, hvardiff, fun _ h => h, fun _ h => .inl h, ?_, ?_, ?_, ?_⟩
  · intro d' ds₁ hds₁
    rw [hlog]
    simp only [putDownstream, KeyMap.lookup_insert_eq] at hds₁
    split at hds₁
    next heq =>
      subst heq
      obtain rfl := Option.some.inj hds₁
      exact ⟨ds, _, hds, hc.serves, rfl⟩
    next hne =>
      exact ⟨ds₁, _, hds₁, .refl (by simp [hc.addressed d' hne, lastTold, lastOf]), rfl⟩
  · intro d' hd'
    simp only [putDownstream, KeyMap.lookup_insert_eq]
    split
    · rfl
    · exact hd'
  · intro d' step hstep
    rcases hstep with hstep | hstep
    · exact .inl (.inl hstep)
    · exact .inr (hremoves d' step hstep)
  · intro d' step hstep
    rcases hstep with hstep | hstep
    · exact .inl hstep
    · exact absurd hstep (hremoving d' step)
  · intro key
    exact ⟨fun hkey => absurd hkey (hcloses key), fun hkey => absurd hkey (hclosing key)⟩
  · intro d' m hm
    rw [hlog] at hm
    rcases List.mem_append.mp hm with hold | hnew
    · exact .inl hold
    · right
      by_cases heq : d' = d
      · subst heq
        exact hc.keeping m hnew
      · rw [hc.addressed d' heq] at hnew
        cases hnew

end Frames

/-! ## The steps of `Pool/ChannelManager` -/

section Managers

variable {env : ChannelManager.Env Ch} {api : Mining Ch V F32} {s : PoolState Ch V} {n : Nat}

/-- The state the step leads to, while the loop runs. -/
theorem visit_frame (hl : api.Lawful env.channels) (d : DownstreamId)
    (hrun : (s.managerStep env (.visit d)).Running) :
    Frame api s (s.managerStep env (.visit d)) := by
  have hsame : Frame api s { s with manager := s.manager } :=
    .of_manager s.manager (fun d ds hds => ⟨ds, hds, .refl fun _ => rfl⟩) (fun _ h => h)
      (fun _ => rfl) (fun _ h => h) fun h => h
  unfold managerStep at hrun ⊢
  simp only [ChannelManager.step, ChannelManager.loopStep, ChannelManager.visit] at hrun ⊢
  split
  · exact hsame
  next hcancel =>
    rw [if_neg hcancel] at hrun
    split
    next msg present visited batches hloop =>
      simp only [hloop] at hrun
      split
      · exact hsame
      next hmem =>
        rw [if_neg hmem] at hrun
        split
        · exact hsame
        next ds hds =>
          simp only [hds] at hrun
          split
          next hvisit =>
            simp only [hvisit] at hrun
            exact absurd hrun.1 (by simp)
          next hvisit =>
            simp only [hvisit] at hrun
            exact absurd rfl hrun.2
          next ds' messages hvisit =>
            refine .of_manager _ ?_ ?_ (fun _ => rfl) (fun _ h => h) fun h => h
            · intro d' ds₁ hds₁
              dsimp only at hds₁
              rw [KeyMap.lookup_insert_eq] at hds₁
              split at hds₁
              next heq =>
                subst heq
                obtain rfl := Option.some.inj hds₁
                exact ⟨ds, hds, visit_serves hl hvisit⟩
              · exact ⟨ds₁, hds₁, .refl fun _ => rfl⟩
            · intro d' hd'
              dsimp only
              rw [KeyMap.lookup_insert_eq]
              split
              · rfl
              · exact hd'
    · exact hsame

/-- No connection comes, goes or changes. -/
theorem Frame.of_same {m : ChannelManager Ch} (hdownstreams : m.downstreams = s.manager.downstreams)
    (hfactory : m.downstreamIdFactory = s.manager.downstreamIdFactory)
    (haccepting : m.accepting = s.manager.accepting) :
    Frame api s { s with manager := m } := by
  refine .of_manager m ?_ ?_ ?_ ?_ ?_
  · intro d ds hds
    rw [hdownstreams] at hds
    exact ⟨ds, hds, .refl fun _ => rfl⟩
  · intro d hd
    rw [hdownstreams]
    exact hd
  · intro d
    simp only [PoolState.knows, hfactory, haccepting]
  · intro d hd
    rw [haccepting]
    exact hd
  · intro h
    rw [Accepted, haccepting, hfactory]
    exact h

theorem finish_frame : Frame api s (s.managerStep env .finish) := by
  have hsame : ∀ m : ChannelManager Ch, (m.step env .finish).downstreams = m.downstreams ∧
      (m.step env .finish).downstreamIdFactory = m.downstreamIdFactory ∧
      (m.step env .finish).accepting = m.accepting := by
    intro m
    simp only [ChannelManager.step, ChannelManager.loopStep, ChannelManager.finish]
    split
    · exact ⟨rfl, rfl, rfl⟩
    split
    · split <;> exact ⟨rfl, rfl, rfl⟩
    · exact ⟨rfl, rfl, rfl⟩
  obtain ⟨hdownstreams, hfactory, haccepting⟩ := hsame s.manager
  exact .of_same hdownstreams hfactory haccepting

theorem templateMessage_frame (msg : TemplateMessage) :
    Frame api s (s.managerStep env (.templateMessage msg)) := by
  have hsame : ∀ m : ChannelManager Ch,
      (m.step env (.templateMessage msg)).downstreams = m.downstreams ∧
      (m.step env (.templateMessage msg)).downstreamIdFactory = m.downstreamIdFactory ∧
      (m.step env (.templateMessage msg)).accepting = m.accepting := by
    intro m
    simp only [ChannelManager.step, ChannelManager.loopStep,
      ChannelManager.receiveTemplateMessage]
    split
    · exact ⟨rfl, rfl, rfl⟩
    split
    · cases msg with
      | newTemplate t =>
        dsimp only
        split <;> exact ⟨rfl, rfl, rfl⟩
      | setNewPrevHash p => exact ⟨rfl, rfl, rfl⟩
    · exact ⟨rfl, rfl, rfl⟩
  obtain ⟨hdownstreams, hfactory, haccepting⟩ := hsame s.manager
  exact .of_same hdownstreams hfactory haccepting

/-- The next id is taken by an accept task, so that it is not known yet. -/
theorem accept_frame : Frame api s (s.managerStep env .accept) := by
  have hsame : Frame api s { s with manager := s.manager } := .of_same rfl rfl rfl
  simp only [managerStep, ChannelManager.step, ChannelManager.accept]
  split
  · refine .of_manager _ (fun d ds hds => ⟨ds, hds, .refl fun _ => rfl⟩) (fun _ h => h) ?_ ?_ ?_
    · intro d
      simp only [knows, KeyMap.lookup_insert_eq]
      by_cases hd : d = s.manager.downstreamIdFactory
      · simp [hd]
      · have hlt : d < s.manager.downstreamIdFactory + 1 ↔ d < s.manager.downstreamIdFactory :=
          ⟨fun h => Nat.lt_of_le_of_ne (Nat.le_of_lt_succ h) hd, Nat.lt_succ_of_lt⟩
        simp only [if_neg hd, hlt]
    · intro d hd
      dsimp only
      rw [KeyMap.lookup_insert_eq]
      split
      · rfl
      · exact hd
    · intro h d hd
      rcases KeyMap.isSome_lookup_insert hd with rfl | hd
      · exact Nat.lt_succ_self _
      · exact Nat.lt_succ_of_lt (h d hd)
  · exact hsame

theorem bootstrap_frame (d : DownstreamId) (hrun : (s.managerStep env (.bootstrap d)).Running) :
    Frame api s (s.managerStep env (.bootstrap d)) := by
  have hsame : Frame api s { s with manager := s.manager } := .of_same rfl rfl rfl
  simp only [managerStep, ChannelManager.step, ChannelManager.bootstrap] at hrun ⊢
  split
  next t p htask hp =>
    simp only [htask, hp] at hrun
    split
    next hnone =>
      simp only [hnone] at hrun
      exact absurd hrun.1 (by simp)
    · refine .of_manager _ (fun d ds hds => ⟨ds, hds, .refl fun _ => rfl⟩) (fun _ h => h) ?_ ?_ ?_
      · intro d'
        simp only [knows, KeyMap.lookup_insert_eq]
        by_cases hd : d' = d
        · subst hd
          simp [htask]
        · simp [hd]
      · intro d' hd'
        dsimp only
        rw [KeyMap.lookup_insert_eq]
        split
        · rfl
        · exact hd'
      · intro h d' hd'
        rcases KeyMap.isSome_lookup_insert hd' with rfl | hd'
        · exact h d' (by rw [htask]; rfl)
        · exact h d' hd'
  · exact hsame

theorem setUpConnection_frame (d : DownstreamId) (std custom : Bool) :
    Frame api s (s.managerStep env (.setUpConnection d std custom)) := by
  simp only [managerStep, ChannelManager.step, ChannelManager.setUpConnection]
  refine .of_manager _ ?_ ?_ (fun _ => rfl) (fun _ h => h) fun h => h
  · intro d' ds' hds'
    dsimp only at hds'
    rw [KeyMap.lookup_modify] at hds'
    split at hds'
    next heq =>
      subst heq
      obtain ⟨ds, hds, rfl⟩ := Option.map_eq_some_iff.mp hds'
      refine ⟨ds, hds, ?_⟩
      split
      · exact .refl fun _ => rfl
      · apply serves_sameTargets
        · rfl
        · intro kind
          cases kind <;> exact .refl _
    · exact ⟨ds', hds', .refl fun _ => rfl⟩
  · intro d' hd'
    dsimp only
    rw [KeyMap.lookup_modify]
    split
    next heq =>
      subst heq
      rw [Option.isSome_map]
      exact hd'
    · exact hd'

/-- A new connection has no channels, and its sender is in the map. -/
theorem Inv.register (h : Inv api n s) (d : DownstreamId)
    (hsender : (s.downstreamSender.lookup d).isSome = true) :
    Inv api (n + 1) (s.managerStep env (.register d)) := by
  simp only [managerStep, ChannelManager.step, ChannelManager.register]
  split
  next g htask =>
    have hunknown : s.knows d = false := by simp [knows, htask]
    have hother : ∀ {d'}, s.knows d' = true → d' ≠ d := by
      rintro d' hd' rfl
      rw [hunknown] at hd'
      cases hd'
    have hknows : ∀ {d'}, d' ≠ d → (PoolState.knows { s with manager := { s.manager with
        downstreams := s.manager.downstreams.insert d (Downstream.new g)
        accepting := s.manager.accepting.erase d } } d') = s.knows d' := by
      intro d' hd'
      simp [PoolState.knows, hd']
    have hregistered : ∀ {d' ds'},
        (s.manager.downstreams.insert d (Downstream.new g)).lookup d' = some ds' →
        ds' = Downstream.new g ∧ d' = d ∨ s.manager.downstreams.lookup d' = some ds' := by
      intro d' ds' hds'
      rw [KeyMap.lookup_insert_eq] at hds'
      split at hds'
      next heq => exact .inl ⟨(Option.some.inj hds').symm, heq⟩
      · exact .inr hds'
    have hempty : ∀ kind channelId,
        ((channels (Downstream.new g) kind).lookup channelId).isSome = false := by
      intro kind channelId
      cases kind <;> rfl
    have hadded : ∀ {d'}, (s.manager.downstreams.lookup d').isSome = true →
        ((s.manager.downstreams.insert d (Downstream.new g)).lookup d').isSome = true := by
      intro d' hd'
      rw [KeyMap.lookup_insert_eq]
      split
      · rfl
      · exact hd'
    refine ⟨?_, ?_, ?_, ?_, ?_, ?_, ?_, ?_, ?_, h.keeping, ?_⟩
    · intro d' ds' hds'
      rcases hregistered hds' with ⟨rfl, rfl⟩ | hds'
      · refine ⟨by simp [Downstream.new], ?_, fun _ hopen => by cases hopen⟩
        intro kind channelId hopen
        rw [hempty] at hopen
        cases hopen
      · exact (h.numbered d' ds' hds').mono
    · intro d' hd'
      dsimp only at hd'
      rw [KeyMap.lookup_erase_eq] at hd'
      split at hd'
      · cases hd'
      · exact h.accepted d' hd'
    · intro d' hd'
      rcases KeyMap.isSome_lookup_insert hd' with rfl | hd'
      · simp only [PoolState.knows, AList.lookup_erase, Option.isNone_none, Bool.and_true,
          decide_eq_true_eq]
        exact h.accepted d' (by rw [htask]; rfl)
      · rw [hknows (hother (h.known d' hd'))]
        exact h.known d' hd'
    · intro d' step hstep
      obtain ⟨hknown, hnone⟩ := h.gone d' step hstep
      have hne := hother hknown
      refine ⟨by rw [hknows hne]; exact hknown, ?_⟩
      intro hstep
      dsimp only
      rw [KeyMap.lookup_insert_eq, if_neg hne]
      exact hnone hstep
    · rintro d' channelId ⟨ds', kind, hds', hopen⟩
      rcases hregistered hds' with ⟨rfl, rfl⟩ | hds'
      · rw [hempty] at hopen
        cases hopen
      · exact h.watched d' channelId ⟨ds', kind, hds', hopen⟩
    · intro d' hd'
      rcases KeyMap.isSome_lookup_insert hd' with rfl | hd'
      · exact hsender
      · exact h.connected d' hd'
    · intro d' ds' hds'
      rcases hregistered hds' with ⟨rfl, rfl⟩ | hds'
      · rintro channelId c ⟨kind, oc, hoc, -⟩
        have := hempty kind channelId
        rw [hoc] at this
        cases this
      · exact h.told d' ds' hds'
    · intro d' channelId hkey
      rcases h.strays d' channelId hkey with ⟨ds', kind, hds', hopen⟩ | hrest
      · have hne := hother (h.known d' (by rw [hds']; rfl))
        refine .inl ⟨ds', kind, ?_, hopen⟩
        dsimp only
        rw [KeyMap.lookup_insert_eq, if_neg hne]
        exact hds'
      · exact .inr hrest
    · intro d' hd'
      rcases h.senders d' hd' with hreg | haccepting | hrest
      · exact .inl (hadded hreg)
      · by_cases heq : d' = d
        · left
          dsimp only
          rw [KeyMap.lookup_insert_eq, if_pos heq]
          rfl
        · right
          left
          dsimp only
          rw [KeyMap.lookup_erase_eq, if_neg heq]
          exact haccepting
      · exact .inr (.inr hrest)
    · rintro d' channelId hclosing ⟨ds', kind, hds', hopen⟩
      rcases hregistered hds' with ⟨rfl, rfl⟩ | hds'
      · rw [hempty] at hopen
        cases hopen
      · exact h.closed d' channelId hclosing ⟨ds', kind, hds', hopen⟩
  · exact h.mono

theorem Frame.openSender {d : DownstreamId} {task : ChannelManager.AcceptTask Ch}
    (htask : s.manager.accepting.lookup d = some task) :
    Frame api s { s with
      downstreamSender := s.downstreamSender |> KeyMap.ensure d [] } := by
  have hlog : ∀ d', ({ s with downstreamSender := s.downstreamSender |> KeyMap.ensure d [] } :
      PoolState Ch V).log d' = s.log d' := by
    intro d'
    simp only [log, KeyMap.lookup_ensure]
    split
    next heq =>
      subst heq
      rfl
    · rfl
  refine ⟨?_, fun _ h => h, fun _ => rfl, fun _ h => h, fun h => h, fun _ => rfl, ?_, ?_,
    fun _ _ h => .inl h, fun _ _ h => h, fun _ => Iff.rfl, ?_⟩
  · intro d' ds' hds'
    exact ⟨ds', [], hds', .refl fun _ => rfl, by rw [hlog, List.append_nil]⟩
  · intro d' hd'
    dsimp only
    rw [KeyMap.lookup_ensure]
    split
    · rfl
    · exact hd'
  · intro d' hd'
    dsimp only at hd'
    rw [KeyMap.lookup_ensure] at hd'
    split at hd'
    next heq =>
      subst heq
      exact .inr (by rw [htask]; rfl)
    · exact .inl hd'
  · intro d' m hm
    rw [hlog] at hm
    exact .inl hm

end Managers

/-! ## Opening and closing a channel -/

section Channels

variable {env : ChannelManager.Env Ch} {api : Mining Ch V F32} {s : PoolState Ch V} {n : Nat}
  {d : DownstreamId} {ds ds' : Downstream Ch}

theorem lookup_putDownstream (s : PoolState Ch V) (d : DownstreamId) (ds : Downstream Ch)
    (d' : DownstreamId) : (s.putDownstream d ds).manager.downstreams.lookup d' =
      if d' = d then some ds else s.manager.downstreams.lookup d' :=
  KeyMap.lookup_insert_eq _ _ _ _

theorem isSome_putDownstream (hds : s.manager.downstreams.lookup d = some ds)
    (ds' : Downstream Ch) (d' : DownstreamId) :
    ((s.putDownstream d ds').manager.downstreams.lookup d').isSome =
      (s.manager.downstreams.lookup d').isSome := by
  rw [lookup_putDownstream]
  split
  next heq =>
    subst heq
    rw [hds]
    rfl
  · rfl

theorem Inv.opened (h : Inv api n s) (hbound : n + 3 < 2 ^ 32) (hready : s.phase = .ready)
    (hds : s.manager.downstreams.lookup d = some ds) {kind : ChannelKind} {target : Bytes}
    {oc : OpenChannel Ch} {success : List Identity × MiningMessage}
    {rest : List (List Identity × MiningMessage)}
    (hchannels : ∀ kind', channels ds' kind' =
      if kind' = kind then (channels ds kind').insert ds.channelIdFactory oc
      else channels ds kind')
    (hfactory : ds'.channelIdFactory = ds.channelIdFactory + 1)
    (htarget : (api.getTarget oc.channel).toLeBytes = target)
    (hsuccess : openedChannel success.2 = some ds.channelIdFactory)
    (hrest : ∀ m ∈ rest, openedChannel m.2 = none) (v : V) :
    Inv api (n + 1) { s.putDownstream d ds' with
      vardiff := s.vardiff.insert (d, ds.channelIdFactory) v
      phase := .forwarding ((success :: rest).map fun m =>
        RouteMessageTo.downstream d (toMiner target m.2)) } := by
  have hn := h.numbered d ds hds
  have hlookup := lookup_putDownstream s d ds'
  have hsome := isSome_putDownstream hds ds'
  have hlog : ∀ d', log { s.putDownstream d ds' with
      vardiff := s.vardiff.insert (d, ds.channelIdFactory) v
      phase := .forwarding ((success :: rest).map fun m =>
        RouteMessageTo.downstream d (toMiner target m.2)) } d' = s.log d' ++
      if d' = d then (success :: rest).map fun m => toMiner target m.2 else [] := by
    intro d'
    simp only [log, Phase.pending, hready, List.filterMap_nil, List.append_nil, putDownstream]
    split
    next heq =>
      subst heq
      rw [filterMap_forMiner_map fun m => toMiner target m.2]
    next hne => rw [Addressed.map (d := d) (fun m => toMiner target m.2) _ d' hne]
  have hremoving : ∀ {d' step}, s.Removing d' step → s.removals.lookup d' = some step := by
    rintro d' step (hstep | hstep)
    · exact hstep
    · rw [hready] at hstep
      cases hstep
  have hadded : ∀ key, (s.vardiff.lookup key).isSome = true →
      ((s.vardiff.insert (d, ds.channelIdFactory) v).lookup key).isSome = true := by
    intro key hkey
    rw [KeyMap.lookup_insert_eq]
    split
    · rfl
    · exact hkey
  refine ⟨?_, h.accepted, ?_, ?_, ?_, ?_, ?_, ?_, ?_, ?_, ?_⟩
  · intro d' ds₁ hds₁
    rw [hlookup] at hds₁
    split at hds₁
    · obtain rfl := Option.some.inj hds₁
      exact numbered_opened hn hchannels hbound hfactory
    · exact (h.numbered d' ds₁ hds₁).mono
  · intro d' hd'
    rw [hsome] at hd'
    exact h.known d' hd'
  · rintro d' step (hstep | hstep)
    · obtain ⟨hknown, hnone⟩ := h.gone d' step (.inl hstep)
      refine ⟨hknown, ?_⟩
      intro hne
      have hd' := hsome d'
      rw [hnone hne, Option.isSome_none, Option.isSome_eq_false_iff] at hd'
      simpa using hd'
    · cases hstep
  · rintro d' channelId ⟨ds₁, kind', hds₁, hopen⟩
    rw [hlookup] at hds₁
    split at hds₁
    next heq =>
      obtain rfl := Option.some.inj hds₁
      subst heq
      obtain ⟨oc', hoc'⟩ := Option.isSome_iff_exists.mp hopen
      rcases lookup_opened hn hchannels hoc' with ⟨-, rfl, -⟩ | ⟨-, hoc⟩
      · dsimp only
        rw [AList.lookup_insert]
        rfl
      · exact hadded _ (h.watched d' channelId ⟨ds, kind', hds, by rw [hoc]; rfl⟩)
    · exact hadded _ (h.watched d' channelId ⟨ds₁, kind', hds₁, hopen⟩)
  · intro d' hd'
    rw [hsome] at hd'
    exact h.connected d' hd'
  · intro d' ds₁ hds₁
    rw [hlookup] at hds₁
    rw [hlog]
    split at hds₁
    next heq =>
      obtain rfl := Option.some.inj hds₁
      subst heq
      rw [if_pos rfl]
      exact (h.told d' ds hds).follow (follows_opened hn hchannels htarget hsuccess hrest)
    next hne =>
      rw [if_neg hne, List.append_nil]
      exact h.told d' ds₁ hds₁
  · intro d' channelId hkey
    have hstill : ∀ {d' channelId}, s.IsOpen d' channelId → IsOpen { s.putDownstream d ds' with
        vardiff := s.vardiff.insert (d, ds.channelIdFactory) v
        phase := .forwarding ((success :: rest).map fun m =>
          RouteMessageTo.downstream d (toMiner target m.2)) } d' channelId := by
      rintro d' channelId ⟨ds₁, kind', hds₁, hopen⟩
      by_cases heq : d' = d
      · subst heq
        rw [hds] at hds₁
        obtain rfl := Option.some.inj hds₁
        refine ⟨ds', kind', by rw [hlookup, if_pos rfl], ?_⟩
        rw [hchannels]
        split
        · rw [KeyMap.lookup_insert_eq]
          split
          · rfl
          · exact hopen
        · exact hopen
      · exact ⟨ds₁, kind', by rw [hlookup, if_neg heq]; exact hds₁, hopen⟩
    rcases KeyMap.isSome_lookup_insert hkey with heq | hold
    · obtain ⟨rfl, rfl⟩ := Prod.mk.inj heq
      refine .inl ⟨ds', kind, by rw [hlookup, if_pos rfl], ?_⟩
      rw [hchannels, if_pos rfl, AList.lookup_insert]
      rfl
    · rcases h.strays d' channelId hold with hopen | hclosing | ⟨step, hne, hstep⟩
      · exact .inl (hstill hopen)
      · rw [hready] at hclosing
        cases hclosing
      · exact .inr (.inr ⟨step, hne, .inl (hremoving hstep)⟩)
  · intro d' hd'
    rcases h.senders d' hd' with hreg | haccepting | ⟨step, hstep⟩
    · exact .inl (by rw [hsome]; exact hreg)
    · exact .inr (.inl haccepting)
    · exact .inr (.inr ⟨step, .inl (hremoving hstep)⟩)
  · intro d' m hm
    rw [hlog] at hm
    rcases List.mem_append.mp hm with hold | hnew
    · exact h.keeping d' m hold
    · split at hnew
      · exact keeping_toMiner target _ m hnew
      · cases hnew
  · intro d' channelId hclosing
    cases hclosing

theorem IsOpen.closeChannel {channelId j : ChannelId} {d' : DownstreamId} {phase : Phase}
    (hds : s.manager.downstreams.lookup d = some ds) :
    IsOpen { s.putDownstream d (ds.handleCloseChannel env channelId) with phase := phase } d' j ↔
      s.IsOpen d' j ∧ (d', j) ≠ (d, channelId) := by
  constructor
  · rintro ⟨ds₁, kind, hds₁, hopen⟩
    rw [lookup_putDownstream] at hds₁
    split at hds₁
    next heq =>
      obtain rfl := Option.some.inj hds₁
      subst heq
      rw [lookup_handleCloseChannel] at hopen
      split at hopen
      · cases hopen
      next hne => exact ⟨⟨ds, kind, hds, hopen⟩, fun h => hne (Prod.mk.inj h).2⟩
    next hne => exact ⟨⟨ds₁, kind, hds₁, hopen⟩, fun h => hne (Prod.mk.inj h).1⟩
  · rintro ⟨⟨ds₁, kind, hds₁, hopen⟩, hne⟩
    by_cases heq : d' = d
    · subst heq
      rw [hds] at hds₁
      obtain rfl := Option.some.inj hds₁
      refine ⟨_, kind, by rw [lookup_putDownstream, if_pos rfl], ?_⟩
      rw [lookup_handleCloseChannel, if_neg fun hj => hne (by rw [hj])]
      exact hopen
    · exact ⟨ds₁, kind, by rw [lookup_putDownstream, if_neg heq]; exact hds₁, hopen⟩

/-- The vardiff state of the channel is still there. -/
theorem Inv.closeChannel (h : Inv api n s) (hready : s.phase = .ready)
    (hds : s.manager.downstreams.lookup d = some ds) (channelId : ChannelId) :
    Inv api (n + 1) { s.putDownstream d (ds.handleCloseChannel env channelId) with
      phase := .closing (d, channelId) } := by
  have hn := h.numbered d ds hds
  have hsome := isSome_putDownstream hds (ds.handleCloseChannel env channelId)
  have hlog : ∀ d', log { s.putDownstream d (ds.handleCloseChannel env channelId) with
      phase := .closing (d, channelId) } d' = s.log d' := by
    intro d'
    simp [log, Phase.pending, hready, putDownstream]
  have hremoving : ∀ {d' step}, s.Removing d' step → s.removals.lookup d' = some step := by
    rintro d' step (hstep | hstep)
    · exact hstep
    · rw [hready] at hstep
      cases hstep
  refine ⟨?_, h.accepted, ?_, ?_, ?_, ?_, ?_, ?_, ?_, ?_, ?_⟩
  · intro d' ds₁ hds₁
    rw [lookup_putDownstream] at hds₁
    split at hds₁
    · obtain rfl := Option.some.inj hds₁
      refine ⟨by rw [handleCloseChannel_channelIdFactory]; exact hn.mono.factory, ?_, ?_⟩
      · intro kind j hopen
        rw [lookup_handleCloseChannel] at hopen
        rw [handleCloseChannel_channelIdFactory]
        split at hopen
        · cases hopen
        · exact hn.below kind j hopen
      · intro j hstd
        have hext := lookup_handleCloseChannel env ds channelId .extended j
        have hstd' := lookup_handleCloseChannel env ds channelId .standard j
        simp only [channels] at hext hstd'
        rw [hstd'] at hstd
        rw [hext]
        split
        · rfl
        next hne =>
          rw [if_neg hne] at hstd
          exact hn.apart j hstd
    · exact (h.numbered d' ds₁ hds₁).mono
  · intro d' hd'
    rw [hsome] at hd'
    exact h.known d' hd'
  · rintro d' step (hstep | hstep)
    · obtain ⟨hknown, hnone⟩ := h.gone d' step (.inl hstep)
      refine ⟨hknown, ?_⟩
      intro hne
      have hd' := hsome d'
      rw [hnone hne, Option.isSome_none, Option.isSome_eq_false_iff] at hd'
      simpa using hd'
    · cases hstep
  · intro d' j hopen
    exact h.watched d' j ((IsOpen.closeChannel hds).mp hopen).1
  · intro d' hd'
    rw [hsome] at hd'
    exact h.connected d' hd'
  · intro d' ds₁ hds₁
    rw [lookup_putDownstream] at hds₁
    rw [hlog]
    split at hds₁
    next heq =>
      obtain rfl := Option.some.inj hds₁
      subst heq
      rintro j c ⟨kind, oc, hoc, hc⟩
      rw [lookup_handleCloseChannel] at hoc
      split at hoc
      · cases hoc
      · exact h.told d' ds hds j c ⟨kind, oc, hoc, hc⟩
    · exact h.told d' ds₁ hds₁
  · intro d' j hkey
    rcases h.strays d' j hkey with hopen | hclosing | ⟨step, hne, hstep⟩
    · by_cases heq : (d', j) = (d, channelId)
      · exact .inr (.inl (by rw [heq]))
      · exact .inl ((IsOpen.closeChannel hds).mpr ⟨hopen, heq⟩)
    · rw [hready] at hclosing
      cases hclosing
    · exact .inr (.inr ⟨step, hne, .inl (hremoving hstep)⟩)
  · intro d' hd'
    rcases h.senders d' hd' with hreg | haccepting | ⟨step, hstep⟩
    · exact .inl (by rw [hsome]; exact hreg)
    · exact .inr (.inl haccepting)
    · exact .inr (.inr ⟨step, .inl (hremoving hstep)⟩)
  · intro d' m hm
    rw [hlog] at hm
    exact h.keeping d' m hm
  · intro d' j hclosing hopen
    cases hclosing
    exact ((IsOpen.closeChannel hds).mp hopen).2 rfl

end Channels

/-! ## Forwarding, and what is taken out of the maps -/

section Taken

variable {api : Mining Ch V F32} {s s' : PoolState Ch V} {n : Nat}

/-- A vardiff state goes, which is that of no open channel. -/
theorem Inv.dropped (h : Inv api n s) {key : VardiffKey} {phase : Phase}
    (hkey : ¬ s.IsOpen key.1 key.2) (hpending : phase.pending = s.phase.pending)
    (hremoving : ∀ d step, s.phase ≠ .removing d step)
    (hremoves : ∀ d step, phase ≠ .removing d step) (hcloses : ∀ key, phase ≠ .closing key)
    (hclosing : ∀ key', s.phase = .closing key' → key' = key) :
    Inv api n { s with vardiff := s.vardiff.erase key, phase := phase } := by
  have hlog : ∀ d, log { s with vardiff := s.vardiff.erase key, phase := phase } d = s.log d := by
    intro d
    simp only [log, hpending]
  have hto : ∀ {d step}, s.Removing d step →
      Removing { s with vardiff := s.vardiff.erase key, phase := phase } d step := by
    rintro d step (hstep | hstep)
    · exact .inl hstep
    · exact absurd hstep (hremoving d step)
  refine ⟨h.numbered, h.accepted, h.known, ?_, ?_, h.connected, ?_, ?_, ?_, ?_, ?_⟩
  · rintro d step (hstep | hstep)
    · exact h.gone d step (.inl hstep)
    · exact absurd hstep (hremoves d step)
  · intro d channelId hopen
    dsimp only
    rw [KeyMap.lookup_erase_eq]
    split
    next heq =>
      subst heq
      exact absurd hopen hkey
    · exact h.watched d channelId hopen
  · intro d ds hds
    rw [hlog]
    exact h.told d ds hds
  · intro d channelId hsome
    dsimp only at hsome
    rw [KeyMap.lookup_erase_eq] at hsome
    split at hsome
    · cases hsome
    next hne =>
      rcases h.strays d channelId hsome with hopen | hclosed | ⟨step, hstep, hrem⟩
      · exact .inl hopen
      · exact absurd (hclosing _ hclosed) hne
      · exact .inr (.inr ⟨step, hstep, hto hrem⟩)
  · intro d hd
    rcases h.senders d hd with hreg | haccepting | ⟨step, hstep⟩
    · exact .inl hreg
    · exact .inr (.inl haccepting)
    · exact .inr (.inr ⟨step, hto hstep⟩)
  · intro d
    rw [hlog]
    exact h.keeping d
  · intro d channelId hclosed
    exact absurd hclosed (hcloses _)

/-- The loop goes on with the same messages. -/
theorem Frame.phase {phase : Phase} (hpending : phase.pending = s.phase.pending)
    (hremoving : ∀ d step, s.phase ≠ .removing d step)
    (hremoves : ∀ d step, phase = .removing d step → step = .downstreams ∧ s.knows d = true)
    (hclosing : ∀ key, s.phase ≠ .closing key) (hcloses : ∀ key, phase ≠ .closing key) :
    Frame api s { s with phase := phase } := by
  have hlog : ∀ d, log { s with phase := phase } d = s.log d := by
    intro d
    simp only [log, hpending]
  refine ⟨?_, fun _ h => h, fun _ => rfl, fun _ h => h, fun h => h, fun _ => rfl, fun _ h => h,
    fun _ h => .inl h, ?_, ?_, ?_, ?_⟩
  · intro d ds hds
    exact ⟨ds, [], hds, .refl fun _ => rfl, by rw [hlog, List.append_nil]⟩
  · rintro d step (hstep | hstep)
    · exact .inl (.inl hstep)
    · exact .inr (hremoves d step hstep)
  · rintro d step (hstep | hstep)
    · exact .inl hstep
    · exact absurd hstep (hremoving d step)
  · intro key
    exact ⟨fun hkey => absurd hkey (hcloses key), fun hkey => absurd hkey (hclosing key)⟩
  · intro d m hm
    rw [hlog] at hm
    exact .inl hm

/-- A message is handed over; only one for a connection that is gone is lost. -/
theorem forward_frame (h : Inv api n s) {m : RouteMessageTo} {messages : List RouteMessageTo}
    (hphase : s.phase = .forwarding (m :: messages)) :
    Frame api s { s.forward m with phase := .forwarding messages } := by
  have hmanager : (s.forward m).manager = s.manager := by cases m <;> rfl
  have hvardiff : (s.forward m).vardiff = s.vardiff := by cases m <;> rfl
  have hremovals : (s.forward m).removals = s.removals := by cases m <;> rfl
  have hsome : ∀ d, ((s.forward m).downstreamSender.lookup d).isSome =
      (s.downstreamSender.lookup d).isSome := by
    intro d
    cases m with
    | templateProvider solution => rfl
    | downstream d' m =>
      simp only [forward]
      rw [KeyMap.lookup_modify]
      split
      next heq =>
        subst heq
        rw [Option.isSome_map]
      · rfl
  have hlog : ∀ d, (s.downstreamSender.lookup d).isSome = true →
      log { s.forward m with phase := .forwarding messages } d = s.log d := by
    intro d hd
    obtain ⟨sent, hsent⟩ := Option.isSome_iff_exists.mp hd
    simp only [log, Phase.pending, hphase]
    cases m with
    | templateProvider solution => rfl
    | downstream d' m =>
      simp only [forward]
      rw [KeyMap.lookup_modify]
      by_cases heq : d = d'
      · subst heq
        simp [hsent]
      · have hother : forMiner d (.downstream d' m) = none := by simp [forMiner, Ne.symm heq]
        rw [if_neg heq, List.filterMap_cons_none hother]
  refine ⟨?_, ?_, ?_, ?_, ?_, ?_, ?_, ?_, ?_, ?_, ?_, ?_⟩
  · intro d ds hds
    rw [hmanager] at hds
    refine ⟨ds, [], hds, .refl fun _ => rfl, ?_⟩
    rw [hlog d (h.connected d (by rw [hds]; rfl)), List.append_nil]
  · intro d hd
    rw [hmanager]
    exact hd
  · intro d
    simp only [PoolState.knows, hmanager]
  · intro d hd
    rw [hmanager]
    exact hd
  · intro hacc
    rw [hmanager]
    exact hacc
  · intro key
    rw [hvardiff]
  · intro d hd
    rw [hsome]
    exact hd
  · intro d hd
    rw [hsome] at hd
    exact .inl hd
  · rintro d step (hstep | hstep)
    · rw [hremovals] at hstep
      exact .inl (.inl hstep)
    · cases hstep
  · rintro d step (hstep | hstep)
    · left
      rw [hremovals]
      exact hstep
    · rw [hphase] at hstep
      cases hstep
  · intro key
    rw [hphase]
    constructor <;> intro hkey <;> cases hkey
  · intro d m' hm'
    left
    by_cases hd : (s.downstreamSender.lookup d).isSome = true
    · rw [hlog d hd] at hm'
      exact hm'
    · -- nothing was ever sent on this sender
      have hd' := hsome d
      rw [Bool.not_eq_true] at hd
      rw [hd, Option.isSome_eq_false_iff, Option.isNone_iff_eq_none] at hd'
      simp only [log, hd', Option.getD_none, Phase.pending, List.nil_append] at hm'
      simp only [log, Phase.pending, hphase]
      apply List.mem_append_right
      obtain ⟨r, hr, hrm⟩ := List.mem_filterMap.mp hm'
      exact List.mem_filterMap.mpr ⟨r, List.mem_cons_of_mem _ hr, hrm⟩

end Taken

/-! ## Removing a connection -/

section Removals

variable {api : Mining Ch V F32} {s s' : PoolState Ch V} {n : Nat} {d : DownstreamId}
  {step : RemovalStep}

/-- `s'` is `s` after the step, with what is left of the call recorded. -/
structure Removed (s s' : PoolState Ch V) (d : DownstreamId) (step : RemovalStep) : Prop where
  manager : s'.manager = (s.removeStep d step).1.manager
  vardiff : s'.vardiff = (s.removeStep d step).1.vardiff
  downstreamSender : s'.downstreamSender = (s.removeStep d step).1.downstreamSender
  pending : s'.phase.pending = s.phase.pending
  closing : ∀ key, s'.phase = .closing key ↔ s.phase = .closing key
  left : ∀ step', (s.removeStep d step).2 = some step' → s'.Removing d step'
  removing : ∀ d' step', s'.Removing d' step' →
    s.Removing d' step' ∨ (d' = d ∧ (s.removeStep d step).2 = some step')
  others : ∀ d' step', s.Removing d' step' → s'.Removing d' step' ∨ (d' = d ∧ step' = step)

theorem Removed.of_removals {removals : KeyMap DownstreamId RemovalStep}
    (hstep : s.removals.lookup d = some step)
    (hlookup : ∀ d', removals.lookup d' =
      if d' = d then (s.removeStep d step).2 else s.removals.lookup d') :
    Removed s { (s.removeStep d step).1 with removals := removals } d step := by
  have hphase : (s.removeStep d step).1.phase = s.phase := by cases step <;> rfl
  refine ⟨rfl, rfl, rfl, congrArg Phase.pending hphase, ?_, ?_, ?_, ?_⟩
  · intro key
    dsimp only
    rw [hphase]
  · intro step' hstep'
    left
    dsimp only
    rw [hlookup, if_pos rfl]
    exact hstep'
  · rintro d' step' (hstep' | hstep')
    · dsimp only at hstep'
      rw [hlookup] at hstep'
      split at hstep'
      next heq => exact .inr ⟨heq, hstep'⟩
      · exact .inl (.inl hstep')
    · dsimp only at hstep'
      rw [hphase] at hstep'
      exact .inl (.inr hstep')
  · rintro d' step' (hstep' | hstep')
    · by_cases heq : d' = d
      · subst heq
        rw [hstep] at hstep'
        exact .inr ⟨rfl, (Option.some.inj hstep').symm⟩
      · left
        left
        dsimp only
        rw [hlookup, if_neg heq]
        exact hstep'
    · left
      right
      dsimp only
      rw [hphase]
      exact hstep'

theorem Removed.of_phase {phase : Phase} (hstep : s.phase = .removing d step)
    (hphase : phase = match (s.removeStep d step).2 with
      | some left => .removing d left
      | none => .ready) :
    Removed s { (s.removeStep d step).1 with phase := phase } d step := by
  have hremovals : (s.removeStep d step).1.removals = s.removals := by cases step <;> rfl
  have hpending : phase.pending = [] ∧ ∀ key, phase ≠ .closing key := by
    rw [hphase]
    split
    · exact ⟨rfl, fun _ h => by cases h⟩
    · exact ⟨rfl, fun _ h => by cases h⟩
  refine ⟨rfl, rfl, rfl, ?_, ?_, ?_, ?_, ?_⟩
  · rw [hstep]
    exact hpending.1
  · intro key
    rw [hstep]
    exact ⟨fun h => absurd h (hpending.2 key), fun h => by cases h⟩
  · intro step' hstep'
    right
    rw [hphase, hstep']
  · rintro d' step' (hstep' | hstep')
    · rw [hremovals] at hstep'
      exact .inl (.inl hstep')
    · dsimp only at hstep'
      rw [hphase] at hstep'
      split at hstep'
      next left hleft =>
        cases hstep'
        exact .inr ⟨rfl, hleft⟩
      · cases hstep'
  · rintro d' step' (hstep' | hstep')
    · left
      left
      dsimp only
      rw [hremovals]
      exact hstep'
    · rw [hstep] at hstep'
      cases hstep'
      exact .inr ⟨rfl, rfl⟩

theorem Removed.lookup_downstreams (hr : Removed s s' d step) (d' : DownstreamId) :
    s'.manager.downstreams.lookup d' =
      if step = .downstreams ∧ d' = d then none else s.manager.downstreams.lookup d' := by
  rw [hr.manager]
  cases step <;> simp [removeStep, KeyMap.lookup_erase_eq]

theorem Removed.lookup_vardiff (hr : Removed s s' d step) (d' : DownstreamId)
    (channelId : ChannelId) : (s'.vardiff.lookup (d', channelId)).isSome = true ↔
      ¬ (step = .vardiff ∧ d' = d) ∧ (s.vardiff.lookup (d', channelId)).isSome = true := by
  rw [hr.vardiff]
  cases step with
  | downstreams => simp [removeStep]
  | vardiff =>
    simp only [removeStep, KeyMap.lookup_retain]
    cases s.vardiff.lookup (d', channelId) <;> simp [Option.filter]
  | downstreamSender => simp [removeStep]

theorem Removed.lookup_sender (hr : Removed s s' d step) (d' : DownstreamId) :
    s'.downstreamSender.lookup d' =
      if step = .downstreamSender ∧ d' = d then none else s.downstreamSender.lookup d' := by
  rw [hr.downstreamSender]
  cases step <;> simp [removeStep, KeyMap.lookup_erase_eq]

theorem Removed.accepting (hr : Removed s s' d step) :
    s'.manager.accepting = s.manager.accepting ∧
      s'.manager.downstreamIdFactory = s.manager.downstreamIdFactory := by
  rw [hr.manager]
  cases step <;> exact ⟨rfl, rfl⟩

/-- Only after the connection has left the first map is anything taken from the others, and the
    call stays recorded until nothing is left. -/
theorem Inv.removed (h : Inv api n s) (hstep : s.Removing d step) (hr : Removed s s' d step) :
    Inv api n s' := by
  obtain ⟨hknown, hgone⟩ := h.gone d step hstep
  obtain ⟨haccepting, hfactory⟩ := hr.accepting
  have hknows : ∀ d', s'.knows d' = s.knows d' := by
    intro d'
    simp only [knows, haccepting, hfactory]
  have hwas : ∀ {d' ds'}, s'.manager.downstreams.lookup d' = some ds' →
      s.manager.downstreams.lookup d' = some ds' := by
    intro d' ds' hds'
    rw [hr.lookup_downstreams] at hds'
    split at hds'
    · cases hds'
    · exact hds'
  have hsome : ∀ {d'}, (s'.manager.downstreams.lookup d').isSome = true →
      (s.manager.downstreams.lookup d').isSome = true ∧ d' ≠ d := by
    intro d' hd'
    obtain ⟨ds', hds'⟩ := Option.isSome_iff_exists.mp hd'
    refine ⟨by rw [hwas hds']; rfl, ?_⟩
    rintro rfl
    by_cases hfirst : step = .downstreams
    · rw [hr.lookup_downstreams, if_pos ⟨hfirst, rfl⟩] at hds'
      cases hds'
    · have hold := hwas hds'
      rw [hgone hfirst] at hold
      cases hold
  have hopen : ∀ {d' channelId}, s'.IsOpen d' channelId →
      s.IsOpen d' channelId ∧ d' ≠ d := by
    rintro d' channelId ⟨ds', kind, hds', hopen⟩
    exact ⟨⟨ds', kind, hwas hds', hopen⟩, (hsome (by rw [hds']; rfl)).2⟩
  have hstill : ∀ {d' step'}, s.Removing d' step' → d' ≠ d → s'.Removing d' step' := by
    intro d' step' hstep' hne
    rcases hr.others d' step' hstep' with hstep' | ⟨heq, -⟩
    · exact hstep'
    · exact absurd heq hne
  have hlog : ∀ d', d' ≠ d → s'.log d' = s.log d' := by
    intro d' hne
    rw [log, hr.lookup_sender, if_neg fun hd => hne hd.2, hr.pending, log]
  refine ⟨fun d' ds' hds' => h.numbered d' ds' (hwas hds'), ?_, ?_, ?_, ?_, ?_, ?_, ?_, ?_, ?_, ?_⟩
  · rw [Accepted, haccepting, hfactory]
    exact h.accepted
  · intro d' hd'
    rw [hknows]
    exact h.known d' (hsome hd').1
  · intro d' step' hstep'
    rw [hknows]
    rcases hr.removing d' step' hstep' with hold | ⟨rfl, hleft⟩
    · obtain ⟨hknown', hnone⟩ := h.gone d' step' hold
      refine ⟨hknown', ?_⟩
      intro hne
      rw [hr.lookup_downstreams, hnone hne, ite_self]
    · refine ⟨hknown, fun _ => ?_⟩
      rw [hr.lookup_downstreams]
      by_cases hfirst : step = .downstreams
      · rw [if_pos ⟨hfirst, rfl⟩]
      · rw [hgone hfirst, ite_self]
  · intro d' channelId hopened
    obtain ⟨hopened, hne⟩ := hopen hopened
    rw [hr.lookup_vardiff]
    exact ⟨fun hd => hne hd.2, h.watched d' channelId hopened⟩
  · intro d' hd'
    obtain ⟨hd', hne⟩ := hsome hd'
    rw [hr.lookup_sender, if_neg fun hd => hne hd.2]
    exact h.connected d' hd'
  · intro d' ds' hds'
    rw [hlog d' (hsome (by rw [hds']; rfl)).2]
    exact h.told d' ds' (hwas hds')
  · intro d' channelId hkey
    obtain ⟨hkept, hkey⟩ := (hr.lookup_vardiff d' channelId).mp hkey
    by_cases heq : d' = d
    · subst heq
      -- the step before took the connection, or this one does
      cases step with
      | downstreams => exact .inr (.inr ⟨_, by simp, hr.left .vardiff rfl⟩)
      | vardiff => exact absurd ⟨rfl, rfl⟩ hkept
      | downstreamSender =>
        rcases h.strays d' channelId hkey with ⟨ds, kind, hds, -⟩ | hclosing | ⟨step', hne, hstep'⟩
        · rw [hgone (by simp)] at hds
          cases hds
        · exact .inr (.inl ((hr.closing _).mpr hclosing))
        · rcases hr.others d' step' hstep' with hstep' | ⟨-, rfl⟩
          · exact .inr (.inr ⟨step', hne, hstep'⟩)
          · exact absurd rfl hne
    · rcases h.strays d' channelId hkey with ⟨ds, kind, hds, hopened⟩ | hclosing | ⟨step', hne, hstep'⟩
      · refine .inl ⟨ds, kind, ?_, hopened⟩
        rw [hr.lookup_downstreams, if_neg fun hd => heq hd.2]
        exact hds
      · exact .inr (.inl ((hr.closing _).mpr hclosing))
      · exact .inr (.inr ⟨step', hne, hstill hstep' heq⟩)
  · intro d' hd'
    rw [hr.lookup_sender] at hd'
    split at hd'
    · cases hd'
    next hkept =>
      by_cases heq : d' = d
      · subst heq
        cases step with
        | downstreams => exact .inr (.inr ⟨_, hr.left .vardiff rfl⟩)
        | vardiff => exact .inr (.inr ⟨_, hr.left .downstreamSender rfl⟩)
        | downstreamSender => exact absurd ⟨rfl, rfl⟩ hkept
      · rw [hr.lookup_downstreams, if_neg fun hd => heq hd.2, haccepting]
        rcases h.senders d' hd' with hreg | hacc | ⟨step', hstep'⟩
        · exact .inl hreg
        · exact .inr (.inl hacc)
        · exact .inr (.inr ⟨step', hstill hstep' heq⟩)
  · intro d' m hm
    apply h.keeping d' m
    rw [log, hr.lookup_sender, hr.pending] at hm
    rcases List.mem_append.mp hm with hm | hm
    · split at hm
      · cases hm
      · exact List.mem_append_left _ hm
    · exact List.mem_append_right _ hm
  · intro d' channelId hclosing hopened
    exact h.closed d' channelId ((hr.closing _).mp hclosing) (hopen hopened).1

end Removals

end PoolState

end Sv2Apps.Pool.Difficulty
