/-
  Pool/ToldTargets.lean
  =====================
  **Every miner knows its target** — whatever the vardiff timer, the miners' requests, new
  templates and lost connections do at the same time, a share is judged against the target that the
  miner was told last (`told_targets`).

  The branch of the share handlers that closes a channel is never taken, and what a lost connection
  leaves in the maps is taken away (`channels_watched`).
-/
import Sv2Apps.Pool.WatchedChannels

namespace Sv2Apps.Pool.Difficulty

open Bitcoin SeriesTable
open ChannelManager (Downstream MiningMessage OpenMiningChannel AllocationAnswer
  ConstructionAnswer TemplateMessage Reply Fault OpenChannel)

variable {Ch V F32 : Type}

namespace PoolState

/-! ## Every step -/

section Steps

variable {ctx : Context Ch V F32} {s : PoolState Ch V} {n : Nat}

theorem running_of_idle (h : s.idle) : s.Running :=
  ⟨h.1, by rw [h.2.1]; simp⟩

theorem running_of_manager {a : ChannelManager.Action}
    (hstop : ∀ m : ChannelManager Ch, m.cancelled = true → (m.step ctx.env a).cancelled = true)
    (hpanic : ∀ m : ChannelManager Ch, m.loop = .stopped → (m.step ctx.env a).loop = .stopped)
    (hrun : (s.managerStep ctx.env a).Running) : s.Running := by
  constructor
  · by_contra hcancel
    rw [Bool.not_eq_false] at hcancel
    have := hrun.1
    rw [managerStep, hstop _ hcancel] at this
    cases this
  · intro hloop
    exact hrun.2 (hpanic _ hloop)

theorem visit_running {d : DownstreamId} (hrun : (s.managerStep ctx.env (.visit d)).Running) :
    s.Running := by
  apply running_of_manager _ _ hrun
  · intro m hm
    simp [ChannelManager.step, hm]
  · intro m hm
    simp only [ChannelManager.step, ChannelManager.loopStep, ChannelManager.visit, hm, ite_self]

theorem finish_running (hrun : (s.managerStep ctx.env .finish).Running) : s.Running := by
  apply running_of_manager _ _ hrun
  · intro m hm
    simp [ChannelManager.step, hm]
  · intro m hm
    simp only [ChannelManager.step, ChannelManager.loopStep, ChannelManager.finish, hm, ite_self]

theorem accept_running (hrun : (s.managerStep ctx.env .accept).Running) : s.Running := by
  apply running_of_manager _ _ hrun
  all_goals
    intro m hm
    simp only [ChannelManager.step, ChannelManager.accept]
    split <;> exact hm

theorem bootstrap_running {d : DownstreamId}
    (hrun : (s.managerStep ctx.env (.bootstrap d)).Running) : s.Running := by
  apply running_of_manager _ _ hrun
  all_goals
    intro m hm
    simp only [ChannelManager.step, ChannelManager.bootstrap]
    split
    · split <;> first | exact hm | rfl
    · exact hm

theorem register_running {d : DownstreamId}
    (hrun : (s.managerStep ctx.env (.register d)).Running) : s.Running := by
  apply running_of_manager _ _ hrun
  all_goals
    intro m hm
    simp only [ChannelManager.step, ChannelManager.register]
    split <;> exact hm

/-- A handler runs on a registered connection, in an idle loop. -/
theorem onMiningMessage_inv {api : Mining Ch V F32} {d : DownstreamId}
    {handler : Downstream Ch → PoolState Ch V} (hbound : n + 3 < 2 ^ 32)
    (h : s.Running → Inv api n s) (hrun : (s.onMiningMessage d handler).Running)
    (hhandler : ∀ ds, Inv api n s → s.phase = .ready → s.manager.downstreams.lookup d = some ds →
      (handler ds).Running → Inv api (n + 1) (handler ds)) :
    Inv api (n + 1) (s.onMiningMessage d handler) := by
  unfold onMiningMessage at hrun ⊢
  split
  next hidle =>
    have hinv := h (running_of_idle hidle)
    have hready := hidle.2.2
    simp only [hidle, if_true] at hrun
    split
    · split
      next hknown =>
        refine hinv.framed hbound (.phase ?_ ?_ ?_ ?_ ?_)
        · rw [hready]
          rfl
        · simp [hready]
        · rintro d' step hstep
          cases hstep
          exact ⟨rfl, hknown⟩
        · simp [hready]
        · simp
      · exact hinv.mono
    next ds hds =>
      simp only [hds] at hrun
      split
      next hsetUp =>
        rw [if_pos hsetUp] at hrun
        exact hhandler ds hinv hready hds hrun
      · exact hinv.mono
  next hidle =>
    rw [if_neg hidle] at hrun
    exact (h hrun).mono

/-- What a handler collects is forwarded, or the connection is removed. -/
theorem Inv.collected {api : Mining Ch V F32} (h : Inv api n s) (hbound : n + 3 < 2 ^ 32)
    (hready : s.phase = .ready) {d : DownstreamId} {ds ds' : Downstream Ch}
    (hds : s.manager.downstreams.lookup d = some ds) {messages : List RouteMessageTo}
    (hc : Collects api d ds ds' messages) {vardiff : KeyMap VardiffKey V} {phase : Phase}
    (hvardiff : ∀ key, (vardiff.lookup key).isSome = (s.vardiff.lookup key).isSome)
    (hphase : phase = .forwarding messages ∨ (messages = [] ∧ phase = .removing d .downstreams)) :
    Inv api (n + 1) { s.putDownstream d ds' with vardiff := vardiff, phase := phase } := by
  refine h.framed hbound (.collected hds hc hvardiff ?_ ?_ ?_ ?_ ?_)
  · rw [hready]
    rcases hphase with rfl | ⟨rfl, rfl⟩ <;> rfl
  · simp [hready]
  · rcases hphase with rfl | ⟨-, rfl⟩ <;> simp
  · simp [hready]
  · rintro d' step rfl
    rcases hphase with hphase | ⟨-, hphase⟩
    · cases hphase
    · cases hphase
      exact ⟨rfl, h.known d (by rw [hds]; rfl)⟩

theorem openChannel_inv (hl : ctx.mining.Lawful ctx.env.channels) (hbound : n + 3 < 2 ^ 32)
    (h : s.Running → Inv ctx.mining n s) {kind : ChannelKind} {d : DownstreamId}
    {msg : OpenRequest F32} {allocation : AllocationAnswer} {construction : ConstructionAnswer}
    {vardiff : Option V}
    (hrun : (s.openChannel ctx kind d msg allocation construction vardiff).Running) :
    Inv ctx.mining (n + 1) (s.openChannel ctx kind d msg allocation construction vardiff) := by
  refine onMiningMessage_inv hbound h hrun ?_
  intro ds hinv hready hds hrun
  have hopening := handleOpenMiningChannel_opening hl kind s.manager.lastFutureTemplate
    s.manager.lastNewPrevHash ds msg allocation construction
  dsimp only at hrun ⊢
  generalize handleOpenMiningChannel ctx kind s.manager.lastFutureTemplate
    s.manager.lastNewPrevHash ds msg allocation construction = r at hopening hrun ⊢
  generalize openingTarget ctx kind ds.channelIdFactory msg allocation = target at hopening hrun ⊢
  cases hopening with
  | @refused ds' reply hchannels hfactory hreply =>
    have hcollects : ∀ messages : List RouteMessageTo, Addressed d messages →
        Keeping (messages.filterMap (forMiner d)) →
        (∀ channelId, lastTold channelId (messages.filterMap (forMiner d)) = none) →
        Collects ctx.mining d ds ds' messages := by
      intro messages haddressed hkeeping hnone
      refine ⟨⟨fun kind channelId => by rw [hchannels], hfactory, ?_⟩, haddressed, hkeeping⟩
      rintro channelId c ⟨kind, oc, hoc, rfl⟩
      rw [hchannels] at hoc
      exact .inr ⟨hnone channelId, oc.channel, ⟨kind, oc, hoc, rfl⟩, rfl⟩
    rcases hreply with rfl | ⟨ms, rfl, hms⟩
    · exact hinv.collected hbound hready hds (hcollects [] .nil (by simp [Keeping]) fun _ => rfl)
        (fun _ => rfl) (.inr ⟨rfl, rfl⟩)
    · have hnone : (ms.findSome? fun m => openedChannel m.2) = none := by
        simpa using hms
      simp only [hnone]
      refine hinv.collected hbound hready hds (hcollects _ (.map (fun m => toMiner target m.2) ms)
        ?_ ?_) (fun _ => rfl) (.inl rfl)
      · rw [filterMap_forMiner_map fun m => toMiner target m.2]
        exact keeping_toMiner target ms
      · rw [filterMap_forMiner_map fun m => toMiner target m.2]
        exact lastTold_refused hms
  | stops hreply =>
    rcases hreply with rfl | rfl
    · exact absurd hrun.1 (by simp [cancel])
    · exact absurd rfl hrun.2
  | opened oc success rest hchannels hfactory htarget hsuccess hrest =>
    simp only [List.findSome?_cons, hsuccess] at hrun ⊢
    cases vardiff with
    | none => exact absurd hrun.1 (by simp [cancel])
    | some v => exact hinv.opened hbound hready hds hchannels hfactory htarget hsuccess hrest v

theorem updateChannel_inv {api : Mining Ch V F32} (hbound : n + 3 < 2 ^ 32)
    (h : s.Running → Inv api n s) {d : DownstreamId} {msg : UpdateChannel F32}
    (hrun : (s.updateChannel api d msg).Running) : Inv api (n + 1) (s.updateChannel api d msg) := by
  refine onMiningMessage_inv hbound h hrun ?_
  intro ds hinv hready hds hrun
  split
  next hnone =>
    simp only [hnone] at hrun
    exact absurd rfl hrun.2
  next ds' messages hupdate =>
    exact hinv.collected hbound hready hds
      (handleUpdateChannel_collects (hinv.numbered d ds hds) hupdate) (fun _ => rfl) (.inl rfl)

theorem submitShares_inv (hl : ctx.mining.Lawful ctx.env.channels) (hbound : n + 3 < 2 ^ 32)
    (h : s.Running → Inv ctx.mining n s) {kind : ChannelKind} {d : DownstreamId}
    {share : SubmitShares} (hrun : (s.submitShares ctx.mining kind d share).Running) :
    Inv ctx.mining (n + 1) (s.submitShares ctx.mining kind d share) := by
  refine onMiningMessage_inv hbound h hrun ?_
  intro ds hinv hready hds hrun
  dsimp only at hrun ⊢
  have hwatched : ((channels ds kind).lookup share.channelId).isSome = true →
      (s.vardiff.lookup (d, share.channelId)).isSome = true :=
    fun hopen => hinv.watched d share.channelId ⟨ds, kind, hds, hopen⟩
  generalize hsubmit : handleSubmitShares ctx.mining kind d share
    (s.vardiff.lookup (d, share.channelId)).isSome ds = r at hrun ⊢
  obtain ⟨ds', outcome, counted⟩ := r
  obtain ⟨hquiet, hmessages⟩ :=
    handleSubmitShares_collects hl (hinv.numbered d ds hds) hwatched hsubmit
  have hvardiff : ∀ key, ((if counted then
      s.vardiff |> KeyMap.modify (d, share.channelId) ctx.mining.incrementSharesSinceLastUpdate
      else s.vardiff).lookup key).isSome = (s.vardiff.lookup key).isSome := by
    intro key
    split
    · rw [KeyMap.lookup_modify]
      split
      next heq => rw [heq, Option.isSome_map]
      · rfl
    · rfl
  cases outcome with
  | messages messages =>
    have := hinv.collected hbound hready hds (hmessages messages rfl) hvardiff (.inl rfl)
    cases counted <;> exact this
  | disconnect =>
    have := hinv.collected hbound hready hds hquiet hvardiff (.inr ⟨rfl, rfl⟩)
    cases counted <;> exact this
  | shutdown =>
    cases counted <;> exact absurd hrun.1 (by simp [cancel])

theorem closeChannel_inv {api : Mining Ch V F32} (hbound : n + 3 < 2 ^ 32)
    (h : s.Running → Inv api n s) {d : DownstreamId} {channelId : ChannelId}
    (hrun : (s.closeChannel ctx.env d channelId).Running) :
    Inv api (n + 1) (s.closeChannel ctx.env d channelId) := by
  refine onMiningMessage_inv hbound h hrun ?_
  intro ds hinv hready hds _
  exact hinv.closeChannel hready hds channelId

theorem visitVardiff_inv (hl : ctx.mining.Lawful ctx.env.channels) (hbound : n + 3 < 2 ^ 32)
    (h : Inv ctx.mining n s) {now : Nat} {key : VardiffKey} {keys : List VardiffKey}
    {messages : List RouteMessageTo} (hphase : s.phase = .vardiff (key :: keys) messages) :
    Inv ctx.mining (n + 1) (s.visitVardiff ctx.mining now key keys messages) := by
  unfold visitVardiff
  split
  next hgone =>
    have hclosed : ¬ s.IsOpen key.1 key.2 := by
      rintro ⟨ds, kind, hds, -⟩
      rw [hgone] at hds
      cases hds
    refine (h.dropped hclosed ?_ ?_ ?_ ?_ ?_).mono
    · rw [hphase]
      rfl
    all_goals simp [hphase]
  next ds hds =>
    split
    · refine h.framed hbound (.phase ?_ ?_ ?_ ?_ ?_)
      · rw [hphase]
        rfl
      all_goals simp [hphase]
    next v hv =>
      have hc := runVardiffOn_collects (d := key.1) hl (h.numbered key.1 ds hds) hbound now key.2 v
      refine h.framed hbound (.collected hds hc ?_ ?_ ?_ ?_ ?_ ?_)
      · intro key'
        rw [KeyMap.lookup_modify]
        split
        next heq => rw [heq, Option.isSome_map]
        · rfl
      · rw [hphase]
        rfl
      all_goals simp [hphase]

theorem advance_inv (hl : ctx.mining.Lawful ctx.env.channels) (hbound : n + 3 < 2 ^ 32)
    (h : Inv ctx.mining n s) (now : Nat) : Inv ctx.mining (n + 1) (s.advance ctx.mining now) := by
  unfold advance
  split
  · exact h.mono
  next messages hphase =>
    refine h.framed hbound (.phase ?_ ?_ ?_ ?_ ?_)
    · rw [hphase]
      rfl
    all_goals simp [hphase]
  next key keys messages hphase => exact visitVardiff_inv hl hbound h hphase
  next key hphase =>
    refine (h.dropped (h.closed key.1 key.2 hphase) ?_ ?_ ?_ ?_ ?_).mono
    · rw [hphase]
      rfl
    · simp [hphase]
    · simp
    · simp
    · intro key' hkey'
      rw [hphase] at hkey'
      cases hkey'
      rfl
  next hphase =>
    refine h.framed hbound (.phase ?_ ?_ ?_ ?_ ?_)
    · rw [hphase]
      rfl
    all_goals simp [hphase]
  next m messages hphase => exact h.framed hbound (forward_frame h hphase)
  next d step hphase =>
    have hremoved := Removed.of_phase hphase rfl
    have hinv := (h.removed (.inr hphase) hremoved).mono
    cases step <;> exact hinv

theorem advanceRemoval_inv {api : Mining Ch V F32} (h : Inv api n s) (d : DownstreamId) :
    Inv api (n + 1) (s.advanceRemoval d) := by
  unfold advanceRemoval
  split
  · exact h.mono
  next step hstep =>
    have hinserted : ∀ {left d'}, (s.removeStep d step).2 = some left →
        (s.removals.insert d left).lookup d' =
          if d' = d then (s.removeStep d step).2 else s.removals.lookup d' := by
      intro left d' hleft
      rw [KeyMap.lookup_insert_eq, hleft]
    cases step with
    | downstreams =>
      have hr := Removed.of_removals hstep fun _ => hinserted rfl
      exact (h.removed (.inl hstep) hr).mono
    | vardiff =>
      have hr := Removed.of_removals hstep fun _ => hinserted rfl
      exact (h.removed (.inl hstep) hr).mono
    | downstreamSender =>
      have hr := Removed.of_removals hstep fun _ => KeyMap.lookup_erase_eq _ _ _
      exact (h.removed (.inl hstep) hr).mono

theorem disconnected_inv {api : Mining Ch V F32} (hbound : n + 3 < 2 ^ 32) (h : Inv api n s)
    (d : DownstreamId) : Inv api (n + 1) (s.disconnected d) := by
  unfold disconnected
  split
  next hd =>
    obtain ⟨hknown, hnone⟩ := hd
    rw [Option.isNone_iff_eq_none] at hnone
    apply h.framed hbound
    refine ⟨fun d ds hds => ⟨ds, [], hds, .refl fun _ => rfl, (List.append_nil _).symm⟩,
      fun _ h => h, fun _ => rfl, fun _ h => h, fun h => h, fun _ => rfl, fun _ h => h,
      fun _ h => .inl h, ?_, ?_, fun _ => Iff.rfl, fun _ _ h => .inl h⟩
    · rintro d' step (hstep | hstep)
      · dsimp only at hstep
        rw [KeyMap.lookup_insert_eq] at hstep
        split at hstep
        next heq =>
          subst heq
          exact .inr ⟨(Option.some.inj hstep).symm, hknown⟩
        · exact .inl (.inl hstep)
      · exact .inl (.inr hstep)
    · rintro d' step (hstep | hstep)
      · left
        dsimp only
        rw [KeyMap.lookup_insert_eq, if_neg ?_]
        · exact hstep
        · rintro rfl
          rw [hnone] at hstep
          cases hstep
      · exact .inr hstep
  · exact h.mono

theorem advance_running {api : Mining Ch V F32} {now : Nat} (hrun : (s.advance api now).Running) :
    s.Running := by
  have hsame : (s.advance api now).manager.cancelled = s.manager.cancelled ∧
      (s.advance api now).manager.loop = s.manager.loop := by
    unfold advance
    split
    · exact ⟨rfl, rfl⟩
    · exact ⟨rfl, rfl⟩
    · unfold visitVardiff
      split
      · exact ⟨rfl, rfl⟩
      · split <;> exact ⟨rfl, rfl⟩
    · exact ⟨rfl, rfl⟩
    · exact ⟨rfl, rfl⟩
    next m _ _ => cases m <;> exact ⟨rfl, rfl⟩
    next step _ => cases step <;> exact ⟨rfl, rfl⟩
  rw [Running, hsame.1, hsame.2] at hrun
  exact hrun

theorem step_inv (hl : ctx.mining.Lawful ctx.env.channels) (hbound : n + 3 < 2 ^ 32)
    (h : s.Running → Inv ctx.mining n s) (a : Action V F32) (hrun : (s.step ctx a).Running) :
    Inv ctx.mining (n + 1) (s.step ctx a) := by
  cases a with
  | templateMessage msg =>
    simp only [step] at hrun ⊢
    split
    next hidle => exact (h (running_of_idle hidle)).framed hbound (templateMessage_frame msg)
    next hidle =>
      rw [if_neg hidle] at hrun
      exact (h hrun).mono
  | visit d => exact (h (visit_running hrun)).framed hbound (visit_frame hl d hrun)
  | finish => exact (h (finish_running hrun)).framed hbound finish_frame
  | accept => exact (h (accept_running hrun)).framed hbound accept_frame
  | bootstrap d => exact (h (bootstrap_running hrun)).framed hbound (bootstrap_frame d hrun)
  | openSender d =>
    simp only [step] at hrun ⊢
    split
    next htask =>
      simp only [htask] at hrun
      exact (h hrun).framed hbound (.openSender htask)
    next htask => 
      have hs : s.Running := by
        split at hrun
        · exact hrun
        · exact hrun
      exact (h hs).mono
  | register d =>
    simp only [step] at hrun ⊢
    split
    next hsender =>
      rw [if_pos hsender] at hrun
      exact (h (register_running hrun)).register d hsender
    next hsender =>
      rw [if_neg hsender] at hrun
      exact (h hrun).mono
  | setUpConnection d std custom => exact (h hrun).framed hbound (setUpConnection_frame d std custom)
  | openChannel kind d msg allocation construction vardiff => exact openChannel_inv hl hbound h hrun
  | closeChannel d channelId => exact closeChannel_inv hbound h hrun
  | updateChannel d msg => exact updateChannel_inv hbound h hrun
  | submitShares kind d share => exact submitShares_inv hl hbound h hrun
  | tick =>
    simp only [step] at hrun ⊢
    split
    next hidle =>
      have hready := hidle.2.2
      refine (h (running_of_idle hidle)).framed hbound (.phase ?_ ?_ ?_ ?_ ?_)
      · rw [hready]
        rfl
      all_goals simp [hready]
    next hidle =>
      rw [if_neg hidle] at hrun
      exact (h hrun).mono
  | advance now => exact advance_inv hl hbound (h (advance_running hrun)) now
  | disconnected d =>
    refine disconnected_inv hbound (h ?_) d
    simp only [step, disconnected] at hrun
    split at hrun <;> exact hrun
  | advanceRemoval d =>
    refine advanceRemoval_inv (h ?_) d
    simp only [step, advanceRemoval] at hrun
    split at hrun
    · exact hrun
    next step _ => cases step <;> exact hrun

end Steps

/-! ## Every run -/

section Every

variable {ctx : Context Ch V F32} {s : PoolState Ch V} {n : Nat}

theorem inv_new (api : Mining Ch V F32) : Inv api 0 (new : PoolState Ch V) := by
  have hlog : ∀ d, (new : PoolState Ch V).log d = [] := fun _ => rfl
  have hremoving : ∀ d step, ¬ (new : PoolState Ch V).Removing d step := by
    rintro d step (hstep | hstep) <;> cases hstep
  refine ⟨?_, ?_, ?_, ?_, ?_, ?_, ?_, ?_, ?_, ?_, ?_⟩
  · intro d ds hds
    cases hds
  · intro d hd
    cases hd
  · intro d hd
    cases hd
  · intro d step hstep
    exact absurd hstep (hremoving d step)
  · rintro d channelId ⟨ds, kind, hds, -⟩
    cases hds
  · intro d hd
    cases hd
  · intro d ds hds
    cases hds
  · intro d channelId hkey
    cases hkey
  · intro d hd
    cases hd
  · intro d m hm
    rw [hlog] at hm
    cases hm
  · intro d channelId hclosing
    cases hclosing

theorem run_inv (hl : ctx.mining.Lawful ctx.env.channels) (as : List (Action V F32))
    (hbound : n + as.length + 3 < 2 ^ 32) (h : s.Running → Inv ctx.mining n s) :
    (Runs.run (step ctx) s as).Running →
      Inv ctx.mining (n + as.length) (Runs.run (step ctx) s as) := by
  induction as generalizing s n with
  | nil => exact h
  | cons a as ih =>
    rw [List.length_cons] at hbound ⊢
    have hstep : (s.step ctx a).Running → Inv ctx.mining (n + 1) (s.step ctx a) :=
      step_inv hl (by omega) h a
    have hrun := ih (by omega) hstep
    rwa [Nat.add_assoc, Nat.add_comm 1] at hrun

theorem after_inv (ctx : Context Ch V F32) (hl : ctx.mining.Lawful ctx.env.channels)
    (as : List (Action V F32)) (hbound : as.length + 3 < 2 ^ 32) (hrun : (after ctx as).Running) :
    Inv ctx.mining as.length (after ctx as) := by
  have hinv := run_inv hl as (by omega) (fun _ => inv_new ctx.mining) hrun
  rwa [Nat.zero_add] at hinv

end Every

/-- **Targets are told.** In every state that a run of the pool reaches, the target of each open
    channel of each connection is the one that its miner was told last, by what was sent to it and
    by the messages that the loop is about to forward.  The vardiff timer, requests for a target
    (granted or not), templates, openings, closed channels and lost connections come in any order;
    the run has fewer than 2^32 steps, so that no channel id is given twice. -/
theorem told_targets (ctx : Context Ch V F32) (hl : ctx.mining.Lawful ctx.env.channels)
    (as : List (Action V F32)) (hbound : as.length + 3 < 2 ^ 32) (hrun : (after ctx as).Running) :
    ∀ d ds, (after ctx as).manager.downstreams.lookup d = some ds →
      ∃ sent, (after ctx as).downstreamSender.lookup d = some sent ∧
        ∀ channelId c, Holds ds channelId c →
          lastTold channelId (sent ++ (after ctx as).phase.pending.filterMap (forMiner d)) =
            some (ctx.mining.getTarget c).toLeBytes := by
  have hinv := after_inv ctx hl as hbound hrun
  intro d ds hds
  obtain ⟨sent, hsent⟩ := Option.isSome_iff_exists.mp (hinv.connected d (by rw [hds]; rfl))
  refine ⟨sent, hsent, ?_⟩
  have htold := hinv.told d ds hds
  rw [log, hsent, Option.getD_some] at htold
  exact htold

theorem told_targets_sample :
    (after sampleContext sampleMiningRun).Running ∧
    (after sampleContext sampleMiningRun).phase = .ready ∧
    (((after sampleContext sampleMiningRun).downstreamSender.lookup 1).getD []).map
      (fun m => (m.told 2, m.told 3)) =
      [(some (sampleTarget 10).toLeBytes, none), (none, none), (none, none),
       (none, some (sampleTarget 20).toLeBytes), (none, none), (none, none), (none, none),
       (some (sampleTarget 20).toLeBytes, none), (none, none),
       (none, some (sampleTarget 20).toLeBytes)] ∧
    ∀ d ds, (after sampleContext sampleMiningRun).manager.downstreams.lookup d = some ds →
      ∃ sent, (after sampleContext sampleMiningRun).downstreamSender.lookup d = some sent ∧
        ∀ channelId c, Holds ds channelId c →
          lastTold channelId (sent ++
            (after sampleContext sampleMiningRun).phase.pending.filterMap (forMiner d)) =
            some (sampleTarget c.2).toLeBytes := by
  have hrun : (after sampleContext sampleMiningRun).Running := by
    constructor <;> decide +kernel
  exact ⟨hrun, by decide +kernel, by decide +kernel,
    told_targets sampleContext sampleMining_lawful sampleMiningRun (by decide) hrun⟩

/-- No call of `remove_downstream` and no handler is under way. -/
def Quiet (s : PoolState Ch V) : Prop := s.phase = .ready ∧ ∀ d, s.removals.lookup d = none

/-- **Channels are watched.** In every state that a run of the pool reaches, each open channel has
    a vardiff state, and the pool has closed no channel of a miner that is still connected.  When
    no handler and no removal is under way, the vardiff states are those of the open channels, and
    the senders those of the connections that are registered or being accepted: a lost connection
    leaves nothing behind. -/
theorem channels_watched (ctx : Context Ch V F32) (hl : ctx.mining.Lawful ctx.env.channels)
    (as : List (Action V F32)) (hbound : as.length + 3 < 2 ^ 32) (hrun : (after ctx as).Running) :
    (∀ d channelId, (after ctx as).IsOpen d channelId →
      ((after ctx as).vardiff.lookup (d, channelId)).isSome = true) ∧
    (∀ d sent, (after ctx as).downstreamSender.lookup d = some sent →
      ∀ channelId reason, .closeChannel channelId reason ∉ sent) ∧
    ((after ctx as).Quiet →
      (∀ d channelId, ((after ctx as).vardiff.lookup (d, channelId)).isSome = true ↔
        (after ctx as).IsOpen d channelId) ∧
      ∀ d, ((after ctx as).downstreamSender.lookup d).isSome = true →
        ((after ctx as).manager.downstreams.lookup d).isSome = true ∨
        ((after ctx as).manager.accepting.lookup d).isSome = true) := by
  have hinv := after_inv ctx hl as hbound hrun
  refine ⟨hinv.watched, ?_, ?_⟩
  · intro d sent hsent channelId reason hmem
    have hkeeps := hinv.keeping d _ (by
      rw [log, hsent, Option.getD_some]
      exact List.mem_append_left _ hmem)
    cases hkeeps
  · rintro ⟨hready, hremovals⟩
    have hremoving : ∀ d step, ¬ (after ctx as).Removing d step := by
      rintro d step (hstep | hstep)
      · rw [hremovals] at hstep
        cases hstep
      · rw [hready] at hstep
        cases hstep
    constructor
    · intro d channelId
      refine ⟨?_, hinv.watched d channelId⟩
      intro hkey
      rcases hinv.strays d channelId hkey with hopen | hclosing | ⟨step, -, hstep⟩
      · exact hopen
      · rw [hready] at hclosing
        cases hclosing
      · exact absurd hstep (hremoving d step)
    · intro d hd
      rcases hinv.senders d hd with hreg | haccepting | ⟨step, hstep⟩
      · exact .inl hreg
      · exact .inr haccepting
      · exact absurd hstep (hremoving d step)

/-- The connection is lost while vardiff visits its channels. -/
def sampleLossRun : List (Action Nat Nat) :=
  sampleOpening ++
  [.tick, .disconnected 1, .advance 1, .advanceRemoval 1, .advance 1, .advanceRemoval 1,
   .advance 1, .advanceRemoval 1, .advance 1, .advance 1]

theorem channels_watched_lost :
    (after sampleContext sampleLossRun).Running ∧
    (after sampleContext sampleLossRun).manager.downstreamIdFactory = 2 ∧
    (∀ d channelId, ((after sampleContext sampleLossRun).vardiff.lookup (d, channelId)).isSome = true ↔
      (after sampleContext sampleLossRun).IsOpen d channelId) ∧
    ∀ d, ((after sampleContext sampleLossRun).downstreamSender.lookup d).isSome = true →
      ((after sampleContext sampleLossRun).manager.downstreams.lookup d).isSome = true ∨
      ((after sampleContext sampleLossRun).manager.accepting.lookup d).isSome = true := by
  have hrun : (after sampleContext sampleLossRun).Running := by
    constructor <;> decide +kernel
  have hempty : (after sampleContext sampleLossRun).removals.keys = [] := by decide +kernel
  have hquiet : (after sampleContext sampleLossRun).Quiet := by
    refine ⟨by decide +kernel, ?_⟩
    intro d
    rw [AList.lookup_eq_none]
    intro hmem
    have hkeys := AList.mem_keys.mp hmem
    rw [hempty] at hkeys
    cases hkeys
  exact ⟨hrun, by decide +kernel,
    (channels_watched sampleContext sampleMining_lawful sampleLossRun (by decide) hrun).2.2 hquiet⟩

end PoolState

end Sv2Apps.Pool.Difficulty
