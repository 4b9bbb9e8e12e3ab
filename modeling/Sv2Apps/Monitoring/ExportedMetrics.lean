/-
  Monitoring/ExportedMetrics.lean
  ===============================
  **The exported metrics and the latest snapshot** — the gauges for single channels are written
  over in place, and what is left of earlier snapshots is told from the labels that were noted
  at the last refresh.

  What the latest snapshot determines is defined without the gauges (`ChannelGauges.Exports`): of
  the channels with the same labels the last one counts.  The labels of a server channel are noted
  whether or not the channel has a hashrate, so the hashrate gauge keeps the series of a channel
  that has lost its hashrate and is still there.  That is the only thing that is kept: the gauges
  follow the snapshots exactly if no server channel loses its hashrate while it is there
  (`exported_iff`).
-/
import Sv2Apps.Lib.Runs
import Sv2Apps.Monitoring.SnapshotCache

namespace Sv2Apps.Monitoring

open SeriesTable

/-! ## What a snapshot determines -/

namespace ChannelReading

variable (codes : List String) (r : ChannelReading)

def acceptedAt (l : Labels) : Option Float := if l = r.labels then some r.sharesAccepted else none

def hashrateAt (l : Labels) : Option Float := if l = r.labels then r.hashrate else none

/-- A reason counts as often as the channel says; a known code counts 0 if it says nothing. -/
def rejectedCount (code : String) : Option Float :=
  match r.sharesRejectedByReason.lookup code with
  | some n => some n.toFloat
  | none => if code ∈ codes then some 0 else none

def rejectedAt (l : Labels) : Option Float :=
  if l.dropLast = r.labels then l.getLast?.bind (r.rejectedCount codes) else none

end ChannelReading

def MonitoringSnapshot.serverReadings (snapshot : MonitoringSnapshot) : List ChannelReading :=
  match snapshot.serverInfo with
  | none => []
  | some server => (server.extendedChannels ++ server.standardChannels).map (·.reading)

def Sv2ClientInfo.readings (client : Sv2ClientInfo) : List ChannelReading :=
  (client.extendedChannels ++ client.standardChannels).map (·.reading client.clientId)

def MonitoringSnapshot.clientReadings (snapshot : MonitoringSnapshot) : List ChannelReading :=
  (snapshot.sv2Clients.getD []).flatMap (·.readings)

section Exports

variable {Vec : Type} (api : GaugeVecs Vec) (codes : List String)

/-- The gauges have the series of these channels with their values, and no others. -/
structure ChannelGauges.Exports (metrics : ChannelGauges Vec) (rs : List ChannelReading) : Prop where
  accepted : ∀ m, metrics.sharesAcceptedTotal = some m →
    ∀ l, api.get m l = lastOf (·.acceptedAt l) rs
  rejected : ∀ m, metrics.sharesRejectedTotal = some m →
    ∀ l, api.get m l = lastOf (·.rejectedAt codes l) rs
  hashrate : ∀ m, metrics.channelHashrate = some m →
    ∀ l, api.get m l = lastOf (·.hashrateAt l) rs

/-- The exported metrics are those of the current snapshot. -/
def SnapshotCache.Exported (c : SnapshotCache Vec) : Prop :=
  ∀ metrics, c.metrics = some metrics →
    metrics.sv2Server.Exports api codes c.snapshot.serverReadings ∧
      metrics.sv2Client.Exports api codes c.snapshot.clientReadings

end Exports

/-- Some channel with these labels has a hashrate. -/
def HasHashrate (rs : List ChannelReading) (l : Labels) : Prop :=
  ∃ r ∈ rs, r.labels = l ∧ r.hashrate ≠ none

/-- The server channels that are still there, told by their labels, still have a hashrate if they
    had one, as far as the gauge for it exists. -/
def SnapshotCache.KeepsHashrate {Vec : Type} (c : SnapshotCache Vec)
    (read : Instant × SourceAnswers) : Prop :=
  ∀ metrics m, c.metrics = some metrics → metrics.sv2Server.channelHashrate = some m →
    ∀ r ∈ (c.newSnapshot read.1 read.2).serverReadings,
      HasHashrate c.snapshot.serverReadings r.labels →
        HasHashrate (c.newSnapshot read.1 read.2).serverReadings r.labels

/-! ## What a channel writes -/

namespace ChannelReading

variable {codes : List String} {r : ChannelReading}

def acceptedWrites (r : ChannelReading) : List (Labels × Float) := [(r.labels, r.sharesAccepted)]

def hashrateWrites (r : ChannelReading) : List (Labels × Float) :=
  (r.hashrate.map fun hashrate => (r.labels, hashrate)).toList

theorem lastWrite_acceptedWrites (l : Labels) : lastWrite r.acceptedWrites l = r.acceptedAt l := by
  simp [lastWrite, acceptedWrites, lastOf, acceptedAt]

theorem lastWrite_hashrateWrites (l : Labels) : lastWrite r.hashrateWrites l = r.hashrateAt l := by
  cases h : r.hashrate with
  | none => simp [lastWrite, hashrateWrites, lastOf, hashrateAt, h]
  | some hashrate => simp [lastWrite, hashrateWrites, lastOf, hashrateAt, h]

theorem lastWrite_rejections (l : Labels) :
    lastWrite (r.rejections codes) l = r.rejectedAt codes l := by
  unfold lastWrite rejections rejectedAt
  rw [lastOf_append, lastOf_map, lastOf_map]
  by_cases hl : ∃ code, l = r.labels ++ [code]
  · obtain ⟨code, rfl⟩ := hl
    have hcode : ∀ c, r.labels ++ [code] = r.labels ++ [c] ↔ code = c := by simp
    simp only [hcode, List.dropLast_concat, List.getLast?_concat, Option.bind_some, if_true]
    rw [lastOf_entries, lastOf_const, rejectedCount]
    cases r.sharesRejectedByReason.lookup code with
    | none => rfl
    | some n => rfl
  · have hne : ∀ c, l ≠ r.labels ++ [c] := fun c hc => hl ⟨c, hc⟩
    simp only [hne, if_false]
    rw [lastOf_eq_none.mpr fun _ _ => rfl, lastOf_eq_none.mpr fun _ _ => rfl, Option.none_or]
    split
    next hlabels =>
      cases hlast : l.getLast? with
      | none => rfl
      | some c =>
        obtain ⟨ys, rfl⟩ := List.getLast?_eq_some_iff.mp hlast
        rw [List.dropLast_concat] at hlabels
        exact absurd (by rw [hlabels]) (hne c)
    next => rfl

theorem mem_labels_of_hashrateWrites {w : Labels × Float} (h : w ∈ r.hashrateWrites) :
    w.1 = r.labels := by
  simp only [hashrateWrites, Option.mem_toList, Option.map_eq_some_iff] at h
  obtain ⟨_, _, rfl⟩ := h
  rfl

end ChannelReading

/-! ## The loops over channels -/

open ChannelReading

section Loops

variable {Vec : Type} (api : GaugeVecs Vec) (codes : List String)

/-- What the loops over channels have set and noted. -/
structure Updated (metrics : ChannelGauges Vec) (current : ChannelLabels)
    (rs : List ChannelReading) (st : ChannelGauges Vec × ChannelLabels) : Prop where
  accepted : st.1.sharesAcceptedTotal =
    metrics.sharesAcceptedTotal.map fun m => api.setAll m (rs.flatMap acceptedWrites)
  rejected : st.1.sharesRejectedTotal =
    metrics.sharesRejectedTotal.map fun m => api.setAll m (rs.flatMap (rejections codes))
  hashrate : st.1.channelHashrate =
    metrics.channelHashrate.map fun m => api.setAll m (rs.flatMap hashrateWrites)
  labels : ∀ l, l ∈ st.2.channelLabels ↔ l ∈ current.channelLabels ∨ l ∈ rs.map (·.labels)
  rejectedLabels : ∀ l, l ∈ st.2.rejectedShareLabels ↔ l ∈ current.rejectedShareLabels ∨
    metrics.sharesRejectedTotal.isSome = true ∧ l ∈ (rs.flatMap (rejections codes)).map Prod.fst

theorem Updated.nil (metrics : ChannelGauges Vec) (current : ChannelLabels) :
    Updated api codes metrics current [] (metrics, current) where
  accepted := by simp [setAll]
  rejected := by simp [setAll]
  hashrate := by simp [setAll]
  labels l := by simp
  rejectedLabels l := by simp

theorem mem_foldl_insert (ws : List (Labels × Float)) (ls : List Labels) (l : Labels) :
    l ∈ ws.foldl (fun ls w => ls.insert w.1) ls ↔ l ∈ ls ∨ l ∈ ws.map Prod.fst := by
  induction ws generalizing ls with
  | nil => simp
  | cons w ws ih => rw [List.foldl_cons, ih, List.mem_insert_iff, List.map_cons, List.mem_cons,
      or_assoc, or_left_comm]

theorem updateChannel_updated (metrics : ChannelGauges Vec) (current : ChannelLabels)
    (r : ChannelReading) :
    Updated api codes metrics current [r] (updateChannel api codes (metrics, current) r) where
  accepted := by simp [updateChannel, acceptedWrites, setAll]
  rejected := by simp [updateChannel]
  hashrate := by
    cases hm : metrics.channelHashrate with
    | none => simp [updateChannel, hm]
    | some m =>
      cases hr : r.hashrate with
      | none => simp [updateChannel, hashrateWrites, setAll, hm, hr]
      | some hashrate => simp [updateChannel, hashrateWrites, setAll, hm, hr]
  labels l := by simp [updateChannel, or_comm]
  rejectedLabels l := by
    cases hm : metrics.sharesRejectedTotal with
    | none => simp [updateChannel, hm]
    | some m => simp [updateChannel, mem_foldl_insert, hm]

theorem Updated.append {metrics : ChannelGauges Vec} {current : ChannelLabels}
    {rs rs' : List ChannelReading} {st st' : ChannelGauges Vec × ChannelLabels}
    (h : Updated api codes metrics current rs st) (h' : Updated api codes st.1 st.2 rs' st') :
    Updated api codes metrics current (rs ++ rs') st' where
  accepted := by
    rw [h'.accepted, h.accepted, Option.map_map, List.flatMap_append]
    simp only [Function.comp_def, setAll_append]
  rejected := by
    rw [h'.rejected, h.rejected, Option.map_map, List.flatMap_append]
    simp only [Function.comp_def, setAll_append]
  hashrate := by
    rw [h'.hashrate, h.hashrate, Option.map_map, List.flatMap_append]
    simp only [Function.comp_def, setAll_append]
  labels l := by
    rw [h'.labels, h.labels, List.map_append, List.mem_append, or_assoc]
  rejectedLabels l := by
    rw [h'.rejectedLabels, h.rejectedLabels, h.rejected, Option.isSome_map, List.flatMap_append,
      List.map_append, List.mem_append, or_assoc, and_or_left]

theorem foldl_updated {A : Type} {f : A → List ChannelReading}
    {step : ChannelGauges Vec × ChannelLabels → A → ChannelGauges Vec × ChannelLabels}
    (hstep : ∀ st a, Updated api codes st.1 st.2 (f a) (step st a)) (as : List A)
    (st : ChannelGauges Vec × ChannelLabels) :
    Updated api codes st.1 st.2 (as.flatMap f) (as.foldl step st) := by
  induction as generalizing st with
  | nil => exact Updated.nil api codes st.1 st.2
  | cons a as ih => exact (hstep st a).append api codes (ih (step st a))

/-- A loop over channels that are read one way. -/
theorem foldl_updateChannel {A : Type} (reading : A → ChannelReading) (as : List A)
    (st : ChannelGauges Vec × ChannelLabels) :
    Updated api codes st.1 st.2 (as.map reading)
      (as.foldl (fun st a => updateChannel api codes st (reading a)) st) := by
  rw [List.map_eq_flatMap]
  exact foldl_updated api codes
    (fun st a => updateChannel_updated api codes st.1 st.2 (reading a)) as st

theorem updateClient_updated (st : ChannelGauges Vec × ChannelLabels) (client : Sv2ClientInfo) :
    Updated api codes st.1 st.2 client.readings (updateClient api codes st client) := by
  unfold updateClient Sv2ClientInfo.readings
  rw [List.map_append]
  exact (foldl_updateChannel api codes _ client.extendedChannels st).append api codes
    (foldl_updateChannel api codes _ client.standardChannels _)

end Loops

/-! ## One refresh, one side -/

section Side

variable {Vec : Type} {api : GaugeVecs Vec} {codes : List String}

/-- The series that the gauges have are noted. -/
structure ChannelGauges.Noted (api : GaugeVecs Vec) (metrics : ChannelGauges Vec)
    (labels : ChannelLabels) : Prop where
  accepted : ∀ m, metrics.sharesAcceptedTotal = some m → api.Covers m labels.channelLabels
  rejected : ∀ m, metrics.sharesRejectedTotal = some m → api.Covers m labels.rejectedShareLabels
  hashrate : ∀ m, metrics.channelHashrate = some m → api.Covers m labels.channelLabels

theorem lastOf_hashrateAt {rs : List ChannelReading} {l : Labels} :
    lastOf (·.hashrateAt l) rs ≠ none ↔ HasHashrate rs l := by
  rw [ne_eq, lastOf_eq_none, not_forall]
  constructor
  · rintro ⟨r, hr⟩
    obtain ⟨hmem, hsome⟩ := Classical.not_imp.mp hr
    unfold hashrateAt at hsome
    split at hsome
    next hl => exact ⟨r, hmem, hl.symm, hsome⟩
    next => exact absurd rfl hsome
  · rintro ⟨r, hmem, rfl, hsome⟩
    refine ⟨r, fun h => hsome ?_⟩
    have hnone := h hmem
    rwa [hashrateAt, if_pos rfl] at hnone

variable {metrics : ChannelGauges Vec} {previous : ChannelLabels} {rs : List ChannelReading}
  {st : ChannelGauges Vec × ChannelLabels}

/-- What a refresh makes of the gauges of one side. -/
theorem Updated.removeStale_eq (h : Updated api codes metrics .default rs st) :
    st.1.removeStale api previous st.2 =
      { sharesAcceptedTotal := metrics.sharesAcceptedTotal.map fun m =>
          api.resync m previous.channelLabels st.2.channelLabels (rs.flatMap acceptedWrites)
        channelHashrate := metrics.channelHashrate.map fun m =>
          api.resync m previous.channelLabels st.2.channelLabels (rs.flatMap hashrateWrites)
        sharesRejectedTotal := metrics.sharesRejectedTotal.map fun m =>
          api.resync m previous.rejectedShareLabels st.2.rejectedShareLabels
            (rs.flatMap (rejections codes)) } := by
  unfold ChannelGauges.removeStale
  rw [h.accepted, h.rejected, h.hashrate]
  simp only [Option.map_map]
  rfl

theorem Updated.mem_labels (h : Updated api codes metrics .default rs st) (l : Labels) :
    l ∈ st.2.channelLabels ↔ l ∈ (rs.flatMap acceptedWrites).map Prod.fst := by
  rw [h.labels]
  simp [ChannelLabels.default, acceptedWrites, eq_comm]

theorem Updated.mem_rejectedLabels (h : Updated api codes metrics .default rs st) {m : Vec}
    (hm : metrics.sharesRejectedTotal = some m) (l : Labels) :
    l ∈ st.2.rejectedShareLabels ↔ l ∈ (rs.flatMap (rejections codes)).map Prod.fst := by
  rw [h.rejectedLabels, hm]
  simp [ChannelLabels.default]

theorem Updated.hashrate_noted (h : Updated api codes metrics .default rs st) :
    ∀ w ∈ rs.flatMap hashrateWrites, w.1 ∈ st.2.channelLabels := by
  intro w hw
  obtain ⟨r, hr, hw⟩ := List.mem_flatMap.mp hw
  rw [h.labels, mem_labels_of_hashrateWrites hw]
  exact Or.inr (List.mem_map_of_mem hr)

theorem Updated.removeStale_noted (hapi : api.Lawful) (hnoted : metrics.Noted api previous)
    (h : Updated api codes metrics .default rs st) :
    (st.1.removeStale api previous st.2).Noted api st.2 := by
  rw [h.removeStale_eq]
  constructor
  · intro m' hm'
    obtain ⟨m, hm, rfl⟩ := Option.map_eq_some_iff.mp hm'
    exact covers_resync hapi (hnoted.accepted m hm) fun w hw =>
      (h.mem_labels w.1).mpr (List.mem_map_of_mem hw)
  · intro m' hm'
    obtain ⟨m, hm, rfl⟩ := Option.map_eq_some_iff.mp hm'
    exact covers_resync hapi (hnoted.rejected m hm) fun w hw =>
      (h.mem_rejectedLabels hm w.1).mpr (List.mem_map_of_mem hw)
  · intro m' hm'
    obtain ⟨m, hm, rfl⟩ := Option.map_eq_some_iff.mp hm'
    exact covers_resync hapi (hnoted.hashrate m hm) h.hashrate_noted

/-- Not all the labels that are noted have a hashrate written. -/
theorem Updated.hashrate_exact_iff (hapi : api.Lawful) {m : Vec}
    (hcovers : api.Covers m previous.channelLabels)
    (h : Updated api codes metrics .default rs st) :
    (∀ l, api.get (api.resync m previous.channelLabels st.2.channelLabels
        (rs.flatMap hashrateWrites)) l = lastOf (·.hashrateAt l) rs) ↔
      ∀ r ∈ rs, api.get m r.labels ≠ none → HasHashrate rs r.labels := by
  have hlast : ∀ l, lastWrite (rs.flatMap hashrateWrites) l = lastOf (·.hashrateAt l) rs :=
    fun l => lastWrite_flatMap_of fun r => r.lastWrite_hashrateWrites l
  have hiff := resync_exact_iff hapi hcovers h.hashrate_noted
  simp only [hlast, lastOf_hashrateAt] at hiff
  rw [hiff]
  constructor
  · intro hall r hr
    refine hall r.labels ?_
    rw [h.labels]
    exact Or.inr (List.mem_map_of_mem hr)
  · intro hall l hl
    rw [h.labels] at hl
    obtain ⟨r, hr, rfl⟩ := List.mem_map.mp (hl.resolve_left List.not_mem_nil)
    exact hall r hr

/-- The gauges of one side are exact unless the hashrate gauge has a series that it keeps. -/
theorem Updated.removeStale_exports_iff (hapi : api.Lawful) (hnoted : metrics.Noted api previous)
    (h : Updated api codes metrics .default rs st) :
    (st.1.removeStale api previous st.2).Exports api codes rs ↔
      ∀ m, metrics.channelHashrate = some m →
        ∀ r ∈ rs, api.get m r.labels ≠ none → HasHashrate rs r.labels := by
  rw [h.removeStale_eq]
  constructor
  · intro hexports m hm
    exact (h.hashrate_exact_iff hapi (hnoted.hashrate m hm)).mp
      (hexports.hashrate _ (by rw [hm]; rfl))
  · intro hall
    constructor
    · intro m' hm' l
      obtain ⟨m, hm, rfl⟩ := Option.map_eq_some_iff.mp hm'
      rw [resync_exact hapi (hnoted.accepted m hm) h.mem_labels]
      exact lastWrite_flatMap_of fun r => r.lastWrite_acceptedWrites l
    · intro m' hm' l
      obtain ⟨m, hm, rfl⟩ := Option.map_eq_some_iff.mp hm'
      rw [resync_exact hapi (hnoted.rejected m hm) (h.mem_rejectedLabels hm)]
      exact lastWrite_flatMap_of fun r => r.lastWrite_rejections l
    · intro m' hm'
      obtain ⟨m, hm, rfl⟩ := Option.map_eq_some_iff.mp hm'
      exact (h.hashrate_exact_iff hapi (hnoted.hashrate m hm)).mpr (hall m hm)

end Side

/-! ## One refresh -/

section Refresh

variable {Vec : Type} {api : GaugeVecs Vec} {codes : List String}

theorem updateServerMetrics_updated (api : GaugeVecs Vec) (codes : List String)
    (metrics : PrometheusMetrics Vec) (snapshot : MonitoringSnapshot) :
    let r := updateServerMetrics api codes metrics snapshot
    Updated api codes metrics.sv2Server .default snapshot.serverReadings (r.1.sv2Server, r.2) ∧
      r.1.sv2Client = metrics.sv2Client := by
  unfold updateServerMetrics MonitoringSnapshot.serverReadings
  cases snapshot.serverInfo with
  | none =>
    cases snapshot.serverSummary with
    | none => exact ⟨Updated.nil api codes _ _, rfl⟩
    | some summary => exact ⟨Updated.nil api codes _ _, rfl⟩
  | some server =>
    have hloops : ∀ st : ChannelGauges Vec × ChannelLabels, Updated api codes st.1 st.2
        ((server.extendedChannels ++ server.standardChannels).map (·.reading))
        (server.standardChannels.foldl (fun st c => updateChannel api codes st c.reading)
          (server.extendedChannels.foldl (fun st c => updateChannel api codes st c.reading) st)) := by
      intro st
      rw [List.map_append]
      exact (foldl_updateChannel api codes _ server.extendedChannels st).append api codes
        (foldl_updateChannel api codes _ server.standardChannels _)
    cases snapshot.serverSummary with
    | none => exact ⟨hloops (metrics.sv2Server, .default), rfl⟩
    | some summary => exact ⟨hloops (metrics.sv2Server, .default), rfl⟩

/-- The clients are read where there is a summary of them. -/
theorem updateClientsMetrics_updated (api : GaugeVecs Vec) (codes : List String)
    (metrics : PrometheusMetrics Vec) {snapshot : MonitoringSnapshot}
    (hsource : snapshot.sv2ClientsSummary = none → snapshot.sv2Clients = none) :
    let r := updateClientsMetrics api codes metrics snapshot
    Updated api codes metrics.sv2Client .default snapshot.clientReadings (r.1.sv2Client, r.2) ∧
      r.1.sv2Server = metrics.sv2Server := by
  unfold updateClientsMetrics MonitoringSnapshot.clientReadings
  cases hsummary : snapshot.sv2ClientsSummary with
  | none =>
    rw [hsource hsummary]
    exact ⟨Updated.nil api codes _ _, rfl⟩
  | some summary =>
    exact ⟨foldl_updated api codes (updateClient_updated api codes) _ (metrics.sv2Client, .default),
      rfl⟩

theorem updateSv1Metrics_frame (metrics : PrometheusMetrics Vec) (snapshot : MonitoringSnapshot) :
    (updateSv1Metrics metrics snapshot).sv2Server = metrics.sv2Server ∧
      (updateSv1Metrics metrics snapshot).sv2Client = metrics.sv2Client := by
  unfold updateSv1Metrics
  split <;> exact ⟨rfl, rfl⟩

namespace SnapshotCache

variable {c : SnapshotCache Vec} {read : Instant × SourceAnswers}

theorem snapshot_refresh (c : SnapshotCache Vec) (read : Instant × SourceAnswers) :
    (c.refresh api codes read).snapshot = c.newSnapshot read.1 read.2 := by
  unfold refresh
  cases c.metrics <;> rfl

theorem metrics_refresh_none (hm : c.metrics = none) (read : Instant × SourceAnswers) :
    (c.refresh api codes read).metrics = none := by
  unfold refresh
  rw [hm]

/-- What a refresh does to the gauges for single channels and to the labels noted. -/
theorem refresh_sides (api : GaugeVecs Vec) (codes : List String)
    {metrics : PrometheusMetrics Vec} (hm : c.metrics = some metrics)
    (read : Instant × SourceAnswers) :
    ∃ metrics' stServer stClient,
      (c.refresh api codes read).metrics = some metrics' ∧
      Updated api codes metrics.sv2Server .default
        (c.newSnapshot read.1 read.2).serverReadings stServer ∧
      Updated api codes metrics.sv2Client .default
        (c.newSnapshot read.1 read.2).clientReadings stClient ∧
      metrics'.sv2Server =
        stServer.1.removeStale api c.previousMetricsLabels.server stServer.2 ∧
      metrics'.sv2Client =
        stClient.1.removeStale api c.previousMetricsLabels.client stClient.2 ∧
      (c.refresh api codes read).previousMetricsLabels = ⟨stServer.2, stClient.2⟩ := by
  have hsource : (c.newSnapshot read.1 read.2).sv2ClientsSummary = none →
      (c.newSnapshot read.1 read.2).sv2Clients = none := by
    unfold newSnapshot
    cases c.sv2ClientsSource with
    | false => exact fun _ => rfl
    | true =>
      intro h
      cases h
  obtain ⟨hserver, hclient⟩ := updateServerMetrics_updated api codes metrics
    (c.newSnapshot read.1 read.2)
  obtain ⟨hclients, hserver'⟩ := updateClientsMetrics_updated api codes
    (updateServerMetrics api codes metrics (c.newSnapshot read.1 read.2)).1 hsource
  rw [hclient] at hclients
  refine ⟨(updateMetrics api codes metrics c.previousMetricsLabels
    (c.newSnapshot read.1 read.2)).1, _, _, ?_, hserver, hclients, ?_, ?_, ?_⟩
  · unfold refresh
    rw [hm]
  · dsimp only [updateMetrics]
    rw [(updateSv1Metrics_frame _ _).1, hserver']
  · dsimp only [updateMetrics]
    rw [(updateSv1Metrics_frame _ _).2]
  · unfold refresh
    rw [hm]
    rfl

/-- The series of all gauges for single channels are noted. -/
def Noted (api : GaugeVecs Vec) (c : SnapshotCache Vec) : Prop :=
  ∀ metrics, c.metrics = some metrics →
    metrics.sv2Server.Noted api c.previousMetricsLabels.server ∧
      metrics.sv2Client.Noted api c.previousMetricsLabels.client

theorem Noted.refresh (hapi : api.Lawful) (h : c.Noted api) (read : Instant × SourceAnswers) :
    (c.refresh api codes read).Noted api := by
  intro metrics' hm'
  cases hm : c.metrics with
  | none => cases (metrics_refresh_none hm read).symm.trans hm'
  | some metrics =>
    obtain ⟨metrics'', stServer, stClient, hm'', hserver, hclient, heqServer, heqClient, hlabels⟩ :=
      refresh_sides api codes hm read
    cases hm''.symm.trans hm'
    rw [hlabels, heqServer, heqClient]
    exact ⟨hserver.removeStale_noted hapi (h metrics hm).1,
      hclient.removeStale_noted hapi (h metrics hm).2⟩

/-- Every channel of a client has a hashrate. -/
theorem hasHashrate_client {snapshot : MonitoringSnapshot} {r : ChannelReading}
    (hr : r ∈ snapshot.clientReadings) : HasHashrate snapshot.clientReadings r.labels := by
  refine ⟨r, hr, rfl, ?_⟩
  obtain ⟨client, -, hr⟩ := List.mem_flatMap.mp hr
  obtain ⟨channel, -, rfl⟩ := List.mem_map.mp hr
  exact Option.some_ne_none _

/-- A refresh exports its snapshot unless the hashrate gauge of the server has a series of a
    channel that is there without a hashrate. -/
theorem Noted.exported_refresh_iff (hapi : api.Lawful) (h : c.Noted api)
    (read : Instant × SourceAnswers) :
    (c.refresh api codes read).Exported api codes ↔
      ∀ metrics m, c.metrics = some metrics → metrics.sv2Server.channelHashrate = some m →
        ∀ r ∈ (c.newSnapshot read.1 read.2).serverReadings, api.get m r.labels ≠ none →
          HasHashrate (c.newSnapshot read.1 read.2).serverReadings r.labels := by
  unfold Exported
  rw [snapshot_refresh]
  cases hm : c.metrics with
  | none =>
    rw [metrics_refresh_none hm read]
    constructor
    · intro _ _ _ hsome
      cases hsome
    · intro _ _ hsome
      cases hsome
  | some metrics =>
    obtain ⟨metrics', stServer, stClient, hm', hserver, hclient, heqServer, heqClient, -⟩ :=
      refresh_sides api codes hm read
    have hiffServer := hserver.removeStale_exports_iff hapi (h metrics hm).1
    have hiffClient := hclient.removeStale_exports_iff hapi (h metrics hm).2
    rw [← heqServer] at hiffServer
    rw [← heqClient] at hiffClient
    constructor
    · intro hexported metrics'' m hmetrics hhashrate
      cases hmetrics
      exact hiffServer.mp (hexported metrics' hm').1 m hhashrate
    · intro hall metrics'' hmetrics
      cases hm'.symm.trans hmetrics
      exact ⟨hiffServer.mpr fun m hhashrate => hall metrics m rfl hhashrate,
        hiffClient.mpr fun _ _ r hr _ => hasHashrate_client hr⟩

/-! ## Any number of refreshes -/

/-- The gauges follow the snapshots. -/
structure Followed (api : GaugeVecs Vec) (codes : List String) (c : SnapshotCache Vec) : Prop where
  noted : c.Noted api
  exported : c.Exported api codes

theorem Followed.exported_refresh_iff (hapi : api.Lawful) (h : c.Followed api codes)
    (read : Instant × SourceAnswers) :
    (c.refresh api codes read).Exported api codes ↔ c.KeepsHashrate read := by
  rw [h.noted.exported_refresh_iff hapi]
  refine forall₄_congr fun metrics m hm hhashrate => ?_
  refine forall₂_congr fun r _ => ?_
  rw [(h.exported metrics hm).1.hashrate m hhashrate, lastOf_hashrateAt]

theorem Followed.run_iff (hapi : api.Lawful) (h : c.Followed api codes)
    (reads : List (Instant × SourceAnswers)) :
    Runs.Guarded (refresh api codes)
        (fun c read => (c.refresh api codes read).Exported api codes) c reads ↔
      Runs.Guarded (refresh api codes) KeepsHashrate c reads :=
  Runs.guarded_congr (Followed api codes) (fun _ read h => h.exported_refresh_iff hapi read)
    (fun _ read h hkeeps =>
      ⟨h.noted.refresh hapi read, (h.exported_refresh_iff hapi read).mpr hkeeps⟩) h reads

/-- New gauges have no series. -/
theorem gauges_new {enabled : Bool} {m : Vec} :
    ((ChannelGauges.new api enabled).sharesAcceptedTotal = some m → m = api.empty) ∧
      ((ChannelGauges.new api enabled).sharesRejectedTotal = some m → m = api.empty) ∧
        ((ChannelGauges.new api enabled).channelHashrate = some m → m = api.empty) := by
  unfold ChannelGauges.new
  cases enabled with
  | false =>
    refine ⟨?_, ?_, ?_⟩ <;>
    · intro h
      cases h
  | true =>
    refine ⟨?_, ?_, ?_⟩ <;>
    · intro h
      cases h
      rfl

theorem noted_new (hapi : api.Lawful) (enabled : Bool) (labels : ChannelLabels) :
    (ChannelGauges.new api enabled).Noted api labels where
  accepted _ h := gauges_new.1 h ▸ covers_empty hapi _
  rejected _ h := gauges_new.2.1 h ▸ covers_empty hapi _
  hashrate _ h := gauges_new.2.2 h ▸ covers_empty hapi _

theorem exports_new (hapi : api.Lawful) (enabled : Bool) :
    (ChannelGauges.new api enabled).Exports api codes [] where
  accepted _ h l := gauges_new.1 h ▸ hapi.get_empty l
  rejected _ h l := gauges_new.2.1 h ▸ hapi.get_empty l
  hashrate _ h l := gauges_new.2.2 h ▸ hapi.get_empty l

theorem noted_withMetrics (hapi : api.Lawful) (c : SnapshotCache Vec) (server clients sv1 : Bool) :
    (c.withMetrics (.new api server clients sv1)).Noted api := by
  intro metrics hm
  cases hm
  exact ⟨noted_new hapi server _, noted_new hapi clients _⟩

/-- A new cache with gauges attached. -/
def start (api : GaugeVecs Vec) (serverSource sv2ClientsSource sv1ClientsSource : Bool)
    (enableServerMetrics enableClientsMetrics enableSv1Metrics : Bool) : SnapshotCache Vec :=
  let cache := new serverSource sv2ClientsSource
  let cache := if sv1ClientsSource then cache.withSv1ClientsSource else cache
  cache.withMetrics (.new api enableServerMetrics enableClientsMetrics enableSv1Metrics)

theorem start_followed (hapi : api.Lawful) (serverSource sv2ClientsSource sv1ClientsSource : Bool)
    (enableServerMetrics enableClientsMetrics enableSv1Metrics : Bool) :
    (start api serverSource sv2ClientsSource sv1ClientsSource enableServerMetrics
      enableClientsMetrics enableSv1Metrics).Followed api codes := by
  refine ⟨noted_withMetrics hapi _ _ _ _, ?_⟩
  intro metrics hm
  cases hm
  cases sv1ClientsSource <;> exact ⟨exports_new hapi _, exports_new hapi _⟩

/-- After every refresh the exported metrics are those of its snapshot, exactly if at every
    refresh the server channels that are still there keep their hashrate. -/
theorem exported_iff (hapi : api.Lawful) (codes : List String)
    (serverSource sv2ClientsSource sv1ClientsSource : Bool)
    (enableServerMetrics enableClientsMetrics enableSv1Metrics : Bool)
    (reads : List (Instant × SourceAnswers)) :
    let cache := start api serverSource sv2ClientsSource sv1ClientsSource enableServerMetrics
      enableClientsMetrics enableSv1Metrics
    Runs.Guarded (refresh api codes)
        (fun c read => (c.refresh api codes read).Exported api codes) cache reads ↔
      Runs.Guarded (refresh api codes) KeepsHashrate cache reads :=
  (start_followed hapi serverSource sv2ClientsSource sv1ClientsSource enableServerMetrics
    enableClientsMetrics enableSv1Metrics).run_iff hapi reads

/-! ## A cache to try things on -/

/-- The gauge vectors as maps. -/
def referenceVecs : GaugeVecs (KeyMap Labels Float) where
  empty := ∅
  set m l v := m.insert l v
  remove m l := m.erase l
  get m l := m.lookup l

theorem referenceVecs_lawful : referenceVecs.Lawful where
  get_empty := AList.lookup_empty
  get_set m l v l' := KeyMap.lookup_insert_eq m l l' v
  get_remove m l l' := KeyMap.lookup_erase_eq m l l'

/-- The server has one channel. -/
def sampleRead (now : Instant) (hashrate : Option Float32) : Instant × SourceAnswers :=
  (now, ⟨⟨[⟨1, "miner", hashrate, 0, ∅, 0⟩], []⟩, ⟨1, 0, 0⟩, [], ⟨0, 0, 0, 0⟩, ⟨0, 0⟩⟩)

def sampleCodes : List String := ["stale-share", "duplicate-share"]

def sampleCache : SnapshotCache (KeyMap Labels Float) :=
  start referenceVecs true false false true false false

theorem exported_iff_keptHashrate :
    Runs.Guarded (refresh referenceVecs sampleCodes)
      (fun c read => (c.refresh referenceVecs sampleCodes read).Exported referenceVecs sampleCodes)
      sampleCache [sampleRead 0 (some 100), sampleRead 15 (some 200)] := by
  refine (exported_iff referenceVecs_lawful sampleCodes true false false true false false _).mpr
    ⟨?_, ?_, trivial⟩
  · rintro metrics m _ _ r _ ⟨_, hold, _⟩
    cases hold
  · intro metrics m _ _ r hr _
    refine ⟨r, hr, rfl, ?_⟩
    cases List.mem_singleton.mp hr
    exact Option.some_ne_none _

/-- The channel loses its hashrate, and the gauge keeps the one that it had. -/
theorem lostHashrate_exported :
    ¬Runs.Guarded (refresh referenceVecs sampleCodes)
      (fun c read => (c.refresh referenceVecs sampleCodes read).Exported referenceVecs sampleCodes)
      sampleCache [sampleRead 0 (some 100), sampleRead 15 none] := by
  rintro ⟨-, hexported, -⟩
  have hkept : (do
      let metrics ← ((sampleCache.refresh referenceVecs sampleCodes (sampleRead 0 (some 100))).refresh
        referenceVecs sampleCodes (sampleRead 15 none)).metrics
      let m ← metrics.sv2Server.channelHashrate
      referenceVecs.get m [toString (1 : UInt32), "miner"]).isSome = true := by
    decide +kernel
  obtain ⟨value, hvalue⟩ := Option.isSome_iff_exists.mp hkept
  obtain ⟨metrics, hmetrics, hvalue⟩ := Option.bind_eq_some_iff.mp hvalue
  obtain ⟨m, hm, hvalue⟩ := Option.bind_eq_some_iff.mp hvalue
  -- the snapshot would have to have a hashrate for these labels
  rw [(hexported metrics hmetrics).1.hashrate m hm] at hvalue
  have hhas := lastOf_hashrateAt.mp (by rw [hvalue]; exact Option.some_ne_none value)
  obtain ⟨r, hr, -, hsome⟩ := hhas
  cases List.mem_singleton.mp hr
  exact hsome rfl

end SnapshotCache

end Refresh

end Sv2Apps.Monitoring
