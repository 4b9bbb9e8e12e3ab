/-
  Monitoring/SnapshotCache.lean
  =============================
  **The snapshot cache and the gauges it sets** — `SnapshotCache::refresh` and `update_metrics` of
  `stratum-apps/src/monitoring/snapshot_cache.rs`, and `PrometheusMetrics`.

  A refresh reads the sources into a snapshot, sets the gauges from it, and removes the label
  combinations that were noted at the last refresh and are not noted now.  What the sources
  answer is part of the action.

  The gauge vectors come from the `prometheus` crate and are a parameter: `set` stands for
  `with_label_values(..).set(..)`, `remove` for `remove_label_values`, whose error is only
  logged, and `get` for what is exported.  The rejection codes come from `mining_sv2`.  An `f64`
  is a `Float`, an `f32` a `Float32`.
-/
import Sv2Apps.Lib.KeyMap
import Sv2Apps.Lib.SeriesTable

namespace Sv2Apps.Monitoring

/-- The values of the labels of a gauge, in the order of their names. -/
abbrev Labels := List String

abbrev GaugeVecs (Vec : Type) := SeriesTable Labels Float Vec

abbrev Instant := Nat

/-! ## Snapshots -/

/-- What is exported of a `ServerExtendedChannelInfo` or a `ServerStandardChannelInfo`. -/
structure ServerChannelInfo where
  channelId : UInt32
  userIdentity : String
  /-- `None` when vardiff is disabled. -/
  nominalHashrate : Option Float32
  sharesAcknowledged : UInt32
  sharesRejectedByReason : KeyMap String UInt32
  blocksFound : UInt32

structure ServerInfo where
  extendedChannels : List ServerChannelInfo
  standardChannels : List ServerChannelInfo

structure ServerSummary where
  extendedChannels : USize
  standardChannels : USize
  totalHashrate : Float32

/-- What is exported of an `ExtendedChannelInfo` or a `StandardChannelInfo`. -/
structure ChannelInfo where
  channelId : UInt32
  userIdentity : String
  nominalHashrate : Float32
  sharesAccepted : UInt32
  sharesRejectedByReason : KeyMap String UInt32
  blocksFound : UInt32

structure Sv2ClientInfo where
  clientId : USize
  extendedChannels : List ChannelInfo
  standardChannels : List ChannelInfo

structure Sv2ClientsSummary where
  totalClients : USize
  extendedChannels : USize
  standardChannels : USize
  totalHashrate : Float32

structure Sv1ClientsSummary where
  totalClients : USize
  totalHashrate : Float32

structure MonitoringSnapshot where
  timestamp : Option Instant
  serverInfo : Option ServerInfo
  serverSummary : Option ServerSummary
  sv2Clients : Option (List Sv2ClientInfo)
  sv2ClientsSummary : Option Sv2ClientsSummary
  sv1ClientsSummary : Option Sv1ClientsSummary

def MonitoringSnapshot.default : MonitoringSnapshot := ⟨none, none, none, none, none, none⟩

/-- What the sources answer during a refresh. -/
structure SourceAnswers where
  getServer : ServerInfo
  getServerSummary : ServerSummary
  getSv2Clients : List Sv2ClientInfo
  getSv2ClientsSummary : Sv2ClientsSummary
  getSv1ClientsSummary : Sv1ClientsSummary

/-! ## Gauges -/

/-- The gauges for single channels of one side, `sv2_server_…` or `sv2_client_…`. -/
structure ChannelGauges (Vec : Type) where
  channelHashrate : Option Vec
  sharesAcceptedTotal : Option Vec
  sharesRejectedTotal : Option Vec

structure PrometheusMetrics (Vec : Type) where
  sv2ServerChannels : Option Vec
  sv2ServerHashrateTotal : Option Float
  sv2Server : ChannelGauges Vec
  sv2ServerBlocksFoundTotal : Option Float
  sv2ClientsTotal : Option Float
  sv2ClientChannels : Option Vec
  sv2ClientHashrateTotal : Option Float
  sv2Client : ChannelGauges Vec
  sv2ClientBlocksFoundTotal : Option Float
  sv1ClientsTotal : Option Float
  sv1HashrateTotal : Option Float

/-- The label combinations that one side has set. -/
structure ChannelLabels where
  channelLabels : List Labels
  rejectedShareLabels : List Labels

def ChannelLabels.default : ChannelLabels := ⟨[], []⟩

structure PreviousPrometheusLabelSets where
  server : ChannelLabels
  client : ChannelLabels

section Update

variable {Vec : Type} (api : GaugeVecs Vec)

def ChannelGauges.new (enabled : Bool) : ChannelGauges Vec :=
  if enabled then ⟨some api.empty, some api.empty, some api.empty⟩ else ⟨none, none, none⟩

/-- A gauge is at 0 until it is set. -/
def PrometheusMetrics.new (enableServerMetrics enableClientsMetrics enableSv1Metrics : Bool) :
    PrometheusMetrics Vec :=
  let vec (enabled : Bool) := if enabled then some api.empty else none
  let gauge (enabled : Bool) := if enabled then some (0 : Float) else none
  { sv2ServerChannels := vec enableServerMetrics
    sv2ServerHashrateTotal := gauge enableServerMetrics
    sv2Server := .new api enableServerMetrics
    sv2ServerBlocksFoundTotal := gauge enableServerMetrics
    sv2ClientsTotal := gauge enableClientsMetrics
    sv2ClientChannels := vec enableClientsMetrics
    sv2ClientHashrateTotal := gauge enableClientsMetrics
    sv2Client := .new api enableClientsMetrics
    sv2ClientBlocksFoundTotal := gauge enableClientsMetrics
    sv1ClientsTotal := gauge enableSv1Metrics
    sv1HashrateTotal := gauge enableSv1Metrics }

/-- What the loops over channels read off a channel. -/
structure ChannelReading where
  labels : Labels
  sharesAccepted : Float
  sharesRejectedByReason : KeyMap String UInt32
  hashrate : Option Float

def ServerChannelInfo.reading (c : ServerChannelInfo) : ChannelReading :=
  ⟨[toString c.channelId, c.userIdentity], c.sharesAcknowledged.toFloat, c.sharesRejectedByReason,
    c.nominalHashrate.map Float32.toFloat⟩

def ChannelInfo.reading (clientId : USize) (c : ChannelInfo) : ChannelReading :=
  ⟨[toString clientId, toString c.channelId, c.userIdentity], c.sharesAccepted.toFloat,
    c.sharesRejectedByReason, some c.nominalHashrate.toFloat⟩

variable (codes : List String)

/-- The rejections of a channel: the known codes at 0 first, then the reasons that there are. -/
def ChannelReading.rejections (r : ChannelReading) : List (Labels × Float) :=
  codes.map (fun reason => (r.labels ++ [reason], (0 : Float))) ++
    r.sharesRejectedByReason.entries.map fun e => (r.labels ++ [e.1], e.2.toFloat)

/-- The body of the loops over channels. -/
def updateChannel (st : ChannelGauges Vec × ChannelLabels) (r : ChannelReading) :
    ChannelGauges Vec × ChannelLabels :=
  let (metrics, current) := st
  ({ sharesAcceptedTotal := metrics.sharesAcceptedTotal.map fun m =>
       api.set m r.labels r.sharesAccepted
     sharesRejectedTotal := metrics.sharesRejectedTotal.map fun m =>
       api.setAll m (r.rejections codes)
     channelHashrate :=
       match metrics.channelHashrate, r.hashrate with
       | some m, some hashrate => some (api.set m r.labels hashrate)
       | m, _ => m },
   { channelLabels := current.channelLabels.insert r.labels
     rejectedShareLabels :=
       match metrics.sharesRejectedTotal with
       | some _ => (r.rejections codes).foldl (fun ls w => ls.insert w.1) current.rejectedShareLabels
       | none => current.rejectedShareLabels })

/-- The label combinations that were set the last time and have not been set now are removed. -/
def ChannelGauges.removeStale (metrics : ChannelGauges Vec) (previous current : ChannelLabels) :
    ChannelGauges Vec :=
  let stale := SeriesTable.difference previous.channelLabels current.channelLabels
  let staleRejected :=
    SeriesTable.difference previous.rejectedShareLabels current.rejectedShareLabels
  { sharesAcceptedTotal := metrics.sharesAcceptedTotal.map fun m => api.removeAll m stale
    channelHashrate := metrics.channelHashrate.map fun m => api.removeAll m stale
    sharesRejectedTotal := metrics.sharesRejectedTotal.map fun m => api.removeAll m staleRejected }

def setChannelTypes (m : Vec) (extendedChannels standardChannels : USize) : Vec :=
  api.set (api.set m ["extended"] extendedChannels.toFloat) ["standard"] standardChannels.toFloat

/-- A total in 64 bits. -/
def blocksTotal (blocksFound : List UInt32) : Float :=
  (blocksFound.foldl (fun (total : UInt64) b => total + b.toUInt64) 0).toFloat

/-- The part of `update_metrics` for the server. -/
def updateServerMetrics (metrics : PrometheusMetrics Vec) (snapshot : MonitoringSnapshot) :
    PrometheusMetrics Vec × ChannelLabels :=
  let metrics := match snapshot.serverSummary with
    | none => metrics
    | some summary => { metrics with
        sv2ServerChannels := metrics.sv2ServerChannels.map fun m =>
          setChannelTypes api m summary.extendedChannels summary.standardChannels
        sv2ServerHashrateTotal := metrics.sv2ServerHashrateTotal.map fun _ =>
          summary.totalHashrate.toFloat }
  match snapshot.serverInfo with
  | none => (metrics, .default)
  | some server =>
    let st := (metrics.sv2Server, ChannelLabels.default)
    let st := server.extendedChannels.foldl (fun st c => updateChannel api codes st c.reading) st
    let st := server.standardChannels.foldl (fun st c => updateChannel api codes st c.reading) st
    ({ metrics with
        sv2Server := st.1
        sv2ServerBlocksFoundTotal := metrics.sv2ServerBlocksFoundTotal.map fun _ =>
          blocksTotal ((server.extendedChannels ++ server.standardChannels).map (·.blocksFound)) },
      st.2)

/-- The channels of a client. -/
def updateClient (st : ChannelGauges Vec × ChannelLabels) (client : Sv2ClientInfo) :
    ChannelGauges Vec × ChannelLabels :=
  let st := client.extendedChannels.foldl
    (fun st c => updateChannel api codes st (c.reading client.clientId)) st
  client.standardChannels.foldl
    (fun st c => updateChannel api codes st (c.reading client.clientId)) st

/-- The part of `update_metrics` for the clients. -/
def updateClientsMetrics (metrics : PrometheusMetrics Vec) (snapshot : MonitoringSnapshot) :
    PrometheusMetrics Vec × ChannelLabels :=
  match snapshot.sv2ClientsSummary with
  | none => (metrics, .default)
  | some summary =>
    let clients := snapshot.sv2Clients.getD []
    let st := clients.foldl (updateClient api codes) (metrics.sv2Client, ChannelLabels.default)
    ({ metrics with
        sv2ClientsTotal := metrics.sv2ClientsTotal.map fun _ => summary.totalClients.toFloat
        sv2ClientChannels := metrics.sv2ClientChannels.map fun m =>
          setChannelTypes api m summary.extendedChannels summary.standardChannels
        sv2ClientHashrateTotal := metrics.sv2ClientHashrateTotal.map fun _ =>
          summary.totalHashrate.toFloat
        sv2Client := st.1
        sv2ClientBlocksFoundTotal := metrics.sv2ClientBlocksFoundTotal.map fun _ =>
          blocksTotal (clients.flatMap fun client =>
            (client.extendedChannels ++ client.standardChannels).map (·.blocksFound)) },
      st.2)

def updateSv1Metrics (metrics : PrometheusMetrics Vec) (snapshot : MonitoringSnapshot) :
    PrometheusMetrics Vec :=
  match snapshot.sv1ClientsSummary with
  | none => metrics
  | some summary => { metrics with
      sv1ClientsTotal := metrics.sv1ClientsTotal.map fun _ => summary.totalClients.toFloat
      sv1HashrateTotal := metrics.sv1HashrateTotal.map fun _ => summary.totalHashrate.toFloat }

def updateMetrics (metrics : PrometheusMetrics Vec) (previous : PreviousPrometheusLabelSets)
    (snapshot : MonitoringSnapshot) : PrometheusMetrics Vec × PreviousPrometheusLabelSets :=
  let (metrics, currentServer) := updateServerMetrics api codes metrics snapshot
  let (metrics, currentClient) := updateClientsMetrics api codes metrics snapshot
  let metrics := updateSv1Metrics metrics snapshot
  ({ metrics with
      sv2Server := metrics.sv2Server.removeStale api previous.server currentServer
      sv2Client := metrics.sv2Client.removeStale api previous.client currentClient },
    ⟨currentServer, currentClient⟩)

end Update

/-! ## The cache -/

/-- The sources are there or not; the refresh interval is left out. -/
structure SnapshotCache (Vec : Type) where
  snapshot : MonitoringSnapshot
  serverSource : Bool
  sv2ClientsSource : Bool
  sv1ClientsSource : Bool
  metrics : Option (PrometheusMetrics Vec)
  previousMetricsLabels : PreviousPrometheusLabelSets

namespace SnapshotCache

variable {Vec : Type}

def new (serverSource sv2ClientsSource : Bool) : SnapshotCache Vec :=
  ⟨.default, serverSource, sv2ClientsSource, false, none, ⟨.default, .default⟩⟩

def withSv1ClientsSource (c : SnapshotCache Vec) : SnapshotCache Vec :=
  { c with sv1ClientsSource := true }

def withMetrics (c : SnapshotCache Vec) (metrics : PrometheusMetrics Vec) : SnapshotCache Vec :=
  { c with metrics := some metrics }

/-- The snapshot that a refresh takes. -/
def newSnapshot (c : SnapshotCache Vec) (now : Instant) (answers : SourceAnswers) :
    MonitoringSnapshot :=
  { timestamp := some now
    serverInfo := if c.serverSource then some answers.getServer else none
    serverSummary := if c.serverSource then some answers.getServerSummary else none
    sv2Clients := if c.sv2ClientsSource then some answers.getSv2Clients else none
    sv2ClientsSummary := if c.sv2ClientsSource then some answers.getSv2ClientsSummary else none
    sv1ClientsSummary := if c.sv1ClientsSource then some answers.getSv1ClientsSummary else none }

def refresh (api : GaugeVecs Vec) (codes : List String) (c : SnapshotCache Vec)
    (read : Instant × SourceAnswers) : SnapshotCache Vec :=
  let snapshot := c.newSnapshot read.1 read.2
  match c.metrics with
  | none => { c with snapshot := snapshot }
  | some metrics =>
    let (metrics, labels) := updateMetrics api codes metrics c.previousMetricsLabels snapshot
    { c with
      snapshot := snapshot
      metrics := some metrics
      previousMetricsLabels := labels }

end SnapshotCache

end Sv2Apps.Monitoring
