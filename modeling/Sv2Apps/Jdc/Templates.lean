/-
  Jdc/Templates.lean
  ==================
  **The template provider's messages** — `template_message_handler.rs`.

  `handle_new_template` and `handle_set_new_prev_hash` are cut at the point where they start
  to go through the connections: what comes before is one step, then each connection is one.
-/
import Sv2Apps.Jdc.ChannelManager

namespace Sv2Apps.Jdc

open Bitcoin

namespace ChannelManager

/-! ## A new template -/

/-- `handle_new_template`, up to the connections. -/
def receiveNewTemplate (env : Env) (s : ChannelManager) (t : NewTemplate) : ChannelManager :=
  let s := { s with
    history := (.newTemplate t, s.coinbaseOutputs) :: s.history
    templateStore := s.templateStore.insert t.templateId t
    lastFutureTemplate := if t.futureTemplate then some t else s.lastFutureTemplate }
  match s.coinbaseOutputs with
  | none => s.fail .shutdown
  | some raw => match withFirstValue t.coinbaseTxValueRemaining raw with
    | none => s.fail .panic
    | some outs =>
      let s :=
        if env.mode = .fullTemplate ∧ s.upstreamState = .connected then
          s.send [.requestTransactionData t.templateId]
        else s
      let takesToken := !t.futureTemplate && env.mode = .coinbaseOnly && s.upstreamChannel.isSome &&
        s.lastNewPrevHash.isSome && s.jobFactory
      let token := if takesToken then s.allocateTokens.head? else none
      { s with
        allocateTokens := if takesToken then s.allocateTokens.tail else s.allocateTokens
        loop := .newTemplate t ⟨outs, raw, token, s.upstreamInfo, s.lastNewPrevHash⟩
          s.downstream.keys [] [] }

/-- The coinbase-only custom job that is built at a connection. -/
def templateCustomJob (s : ChannelManager) (t : NewTemplate) (ctx : TemplateContext)
    (built : Bool) : ChannelManager × List Message :=
  match ctx.token, ctx.upstream, ctx.prevHash with
  | some token, some (channelId, size), some p =>
    let requestId := s.requestIdFactory
    let s := { s with requestIdFactory := s.requestIdFactory + 1 }
    if built then
      let job : CustomJob := ⟨channelId, requestId, token, p.chainTip, t, ctx.outputs, size⟩
      let stored : DeclaredJob :=
        ⟨none, t, some p, some job, some ctx.coinbaseOutputBytes, [], false⟩
      ({ s with lastDeclareJobStore := s.lastDeclareJobStore.insert requestId stored },
        [.setCustomMiningJob job false])
    else (s, [])
  | _, _, _ => (s, [])

/-- A standard channel takes the group's job or gets one of its own. -/
def standardOnNewTemplate (ds : Downstream) (t : NewTemplate) (outs : List TxOut) (groupJob : JobId)
    (ans : TemplateAnswers) (channelId : ChannelId) (c : Channel) :
    Except Fault (Channel × JobId) :=
  if !ds.requireStdJob then
    if ans.groupJobTaken channelId then
      .ok (c.addJob groupJob t outs ds.groupFullExtranonceSize, groupJob)
    else .error .shutdown
  else match ans.standardJob channelId with
    | none => .error .shutdown
    | some jobId =>
      .ok ({ c.addJob jobId t outs c.fullExtranonceSize with ownJobs := c.ownJobs + 1 }, jobId)

def extendedOnNewTemplate (ds : Downstream) (t : NewTemplate) (outs : List TxOut) (groupJob : JobId)
    (ans : TemplateAnswers) (channelId : ChannelId) (c : Channel) : Except Fault (Channel × JobId) :=
  if ans.groupJobTaken channelId then
    .ok (c.addJob groupJob t outs ds.groupFullExtranonceSize, groupJob)
  else .error .shutdown

/-- The jobs of the channels are jobs of the template. -/
def mapJobs (s : ChannelManager) (d : DownstreamId) (t : TemplateId)
    (jobs : List (ChannelId × JobId)) : ChannelManager :=
  { s with jobToTemplateId :=
      jobs.foldl (fun m e => m.insert (d, e.1, e.2) t) s.jobToTemplateId }

/-- One connection in `handle_new_template`. -/
def visitNewTemplate (s : ChannelManager) (t : NewTemplate) (ctx : TemplateContext)
    (d : DownstreamId) (ds : Downstream) (ans : TemplateAnswers) :
    Except Fault (ChannelManager × List Message) :=
  match ans.groupJob with
  | none => .error .shutdown
  | some groupJob =>
    let (s, customJob) := s.templateCustomJob t ctx ans.customJobBuilt
    let groupMessages : List Message :=
      if !ds.requireStdJob && !ds.groupChannelIds.isEmpty then
        [.downstream d (.newExtendedMiningJob Downstream.groupChannelId groupJob)]
      else []
    match KeyMap.tryMap (standardOnNewTemplate ds t ctx.outputs groupJob ans) ds.standardChannels with
    | .error f => .error f
    | .ok std =>
      match KeyMap.tryMap (extendedOnNewTemplate ds t ctx.outputs groupJob ans)
          ds.extendedChannels with
      | .error f => .error f
      | .ok ext =>
        let stdJobs := std.entries.map fun e => (e.1, e.2.2)
        let standardMessages : List Message :=
          if ds.requireStdJob then stdJobs.map fun e => .downstream d (.newMiningJob e.1 e.2) else []
        let ds := { ds with
          groupJobs := ds.groupJobs + 1
          groupTemplates := ds.groupTemplates.insert groupJob t.templateId
          standardChannels := KeyMap.mapValues (fun _ c => c.1) std
          extendedChannels := KeyMap.mapValues (fun _ c => c.1) ext }
        let s := { s with downstream := s.downstream.insert d ds }
        .ok (s.mapJobs d t.templateId (stdJobs ++ ext.entries.map fun e => (e.1, e.2.2)),
          customJob ++ groupMessages ++ standardMessages)

/-! ## A new prev-hash -/

/-- The stored job of a template that the iteration over the store sees last; which one that is,
    is up to the map. -/
def storedJobOf (s : ChannelManager) (t : TemplateId) (pick : RequestId) :
    Option (RequestId × DeclaredJob) :=
  match s.lastDeclareJobStore.lookup pick with
  | some job => if job.template.templateId = t then some (pick, job) else first
  | none => first
where
  first := (s.lastDeclareJobStore.entries.find? fun e => e.2.template.templateId = t).map
    fun e => (e.1, e.2)

/-- The declaration of the last future template is sent when a prev-hash arrives. -/
def declareFutureTemplate (env : Env) (s : ChannelManager) (pick : RequestId) : ChannelManager :=
  if env.mode = .fullTemplate then
    match s.lastFutureTemplate.bind fun t => s.storedJobOf t.templateId pick with
    | some (requestId, job) => match job.declareMiningJob with
      | some declaration =>
        { s with lastDeclareJobStore :=
            s.lastDeclareJobStore.insert requestId { job with declared := true } }.send
          [.declareMiningJob declaration]
      | none => s
    | none => s
  else s

/-- A stored job of the activated template. -/
def activate (p : SetNewPrevHash) (_ : RequestId) (job : DeclaredJob) : DeclaredJob :=
  if job.template.futureTemplate && job.template.templateId = p.templateId then
    { job with prevHash := some p, template := { job.template with futureTemplate := false } }
  else job

/-- The coinbase-only custom job of `handle_set_new_prev_hash`: the state, whether the token will
    be replaced, and the message. -/
def prevHashCustomJob (env : Env) (s : ChannelManager) (p : SetNewPrevHash) (raw : List TxOut)
    (built : Bool) : Except Fault (ChannelManager × Bool × List Message) :=
  if env.mode = .coinbaseOnly then
    match s.lastFutureTemplate, s.allocateTokens with
    | some t, token :: tokens =>
      let s := { s with allocateTokens := tokens }
      match s.upstreamInfo with
      | none => .ok (s, false, [])
      | some (channelId, size) =>
        if !s.jobFactory then .error .panic
        else
          let requestId := s.requestIdFactory
          let s := { s with requestIdFactory := s.requestIdFactory + 1 }
          if built then
            let job : CustomJob := ⟨channelId, requestId, token, p.chainTip, t, raw, size⟩
            let stored : DeclaredJob := ⟨none, t, some p, some job, some raw, [], false⟩
            .ok ({ s with lastDeclareJobStore := s.lastDeclareJobStore.insert requestId stored },
              true, [.setCustomMiningJob job false])
          else .ok (s, true, [])
    | _, _ => .ok (s, false, [])
  else .ok (s, false, [])

/-- `handle_set_new_prev_hash`, up to the connections. -/
def receiveSetNewPrevHash (env : Env) (s : ChannelManager) (p : SetNewPrevHash) (pick : RequestId)
    (customJobBuilt : Bool) : ChannelManager :=
  let s := { s with history := (.setNewPrevHash p, s.coinbaseOutputs) :: s.history }
  match s.coinbaseOutputs with
  | none => s.fail .shutdown
  | some raw =>
    let s := { s with cachedShares := ∅ }
    let s := s.declareFutureTemplate env pick
    let s := { s with
      lastNewPrevHash := some p
      lastDeclareJobStore := KeyMap.mapValues (activate p) s.lastDeclareJobStore }
    match s.prevHashCustomJob env p raw customJobBuilt with
    | .error f => s.fail f
    | .ok (s, tokenConsumed, messages) =>
      { s with loop := .setNewPrevHash p tokenConsumed s.downstream.keys [] messages }

/-- A standard channel; `expect("active job must exist")` with its own jobs only. -/
def standardOnSetNewPrevHash (ds : Downstream) (ans : PrevHashAnswers) (channelId : ChannelId)
    (_ : Channel) : Except Fault (Option JobId) :=
  match ans.standardJob channelId with
  | .refused => .error .fallback
  | .noActiveJob => if ds.requireStdJob then .error .panic else .ok none
  | .activated jobId => .ok (some jobId)

/-- An extended channel; nobody asks for its active job. -/
def extendedOnSetNewPrevHash (ans : PrevHashAnswers) (channelId : ChannelId) (_ : Channel) :
    Except Fault Unit :=
  if ans.extendedJob channelId = .refused then .error .fallback else .ok ()

/-- One connection in `handle_set_new_prev_hash`. -/
def visitSetNewPrevHash (s : ChannelManager) (p : SetNewPrevHash) (d : DownstreamId)
    (ds : Downstream) (ans : PrevHashAnswers) : Except Fault (ChannelManager × List Message) :=
  match ans.groupJob with
  | .refused => .error .fallback
  | .noActiveJob => .error .panic
  | .activated groupJob =>
    match KeyMap.tryMap (standardOnSetNewPrevHash ds ans) ds.standardChannels with
    | .error f => .error f
    | .ok std =>
      match KeyMap.tryMap (extendedOnSetNewPrevHash ans) ds.extendedChannels with
      | .error f => .error f
      | .ok ext =>
        let s := { s with downstream := s.downstream.insert d (ds.activate ans) }
        if ds.requireStdJob then
          let jobs := std.entries.filterMap fun e => e.2.map fun jobId => (e.1, jobId)
          .ok (s.mapJobs d p.templateId jobs,
            jobs.map fun e => .downstream d (.setNewPrevHash e.1 e.2 p))
        else if ds.groupChannelIds.isEmpty then .ok (s, [])
        else
          .ok (s.mapJobs d p.templateId ((std.keys ++ ext.keys).map fun ch => (ch, groupJob)),
            [.downstream d (.setNewPrevHash Downstream.groupChannelId groupJob p)])

/-! ## Transaction data -/

/-- A future template that the last prev-hash has not activated. -/
def isPendingFuture (t : NewTemplate) (prevHash : Option SetNewPrevHash) : Bool :=
  t.futureTemplate && match prevHash with
    | none => true
    | some p => p.templateId ≠ t.templateId

/-- The job of `handle_request_tx_data_success` is stored, and declared if it can be mined. -/
def declareJob (s : ChannelManager) (requestId : RequestId) (token : Bytes) (t : NewTemplate)
    (prevHash : Option SetNewPrevHash) (outs : List TxOut) (txs : List Bytes)
    (wtxids : List Hash256) (coinbase : Option (Bytes × Bytes)) : ChannelManager :=
  match s.upstreamChannel, coinbase with
  | some _, some (coinbaseTxPrefix, coinbaseTxSuffix) =>
    if s.jobFactory then
      let declaration : Declaration :=
        ⟨requestId, token, t, coinbaseTxPrefix, coinbaseTxSuffix, wtxids⟩
      let pendingFuture := isPendingFuture t prevHash
      let stored : DeclaredJob :=
        ⟨some declaration, t, prevHash, none, some outs, txs, !pendingFuture⟩
      let s := { s with lastDeclareJobStore := s.lastDeclareJobStore.insert requestId stored }
      if pendingFuture then s else s.send [.declareMiningJob declaration]
    else s
  | _, _ => s

/-- A part of the coinbase does not fit its field of the declaration: `try_into().unwrap()`. -/
def overlongCoinbase (s : ChannelManager) (coinbase : Option (Bytes × Bytes)) : Bool :=
  s.upstreamChannel.isSome && s.jobFactory &&
    coinbase.any fun parts => 2 ^ 16 ≤ parts.1.length || 2 ^ 16 ≤ parts.2.length

/-- `handle_request_tx_data_success`; `coinbase` is what `new_coinbase_tx_prefix_and_suffix`
    answers. -/
def handleRequestTxDataSuccess (env : Env) (s : ChannelManager) (templateId : TemplateId)
    (txs : List Bytes) (coinbase : Option (Bytes × Bytes)) : ChannelManager :=
  if env.mode ≠ .fullTemplate ∨ s.upstreamState ≠ .connected then s
  else match s.coinbaseOutputs with
    | none => s.fail .shutdown
    | some raw =>
      let token := s.allocateTokens.head?
      let template := s.templateStore.lookup templateId
      let requestId := s.requestIdFactory
      let s := { s with
        allocateTokens := s.allocateTokens.tail
        templateStore := s.templateStore.erase templateId
        requestIdFactory := s.requestIdFactory + 1 }
      let s := s.allocateToken
      match token with
      | none => s
      | some token => match template with
        | none => s.fail .log
        | some t => match withFirstValue t.coinbaseTxValueRemaining raw with
          | none => s.fail .panic
          | some outs => match txs.mapM env.wtxid with
            | none => s.fail .shutdown
            | some wtxids =>
              if 2 ^ 16 ≤ wtxids.length then s.fail .shutdown
              else if s.overlongCoinbase coinbase then s.fail .panic
              else s.declareJob requestId token t s.lastNewPrevHash outs txs wtxids coinbase

end ChannelManager

end Sv2Apps.Jdc
