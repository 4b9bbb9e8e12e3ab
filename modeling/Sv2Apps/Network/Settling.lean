/-
  Network/Settling.lean
  =====================
  **One task that leaves takes the connection down** — once one of the four tasks has left its loop,
  every schedule of the tasks, in whatever order it takes their steps, ends with all four exited, or
  with the readers exited and both writers waiting for room in a full direction (`comes_down`).

  The tasks cannot go on for ever by themselves: a step takes a frame out of an outbound channel, or
  else lowers a weight (`Endpoint.weight`) in which a byte counts more before it is written than in the
  socket of the other end, and a frame more before it is found than the call that finds it.  For this
  the decoder has to want some bytes for a frame that it calls incomplete (`Codec.Asks`).
-/
import Sv2Apps.Network.Teardown
import Mathlib.Data.Prod.Lex
import Mathlib.Order.WellFounded
import Mathlib.Tactic.IntervalCases

namespace Sv2Apps.Network

open BlockReader

variable {c : Codec}

/-- An incomplete frame asks for bytes. -/
def Codec.Asks (c : Codec) : Prop :=
  ∀ s block s', (blocks c).feed s block = (s', none) → s'.2 ≠ none → 0 < (blocks c).need s'

/-! ## Weights -/

def TaskState.weight : TaskState → Nat
  | .running => 2
  | .leaving => 1
  | .exited => 0

def Channel.weight {α : Type} (ch : Channel α) : Nat := if ch.closed then 0 else 1

theorem Channel.weight_close {α : Type} (ch : Channel α) : ch.close.weight = 0 := rfl

theorem Channel.weight_open {α : Type} {ch : Channel α} (h : ch.closed = false) : ch.weight = 1 := by
  simp [weight, h]

theorem Channel.weight_push {α : Type} (ch : Channel α) (a : α) : (ch.push a).weight = ch.weight := rfl

def callWeight : Option Await → Nat
  | none => 2
  | some .yieldNow => 1
  | some .read => 0

def writingWeight : Option (List UInt8) → Nat
  | none => 0
  | some rest => 5 * rest.length + 1

theorem writing_shorter (rest : List UInt8) {n : Nat} (hn : 0 < n) :
    writingWeight (if (rest.drop n).isEmpty then none else some (rest.drop n)) +
      4 * (rest.take n).length ≤ 5 * rest.length := by
  rw [List.length_take]
  split
  next =>
    simp only [writingWeight]
    omega
  next hmore =>
    simp only [List.isEmpty_iff, List.drop_eq_nil_iff] at hmore
    simp only [writingWeight, List.length_drop]
    omega

namespace Endpoint

/-- The weight of all but the reading half. -/
def base (e : Endpoint c) : Nat :=
  4 * (e.readerTask.weight + e.writerTask.weight + e.inbound.weight + e.outbound.weight) +
    writingWeight e.writing

def weight (e : Endpoint c) : Nat :=
  e.base + 4 * e.reader.socket.length + callWeight e.reader.call

/-- A result of `read_frame` makes the reader lighter, or it is a frame, or the call is pending. -/
theorem serve_weight {e : Endpoint c} (hrun : e.readerTask = .running) (reader : Inbound c)
    (p : NoiseTcpReadHalf c × Poll c.SerializedFrame c.CodecError) :
    (e.serve reader p).weight + 2 ≤ e.base + 4 * reader.socket.length + 4 * p.2.frame.toList.length ∨
      ∃ at_, p.2 = .pending at_ ∧
        (e.serve reader p).weight = e.base + 4 * reader.socket.length + callWeight (some at_) := by
  obtain ⟨half, res⟩ := p
  match res with
  | .pending at_ => exact .inr ⟨at_, rfl, rfl⟩
  | .ready (.error err) =>
    left
    simp only [serve, weight, base, Inbound.settle, hrun, TaskState.weight, callWeight]
    omega
  | .ready (.ok frame) =>
    left
    simp only [serve]
    split
    next hclosed =>
      simp only [weight, base, Inbound.settle, hrun, TaskState.weight, callWeight]
      omega
    next hopen =>
      simp only [weight, base, Inbound.settle, callWeight, Channel.weight_push, Poll.frame,
        Option.toList_some, List.length_singleton]
      omega

/-- A block that is not empty is waited for. -/
theorem readFrame_waits {r : NoiseTcpReadHalf c} (h : r.Clean) (hpos : 0 < r.expected) :
    r.readFrame.2 = .pending .read := by
  obtain ⟨hcipher, _, _, _, hparked⟩ := NoiseTcpReadHalf.fitBuffer_spec h
  have hexpected : r.fitBuffer.expected = r.expected :=
    congrArg (fun s : c.Decoder × Option c.DecryptState => c.writableLen s.1) hcipher
  have hroom := (hparked (by omega)).room
  simp only [NoiseTcpReadHalf.readFrame, NoiseTcpReadHalf.fill, if_pos hroom]

/-- Some bytes are taken from a socket that is not empty. -/
theorem answer_length {half : NoiseTcpReadHalf c} (h : half.Parked) {socket : List UInt8} {n : Nat}
    (hsocket : socket ≠ []) (hn : 0 < n) :
    (Inbound.answer half socket (.upTo n)).2.length + 1 ≤ socket.length := by
  have hroom := h.room
  have hfits := h.fits
  have hpos := List.length_pos_iff.mpr hsocket
  simp only [Inbound.answer, Inbound.offered, List.length_drop, List.length_take]
  omega

theorem serve_reader (e : Endpoint c) (reader : Inbound c)
    (p : NoiseTcpReadHalf c × Poll c.SerializedFrame c.CodecError) :
    (e.serve reader p).reader = reader.settle p := by
  rcases serve_cases e reader p with ⟨_, heq⟩ | heq | ⟨_, _, heq⟩
  all_goals rw [heq]

/-- Without what it has put on the wire the end is lighter, but for the frames that it has found. -/
structure Lighter (e e' : Endpoint c) (written : Nat) (found : List c.SerializedFrame) : Prop where
  frames : e'.reader.frames = e.reader.frames ++ found
  weight : e'.weight + 4 * written + 1 ≤ e.weight + 4 * found.length

theorem serve_lighter {e : Endpoint c} (hrun : e.readerTask = .running) {reader : Inbound c}
    {p : NoiseTcpReadHalf c × Poll c.SerializedFrame c.CodecError}
    (hgoes : Inbound.Goes e.reader (reader.settle p) [] p.2.frame.toList)
    (hsocket : reader.socket.length ≤ e.reader.socket.length)
    (hpending : ∀ at_, p.2 = .pending at_ →
      4 * reader.socket.length + callWeight (some at_) + 1 ≤
        4 * e.reader.socket.length + callWeight e.reader.call) :
    Lighter e (e.serve reader p) 0 p.2.frame.toList := by
  constructor
  · rw [serve_reader, hgoes.frames]
  · have hwhole : e.weight = e.base + 4 * e.reader.socket.length + callWeight e.reader.call := rfl
    rcases serve_weight hrun reader p with hdone | ⟨at_, hat, hweight⟩
    · omega
    · have := hpending at_ hat
      omega

/-- A step of the reader. -/
theorem reader_lighter {e : Endpoint c} (h : e.Inv) (hasks : c.Asks) {remote : Remote}
    {ev : Event c.SerializedFrame} (hcan : e.can remote ev = true) (htasks : ev.ofTasks = true)
    (hreader : ev.ofReader = true) : ∃ found, Lighter e (e.perform ev) 0 found := by
  have hsame : e.reader.socket = [] ++ e.reader.socket := rfl
  cases ev with
  | lost => cases htasks
  | read =>
    simp only [can, Bool.and_eq_true, decide_eq_true_eq, Option.isNone_iff_eq_none] at hcan
    refine ⟨_, serve_lighter hcan.1 (Inbound.settle_goes
      (NoiseTcpReadHalf.readFrame_polled h.good.clean) hsame) (Nat.le_refl _) ?_⟩
    intro at_ _
    rw [hcan.2]
    cases at_ <;> simp only [callWeight] <;> omega
  | wake =>
    obtain ⟨hrun, hcall⟩ := running_of_awaits hcan
    refine ⟨_, serve_lighter hrun (Inbound.settle_goes
      (NoiseTcpReadHalf.readFrame_polled h.good.clean) hsame) (Nat.le_refl _) ?_⟩
    intro at_ hat
    obtain ⟨hstate, s, block, hfed⟩ := h.good.incomplete hcall
    have hwaits := readFrame_waits h.good.clean (hasks s block _ hfed hstate)
    cases hwaits.symm.trans hat
    rw [hcall]
    simp only [callWeight]
    omega
  | eof =>
    simp only [can, Bool.and_eq_true] at hcan
    obtain ⟨hrun, hcall⟩ := running_of_awaits hcan.1.1
    have hgoes : Inbound.Goes e.reader (e.reader.settle (e.reader.half.resume .read .closed)) []
        (e.reader.half.resume .read .closed).2.frame.toList :=
      Inbound.settle_goes (Inbound.resume_none_polled (h.good.parked hcall) (by simp)) hsame
    refine ⟨_, serve_lighter hrun hgoes (Nat.le_refl _) ?_⟩
    intro at_ hat
    cases hat
  | poll n =>
    simp only [can, Bool.and_eq_true, decide_eq_true_eq, Bool.not_eq_true',
      List.isEmpty_eq_false_iff] at hcan
    obtain ⟨⟨hawaits, hsocket⟩, hn⟩ := hcan
    obtain ⟨hrun, hcall⟩ := running_of_awaits hawaits
    have hless := answer_length (h.good.parked hcall) hsocket hn
    refine ⟨_, serve_lighter hrun (poll_goes h hcall n) (Nat.le_of_succ_le hless) ?_⟩
    intro at_ _
    rw [hcall]
    cases at_ <;> simp only [callWeight] <;> omega
  | _ => simp [Event.ofReader] at hreader

theorem leave_lighter {e : Endpoint c} {task : Task} (hrun : e.task task = .running) :
    Lighter e (e.leave task) 0 [] := by
  refine ⟨?_, ?_⟩
  · cases task <;> exact (List.append_nil _).symm
  · cases task with
    | reader =>
      have hreader : e.readerTask = .running := hrun
      simp only [leave, Inbound.step, weight, base, hreader, TaskState.weight, callWeight,
        List.length_nil]
      omega
    | writer =>
      have hwriter : e.writerTask = .running := hrun
      simp only [leave, weight, base, hwriter, TaskState.weight, List.length_nil]
      omega

theorem write_outbound (e : Endpoint c) (frame : c.SerializedFrame) :
    (e.write frame).outbound = e.outbound.pop := by
  simp only [write]
  split
  next => rfl
  next => rfl

theorem pop_shorter {ch : Channel c.SerializedFrame} (h : ch.queue ≠ []) :
    ch.pop.queue.length < ch.queue.length := by
  have := List.length_pos_iff.mpr h
  simp only [Channel.pop, List.length_tail]
  omega

theorem take_shorter {e : Endpoint c} (h : e.outbound.queue ≠ []) :
    (e.perform .take).outbound.queue.length < e.outbound.queue.length := by
  obtain ⟨frame, rest, hqueue⟩ := List.exists_cons_of_ne_nil h
  have hperform : e.perform .take = e.write frame := by simp only [perform, hqueue]
  rw [hperform, write_outbound]
  exact pop_shorter h

/-- A step of a task that takes nothing out of the outbound channel. -/
theorem perform_lighter {e : Endpoint c} (h : e.Inv) (hasks : c.Asks) {remote : Remote}
    {ev : Event c.SerializedFrame} (hcan : e.can remote ev = true) (htasks : ev.ofTasks = true)
    (hkeeps : (e.perform ev).outbound.queue.length = e.outbound.queue.length) :
    ∃ found, Lighter e (e.perform ev) (e.written ev).length found := by
  have hnone : e.reader.frames = e.reader.frames ++ [] := (List.append_nil _).symm
  by_cases hreader : ev.ofReader = true
  · have hlight := reader_lighter h hasks hcan htasks hreader
    cases ev with
    | read | poll _ | eof | wake | lost => exact hlight
    | _ => cases hreader
  refine ⟨[], ?_⟩
  cases ev with
  | send _ | receive | appCloses _ | cancel | lost | writeFails => cases htasks
  | read | poll _ | eof | wake => exact absurd rfl hreader
  | stop task =>
    simp only [can, Bool.and_eq_true] at hcan
    exact leave_lighter (running_of_selects hcan.2)
  | outboundClosed =>
    simp only [can, Bool.and_eq_true] at hcan
    exact leave_lighter (running_of_selects hcan.1.1)
  | refused =>
    simp only [can, Bool.and_eq_true, decide_eq_true_eq] at hcan
    have hrun : e.task .writer = .running := hcan.1.1
    exact leave_lighter hrun
  | take =>
    simp only [can, Bool.and_eq_true, Bool.not_eq_true', List.isEmpty_eq_false_iff] at hcan
    exact absurd hkeeps (Nat.ne_of_lt (take_shorter hcan.2))
  | drains task =>
    simp only [can, Bool.and_eq_true, Bool.not_eq_true', List.isEmpty_eq_false_iff] at hcan
    exact absurd hkeeps (Nat.ne_of_lt (pop_shorter hcan.2))
  | writeSome n =>
    simp only [can, Bool.and_eq_true, decide_eq_true_eq, Option.isSome_iff_exists] at hcan
    obtain ⟨⟨⟨_, rest, hrest⟩, hn⟩, _⟩ := hcan
    have hless := writing_shorter rest hn
    refine ⟨hnone, ?_⟩
    simp only [perform, written, weight, base, hrest, Option.getD_some, List.length_nil]
    have hold : writingWeight (some rest) = 5 * rest.length + 1 := rfl
    omega
  | closes task pipe =>
    simp only [can, Bool.and_eq_true, Bool.not_eq_true'] at hcan
    cases pipe with
    | inbound =>
      refine ⟨hnone, ?_⟩
      have hopen : e.inbound.weight = 1 := Channel.weight_open hcan.2
      simp only [perform, close, written, weight, base, Channel.weight_close, hopen, List.length_nil]
      omega
    | outbound =>
      refine ⟨hnone, ?_⟩
      have hopen : e.outbound.weight = 1 := Channel.weight_open hcan.2
      simp only [perform, close, written, weight, base, Channel.weight_close, hopen, List.length_nil]
      omega
  | exits task =>
    simp only [can, Bool.and_eq_true, decide_eq_true_eq] at hcan
    have htask := hcan.1.1.1
    refine ⟨?_, ?_⟩
    · cases task <;> exact hnone
    · cases task with
      | reader =>
        have hleaving : e.readerTask = .leaving := htask
        simp only [perform, setTask, written, weight, base, hleaving, TaskState.weight, List.length_nil]
        omega
      | writer =>
        have hleaving : e.writerTask = .leaving := htask
        simp only [perform, setTask, written, weight, base, hleaving, TaskState.weight, List.length_nil]
        omega

theorem serve_kept (e : Endpoint c) (reader : Inbound c)
    (p : NoiseTcpReadHalf c × Poll c.SerializedFrame c.CodecError) :
    (e.serve reader p).outbound = e.outbound ∧ (e.serve reader p).taken = e.taken := by
  rcases serve_cases e reader p with ⟨_, heq⟩ | heq | ⟨_, _, heq⟩
  all_goals
    rw [heq]
    exact ⟨rfl, rfl⟩

/-- A step of a task takes a frame out of the outbound channel, or leaves both ends of it alone. -/
theorem perform_queue {e : Endpoint c} {remote : Remote} {ev : Event c.SerializedFrame}
    (hcan : e.can remote ev = true) (htasks : ev.ofTasks = true) :
    (e.perform ev).outbound.queue.length < e.outbound.queue.length ∨
      (e.perform ev).outbound.queue.length = e.outbound.queue.length ∧
        (e.perform ev).taken = e.taken := by
  cases ev with
  | send _ | receive | appCloses _ | cancel | lost | writeFails => cases htasks
  | take =>
    simp only [can, Bool.and_eq_true, Bool.not_eq_true', List.isEmpty_eq_false_iff] at hcan
    exact .inl (take_shorter hcan.2)
  | drains task =>
    simp only [can, Bool.and_eq_true, Bool.not_eq_true', List.isEmpty_eq_false_iff] at hcan
    exact .inl (pop_shorter hcan.2)
  | read | poll n | eof | wake =>
    obtain ⟨hout, htaken⟩ := serve_kept e _ _
    exact .inr ⟨congrArg (fun ch : Channel c.SerializedFrame => ch.queue.length) hout, htaken⟩
  | stop task => cases task <;> exact .inr ⟨rfl, rfl⟩
  | exits task => cases task <;> exact .inr ⟨rfl, rfl⟩
  | closes _ pipe => cases pipe <;> exact .inr ⟨rfl, rfl⟩
  | outboundClosed | refused | writeSome _ => exact .inr ⟨rfl, rfl⟩

/-- A task that has left its loop does not come back to it. -/
theorem perform_left (e : Endpoint c) (ev : Event c.SerializedFrame) (task : Task)
    (h : e.task task ≠ .running) : (e.perform ev).task task ≠ .running := by
  have hserve : ∀ reader p, (e.serve reader p).task task ≠ .running := by
    intro reader p
    rcases serve_cases e reader p with ⟨_, heq⟩ | heq | ⟨_, _, heq⟩
    · rw [heq]
      cases task <;> exact h
    · rw [heq]
      cases task with
      | reader => simp [Endpoint.task]
      | writer => exact h
    · rw [heq]
      cases task <;> exact h
  have hleave : ∀ other, (e.leave other).task task ≠ .running := by
    intro other
    cases other <;> cases task <;> first | exact h | simp [leave, Endpoint.task]
  cases ev with
  | read | poll n | wake => exact hserve _ _
  | eof | lost => exact hserve e.reader (e.reader.half.resume .read .closed)
  | stop other => exact hleave other
  | outboundClosed | refused | writeFails => exact hleave .writer
  | appCloses pipe => cases pipe <;> cases task <;> exact h
  | closes _ pipe => cases pipe <;> cases task <;> exact h
  | exits other =>
    cases other <;> cases task <;> first | exact h | simp [perform, setTask, Endpoint.task]
  | take =>
    simp only [perform]
    split
    next frame _ _ =>
      simp only [write]
      split
      next => cases task <;> exact h
      next =>
        cases task with
        | reader => exact h
        | writer => simp [Endpoint.task]
    next => exact h
  | send _ | receive | cancel | writeSome _ | drains _ => cases task <;> exact h

theorem arrive_weight (e : Endpoint c) (bytes : List UInt8) :
    (e.arrive bytes).weight = e.weight + 4 * bytes.length := by
  simp only [arrive, Inbound.step, weight, base, List.length_append]
  omega

end Endpoint

/-! ## The tasks cannot go on for ever -/

/-- Over both ends. -/
def total (f : Side → Nat) : Nat := f .initiator + f .responder

theorem total_eq (f : Side → Nat) (side : Side) : total f = f side + f side.peer := by
  cases side with
  | initiator => rfl
  | responder => exact Nat.add_comm _ _

namespace Connection

/-- The frames that a writer has taken and the reader of the other end has not found. -/
def ahead (s : Connection c) (side : Side) : Nat :=
  (s side).taken.length - (s side.peer).reader.frames.length

def rank (s : Connection c) : Nat ×ₗ Nat :=
  toLex (total fun side => (s side).outbound.queue.length,
    total fun side => (s side).weight + 4 * s.ahead side)

variable {capacity : Side → Nat} {app : Side → App} {decoder : Side → c.Decoder}
  {decrypt : Side → c.DecryptState} {writer : Side → NoiseTcpWriteHalf c}

theorem rank_decreases {Synced : NoiseTcpWriteHalf c → c.Decoder × Option c.DecryptState → Prop}
    (hl : c.Lawful Synced) (hasks : c.Asks)
    (hs : ∀ side : Side, Synced (writer side) (decoder side.peer, some (decrypt side.peer)))
    {s : Connection c} (h : Inv writer decoder decrypt s) {side : Side} {e : Event c.SerializedFrame}
    (htasks : e.ofTasks = true) (hen : s.enabled capacity side e = true) : (s.step capacity (side, e)).rank < s.rank := by
  have hown := step_own hen
  have hpeer := step_peer hen
  have hinv : Inv writer decoder decrypt (s.step capacity (side, e)) := step_inv h (side, e)
  simp only [rank, Prod.Lex.toLex_lt_toLex, total_eq _ side, ahead, Side.peer_peer, hown, hpeer]
  rcases Endpoint.perform_queue hen htasks with hless | ⟨hsame, htaken⟩
  · left
    exact Nat.add_lt_add_right hless _
  · right
    refine ⟨congrArg (· + _) hsame, ?_⟩
    obtain ⟨found, hframes, hweight⟩ := Endpoint.perform_lighter (h.ends side) hasks hen htasks hsame
    have hpos : ((s side).perform e).reader.frames.length ≤ (s side.peer).taken.length := by
      have hprefix := (hinv.follows side.peer).found_taken hl (hs side.peer)
      rw [Side.peer_peer, hown, hpeer] at hprefix
      exact hprefix.length_le
    have harrive : ((s side.peer).arrive ((s side).written e)).reader.frames =
        (s side.peer).reader.frames := rfl
    have hkept : ((s side.peer).arrive ((s side).written e)).taken = (s side.peer).taken := rfl
    rw [Endpoint.arrive_weight, htaken, harrive, hkept]
    rw [hframes, List.length_append] at hpos ⊢
    omega

theorem step_left (s : Connection c) (a : Side × Event c.SerializedFrame) (side : Side) (task : Task)
    (h : (s side).task task ≠ .running) : (s.step capacity a side).task task ≠ .running := by
  obtain ⟨acting, e⟩ := a
  by_cases hen : s.enabled capacity acting e = true
  · rcases acting.eq_or_eq_peer side with rfl | rfl
    · rw [step_own hen]
      exact Endpoint.perform_left _ _ _ h
    · rw [step_peer hen]
      cases task <;> exact h
  · have hsame : s.step capacity (acting, e) = s := by simp [step, hen]
    rw [hsame]
    exact h

/-- Once a task has left its loop, every schedule of the tasks that goes on as long as one of them can
take a step comes to a state in which all four have exited, or in which the connection is stuck. -/
theorem comes_down {Synced : NoiseTcpWriteHalf c → c.Decoder × Option c.DecryptState → Prop}
    (hl : c.Lawful Synced) (hasks : c.Asks) (hcap : ∀ side, 0 < capacity side) (app : Side → App)
    (hs : ∀ side : Side, Synced (writer side) (decoder side.peer, some (decrypt side.peer)))
    (as : List (Side × Event c.SerializedFrame)) (schedule : Nat → Side × Event c.SerializedFrame) :
    let s := fun n => Runs.run (step capacity) (start app decoder decrypt writer)
      (as ++ (List.range n).map schedule)
    (∃ side task, (s 0 side).task task ≠ .running) →
      (∀ n, ¬(s n).Quiet capacity →
        (schedule n).2.ofTasks = true ∧ (s n).enabled capacity (schedule n).1 (schedule n).2 = true) →
      ∃ n, (∀ side task, (s n side).task task = .exited) ∨ (s n).Stuck capacity := by
  intro s hleft hgoes
  have hnext : ∀ n, s (n + 1) = (s n).step capacity (schedule n) := by
    intro n
    simp only [s, List.range_succ, List.map_append, Runs.run_append]
    rfl
  -- the rank cannot fall at every step of the schedule
  obtain ⟨n, hn⟩ := WellFounded.not_rel_apply_succ (r := (· < ·)) fun n => (s n).rank
  have hquiet : (s n).Quiet capacity := by
    by_contra hmore
    obtain ⟨htasks, hen⟩ := hgoes n hmore
    apply hn
    rw [hnext]
    exact rank_decreases hl hasks hs (run_inv _) htasks hen
  obtain ⟨side, task, htask⟩ := hleft
  have hstill : ∀ n, (s n side).task task ≠ .running := by
    intro n
    induction n with
    | zero => exact htask
    | succ n ih =>
      rw [hnext]
      exact step_left _ _ _ _ ih
  rcases (no_half_open hl hcap app hs _).1 hquiet with hdown | ⟨hup, _⟩ | hstuck
  · exact ⟨n, .inl hdown⟩
  · exact absurd (hup side task) (hstill n)
  · exact ⟨n, .inr hstuck⟩

end Connection

/-! ## A sample -/

theorem sampleNext_asks (d : SampleDecoder) (counter : Nat) {d' : SampleDecoder} {counter' : Nat}
    (h : sampleNext d counter = (d', .ok (.incomplete counter'))) : 0 < d'.payload.getD 2 := by
  unfold sampleNext at h
  split at h
  next => cases h
  next tag length _ _ =>
    split at h
    next => cases h
    next =>
      split at h
      next => cases h
      next hne =>
        cases h
        show 0 < length.toNat
        apply Nat.pos_of_ne_zero
        intro hzero
        exact hne (UInt8.toNat_inj.mp hzero)
  next => cases h

theorem sampleCodec_asks : sampleCodec.Asks := by
  rintro ⟨d, state⟩ block s' hfed hstate
  cases state with
  | none =>
    cases hfed
    exact absurd rfl hstate
  | some counter =>
    simp only [blocks, NoiseTcpReadHalf.nextFrame, sampleCodec] at hfed
    rcases hnext : sampleNext { d with block := block } counter with ⟨d', e | f | counter'⟩
    · rw [hnext] at hfed
      cases hfed
      exact absurd rfl hstate
    · rw [hnext] at hfed
      cases hfed
    · rw [hnext] at hfed
      cases hfed
      exact sampleNext_asks _ _ hnext

/-- The writer of the responder meets the token; then the tasks come down one after the other. -/
def sampleSchedule : List (Side × Event sampleCodec.SerializedFrame) :=
  [(.responder, .closes .writer .inbound), (.responder, .closes .writer .outbound),
    (.responder, .exits .writer), (.initiator, .read), (.initiator, .eof),
    (.initiator, .closes .reader .inbound), (.initiator, .closes .reader .outbound),
    (.initiator, .outboundClosed), (.initiator, .exits .writer), (.initiator, .exits .reader),
    (.responder, .read), (.responder, .eof), (.responder, .exits .reader)]

def sampleLeft : List (Side × Event sampleCodec.SerializedFrame) :=
  [(.responder, .cancel), (.responder, .stop .writer)]

def sampleDown : Connection sampleCodec :=
  Runs.run (Connection.step sampleCapacity) sampleStart (sampleLeft ++ sampleSchedule)

theorem sampleDown_quiet : sampleDown.Quiet sampleCapacity := by
  intro side e he
  cases e with
  | stop task | drains task | exits task => cases side <;> cases task <;> rfl
  | closes task pipe => cases side <;> cases task <;> rfl
  | send _ | receive | appCloses _ | cancel | lost | writeFails => cases he
  | read | poll _ | eof | wake | take | outboundClosed | writeSome _ | refused => cases side <;> rfl

/-- After the schedule nothing changes any more. -/
theorem sampleDown_stays (k : Nat) :
    Runs.run (Connection.step sampleCapacity) sampleStart (sampleLeft ++ (List.range (13 + k)).map
      fun n => sampleSchedule.getD n (.initiator, .read)) = sampleDown := by
  induction k with
  | zero =>
    have hall : ((List.range 13).map fun n => sampleSchedule.getD n (.initiator, .read)) =
        sampleSchedule := rfl
    rw [Nat.add_zero, hall]
    rfl
  | succ k ih =>
    have hlate : sampleSchedule.getD (13 + k) (.initiator, .read) = (.initiator, .read) := by
      rw [List.getD_eq_getElem?_getD, List.getElem?_eq_none (Nat.le_add_right 13 k)]
      rfl
    have hno : sampleDown.enabled sampleCapacity .initiator .read = false := sampleDown_quiet _ _ rfl
    have hstays : sampleDown.step sampleCapacity (.initiator, .read) = sampleDown := by
      rw [Connection.step, hno]
      exact if_neg Bool.false_ne_true
    rw [← Nat.add_assoc, List.range_succ, List.map_append, ← List.append_assoc, Runs.run_append, ih]
    rw [List.map_cons, List.map_nil, hlate, Runs.run_cons, Runs.run_nil, hstays]

/-- What is left of the connection after `n` steps of the schedule. -/
def sampleAfter (n : Nat) : Connection sampleCodec :=
  Runs.run (Connection.step sampleCapacity) sampleStart (sampleLeft ++ (List.range n).map
    fun n => sampleSchedule.getD n (.initiator, .read))

theorem comes_down_sample : ∃ n, (∀ side task, (sampleAfter n side).task task = .exited) ∨
    (sampleAfter n).Stuck sampleCapacity := by
  refine Connection.comes_down sampleCodec_lawful sampleCodec_asks (fun _ => Nat.succ_pos 15) _
    (fun _ => ⟨rfl, rfl⟩) sampleLeft (fun n => sampleSchedule.getD n (.initiator, .read))
    ⟨.responder, .writer, by decide⟩ ?_
  intro n hmore
  by_cases hn : n < 13
  · interval_cases n <;> exact ⟨rfl, rfl⟩
  · obtain ⟨k, rfl⟩ := Nat.exists_eq_add_of_le (Nat.le_of_not_lt hn)
    apply absurd _ hmore
    show Connection.Quiet sampleCapacity (Runs.run (Connection.step sampleCapacity) sampleStart _)
    rw [sampleDown_stays k]
    exact sampleDown_quiet

end Sv2Apps.Network
