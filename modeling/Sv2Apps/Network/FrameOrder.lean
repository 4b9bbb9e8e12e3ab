/-
  Network/FrameOrder.lean
  =======================
  **Frames arrive in the order they are sent** — in every run of a connection, whatever the order in
  which its tasks, the two applications and the network take their steps, what an application receives
  is the beginning of what the writer of the other end has taken out of its outbound channel, and that
  is, in its order, a part of what the other application has sent; nothing is missing in it as long as
  that end has discarded no frame (`frames_in_order`).

  It is a part only, and no beginning, once a reader that leaves has begun to discard: the writer of
  the same end may still be in its loop, and take the frame behind a discarded one.

  The codec is assumed to be lawful (`Codec.Lawful`): what is encoded in one state is decoded, block by
  block, in the state that is in step with it.
-/
import Sv2Apps.Network.ByteStream
import Sv2Apps.Network.IoTasks

namespace Sv2Apps.Network

open BlockReader

variable {c : Codec}

/-- `Synced`: a writing half and a decoder that are in step. -/
structure Codec.Lawful (c : Codec)
    (Synced : NoiseTcpWriteHalf c → c.Decoder × Option c.DecryptState → Prop) : Prop where
  /-- There is no frame in no bytes. -/
  nothing : ∀ {w s out s' rest}, Synced w s → Reads (blocks c) s [] out s' rest → out = []
  decodes : ∀ {w w' s frame bytes}, Synced w s → w.encode frame = (w', .ok bytes) →
    ∃ s', Reads (blocks c) s bytes [frame] s' [] ∧ Synced w' s'

/-- `write_frame` of frame after frame. -/
inductive Writes : NoiseTcpWriteHalf c → List c.SerializedFrame → NoiseTcpWriteHalf c →
    List UInt8 → Prop
  | nil (w : NoiseTcpWriteHalf c) : Writes w [] w []
  | snoc {w w₁ w₂ : NoiseTcpWriteHalf c} {frames : List c.SerializedFrame} {frame : c.SerializedFrame}
      {bytes more : List UInt8} (before : Writes w frames w₁ bytes)
      (encoded : w₁.encode frame = (w₂, .ok more)) :
    Writes w (frames ++ [frame]) w₂ (bytes ++ more)

theorem Writes.decoded {Synced : NoiseTcpWriteHalf c → c.Decoder × Option c.DecryptState → Prop}
    (hl : c.Lawful Synced) {w w' : NoiseTcpWriteHalf c} {s : c.Decoder × Option c.DecryptState}
    {frames : List c.SerializedFrame} {bytes : List UInt8} (h : Writes w frames w' bytes)
    (hs : Synced w s) : ∃ s', Reads (blocks c) s bytes frames s' [] ∧ Synced w' s' := by
  induction h with
  | nil => exact ⟨s, .done _ _, hs⟩
  | snoc _ encoded ih =>
    obtain ⟨s₁, hreads, hs₁⟩ := ih
    obtain ⟨s₂, hlast, hs₂⟩ := hl.decodes hs₁ encoded
    exact ⟨s₂, (hreads.append_input _).trans hlast, hs₂⟩

/-! ## One end -/

namespace Endpoint

/-- Where the frames of an end are. -/
structure Inv (e : Endpoint c) : Prop where
  good : e.reader.Good
  /-- Those that are sent. -/
  accounted : (e.taken ++ e.outbound.queue).Sublist e.handed
  counted : e.taken.length + e.drained + e.outbound.queue.length = e.handed.length
  kept : e.readerTask = .running → e.writerTask = .running → e.drained = 0
  /-- Those that are read. -/
  forwarded : e.received ++ e.inbound.queue <+: e.reader.frames
  forwarding : e.readerTask = .running → e.received ++ e.inbound.queue = e.reader.frames
  /-- A task that has exited has closed both channels. -/
  tidy : ∀ task, e.task task = .exited → e.inbound.closed = true ∧ e.outbound.closed = true

theorem new_inv (app : App) (decoder : c.Decoder) (decrypt : c.DecryptState)
    (writer : NoiseTcpWriteHalf c) : (new app decoder decrypt writer).Inv where
  good := Inbound.start_good _ _
  accounted := List.Sublist.refl _
  counted := rfl
  kept _ _ := rfl
  forwarded := List.prefix_rfl
  forwarding _ := rfl
  tidy task h := by cases task <;> simp [task, new] at h

theorem close_inv {e : Endpoint c} (h : e.Inv) (pipe : Pipe) : (e.close pipe).Inv := by
  cases pipe with
  | inbound => exact { h with tidy := fun task ht => ⟨rfl, (h.tidy task ht).2⟩ }
  | outbound => exact { h with tidy := fun task ht => ⟨(h.tidy task ht).1, rfl⟩ }

theorem leave_inv {e : Endpoint c} (h : e.Inv) {task : Task} (hrun : e.task task = .running) :
    (e.leave task).Inv := by
  have hother : ∀ other, (e.leave task).task other = .exited → e.task other = .exited := by
    intro other
    cases task <;> cases other <;> simp [leave, Endpoint.task]
  cases task with
  | reader =>
    obtain ⟨out, hgoes⟩ := Inbound.step_goes h.good .dropCall
    exact
      { h with
        good := hgoes.good
        kept := by simp [leave]
        forwarding := by simp [leave]
        tidy := fun other ho => h.tidy other (hother other ho) }
  | writer =>
    exact
      { h with
        kept := by simp [leave]
        tidy := fun other ho => h.tidy other (hother other ho) }

/-- Serving the result of `read_frame`: the call is pending, the reader leaves, or it forwards. -/
theorem serve_cases (e : Endpoint c) (reader : Inbound c)
    (p : NoiseTcpReadHalf c × Poll c.SerializedFrame c.CodecError) :
    (p.2.frame = none ∧ e.serve reader p = { e with reader := reader.settle p }) ∨
      e.serve reader p = { e with reader := reader.settle p, readerTask := .leaving } ∨
      ∃ frame, p.2.frame = some frame ∧
        e.serve reader p = { e with reader := reader.settle p, inbound := e.inbound.push frame } := by
  obtain ⟨half, res⟩ := p
  match res with
  | .pending at_ => exact .inl ⟨rfl, rfl⟩
  | .ready (.error err) => exact .inr (.inl rfl)
  | .ready (.ok frame) =>
    by_cases hclosed : e.inbound.closed = true
    · refine .inr (.inl ?_)
      simp [serve, hclosed]
    · refine .inr (.inr ⟨frame, rfl, ?_⟩)
      simp [serve, hclosed]

theorem serve_inv {e : Endpoint c} (h : e.Inv) (hrun : e.readerTask = .running) {reader : Inbound c}
    {p : NoiseTcpReadHalf c × Poll c.SerializedFrame c.CodecError}
    (hgoes : Inbound.Goes e.reader (reader.settle p) [] p.2.frame.toList) : (e.serve reader p).Inv := by
  have hall := h.forwarding hrun
  rcases serve_cases e reader p with ⟨hnone, heq⟩ | heq | ⟨frame, hframe, heq⟩
  · have hframes : (reader.settle p).frames = e.reader.frames := by simp [hgoes.frames, hnone]
    rw [heq]
    exact
      { h with
        good := hgoes.good
        forwarded := by rw [hframes]; exact h.forwarded
        forwarding := fun _ => by rw [hframes]; exact hall }
  · rw [heq]
    exact
      { h with
        good := hgoes.good
        kept := by simp
        forwarded := by rw [hgoes.frames]; exact h.forwarded.trans (List.prefix_append _ _)
        forwarding := by simp
        tidy := fun task ht => h.tidy task (by cases task <;> simp_all [Endpoint.task]) }
  · have hmore : e.received ++ (e.inbound.push frame).queue = (reader.settle p).frames := by
      rw [hgoes.frames, hframe, ← hall]
      simp [Channel.push]
    rw [heq]
    exact
      { h with
        good := hgoes.good
        forwarded := hmore ▸ List.prefix_rfl
        forwarding := fun _ => hmore }

theorem write_inv {e : Endpoint c} (h : e.Inv) {frame : c.SerializedFrame}
    {rest : List c.SerializedFrame} (hqueue : e.outbound.queue = frame :: rest) :
    (e.write frame).Inv := by
  have hpop : e.outbound.pop.queue = rest := by simp [Channel.pop, hqueue]
  have hsub : (e.taken ++ [frame] ++ e.outbound.pop.queue).Sublist e.handed := by
    rw [hpop, List.append_assoc, List.singleton_append, ← hqueue]
    exact h.accounted
  have hcount : (e.taken ++ [frame]).length + e.drained + e.outbound.pop.queue.length =
      e.handed.length := by
    rw [← h.counted, hpop, hqueue]
    simp only [List.length_append, List.length_cons, List.length_nil]
    omega
  simp only [write]
  split
  next => exact { h with accounted := hsub, counted := hcount }
  next =>
    exact
      { h with
        accounted := hsub
        counted := hcount
        kept := by simp
        tidy := fun task ht => h.tidy task (by cases task <;> simp_all [Endpoint.task]) }

theorem arrive_inv {e : Endpoint c} (h : e.Inv) (bytes : List UInt8) : (e.arrive bytes).Inv := by
  obtain ⟨out, hgoes⟩ := Inbound.step_goes h.good (.arrive bytes)
  exact { h with good := hgoes.good }

theorem running_of_selects {e : Endpoint c} {task : Task} (h : e.selects task = true) :
    e.task task = .running := by
  cases task <;> simp_all [selects, Endpoint.task]

theorem running_of_awaits {e : Endpoint c} {at_ : Await} (h : e.awaits at_ = true) :
    e.readerTask = .running ∧ e.reader.call = some at_ := by
  simpa [awaits] using h

theorem poll_goes {e : Endpoint c} (h : e.Inv) (hcall : e.reader.call = some .read) (n : Nat) :
    let a := Inbound.answer e.reader.half e.reader.socket (.upTo n)
    let p := e.reader.half.resume .read a.1
    Inbound.Goes e.reader ({ e.reader with socket := a.2 }.settle p) [] p.2.frame.toList := by
  have hparked := h.good.parked hcall
  intro a p
  rcases Inbound.answer_cases e.reader.half e.reader.socket (.upTo n) with
    ⟨bytes, heq, hfit, hsocket⟩ | ⟨hnone, hrest⟩
  · have hp : p = e.reader.half.resume .read (.bytes bytes) := by simp only [p, a, heq]
    rw [hp]
    exact Inbound.settle_goes (NoiseTcpReadHalf.resume_bytes_polled hparked hfit) hsocket
  · exact Inbound.settle_goes (Inbound.resume_none_polled hparked hnone) (by rw [hrest]; rfl)

/-- A call of `read_frame` that begins or goes on, and how it is served. -/
theorem reader_turn {e : Endpoint c} (h : e.Inv) {remote : Remote} {ev : Event c.SerializedFrame}
    (hcan : e.can remote ev = true) (hreader : ev.ofReader = true) :
    e.readerTask = .running ∧ ∃ reader p, e.perform ev = e.serve reader p ∧
      Inbound.Goes e.reader (reader.settle p) [] p.2.frame.toList := by
  have hsame : e.reader.socket = [] ++ e.reader.socket := rfl
  cases ev with
  | read =>
    simp only [can, Bool.and_eq_true, decide_eq_true_eq] at hcan
    exact ⟨hcan.1, _, _, rfl,
      Inbound.settle_goes (NoiseTcpReadHalf.readFrame_polled h.good.clean) hsame⟩
  | wake =>
    obtain ⟨hrun, _⟩ := running_of_awaits hcan
    exact ⟨hrun, _, _, rfl,
      Inbound.settle_goes (NoiseTcpReadHalf.readFrame_polled h.good.clean) hsame⟩
  | eof =>
    simp only [can, Bool.and_eq_true] at hcan
    obtain ⟨hrun, hcall⟩ := running_of_awaits hcan.1.1
    exact ⟨hrun, e.reader, e.reader.half.resume .read .closed, rfl, Inbound.settle_goes
      (Inbound.resume_none_polled (h.good.parked hcall) (by simp)) hsame⟩
  | lost =>
    obtain ⟨hrun, hcall⟩ := running_of_awaits hcan
    exact ⟨hrun, e.reader, e.reader.half.resume .read .closed, rfl, Inbound.settle_goes
      (Inbound.resume_none_polled (h.good.parked hcall) (by simp)) hsame⟩
  | poll n =>
    simp only [can, Bool.and_eq_true] at hcan
    obtain ⟨hrun, hcall⟩ := running_of_awaits hcan.1.1
    exact ⟨hrun, _, _, rfl, poll_goes h hcall n⟩
  | _ => simp [Event.ofReader] at hreader

theorem perform_inv {e : Endpoint c} (h : e.Inv) {remote : Remote} {ev : Event c.SerializedFrame}
    (hcan : e.can remote ev = true) : (e.perform ev).Inv := by
  by_cases hreader : ev.ofReader = true
  · obtain ⟨hrun, reader, p, heq, hgoes⟩ := reader_turn h hcan hreader
    rw [heq]
    exact serve_inv h hrun hgoes
  cases ev with
  | read | poll n | eof | lost | wake => simp [Event.ofReader] at hreader
  | send frame =>
    have hsub : (e.taken ++ (e.outbound.push frame).queue).Sublist (e.handed ++ [frame]) := by
      rw [Channel.push, ← List.append_assoc]
      exact h.accounted.append (List.Sublist.refl _)
    have hcount : e.taken.length + e.drained + (e.outbound.push frame).queue.length =
        (e.handed ++ [frame]).length := by
      simp only [Channel.push, List.length_append, ← h.counted]
      omega
    exact { h with accounted := hsub, counted := hcount }
  | receive =>
    have hsame : e.received ++ e.inbound.queue.head?.toList ++ e.inbound.pop.queue =
        e.received ++ e.inbound.queue := by
      cases hqueue : e.inbound.queue <;> simp [Channel.pop, hqueue]
    exact
      { h with
        forwarded := by
          show e.received ++ e.inbound.queue.head?.toList ++ e.inbound.pop.queue <+: _
          rw [hsame]
          exact h.forwarded
        forwarding := fun hrun => by
          show e.received ++ e.inbound.queue.head?.toList ++ e.inbound.pop.queue = _
          rw [hsame]
          exact h.forwarding hrun }
  | appCloses pipe => exact close_inv h pipe
  | cancel => exact { h with }
  | stop task =>
    simp only [can, Bool.and_eq_true] at hcan
    exact leave_inv h (running_of_selects hcan.2)
  | take =>
    simp only [perform]
    split
    next frame rest hqueue => exact write_inv h hqueue
    next => exact h
  | outboundClosed =>
    simp only [can, Bool.and_eq_true] at hcan
    exact leave_inv h (running_of_selects hcan.1.1)
  | refused =>
    simp only [can, Bool.and_eq_true, decide_eq_true_eq] at hcan
    have hrun : e.task .writer = .running := hcan.1.1
    exact leave_inv h hrun
  | writeFails =>
    simp only [can, Bool.and_eq_true, decide_eq_true_eq] at hcan
    have hrun : e.task .writer = .running := hcan.1
    exact leave_inv h hrun
  | writeSome n => exact { h with }
  | closes task pipe => exact close_inv h pipe
  | drains task =>
    simp only [can, Bool.and_eq_true, decide_eq_true_eq, Bool.not_eq_true', List.isEmpty_eq_false_iff]
      at hcan
    obtain ⟨⟨⟨htask, _⟩, _⟩, hne⟩ := hcan
    have htail : e.outbound.pop.queue.Sublist e.outbound.queue := List.tail_sublist _
    have hcount : e.taken.length + (e.drained + 1) + e.outbound.pop.queue.length = e.handed.length := by
      have := List.length_pos_iff.mpr hne
      rw [← h.counted]
      simp only [Channel.pop, List.length_tail]
      omega
    exact
      { h with
        accounted := ((List.Sublist.refl _).append htail).trans h.accounted
        counted := hcount
        kept := fun hr hw => by cases task <;> simp_all [perform, Endpoint.task] }
  | exits task =>
    simp only [can, Bool.and_eq_true, decide_eq_true_eq] at hcan
    obtain ⟨⟨⟨htask, hin⟩, hout⟩, _⟩ := hcan
    cases task with
    | reader =>
      exact
        { h with
          kept := by simp [perform, setTask]
          forwarding := by simp [perform, setTask]
          tidy := fun _ _ => ⟨hin, hout⟩ }
    | writer =>
      exact
        { h with
          kept := by simp [perform, setTask]
          tidy := fun _ _ => ⟨hin, hout⟩ }

/-- Whatever an end does, its half goes on in the bytes that it has. -/
theorem reader_goes {e : Endpoint c} (h : e.Inv) {remote : Remote} {ev : Event c.SerializedFrame}
    (hcan : e.can remote ev = true) : ∃ out, Inbound.Goes e.reader (e.perform ev).reader [] out := by
  have hrefl : Inbound.Goes e.reader e.reader [] [] := .refl h.good
  by_cases hreader : ev.ofReader = true
  · obtain ⟨_, reader, p, heq, hgoes⟩ := reader_turn h hcan hreader
    refine ⟨p.2.frame.toList, ?_⟩
    rw [heq]
    rcases serve_cases e reader p with ⟨_, hserve⟩ | hserve | ⟨_, _, hserve⟩
    · rw [hserve]; exact hgoes
    · rw [hserve]; exact hgoes
    · rw [hserve]; exact hgoes
  cases ev with
  | read | poll n | eof | lost | wake => simp [Event.ofReader] at hreader
  | stop task =>
    cases task with
    | reader => exact Inbound.step_goes h.good .dropCall
    | writer => exact ⟨[], hrefl⟩
  | appCloses pipe | closes _ pipe => cases pipe <;> exact ⟨[], hrefl⟩
  | exits task => cases task <;> exact ⟨[], hrefl⟩
  | take =>
    refine ⟨[], ?_⟩
    simp only [perform]
    split
    next frame _ _ =>
      simp only [write]
      split
      next => exact hrefl
      next => exact hrefl
    next => exact hrefl
  | send _ | receive | cancel | outboundClosed | refused | writeFails | writeSome _ | drains _ =>
    exact ⟨[], hrefl⟩

/-- The writer is as it was, or past its loop. -/
structure SameWriter (e e' : Endpoint c) : Prop where
  writer : e'.writer = e.writer
  taken : e'.taken = e.taken
  sent : e'.sent = e.sent
  writing : e'.writing = e.writing
  running : e'.writerTask = .running → e.writerTask = .running

theorem serve_sameWriter (e : Endpoint c) (reader : Inbound c)
    (p : NoiseTcpReadHalf c × Poll c.SerializedFrame c.CodecError) :
    SameWriter e (e.serve reader p) := by
  rcases serve_cases e reader p with ⟨_, hserve⟩ | hserve | ⟨_, _, hserve⟩
  all_goals
    rw [hserve]
    exact ⟨rfl, rfl, rfl, rfl, id⟩

/-- The writer takes a frame or writes, or it stays as it is. -/
theorem perform_writer {e : Endpoint c} {remote : Remote} {ev : Event c.SerializedFrame}
    (hcan : e.can remote ev = true) :
    (∃ frame, e.writerTask = .running ∧ e.writing = none ∧ e.perform ev = e.write frame ∧
        e.written ev = []) ∨
      (∃ n, e.writerTask = .running ∧ ev = .writeSome n) ∨
      (SameWriter e (e.perform ev) ∧ e.written ev = []) := by
  cases ev with
  | writeSome n =>
    simp only [can, Bool.and_eq_true, decide_eq_true_eq] at hcan
    exact .inr (.inl ⟨n, hcan.1.1.1, rfl⟩)
  | take =>
    simp only [can, selects, Bool.and_eq_true, decide_eq_true_eq, Option.isNone_iff_eq_none,
      Bool.not_eq_true', List.isEmpty_eq_false_iff] at hcan
    obtain ⟨frame, rest, hqueue⟩ := List.exists_cons_of_ne_nil hcan.2
    refine .inl ⟨frame, hcan.1.1, hcan.1.2, ?_, rfl⟩
    simp only [perform, hqueue]
  | read | poll n | wake => exact .inr (.inr ⟨serve_sameWriter _ _ _, rfl⟩)
  | eof | lost =>
    exact .inr (.inr ⟨serve_sameWriter e e.reader (e.reader.half.resume .read .closed), rfl⟩)
  | appCloses pipe | closes _ pipe =>
    cases pipe <;> exact .inr (.inr ⟨⟨rfl, rfl, rfl, rfl, id⟩, rfl⟩)
  | exits task | stop task =>
    cases task with
    | reader => exact .inr (.inr ⟨⟨rfl, rfl, rfl, rfl, id⟩, rfl⟩)
    | writer => exact .inr (.inr ⟨⟨rfl, rfl, rfl, rfl, by simp [perform, setTask, leave]⟩, rfl⟩)
  | outboundClosed | refused | writeFails =>
    exact .inr (.inr ⟨⟨rfl, rfl, rfl, rfl, by simp [perform, leave]⟩, rfl⟩)
  | send _ | receive | cancel | drains _ => exact .inr (.inr ⟨⟨rfl, rfl, rfl, rfl, id⟩, rfl⟩)

end Endpoint

/-! ## One direction -/

/-- From the writer of `e` to the reader of `p`, which have begun as `w₀` and `s₀`. -/
structure Follows (w₀ : NoiseTcpWriteHalf c) (s₀ : c.Decoder × Option c.DecryptState)
    (e p : Endpoint c) : Prop where
  wire : Reads (blocks c) s₀ e.sent p.reader.frames p.reader.half.cipher
    (p.reader.half.unread ++ p.reader.socket)
  /-- A writer past its loop may have left a frame half written, or have failed to encode it. -/
  written : ∃ frames w rest, frames <+: e.taken ∧ Writes w₀ frames w (e.sent ++ rest) ∧
    (e.writerTask = .running → frames = e.taken ∧ w = e.writer ∧ rest = e.writing.getD [])

section Direction

variable {w₀ : NoiseTcpWriteHalf c} {s₀ : c.Decoder × Option c.DecryptState}

theorem new_follows (app app' : App) (decoder decoder' : c.Decoder) (decrypt decrypt' : c.DecryptState)
    (writer writer' : NoiseTcpWriteHalf c) :
    Follows writer (decoder', some decrypt') (.new app decoder decrypt writer)
      (.new app' decoder' decrypt' writer') :=
  ⟨.done _ _, [], writer, [], List.prefix_rfl, .nil _, fun _ => ⟨rfl, rfl, rfl⟩⟩

theorem Follows.wire_of_goes {e p : Endpoint c} (h : Follows w₀ s₀ e p) {reader : Inbound c}
    {bytes : List UInt8} {out : List c.SerializedFrame} (hgoes : Inbound.Goes p.reader reader bytes out) :
    Reads (blocks c) s₀ (e.sent ++ bytes) reader.frames reader.half.cipher
      (reader.half.unread ++ reader.socket) := by
  rw [hgoes.frames]
  exact (h.wire.append_input bytes).trans hgoes.reads

/-- The receiving end takes a step. -/
theorem Follows.receiver {e p : Endpoint c} (h : Follows w₀ s₀ e p) (hp : p.Inv) {remote : Remote}
    {ev : Event c.SerializedFrame} (hcan : p.can remote ev = true) (bytes : List UInt8) :
    Follows w₀ s₀ (e.arrive bytes) (p.perform ev) := by
  obtain ⟨out, hgoes⟩ := Endpoint.reader_goes hp hcan
  have hwire := h.wire_of_goes hgoes
  rw [List.append_nil] at hwire
  exact ⟨hwire, h.written⟩

theorem write_sent (e : Endpoint c) (frame : c.SerializedFrame) : (e.write frame).sent = e.sent := by
  simp only [Endpoint.write]
  split
  next => rfl
  next => rfl

/-- A frame is taken when nothing of the frame before it is left to write. -/
theorem write_written {e : Endpoint c} {frame : c.SerializedFrame}
    (h : Writes w₀ e.taken e.writer e.sent) :
    ∃ frames w rest, frames <+: (e.write frame).taken ∧
      Writes w₀ frames w ((e.write frame).sent ++ rest) ∧
      ((e.write frame).writerTask = .running → frames = (e.write frame).taken ∧
        w = (e.write frame).writer ∧ rest = (e.write frame).writing.getD []) := by
  simp only [Endpoint.write]
  split
  next w bytes henc =>
    refine ⟨e.taken ++ [frame], w, bytes, List.prefix_rfl, .snoc h henc, fun _ => ⟨rfl, rfl, ?_⟩⟩
    split
    next hempty => simpa using hempty
    next => rfl
  next w err henc =>
    refine ⟨e.taken, e.writer, [], List.prefix_append _ _, ?_, by simp⟩
    rw [List.append_nil]
    exact h

/-- The sending end takes a step. -/
theorem Follows.sender {e p : Endpoint c} (h : Follows w₀ s₀ e p) (hp : p.Inv) {remote : Remote}
    {ev : Event c.SerializedFrame} (hcan : e.can remote ev = true) :
    Follows w₀ s₀ (e.perform ev) (p.arrive (e.written ev)) := by
  obtain ⟨out, hgoes⟩ := Inbound.step_goes hp.good (.arrive (e.written ev))
  obtain ⟨frames, w, rest, hframes, hwrites, hrun⟩ := h.written
  have hwire := h.wire_of_goes hgoes
  rw [show Inbound.arrived [.arrive (e.written ev)] = e.written ev from List.append_nil _] at hwire
  rcases Endpoint.perform_writer hcan with ⟨frame, hwriter, hidle, heq, hnone⟩ | ⟨n, hwriter, rfl⟩ |
    ⟨hsame, hnone⟩
  · obtain ⟨rfl, rfl, rfl⟩ := hrun hwriter
    rw [hnone, List.append_nil] at hwire
    simp only [hidle, Option.getD_none, List.append_nil] at hwrites
    rw [heq, hnone]
    refine ⟨?_, write_written hwrites⟩
    rw [write_sent]
    exact hwire
  · obtain ⟨rfl, rfl, rfl⟩ := hrun hwriter
    refine ⟨hwire, e.taken, e.writer, (e.writing.getD []).drop n, List.prefix_rfl, ?_, ?_⟩
    · show Writes w₀ e.taken e.writer (e.sent ++ (e.writing.getD []).take n ++ _)
      rw [List.append_assoc, List.take_append_drop]
      exact hwrites
    · intro _
      refine ⟨rfl, rfl, ?_⟩
      simp only [Endpoint.perform]
      split
      next hempty => simpa using hempty
      next => rfl
  · rw [hnone, List.append_nil] at hwire
    rw [hnone]
    refine ⟨?_, frames, w, rest, ?_, ?_, ?_⟩
    · rw [hsame.sent]
      exact hwire
    · rw [hsame.taken]
      exact hframes
    · rw [hsame.sent]
      exact hwrites
    · intro hstill
      rw [hsame.taken, hsame.writer, hsame.writing]
      exact hrun (hsame.running hstill)

/-- What the reader has found is the beginning of what the writer has taken. -/
theorem Follows.found_taken {Synced : NoiseTcpWriteHalf c → c.Decoder × Option c.DecryptState → Prop}
    (hl : c.Lawful Synced) (hs : Synced w₀ s₀) {e p : Endpoint c} (h : Follows w₀ s₀ e p) :
    p.reader.frames <+: e.taken := by
  obtain ⟨frames, w, rest, hframes, hwrites, _⟩ := h.written
  obtain ⟨s', hreads, hs'⟩ := hwrites.decoded hl hs
  rcases (h.wire.append_input rest).comparable hreads with ⟨out, hout, _⟩ | ⟨out, hout, hmore⟩
  · rw [hout] at hframes
    exact (List.prefix_append _ _).trans hframes
  · rw [hl.nothing hs' hmore, List.append_nil] at hout
    rw [hout]
    exact hframes

/-- It is all of it once the writer is at rest and the reader waits for more. -/
theorem Follows.frames_eq {Synced : NoiseTcpWriteHalf c → c.Decoder × Option c.DecryptState → Prop}
    (hl : c.Lawful Synced) (hs : Synced w₀ s₀) {e p : Endpoint c} (h : Follows w₀ s₀ e p)
    (hp : p.reader.Good) (hwaiting : p.reader.Waiting) (hrun : e.writerTask = .running)
    (hidle : e.writing = none) : p.reader.frames = e.taken := by
  obtain ⟨frames, w, rest, _, hwrites, hall⟩ := h.written
  obtain ⟨rfl, rfl, rfl⟩ := hall hrun
  simp only [hidle, Option.getD_none, List.append_nil] at hwrites
  obtain ⟨s', hreads, hs'⟩ := hwrites.decoded hl hs
  obtain ⟨out, hout, hmore⟩ := hreads.continues h.wire (hwaiting.starved hp)
  rw [hout, hl.nothing hs' hmore, List.append_nil]

end Direction

/-! ## Both directions -/

namespace Connection

structure Inv (writer : Side → NoiseTcpWriteHalf c) (decoder : Side → c.Decoder)
    (decrypt : Side → c.DecryptState) (s : Connection c) : Prop where
  ends : ∀ side, (s side).Inv
  follows : ∀ side, Follows (writer side) (decoder side.peer, some (decrypt side.peer)) (s side)
    (s side.peer)

variable {capacity : Side → Nat} {app : Side → App} {decoder : Side → c.Decoder}
  {decrypt : Side → c.DecryptState} {writer : Side → NoiseTcpWriteHalf c}

theorem start_inv : Inv writer decoder decrypt (start app decoder decrypt writer) :=
  ⟨fun _ => Endpoint.new_inv _ _ _ _, fun _ => new_follows _ _ _ _ _ _ _ _⟩

theorem step_own {s : Connection c} {side : Side} {e : Event c.SerializedFrame}
    (h : s.enabled capacity side e = true) : s.step capacity (side, e) side = (s side).perform e := by
  simp [step, h]

theorem step_peer {s : Connection c} {side : Side} {e : Event c.SerializedFrame}
    (h : s.enabled capacity side e = true) :
    s.step capacity (side, e) side.peer = (s side.peer).arrive ((s side).written e) := by
  simp [step, h, Side.peer_ne]

theorem step_inv {s : Connection c} (h : Inv writer decoder decrypt s)
    (a : Side × Event c.SerializedFrame) : Inv writer decoder decrypt (s.step capacity a) := by
  obtain ⟨side, e⟩ := a
  by_cases hen : s.enabled capacity side e = true
  · constructor
    · intro other
      rcases side.eq_or_eq_peer other with rfl | rfl
      · rw [step_own hen]
        exact Endpoint.perform_inv (h.ends _) hen
      · rw [step_peer hen]
        exact Endpoint.arrive_inv (h.ends _) _
    · intro other
      rcases side.eq_or_eq_peer other with rfl | rfl
      · rw [step_own hen, step_peer hen]
        exact (h.follows _).sender (h.ends _) hen
      · rw [Side.peer_peer, step_own hen, step_peer hen]
        have hback := h.follows side.peer
        rw [Side.peer_peer] at hback
        exact hback.receiver (h.ends _) hen _
  · have hsame : s.step capacity (side, e) = s := by simp [step, hen]
    rw [hsame]
    exact h

theorem run_inv (as : List (Side × Event c.SerializedFrame)) :
    Inv writer decoder decrypt (Runs.run (step capacity) (start app decoder decrypt writer) as) :=
  Runs.run_invariant (Inv writer decoder decrypt) (fun _ a h => step_inv h a) start_inv as

/-- In every run, in both directions: what the application of one end receives is the beginning of
what the writer of the other end has taken, and this is in its order a part of what the application
there has sent, without a gap as long as no frame has been discarded there. -/
theorem frames_in_order {Synced : NoiseTcpWriteHalf c → c.Decoder × Option c.DecryptState → Prop}
    (hl : c.Lawful Synced) (capacity : Side → Nat) (app : Side → App)
    (hs : ∀ side : Side, Synced (writer side) (decoder side.peer, some (decrypt side.peer)))
    (as : List (Side × Event c.SerializedFrame)) (side : Side) :
    let s := Runs.run (step capacity) (start app decoder decrypt writer) as
    (s side.peer).received <+: (s side).taken ∧ (s side).taken.Sublist (s side).handed ∧
      ((s side).drained = 0 → (s side).taken <+: (s side).handed) := by
  intro s
  have hinv : Inv writer decoder decrypt s := run_inv as
  have hend := hinv.ends side
  refine ⟨?_, ?_, ?_⟩
  · have hreceived : (s side.peer).received <+: (s side.peer).reader.frames :=
      (List.prefix_append _ _).trans (hinv.ends side.peer).forwarded
    exact hreceived.trans ((hinv.follows side).found_taken hl (hs side))
  · exact (List.sublist_append_left _ _).trans hend.accounted
  · intro hnone
    have hall : (s side).taken ++ (s side).outbound.queue = (s side).handed := by
      apply hend.accounted.eq_of_length
      rw [List.length_append, ← hend.counted, hnone]
      rfl
    rw [← hall]
    exact List.prefix_append _ _

end Connection

/-! ## Samples -/

def sampleSynced (w : NoiseTcpWriteHalf sampleCodec)
    (s : sampleCodec.Decoder × Option sampleCodec.DecryptState) : Prop :=
  s.1.payload = none ∧ s.2 = some w.state

theorem sample_encode {counter : Nat} {frame : List UInt8} {w' : NoiseTcpWriteHalf sampleCodec}
    {bytes : List UInt8}
    (h : NoiseTcpWriteHalf.encode (c := sampleCodec) ⟨(), counter⟩ frame = (w', .ok bytes)) :
    frame.length < 256 ∧ w' = ⟨(), counter + 1⟩ ∧
      bytes = [UInt8.ofNat counter, UInt8.ofNat frame.length] ++ frame := by
  by_cases hlen : frame.length < 256
  · simp only [NoiseTcpWriteHalf.encode, sampleCodec, if_pos hlen] at h
    cases h
    exact ⟨hlen, rfl, rfl⟩
  · simp only [NoiseTcpWriteHalf.encode, sampleCodec, if_neg hlen] at h
    cases h

theorem sample_header (counter length : Nat) (block : List UInt8) (hlen : length < 256) :
    (blocks sampleCodec).feed (⟨none, block⟩, some counter)
        [UInt8.ofNat counter, UInt8.ofNat length] =
      if length = 0 then ((⟨none, []⟩, some (counter + 1)), some [])
      else ((⟨some length, []⟩, some counter), none) := by
  have hbyte : (UInt8.ofNat length).toNat = length := by simp [Nat.mod_eq_of_lt hlen]
  have hzero : UInt8.ofNat length = 0 ↔ length = 0 := by
    rw [← UInt8.toNat_inj, hbyte]
    rfl
  by_cases h : length = 0
  · subst h
    simp [blocks, NoiseTcpReadHalf.nextFrame, sampleCodec, sampleNext, frameOf]
  · have hne : ¬UInt8.ofNat length = 0 := mt hzero.mp h
    simp [blocks, NoiseTcpReadHalf.nextFrame, sampleCodec, sampleNext, frameOf, hne, h,
      Nat.mod_eq_of_lt hlen]

theorem sample_reads (counter : Nat) (block frame : List UInt8) (hlen : frame.length < 256) :
    Reads (blocks sampleCodec) (⟨none, block⟩, some counter)
      ([UInt8.ofNat counter, UInt8.ofNat frame.length] ++ frame) [frame]
      (⟨none, []⟩, some (counter + 1)) [] := by
  have hheader := sample_header counter frame.length block hlen
  by_cases hempty : frame = []
  · subst hempty
    exact .block (b := some []) (Nat.le_refl 2) hheader (.done _ _)
  · rw [if_neg (mt List.length_eq_zero_iff.mp hempty)] at hheader
    have hpayload : (blocks sampleCodec).feed (⟨some frame.length, []⟩, some counter)
        (frame.take frame.length) = ((⟨none, []⟩, some (counter + 1)), some frame) := by
      rw [List.take_length]
      rfl
    have hlast : Reads (blocks sampleCodec) (⟨some frame.length, []⟩, some counter) frame [frame]
        (⟨none, []⟩, some (counter + 1)) (frame.drop frame.length) :=
      .block (b := some frame) (Nat.le_refl frame.length) hpayload (.done _ _)
    rw [List.drop_length] at hlast
    exact .block (b := none) (Nat.le_add_left 2 _) hheader hlast

theorem sampleCodec_lawful : sampleCodec.Lawful sampleSynced where
  nothing := by
    intro w s out s' rest hs h
    cases h with
    | done => rfl
    | block enough _ _ =>
      have hneed : (blocks sampleCodec).need s = 2 := congrArg (fun p => Option.getD p 2) hs.1
      rw [hneed] at enough
      cases enough
  decodes := by
    intro w w' s frame bytes hs henc
    obtain ⟨⟨payload, block⟩, state⟩ := s
    obtain ⟨encoder, counter⟩ := w
    obtain ⟨rfl, rfl⟩ := hs
    obtain ⟨hlen, rfl, rfl⟩ := sample_encode henc
    exact ⟨_, sample_reads counter block frame hlen, rfl, rfl⟩

/-- The pool at one end, a client at the other. -/
def sampleStart : Connection sampleCodec :=
  Connection.start (fun side => if side = .initiator then .jdClient else .pool)
    (fun _ => sampleDecoder) (fun _ => (0 : Nat)) (fun _ => ⟨(), (0 : Nat)⟩)

def sampleCapacity : Side → Nat := fun _ => 16

/-- Three frames are sent; after the first the reader of that end leaves and discards the second. -/
def sampleRun : List (Side × Event (List UInt8)) :=
  [.send [7], .send [8, 8], .send [9], .take, .writeSome 9, .cancel, .stop .reader,
    .closes .reader .outbound, .drains .reader, .take, .writeSome 9].map (Prod.mk .responder) ++
  [.read, .poll 9, .wake, .poll 9, .read, .poll 9, .wake, .poll 9, .receive, .receive].map
    (Prod.mk .initiator)

def sampleReceived : List (List UInt8) :=
  (Runs.run (Connection.step sampleCapacity) sampleStart sampleRun .initiator).received

example : sampleReceived = [[7], [9]] := by decide +kernel

theorem frames_in_order_sample :
    sampleReceived <+: (Runs.run (Connection.step sampleCapacity) sampleStart sampleRun .responder).taken :=
  (Connection.frames_in_order sampleCodec_lawful sampleCapacity _ (fun _ => ⟨rfl, rfl⟩) sampleRun .responder).1

end Sv2Apps.Network
