/-
  Network/Teardown.lean
  =====================
  **A connection does not stay half open** — when no task of the two ends can take a step by itself,
  all four have exited, or all four are in their loops and every frame that an application has handed
  over has reached the inbound channel of the other end, or both directions are full with nobody left
  to read (`no_half_open`).

  One task that leaves brings down the rest: it closes the channels of its end, so the writer there
  leaves too and drops its half of the stream; the reader of the other end meets the end of the stream,
  and the same happens there in turn.

  The exception is a pair of writers inside `write_all` whose readers have both left (`Stuck`): neither
  listens to the token there, and no socket is closed, as each end still holds its write half.
-/
import Sv2Apps.Network.FrameOrder

namespace Sv2Apps.Network

variable {c : Codec} {capacity : Side → Nat}

namespace Connection

/-- No task can take a step before the application or the network does something. -/
def Quiet (capacity : Side → Nat) (s : Connection c) : Prop :=
  ∀ side e, e.ofTasks = true → s.enabled capacity side e = false

/-- The writer is inside `write_all`, and its direction is full. -/
structure Blocked (capacity : Side → Nat) (s : Connection c) (side : Side) : Prop where
  running : (s side).writerTask = .running
  writing : (s side).writing ≠ none
  full : capacity side.peer ≤ (s side.peer).reader.socket.length

/-- Both writers are blocked, and nobody reads. -/
structure Stuck (capacity : Side → Nat) (s : Connection c) : Prop where
  readers : ∀ side, (s side).readerTask = .exited
  writers : ∀ side, s.Blocked capacity side

theorem Quiet.cannot {s : Connection c} (h : s.Quiet capacity) (side : Side)
    (e : Event c.SerializedFrame) (he : e.ofTasks = true) : ¬s.enabled capacity side e = true := by
  rw [h side e he]
  exact Bool.false_ne_true

/-- A stuck connection stays so until the application or the network does something. -/
theorem Stuck.quiet {s : Connection c} (h : s.Stuck capacity) : s.Quiet capacity := by
  intro side e he
  have hreader := h.readers side
  obtain ⟨hwriter, hwriting, _⟩ := h.writers side
  have htask : ∀ task, (s side).task task ≠ .leaving := by
    intro task
    cases task with
    | reader => simp [Endpoint.task, hreader]
    | writer => simp [Endpoint.task, hwriter]
  have hselects : ∀ task, (s side).selects task = false := by
    intro task
    cases task with
    | reader => simp [Endpoint.selects, hreader]
    | writer => simp [Endpoint.selects, Option.ne_none_iff_isSome.mp hwriting]
  cases e with
  | send _ | receive | appCloses _ | cancel | lost | writeFails => cases he
  | stop task => simp [enabled, Endpoint.can, hselects]
  | take | outboundClosed => simp [enabled, Endpoint.can, hselects]
  | read | poll _ | eof | wake => simp [enabled, Endpoint.can, Endpoint.awaits, hreader]
  | closes task _ | drains task | exits task => simp [enabled, Endpoint.can, htask]
  | refused => simp [enabled, Endpoint.can, remote, (h.writers side.peer).running]
  | writeSome n =>
    have hfull := (h.writers side).full
    simp only [enabled, Endpoint.can, remote, Nat.sub_eq_zero_of_le hfull]
    cases n <;> simp

/-- A task past its loop can close, discard or exit. -/
theorem Quiet.not_leaving {s : Connection c} (h : s.Quiet capacity) (side : Side) (task : Task) :
    (s side).task task ≠ .leaving := by
  intro htask
  have hpipe : ∀ pipe, ((s side).pipe pipe).closed = true := by
    intro pipe
    by_contra hopen
    rw [Bool.not_eq_true] at hopen
    apply h.cannot side (.closes task pipe) rfl
    simp [enabled, Endpoint.can, htask, hopen]
  have hin : (s side).inbound.closed = true := hpipe .inbound
  have hout : (s side).outbound.closed = true := hpipe .outbound
  by_cases hdrains : (s side).app.drains = true ∧ (s side).outbound.queue ≠ []
  · apply h.cannot side (.drains task) rfl
    simp [enabled, Endpoint.can, htask, hout, hdrains.1, hdrains.2]
  · apply h.cannot side (.exits task) rfl
    rw [not_and, not_not] at hdrains
    cases hd : (s side).app.drains with
    | false => simp [enabled, Endpoint.can, htask, hin, hout, hd]
    | true => simp [enabled, Endpoint.can, htask, hin, hout, hd, hdrains hd]

theorem Quiet.exited_of_not_running {s : Connection c} (h : s.Quiet capacity) (side : Side) (task : Task)
    (htask : (s side).task task ≠ .running) : (s side).task task = .exited := by
  cases hstate : (s side).task task with
  | running => exact absurd hstate htask
  | leaving => exact absurd hstate (h.not_leaving side task)
  | exited => rfl

/-- A writer in its loop waits for a frame, on a channel that is open, or it is blocked. -/
theorem Quiet.writer_waits {s : Connection c} (h : s.Quiet capacity) {side : Side}
    (hrun : (s side).writerTask = .running) :
    s.Blocked capacity side ∨
      (s side).writing = none ∧ (s side).outbound.queue = [] ∧ (s side).outbound.closed = false := by
  by_cases hidle : (s side).writing = none
  · right
    have hempty : (s side).outbound.queue = [] := by
      by_contra hqueue
      apply h.cannot side .take rfl
      simp [enabled, Endpoint.can, Endpoint.selects, hrun, hidle, hqueue]
    refine ⟨hidle, hempty, ?_⟩
    by_contra hclosed
    rw [Bool.not_eq_false] at hclosed
    apply h.cannot side .outboundClosed rfl
    simp [enabled, Endpoint.can, Endpoint.selects, hrun, hidle, hempty, hclosed]
  · left
    refine ⟨hrun, hidle, ?_⟩
    by_contra hroom
    apply h.cannot side (.writeSome 1) rfl
    have hfree : 1 ≤ capacity side.peer - (s side.peer).reader.socket.length := by omega
    simp [enabled, Endpoint.can, remote, hrun, Option.ne_none_iff_isSome.mp hidle, hfree]

/-- A reader in its loop waits for bytes, of a writer that has not exited. -/
theorem Quiet.reader_waits {s : Connection c} (h : s.Quiet capacity) {side : Side}
    (hrun : (s side).readerTask = .running) :
    (s side).reader.Waiting ∧ (s side.peer).writerTask ≠ .exited := by
  cases hcall : (s side).reader.call with
  | none =>
    exfalso
    apply h.cannot side .read rfl
    simp [enabled, Endpoint.can, hrun, hcall]
  | some at_ =>
    cases at_ with
    | yieldNow =>
      exfalso
      apply h.cannot side .wake rfl
      simp [enabled, Endpoint.can, Endpoint.awaits, hrun, hcall]
    | read =>
      have hempty : (s side).reader.socket = [] := by
        by_contra hsocket
        apply h.cannot side (.poll 1) rfl
        simp [enabled, Endpoint.can, Endpoint.awaits, hrun, hcall, hsocket]
      refine ⟨⟨hcall, hempty⟩, ?_⟩
      intro hgone
      apply h.cannot side .eof rfl
      simp [enabled, Endpoint.can, Endpoint.awaits, remote, hrun, hcall, hempty, hgone]

/-- A reader that waits has an empty socket. -/
theorem Quiet.reader_exited_of_full {s : Connection c} (h : s.Quiet capacity)
    (hcap : ∀ side, 0 < capacity side) {side : Side} (hfull : s.Blocked capacity side) :
    (s side.peer).readerTask = .exited := by
  apply h.exited_of_not_running side.peer .reader
  intro hrun
  have hempty : (s side.peer).reader.socket = [] := (h.reader_waits hrun).1.2
  have hle := hfull.full
  rw [hempty] at hle
  exact absurd (hcap side.peer) (Nat.not_lt_of_le hle)

/-- The end whose reader has left the direction full has not dropped its write half. -/
theorem Quiet.peer_blocked {s : Connection c} (h : s.Quiet capacity) (hinv : ∀ side, (s side).Inv)
    (hcap : ∀ side, 0 < capacity side) {side : Side} (hfull : s.Blocked capacity side) :
    s.Blocked capacity side.peer := by
  have hreader := h.reader_exited_of_full hcap hfull
  obtain ⟨_, hclosed⟩ := (hinv side.peer).tidy .reader hreader
  cases hwriter : (s side.peer).writerTask with
  | running =>
    rcases h.writer_waits hwriter with hblocked | ⟨_, _, hopen⟩
    · exact hblocked
    · rw [hclosed] at hopen
      cases hopen
  | leaving => exact absurd hwriter (h.not_leaving side.peer .writer)
  | exited =>
    exfalso
    apply h.cannot side .refused rfl
    simp [enabled, Endpoint.can, remote, hfull.running, Option.ne_none_iff_isSome.mp hfull.writing,
      hreader, hwriter]

theorem Quiet.stuck {s : Connection c} (h : s.Quiet capacity) (hinv : ∀ side, (s side).Inv)
    (hcap : ∀ side, 0 < capacity side) {side : Side} (hfull : s.Blocked capacity side) :
    s.Stuck capacity := by
  have hpeer := h.peer_blocked hinv hcap hfull
  have hall : ∀ other, s.Blocked capacity other := by
    intro other
    rcases side.eq_or_eq_peer other with rfl | rfl
    · exact hfull
    · exact hpeer
  refine ⟨?_, hall⟩
  intro other
  have hgone := h.reader_exited_of_full hcap (hall other.peer)
  rwa [Side.peer_peer] at hgone

section Unblocked

variable {s : Connection c} (h : s.Quiet capacity) (hfree : ∀ side, ¬s.Blocked capacity side)
include h hfree

theorem Quiet.writer_idle {side : Side} (hrun : (s side).writerTask = .running) :
    (s side).writing = none ∧ (s side).outbound.queue = [] ∧ (s side).outbound.closed = false :=
  (h.writer_waits hrun).resolve_left (hfree side)

/-- Where one task has exited the writer has too. -/
theorem Quiet.writer_exited {side : Side} (hinv : (s side).Inv) (task : Task)
    (htask : (s side).task task = .exited) : (s side).writerTask = .exited := by
  obtain ⟨_, hclosed⟩ := hinv.tidy task htask
  apply h.exited_of_not_running side .writer
  intro hrun
  obtain ⟨_, _, hopen⟩ := h.writer_idle hfree hrun
  rw [hclosed] at hopen
  cases hopen

omit hfree in
theorem Quiet.reader_exited {side : Side} (hgone : (s side.peer).writerTask = .exited) :
    (s side).readerTask = .exited := by
  apply h.exited_of_not_running side .reader
  intro hrun
  exact (h.reader_waits hrun).2 hgone

theorem Quiet.all_exited (hinv : ∀ side, (s side).Inv) {side : Side} {task : Task}
    (htask : (s side).task task = .exited) (other : Side) (task' : Task) :
    (s other).task task' = .exited := by
  have hwriter : (s side).writerTask = .exited := h.writer_exited hfree (hinv side) task htask
  have hpeerReader : (s side.peer).readerTask = .exited := by
    apply h.reader_exited
    rw [Side.peer_peer]
    exact hwriter
  have hpeerWriter : (s side.peer).writerTask = .exited :=
    h.writer_exited hfree (hinv side.peer) .reader hpeerReader
  have hreader : (s side).readerTask = .exited := h.reader_exited hpeerWriter
  rcases side.eq_or_eq_peer other with rfl | rfl
  · cases task' with
    | reader => exact hreader
    | writer => exact hwriter
  · cases task' with
    | reader => exact hpeerReader
    | writer => exact hpeerWriter

variable {app : Side → App} {decoder : Side → c.Decoder} {decrypt : Side → c.DecryptState}
  {writer : Side → NoiseTcpWriteHalf c}

/-- Nothing is on its way when the tasks wait. -/
theorem Quiet.all_received {Synced : NoiseTcpWriteHalf c → c.Decoder × Option c.DecryptState → Prop}
    (hl : c.Lawful Synced) (hinv : Inv writer decoder decrypt s)
    (hs : ∀ side : Side, Synced (writer side) (decoder side.peer, some (decrypt side.peer)))
    (hrun : ∀ side task, (s side).task task = .running) (side : Side) :
    (s side.peer).received ++ (s side.peer).inbound.queue = (s side).handed := by
  have hend := hinv.ends side
  have hpeer := hinv.ends side.peer
  obtain ⟨hidle, hempty, _⟩ := h.writer_idle hfree (hrun side .writer)
  obtain ⟨hwaiting, _⟩ := h.reader_waits (hrun side.peer .reader)
  have htaken : (s side).taken = (s side).handed := by
    have hall := hend.accounted
    have hcount := hend.counted
    rw [hend.kept (hrun side .reader) (hrun side .writer), hempty] at hcount
    rw [hempty, List.append_nil] at hall
    exact hall.eq_of_length hcount
  have hframes : (s side.peer).reader.frames = (s side).taken :=
    (hinv.follows side).frames_eq hl (hs side) hpeer.good hwaiting (hrun side .writer) hidle
  rw [hpeer.forwarding (hrun side.peer .reader), hframes, htaken]

end Unblocked

variable {app : Side → App} {decoder : Side → c.Decoder} {decrypt : Side → c.DecryptState}
  {writer : Side → NoiseTcpWriteHalf c}

/-- In every run, a connection whose tasks can do nothing by themselves is down at both ends, or up at
both with every frame delivered, or stuck with both directions full; and there it stays. -/
theorem no_half_open {Synced : NoiseTcpWriteHalf c → c.Decoder × Option c.DecryptState → Prop}
    (hl : c.Lawful Synced) (hcap : ∀ side, 0 < capacity side) (app : Side → App)
    (hs : ∀ side : Side, Synced (writer side) (decoder side.peer, some (decrypt side.peer)))
    (as : List (Side × Event c.SerializedFrame)) :
    let s := Runs.run (step capacity) (start app decoder decrypt writer) as
    (s.Quiet capacity →
      (∀ side task, (s side).task task = .exited) ∨
        ((∀ side task, (s side).task task = .running) ∧
          ∀ side, (s side.peer).received ++ (s side.peer).inbound.queue = (s side).handed) ∨
        s.Stuck capacity) ∧
      (s.Stuck capacity → s.Quiet capacity) := by
  intro s
  refine ⟨?_, Stuck.quiet⟩
  intro hquiet
  have hinv : Inv writer decoder decrypt s := run_inv as
  by_cases hblocked : ∃ side, s.Blocked capacity side
  · obtain ⟨side, hfull⟩ := hblocked
    exact .inr (.inr (hquiet.stuck hinv.ends hcap hfull))
  · have hfree : ∀ side, ¬s.Blocked capacity side := fun side hfull => hblocked ⟨side, hfull⟩
    by_cases hrun : ∀ side task, (s side).task task = .running
    · exact .inr (.inl ⟨hrun, hquiet.all_received hfree hl hinv hs hrun⟩)
    · simp only [not_forall] at hrun
      obtain ⟨side, task, hnot⟩ := hrun
      exact .inl (hquiet.all_exited hfree hinv.ends (hquiet.exited_of_not_running side task hnot))

end Connection

/-- One frame is sent and read. -/
def quietRun : List (Side × Event (List UInt8)) :=
  [.send [7], .take, .writeSome 9, .read].map (Prod.mk .responder) ++
  [.read, .poll 9, .wake, .poll 9, .read].map (Prod.mk .initiator)

def quietEnd : Connection sampleCodec := Runs.run (Connection.step sampleCapacity) sampleStart quietRun

theorem quietEnd_quiet : quietEnd.Quiet sampleCapacity := by
  intro side e he
  cases e with
  | stop task | drains task | exits task => cases side <;> cases task <;> rfl
  | closes task pipe => cases side <;> cases task <;> rfl
  | send _ | receive | appCloses _ | cancel | lost | writeFails => cases he
  | read | poll _ | eof | wake | take | outboundClosed | writeSome _ | refused => cases side <;> rfl

theorem no_half_open_sample :
    (∀ side task, (quietEnd side).task task = .exited) ∨
      ((∀ side task, (quietEnd side).task task = .running) ∧
        ∀ side : Side, (quietEnd side.peer).received ++ (quietEnd side.peer).inbound.queue =
          (quietEnd side).handed) ∨
      quietEnd.Stuck sampleCapacity :=
  (Connection.no_half_open sampleCodec_lawful (fun _ => Nat.succ_pos 15) _ (fun _ => ⟨rfl, rfl⟩)
    quietRun).1 quietEnd_quiet

/-- Each end has written a part of a frame when both are cancelled. -/
def stuckRun : List (Side × Event (List UInt8)) :=
  [.responder, .initiator].flatMap fun side =>
    [.send [7], .take, .writeSome 2, .cancel, .stop .reader, .closes .reader .inbound,
      .closes .reader .outbound, .exits .reader].map (Prod.mk side)

def stuckEnd : Connection sampleCodec := Runs.run (Connection.step fun _ => 2) sampleStart stuckRun

example : stuckEnd.Stuck fun _ => 2 where
  readers := by intro side; cases side <;> rfl
  writers := by
    intro side
    constructor
    · cases side <;> rfl
    · cases side <;> decide
    · cases side <;> decide

end Sv2Apps.Network
