/-
  Network/ByteStream.lean
  =======================
  **Frames are a matter of the bytes** — the frames that a reading half returns are those that the
  decoder finds when it is given the bytes of the peer block by block (`blocks`), however the bytes
  are cut on their way, in whatever order `read_frame` and `try_read_frame` are called, and wherever
  calls of `read_frame` are dropped (`same_bytes_same_frames`).

  The documentation of the half promises less: it calls a dropped `read_frame` unsafe.  What a dropped
  call leaves behind is the part of a block in `current_frame_buf[..bytes_read]`, and the next call
  takes it up, as the buffer is given another length only between two blocks (`Clean`).

  Once the decoder has failed the cipher state is gone, and no frame is returned any more.
-/
import Sv2Apps.Network.NoiseStream

namespace Sv2Apps.Network

open BlockReader

variable {c : Codec}

/-- The frame of a result. -/
def frameOf : Except (Error c.CodecError) (Option c.SerializedFrame) → Option c.SerializedFrame
  | .ok frame => frame
  | .error _ => none

def Poll.frame : Poll c.SerializedFrame c.CodecError → Option c.SerializedFrame
  | .ready (.ok frame) => some frame
  | _ => none

/-- The decoder on its own: it is given whole blocks. -/
def blocks (c : Codec) :
    BlockReader.Machine (c.Decoder × Option c.DecryptState) UInt8 c.SerializedFrame where
  need s := c.writableLen s.1
  feed s block :=
    let r := NoiseTcpReadHalf.nextFrame ⟨c.copyFromSlice s.1 block, s.2, [], 0⟩
    ((r.1.decoder, r.1.state), frameOf r.2)

/-- A lost cipher state does not come back. -/
theorem feed_of_none (s : c.Decoder × Option c.DecryptState) (block : List UInt8) (h : s.2 = none) :
    ((blocks c).feed s block).1.2 = none ∧ ((blocks c).feed s block).2 = none := by
  obtain ⟨decoder, state⟩ := s
  subst h
  exact ⟨rfl, rfl⟩

namespace NoiseTcpReadHalf

/-! ## The part of a block that has been read -/

def cipher (r : NoiseTcpReadHalf c) : c.Decoder × Option c.DecryptState := (r.decoder, r.state)

/-- What has been taken from the socket and not been given to the decoder. -/
def unread (r : NoiseTcpReadHalf c) : List UInt8 := r.currentFrameBuf.take r.bytesRead

/-- The buffer fits and is not full. -/
structure Parked (r : NoiseTcpReadHalf c) : Prop where
  fits : r.currentFrameBuf.length = r.expected
  room : r.bytesRead < r.expected

/-- Between two calls: whatever has been read is the beginning of a block. -/
def Clean (r : NoiseTcpReadHalf c) : Prop := 0 < r.bytesRead → r.Parked

theorem Parked.clean {r : NoiseTcpReadHalf c} (h : r.Parked) : r.Clean := fun _ => h

theorem clean_of_zero {r : NoiseTcpReadHalf c} (h : r.bytesRead = 0) : r.Clean := by
  intro hpos
  omega

theorem unread_of_zero {r : NoiseTcpReadHalf c} (h : r.bytesRead = 0) : r.unread = [] := by
  simp [unread, h]

theorem Parked.length_unread {r : NoiseTcpReadHalf c} (h : r.Parked) :
    r.unread.length = r.bytesRead := by
  have := h.fits
  have := h.room
  simp only [unread, List.length_take]
  omega

theorem length_resize (buf : List UInt8) (n : Nat) : (resize buf n).length = n := by
  simp only [resize, List.length_append, List.length_take, List.length_replicate]
  omega

/-- Another length is given to the buffer only when nothing is in it. -/
theorem fitBuffer_spec {r : NoiseTcpReadHalf c} (h : r.Clean) :
    r.fitBuffer.cipher = r.cipher ∧ r.fitBuffer.unread = r.unread ∧
      r.fitBuffer.currentFrameBuf.length = r.fitBuffer.expected ∧
      r.fitBuffer.bytesRead ≤ r.fitBuffer.expected ∧
      (0 < r.fitBuffer.expected → r.fitBuffer.Parked) := by
  unfold fitBuffer
  split
  next hne =>
    have hzero : r.bytesRead = 0 := by
      by_contra hpos
      exact hne (h (Nat.pos_of_ne_zero hpos)).fits
    refine ⟨rfl, ?_, length_resize _ _, Nat.zero_le _, ?_⟩
    · rw [unread_of_zero hzero]
      exact unread_of_zero rfl
    · intro hpos
      exact ⟨length_resize _ _, hpos⟩
  next heq =>
    have hlen : r.currentFrameBuf.length = r.expected := not_not.mp heq
    have hparked : 0 < r.expected → r.Parked := by
      intro hpos
      by_cases hzero : r.bytesRead = 0
      · exact ⟨hlen, by omega⟩
      · exact h (Nat.pos_of_ne_zero hzero)
    refine ⟨rfl, rfl, hlen, ?_, hparked⟩
    by_cases hpos : 0 < r.expected
    · exact Nat.le_of_lt (hparked hpos).room
    · by_contra hread
      have := (h (by omega)).room
      omega

theorem receive_spec {r : NoiseTcpReadHalf c} (h : r.Parked) {bytes : List UInt8}
    (hfit : bytes.length ≤ r.currentFrameBuf.length - r.bytesRead) :
    (r.receive bytes).cipher = r.cipher ∧ (r.receive bytes).unread = r.unread ++ bytes ∧
      (r.receive bytes).currentFrameBuf.length = (r.receive bytes).expected ∧
      (r.receive bytes).bytesRead ≤ (r.receive bytes).expected := by
  have hlen := h.fits
  have hroom := h.room
  have hread : r.unread.length = r.bytesRead := h.length_unread
  refine ⟨rfl, ?_, ?_, ?_⟩
  · show (r.unread ++ bytes ++ _).take (r.bytesRead + bytes.length) = _
    apply List.take_left'
    rw [List.length_append, hread]
  · show (r.unread ++ bytes ++ r.currentFrameBuf.drop _).length = r.expected
    simp only [List.length_append, List.length_drop, hread]
    omega
  · show r.bytesRead + bytes.length ≤ r.expected
    omega

/-! ## One call -/

/-- The half has taken `got` from the socket and returned `out`. -/
structure Took (r r' : NoiseTcpReadHalf c) (got : List UInt8) (out : Option c.SerializedFrame) :
    Prop where
  reads : Reads (blocks c) r.cipher (r.unread ++ got) out.toList r'.cipher r'.unread
  clean : r'.Clean

theorem nextFrame_feeds (r : NoiseTcpReadHalf c) (block : List UInt8) :
    let r' := nextFrame { r with decoder := c.copyFromSlice r.decoder block, bytesRead := 0 }
    (blocks c).feed r.cipher block = (r'.1.cipher, frameOf r'.2) ∧ r'.1.bytesRead = 0 := by
  obtain ⟨decoder, state, buf, n⟩ := r
  cases state with
  | none => exact ⟨rfl, rfl⟩
  | some state =>
    simp only [blocks, cipher, nextFrame]
    rcases c.nextTransportFrame (c.copyFromSlice decoder block) state with ⟨d, e | f | s⟩
    all_goals exact ⟨rfl, rfl⟩

/-- A full buffer is one block. -/
theorem decode_took {r : NoiseTcpReadHalf c} (hlen : r.currentFrameBuf.length = r.expected)
    (hfull : r.bytesRead = r.expected) : Took r r.decode.1 [] (frameOf r.decode.2) := by
  obtain ⟨hfed, hzero⟩ := nextFrame_feeds r r.currentFrameBuf
  have hblock : r.unread = r.currentFrameBuf := by
    rw [unread, hfull, ← hlen, List.take_length]
  have hneed : (blocks c).need r.cipher = r.currentFrameBuf.length := hlen.symm
  have hone : Reads (blocks c) r.cipher r.currentFrameBuf ([] ++ (frameOf r.decode.2).toList)
      r.decode.1.cipher (r.currentFrameBuf.drop ((blocks c).need r.cipher)) := by
    apply (Reads.done r.cipher r.currentFrameBuf).next
    · exact Nat.le_of_eq hneed
    · rw [hneed, List.take_length]
      exact hfed
  have hempty : r.decode.1.unread = [] := unread_of_zero hzero
  refine ⟨?_, clean_of_zero hzero⟩
  rw [List.append_nil, hblock, hempty]
  rwa [hneed, List.drop_length, List.nil_append] at hone

theorem Took.of_same {r r₁ r' : NoiseTcpReadHalf c} {got : List UInt8} {out : Option c.SerializedFrame}
    (hcipher : r₁.cipher = r.cipher) (hunread : r₁.unread = r.unread ++ got)
    (h : Took r₁ r' [] out) : Took r r' got out := by
  refine ⟨?_, h.clean⟩
  have := h.reads
  rwa [hcipher, hunread, List.append_nil] at this

theorem Took.nothing {r r' : NoiseTcpReadHalf c} (hcipher : r'.cipher = r.cipher)
    (hunread : r'.unread = r.unread) (hclean : r'.Clean) : Took r r' [] none := by
  refine ⟨?_, hclean⟩
  rw [hcipher, hunread, List.append_nil]
  exact .done _ _

/-- The decoder has been given a block and wants more for the frame. -/
def Incomplete (r : NoiseTcpReadHalf c) : Prop :=
  r.state ≠ none ∧ ∃ s block, (blocks c).feed s block = (r.cipher, none)

theorem nextFrame_state {r : NoiseTcpReadHalf c} {frame : Option c.SerializedFrame}
    (h : r.nextFrame.2 = .ok frame) : r.nextFrame.1.state ≠ none := by
  obtain ⟨decoder, state, buf, n⟩ := r
  cases state with
  | none => cases h
  | some state =>
    simp only [nextFrame] at h ⊢
    rcases hnext : c.nextTransportFrame decoder state with ⟨d, e | f | s⟩
    · rw [hnext] at h
      cases h
    · simp
    · simp

/-- What `read_frame` returns or is suspended with. -/
structure Polled (r : NoiseTcpReadHalf c) (got : List UInt8)
    (p : NoiseTcpReadHalf c × Poll c.SerializedFrame c.CodecError) : Prop where
  took : Took r p.1 got p.2.frame
  parked : p.2 = .pending .read → p.1.Parked
  incomplete : p.2 = .pending .yieldNow → p.1.Incomplete

theorem fill_polled {r : NoiseTcpReadHalf c} (hlen : r.currentFrameBuf.length = r.expected)
    (hle : r.bytesRead ≤ r.expected) : Polled r [] r.fill := by
  unfold fill
  split
  next hroom =>
    have hparked : r.Parked := ⟨hlen, hroom⟩
    exact ⟨.nothing rfl rfl hparked.clean, fun _ => hparked, by simp⟩
  next hfull =>
    have htook := decode_took hlen (by omega)
    split
    next r' frame hdec =>
      rw [hdec] at htook
      exact ⟨htook, by simp, by simp⟩
    next r' hdec =>
      obtain ⟨hfed, _⟩ := nextFrame_feeds r r.currentFrameBuf
      have hstate := nextFrame_state (congrArg Prod.snd hdec)
      have hmore : r.decode.1.Incomplete := by
        refine ⟨hstate, r.cipher, r.currentFrameBuf, ?_⟩
        rw [hfed]
        exact congrArg (Prod.mk _) (congrArg (fun p => frameOf p.2) hdec)
      rw [hdec] at htook hmore
      exact ⟨htook, by simp, fun _ => hmore⟩
    next r' e hdec =>
      rw [hdec] at htook
      exact ⟨htook, by simp, by simp⟩

theorem readFrame_polled {r : NoiseTcpReadHalf c} (h : r.Clean) : Polled r [] r.readFrame := by
  obtain ⟨hcipher, hunread, hlen, hle, _⟩ := fitBuffer_spec h
  obtain ⟨htook, hparked, hmore⟩ := fill_polled hlen hle
  refine ⟨htook.of_same hcipher ?_, hparked, hmore⟩
  rw [hunread, List.append_nil]

theorem resume_bytes_polled {r : NoiseTcpReadHalf c} (h : r.Parked) {bytes : List UInt8}
    (hfit : bytes.length ≤ r.currentFrameBuf.length - r.bytesRead) :
    Polled r bytes (r.resume .read (.bytes bytes)) := by
  obtain ⟨hcipher, hunread, hlen, hle⟩ := receive_spec h hfit
  obtain ⟨htook, hparked, hmore⟩ := fill_polled hlen hle
  exact ⟨htook.of_same hcipher hunread, hparked, hmore⟩

theorem tryReadFrame_bytes_took {r : NoiseTcpReadHalf c} (h : r.Clean) {bytes : List UInt8}
    (hfit : bytes.length ≤ r.fitBuffer.currentFrameBuf.length - r.fitBuffer.bytesRead) :
    Took r (r.tryReadFrame (.bytes bytes)).1 bytes (frameOf (r.tryReadFrame (.bytes bytes)).2) := by
  obtain ⟨hcipher, hunread, hlen, hle, hparked⟩ := fitBuffer_spec h
  simp only [tryReadFrame]
  split
  next hpos =>
    obtain ⟨hcipher', hunread', hlen', hle'⟩ := receive_spec (hparked hpos) hfit
    have hall : (r.fitBuffer.receive bytes).unread = r.unread ++ bytes := by rw [hunread', hunread]
    split
    next hroom =>
      apply Took.of_same (hcipher'.trans hcipher) hall
      exact .nothing rfl rfl (Parked.clean ⟨hlen', hroom⟩)
    next hfull =>
      apply Took.of_same (hcipher'.trans hcipher) hall
      exact decode_took hlen' (by
        have : (r.fitBuffer.receive bytes).expected = r.fitBuffer.expected := rfl
        omega)
  next hzero =>
    have hbytes : bytes = [] := by
      apply List.length_eq_zero_iff.mp
      omega
    subst hbytes
    apply Took.of_same hcipher
    · rw [hunread, List.append_nil]
    · exact decode_took hlen (by omega)

/-- Without bytes from the socket `try_read_frame` decodes an empty block, or does nothing. -/
theorem tryReadFrame_none_took {r : NoiseTcpReadHalf c} (h : r.Clean) {answer : Answer}
    (hanswer : ∀ bytes, answer ≠ .bytes bytes) :
    Took r (r.tryReadFrame answer).1 [] (frameOf (r.tryReadFrame answer).2) := by
  obtain ⟨hcipher, hunread, hlen, hle, hparked⟩ := fitBuffer_spec h
  simp only [tryReadFrame]
  split
  next hpos =>
    cases answer with
    | closed => exact .nothing hcipher hunread (hparked hpos).clean
    | wouldBlock => exact .nothing hcipher hunread (hparked hpos).clean
    | bytes bytes => exact absurd rfl (hanswer bytes)
  next hzero =>
    apply Took.of_same hcipher
    · rw [hunread, List.append_nil]
    · exact decode_took hlen (by omega)

end NoiseTcpReadHalf

/-! ## Runs -/

namespace Inbound

open NoiseTcpReadHalf

/-- A call that waits for the socket has room for bytes, one that yields wants more of them. -/
structure Good (w : Inbound c) : Prop where
  clean : w.half.Clean
  parked : w.call = some .read → w.half.Parked
  incomplete : w.call = some .yieldNow → w.half.Incomplete

/-- `bytes` have arrived in between. -/
structure Goes (w w' : Inbound c) (bytes : List UInt8) (out : List c.SerializedFrame) : Prop where
  frames : w'.frames = w.frames ++ out
  reads : Reads (blocks c) w.half.cipher (w.half.unread ++ w.socket ++ bytes) out
    w'.half.cipher (w'.half.unread ++ w'.socket)
  good : w'.Good

theorem Goes.trans {w w₁ w₂ : Inbound c} {bytes bytes' : List UInt8} {out out' : List c.SerializedFrame}
    (h : Goes w w₁ bytes out) (h' : Goes w₁ w₂ bytes' out') :
    Goes w w₂ (bytes ++ bytes') (out ++ out') := by
  refine ⟨?_, ?_, h'.good⟩
  · rw [h'.frames, h.frames, List.append_assoc]
  · have hall := (h.reads.append_input bytes').trans h'.reads
    rwa [List.append_assoc] at hall

theorem Goes.refl {w : Inbound c} (h : w.Good) : Goes w w [] [] := by
  refine ⟨(List.append_nil _).symm, ?_, h⟩
  rw [List.append_nil]
  exact .done _ _

/-- What a call has done, once its `got` are taken out of the socket. -/
theorem goes_of_took {w w' : Inbound c} {got : List UInt8} {out : Option c.SerializedFrame}
    (htook : Took w.half w'.half got out) (hsocket : w.socket = got ++ w'.socket)
    (hframes : w'.frames = w.frames ++ out.toList) (hparked : w'.call = some .read → w'.half.Parked)
    (hmore : w'.call = some .yieldNow → w'.half.Incomplete) : Goes w w' [] out.toList := by
  refine ⟨hframes, ?_, htook.clean, hparked, hmore⟩
  have hmore := htook.reads.append_input w'.socket
  rwa [List.append_assoc, ← hsocket, ← List.append_nil (w.half.unread ++ w.socket)] at hmore

theorem settle_goes {w : Inbound c} {got rest : List UInt8}
    {p : NoiseTcpReadHalf c × Poll c.SerializedFrame c.CodecError} (h : Polled w.half got p)
    (hsocket : w.socket = got ++ rest) :
    Goes w ({ w with socket := rest }.settle p) [] p.2.frame.toList := by
  obtain ⟨half, res⟩ := p
  obtain ⟨htook, hparked, hmore⟩ := h
  match res with
  | .ready (.ok frame) => exact goes_of_took htook hsocket rfl (by simp [settle]) (by simp [settle])
  | .ready (.error _) =>
    exact goes_of_took htook hsocket (List.append_nil _).symm (by simp [settle]) (by simp [settle])
  | .pending at_ =>
    apply goes_of_took htook hsocket (List.append_nil _).symm
    · intro hcall
      apply hparked
      simp only [settle, Option.some.injEq] at hcall
      rw [hcall]
    · intro hcall
      apply hmore
      simp only [settle, Option.some.injEq] at hcall
      rw [hcall]

theorem keep_goes {w : Inbound c} {got rest : List UInt8}
    {p : NoiseTcpReadHalf c × Except (Error c.CodecError) (Option c.SerializedFrame)}
    (htook : Took w.half p.1 got (frameOf p.2)) (hcall : w.call = none)
    (hsocket : w.socket = got ++ rest) :
    Goes w ({ w with socket := rest }.keep p) [] (frameOf p.2).toList := by
  obtain ⟨half, res⟩ := p
  match res with
  | .ok (some frame) =>
    exact goes_of_took htook hsocket rfl (by simp [keep, hcall]) (by simp [keep, hcall])
  | .ok none =>
    exact goes_of_took htook hsocket (List.append_nil _).symm (by simp [keep, hcall])
      (by simp [keep, hcall])
  | .error e =>
    exact goes_of_took htook hsocket (List.append_nil _).symm (by simp [keep, hcall])
      (by simp [keep, hcall])

theorem offered_fits (half : NoiseTcpReadHalf c) (socket : List UInt8) (n : Nat) :
    (offered half socket n).length ≤ half.currentFrameBuf.length - half.bytesRead := by
  simp only [offered, List.length_take]
  omega

theorem offered_append (half : NoiseTcpReadHalf c) (socket : List UInt8) (n : Nat) :
    socket = offered half socket n ++ socket.drop (offered half socket n).length := by
  have hprefix : offered half socket n <+: socket := List.take_prefix _ _
  exact (List.prefix_iff_eq_append.mp hprefix).symm

/-- The answer is bytes that fit, or takes nothing. -/
theorem answer_cases (half : NoiseTcpReadHalf c) (socket : List UInt8) (look : Look) :
    (∃ bytes, (answer half socket look).1 = .bytes bytes ∧
        bytes.length ≤ half.currentFrameBuf.length - half.bytesRead ∧
        socket = bytes ++ (answer half socket look).2) ∨
      ((∀ bytes, (answer half socket look).1 ≠ .bytes bytes) ∧ (answer half socket look).2 = socket) := by
  cases look with
  | closed => exact .inr ⟨by simp [answer], rfl⟩
  | upTo n =>
    by_cases hempty : offered half socket n = []
    · refine .inr ⟨?_, ?_⟩
      · simp [answer, hempty]
      · simp [answer, hempty]
    · refine .inl ⟨offered half socket n, ?_, offered_fits _ _ _, offered_append _ _ _⟩
      simp [answer, hempty]

theorem resume_none_polled {r : NoiseTcpReadHalf c} (h : r.Parked) {answer : Answer}
    (hanswer : ∀ bytes, answer ≠ .bytes bytes) : Polled r [] (r.resume .read answer) := by
  cases answer with
  | bytes bytes => exact absurd rfl (hanswer bytes)
  | wouldBlock => exact ⟨.nothing rfl rfl h.clean, fun _ => h, by simp [resume]⟩
  | closed => exact ⟨.nothing rfl rfl h.clean, by simp [resume], by simp [resume]⟩

theorem step_goes {w : Inbound c} (h : w.Good) (e : Event) :
    ∃ out, Goes w (w.step e) (arrived [e]) out := by
  have hsame : w.socket = [] ++ w.socket := rfl
  cases e with
  | arrive bytes =>
    refine ⟨[], (List.append_nil _).symm, ?_, ⟨h.clean, h.parked, h.incomplete⟩⟩
    simp only [arrived, step, List.append_nil, ← List.append_assoc]
    exact .done _ _
  | readFrame =>
    simp only [step]
    split
    next => exact ⟨_, settle_goes (readFrame_polled h.clean) hsame⟩
    next => exact ⟨[], .refl h⟩
  | wake =>
    simp only [step]
    split
    next => exact ⟨_, settle_goes (readFrame_polled h.clean) hsame⟩
    next => exact ⟨[], .refl h⟩
  | dropCall =>
    refine ⟨[], (List.append_nil _).symm, ?_, h.clean, by simp [step], by simp [step]⟩
    simp only [arrived, step, List.append_nil]
    exact .done _ _
  | poll look =>
    simp only [step]
    split
    next hcall =>
      have hparked := h.parked hcall
      rcases answer_cases w.half w.socket look with ⟨bytes, heq, hfit, hsocket⟩ | ⟨hnone, hrest⟩
      · rw [heq]
        exact ⟨_, settle_goes (resume_bytes_polled hparked hfit) hsocket⟩
      · exact ⟨_, settle_goes (resume_none_polled hparked hnone) (by rw [hrest]; rfl)⟩
    next => exact ⟨[], .refl h⟩
  | tryReadFrame look =>
    simp only [step]
    split
    next hcall =>
      have hidle : w.call = none := by simpa using hcall
      rcases answer_cases w.half.fitBuffer w.socket look with ⟨bytes, heq, hfit, hsocket⟩ | ⟨hnone, hrest⟩
      · rw [heq]
        exact ⟨_, keep_goes (tryReadFrame_bytes_took h.clean hfit) hidle hsocket⟩
      · exact ⟨_, keep_goes (tryReadFrame_none_took h.clean hnone) hidle (by rw [hrest]; rfl)⟩
    next => exact ⟨[], .refl h⟩

theorem arrived_cons (e : Event) (es : List Event) : arrived (e :: es) = arrived [e] ++ arrived es := by
  cases e with
  | arrive bytes => simp [arrived]
  | _ => rfl

theorem run_goes {w : Inbound c} (h : w.Good) (es : List Event) :
    ∃ out, Goes w (Runs.run step w es) (arrived es) out := by
  induction es generalizing w with
  | nil => exact ⟨[], .refl h⟩
  | cons e es ih =>
    obtain ⟨out, hstep⟩ := step_goes h e
    obtain ⟨out', hrest⟩ := ih hstep.good
    rw [arrived_cons]
    exact ⟨out ++ out', hstep.trans hrest⟩

theorem start_good (decoder : c.Decoder) (state : c.DecryptState) : (start decoder state).Good :=
  ⟨clean_of_zero rfl, by simp [start], by simp [start]⟩

/-- From the start, the frames are those of a plain reading of what has arrived. -/
theorem reads_arrived (decoder : c.Decoder) (state : c.DecryptState) (es : List Event) :
    let w := Runs.run step (start decoder state) es
    w.Good ∧ Reads (blocks c) (decoder, some state) (arrived es) w.frames w.half.cipher
      (w.half.unread ++ w.socket) := by
  obtain ⟨out, hrun⟩ := run_goes (start_good decoder state) es
  have hframes := hrun.frames
  have hreads := hrun.reads
  rw [show (start decoder state).frames = [] from rfl, List.nil_append] at hframes
  refine ⟨hrun.good, ?_⟩
  rw [hframes]
  exact hreads

/-- A call waits for bytes, and there are none. -/
def Waiting (w : Inbound c) : Prop := w.call = some .read ∧ w.socket = []

theorem Waiting.starved {w : Inbound c} (h : w.Waiting) (hgood : w.Good) :
    Starved (blocks c) w.half.cipher (w.half.unread ++ w.socket) := by
  have hparked := hgood.parked h.1
  rw [h.2, List.append_nil]
  show w.half.unread.length < w.half.expected
  rw [hparked.length_unread]
  exact hparked.room

theorem frames_of_lost_state {w : Inbound c} (h : w.Good) (hlost : w.half.state = none)
    (es : List Event) : (Runs.run step w es).frames = w.frames := by
  obtain ⟨out, hrun⟩ := run_goes h es
  have hnone : out = [] := hrun.reads.silent (P := fun s => s.2 = none) hlost feed_of_none
  rw [hrun.frames, hnone, List.append_nil]

/-- Two halves that start alike: of the frames returned by the one whose bytes have all arrived at the
other too, none is missed, added or moved there, and none is left out where the other waits for more.
After an error of the decoder there is no further frame. -/
theorem same_bytes_same_frames (decoder : c.Decoder) (state : c.DecryptState) (as bs : List Event)
    (hbytes : arrived as <+: arrived bs) :
    let w := Runs.run step (start decoder state) as
    let w' := Runs.run step (start decoder state) bs
    (w.frames <+: w'.frames ∨ w'.frames <+: w.frames) ∧
      (w'.Waiting → w.frames <+: w'.frames) ∧
      (w.half.state = none → ∀ cs, (Runs.run step w cs).frames = w.frames) := by
  intro w w'
  obtain ⟨hgood, hreads⟩ := reads_arrived decoder state as
  obtain ⟨hgood', hreads'⟩ := reads_arrived decoder state bs
  obtain ⟨tail, htail⟩ := hbytes
  have hmore := hreads.append_input tail
  rw [htail] at hmore
  refine ⟨?_, ?_, ?_⟩
  · rcases hmore.comparable hreads' with ⟨out, hout, _⟩ | ⟨out, hout, _⟩
    · exact .inl ⟨out, hout.symm⟩
    · exact .inr ⟨out, hout.symm⟩
  · intro hwaiting
    obtain ⟨out, hout, _⟩ := hmore.continues hreads' (hwaiting.starved hgood')
    exact ⟨out, hout.symm⟩
  · intro hlost cs
    exact frames_of_lost_state hgood hlost cs

/-- The same two frames, once in pieces with a call that is dropped, and once as one segment. -/
theorem same_bytes_same_frames_sample :
    (Runs.run step (start (c := sampleCodec) sampleDecoder (0 : Nat))
        [.readFrame, .arrive [0, 3, 7], .poll (.upTo 1), .dropCall, .tryReadFrame (.upTo 9), .readFrame,
          .wake, .poll (.upTo 1), .arrive [8, 9], .dropCall, .tryReadFrame (.upTo 1), .readFrame,
          .poll (.upTo 1)]).frames <+:
      (Runs.run step (start (c := sampleCodec) sampleDecoder (0 : Nat))
        [.arrive [0, 3, 7, 8, 9, 1, 0], .readFrame, .poll (.upTo 9), .wake, .poll (.upTo 9), .readFrame,
          .poll (.upTo 9), .readFrame]).frames :=
  (same_bytes_same_frames (c := sampleCodec) sampleDecoder (0 : Nat) _ _
    (by decide)).2.1 ⟨by decide, by decide⟩

end Inbound

end Sv2Apps.Network
