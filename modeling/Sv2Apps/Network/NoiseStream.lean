/-
  Network/NoiseStream.lean
  ========================
  **The two halves of a Noise stream** — `NoiseTcpReadHalf` and `NoiseTcpWriteHalf` after the
  handshake.  The encoder, the decoder and their cipher states are those of the codec crate: the
  parameter `Codec`.

  `read_frame` is a future.  It is suspended at two places, the read of the socket and the yield
  between two blocks of one frame (`Await`); a caller goes on with it by the answer of the socket, or
  drops it, and what is then left is the half alone.  `Inbound` is one half with its socket and the
  frames that its calls have returned.
-/
import Sv2Apps.Lib.BlockReader
import Sv2Apps.Lib.Runs

namespace Sv2Apps.Network

/-! ## 1. What is used of the codec -/

/-- `Decrypted`. -/
inductive Decrypted (Frame State : Type) where
  | frame (frame : Frame) (state : State)
  | incomplete (state : State)

/-- A cipher state is taken by value and given back with the result; an error loses it. -/
structure Codec where
  SerializedFrame : Type
  Decoder : Type
  DecryptState : Type
  Encoder : Type
  EncryptState : Type
  CodecError : Type
  aeadError : CodecError
  writableLen : Decoder → Nat
  /-- `writable().copy_from_slice(..)`. -/
  copyFromSlice : Decoder → List UInt8 → Decoder
  nextTransportFrame : Decoder → DecryptState →
    Decoder × Except CodecError (Decrypted SerializedFrame DecryptState)
  encodeTransport : Encoder → EncryptState → SerializedFrame →
    Encoder × EncryptState × Except CodecError (List UInt8)

/-- The variants of the network `Error` that the two halves return. -/
inductive Error (CodecError : Type) where
  | codecError (e : CodecError)
  | socketClosed

variable {c : Codec}

/-! ## 2. The reading half -/

structure NoiseTcpReadHalf (c : Codec) where
  decoder : c.Decoder
  state : Option c.DecryptState
  currentFrameBuf : List UInt8
  bytesRead : Nat

/-- Where a call of `read_frame` is suspended. -/
inductive Await where
  | read
  | yieldNow
deriving DecidableEq

inductive Poll (Frame CodecError : Type) where
  | ready (res : Except (Error CodecError) Frame)
  | pending (at_ : Await)

/-- What the socket answers to a read: `closed` stands for no bytes and for an error alike. -/
inductive Answer where
  | bytes (bytes : List UInt8)
  | wouldBlock
  | closed

/-- `Vec::resize` with zeros. -/
def resize (buf : List UInt8) (n : Nat) : List UInt8 :=
  buf.take n ++ List.replicate (n - buf.length) 0

namespace NoiseTcpReadHalf

def expected (r : NoiseTcpReadHalf c) : Nat := c.writableLen r.decoder

/-- `from_transport` makes it of the decoder and the state that the handshake leaves. -/
def fromTransport (decoder : c.Decoder) (state : c.DecryptState) : NoiseTcpReadHalf c :=
  ⟨decoder, some state, [], 0⟩

def nextFrame (r : NoiseTcpReadHalf c) :
    NoiseTcpReadHalf c × Except (Error c.CodecError) (Option c.SerializedFrame) :=
  match r.state with
  | none => (r, .error (.codecError c.aeadError))
  | some state =>
    match c.nextTransportFrame r.decoder state with
    | (decoder, .ok (.frame frame state)) =>
      ({ r with decoder, state := some state }, .ok (some frame))
    | (decoder, .ok (.incomplete state)) => ({ r with decoder, state := some state }, .ok none)
    | (decoder, .error e) => ({ r with decoder, state := none }, .error (.codecError e))

/-- The buffer takes the length that the decoder asks for. -/
def fitBuffer (r : NoiseTcpReadHalf c) : NoiseTcpReadHalf c :=
  if r.currentFrameBuf.length ≠ r.expected then
    { r with currentFrameBuf := resize r.currentFrameBuf r.expected, bytesRead := 0 }
  else r

/-- The bytes are read into `current_frame_buf[bytes_read..]`. -/
def receive (r : NoiseTcpReadHalf c) (bytes : List UInt8) : NoiseTcpReadHalf c :=
  { r with
    currentFrameBuf := r.currentFrameBuf.take r.bytesRead ++ bytes ++
      r.currentFrameBuf.drop (r.bytesRead + bytes.length)
    bytesRead := r.bytesRead + bytes.length }

/-- The full buffer goes to the decoder. -/
def decode (r : NoiseTcpReadHalf c) :
    NoiseTcpReadHalf c × Except (Error c.CodecError) (Option c.SerializedFrame) :=
  nextFrame { r with decoder := c.copyFromSlice r.decoder r.currentFrameBuf, bytesRead := 0 }

/-- `read_frame` from the test of its inner loop on. -/
def fill (r : NoiseTcpReadHalf c) : NoiseTcpReadHalf c × Poll c.SerializedFrame c.CodecError :=
  if r.bytesRead < r.expected then (r, .pending .read)
  else
    match r.decode with
    | (r, .ok (some frame)) => (r, .ready (.ok frame))
    | (r, .ok none) => (r, .pending .yieldNow)
    | (r, .error e) => (r, .ready (.error e))

/-- A call of `read_frame`, up to where it is first suspended. -/
def readFrame (r : NoiseTcpReadHalf c) : NoiseTcpReadHalf c × Poll c.SerializedFrame c.CodecError :=
  r.fitBuffer.fill

/-- A suspended call goes on; after the yield the loop starts over. -/
def resume (r : NoiseTcpReadHalf c) (at_ : Await) (answer : Answer) :
    NoiseTcpReadHalf c × Poll c.SerializedFrame c.CodecError :=
  match at_, answer with
  | .yieldNow, _ => r.readFrame
  | .read, .bytes bytes => (r.receive bytes).fill
  | .read, .wouldBlock => (r, .pending .read)
  | .read, .closed => (r, .ready (.error .socketClosed))

def tryReadFrame (r : NoiseTcpReadHalf c) (answer : Answer) :
    NoiseTcpReadHalf c × Except (Error c.CodecError) (Option c.SerializedFrame) :=
  let r := r.fitBuffer
  if 0 < r.expected then
    match answer with
    | .closed => (r, .error .socketClosed)
    | .wouldBlock => (r, .ok none)
    | .bytes bytes =>
      let r := r.receive bytes
      if r.bytesRead < r.expected then (r, .ok none) else r.decode
  else r.decode

end NoiseTcpReadHalf

/-! ## 3. The writing half -/

structure NoiseTcpWriteHalf (c : Codec) where
  encoder : c.Encoder
  state : c.EncryptState

/-- `write_frame` up to its `write_all`: what is to be written. -/
def NoiseTcpWriteHalf.encode (w : NoiseTcpWriteHalf c) (frame : c.SerializedFrame) :
    NoiseTcpWriteHalf c × Except (Error c.CodecError) (List UInt8) :=
  match c.encodeTransport w.encoder w.state frame with
  | (encoder, state, .ok bytes) => (⟨encoder, state⟩, .ok bytes)
  | (encoder, state, .error e) => (⟨encoder, state⟩, .error (.codecError e))

/-! ## 4. A half and its socket -/

/-- What a look at the socket meets: it has bytes, of which a read takes at most `n`, or the
connection is gone. -/
inductive Look where
  | upTo (n : Nat)
  | closed
deriving DecidableEq

structure Inbound (c : Codec) where
  half : NoiseTcpReadHalf c
  /-- The call of `read_frame` that has not returned. -/
  call : Option Await
  /-- The bytes that have reached the socket and have not been read. -/
  socket : List UInt8
  /-- The frames that calls have returned, in their order. -/
  frames : List c.SerializedFrame

namespace Inbound

inductive Event where
  | arrive (bytes : List UInt8)
  | readFrame
  | poll (look : Look)
  | wake
  | dropCall
  | tryReadFrame (look : Look)
deriving DecidableEq

def start (decoder : c.Decoder) (state : c.DecryptState) : Inbound c :=
  ⟨.fromTransport decoder state, none, [], []⟩

/-- A read takes as many bytes as there are, as fit, and as it is given. -/
def offered (half : NoiseTcpReadHalf c) (socket : List UInt8) (n : Nat) : List UInt8 :=
  socket.take (min n (half.currentFrameBuf.length - half.bytesRead))

/-- The answer, and what is left in the socket. -/
def answer (half : NoiseTcpReadHalf c) (socket : List UInt8) : Look → Answer × List UInt8
  | .upTo n =>
    let got := offered half socket n
    (if got.isEmpty then .wouldBlock else .bytes got, socket.drop got.length)
  | .closed => (.closed, socket)

/-- The call has returned or is suspended. -/
def settle (w : Inbound c) : NoiseTcpReadHalf c × Poll c.SerializedFrame c.CodecError → Inbound c
  | (half, .ready (.ok frame)) => { w with half, call := none, frames := w.frames ++ [frame] }
  | (half, .ready (.error _)) => { w with half, call := none }
  | (half, .pending at_) => { w with half, call := some at_ }

/-- The result of `try_read_frame`. -/
def keep (w : Inbound c) :
    NoiseTcpReadHalf c × Except (Error c.CodecError) (Option c.SerializedFrame) → Inbound c
  | (half, .ok (some frame)) => { w with half, frames := w.frames ++ [frame] }
  | (half, _) => { w with half }

/-- Both calls borrow the half, so there is one at a time. -/
def step (w : Inbound c) : Event → Inbound c
  | .arrive bytes => { w with socket := w.socket ++ bytes }
  | .readFrame => if w.call.isNone then w.settle w.half.readFrame else w
  | .poll look =>
    if w.call = some .read then
      let a := answer w.half w.socket look
      { w with socket := a.2 }.settle (w.half.resume .read a.1)
    else w
  | .wake => if w.call = some .yieldNow then w.settle (w.half.resume .yieldNow .wouldBlock) else w
  | .dropCall => { w with call := none }
  | .tryReadFrame look =>
    if w.call.isNone then
      let a := answer w.half.fitBuffer w.socket look
      { w with socket := a.2 }.keep (w.half.tryReadFrame a.1)
    else w

/-- All that the peer has put on its way. -/
def arrived : List Event → List UInt8
  | [] => []
  | .arrive bytes :: es => bytes ++ arrived es
  | _ :: es => arrived es

end Inbound

/-! ## 5. A codec for the samples

A header of two bytes, the counter of the frame in place of a tag and the length, then the payload. -/

structure SampleDecoder where
  /-- The length of the payload, once the header is known. -/
  payload : Option Nat
  block : List UInt8
deriving DecidableEq

def sampleNext (d : SampleDecoder) (counter : Nat) :
    SampleDecoder × Except Unit (Decrypted (List UInt8) Nat) :=
  match d.payload, d.block with
  | some _, frame => (⟨none, []⟩, .ok (.frame frame (counter + 1)))
  | none, [tag, length] =>
    if tag.toNat ≠ counter % 256 then (d, .error ())
    else if length = 0 then (⟨none, []⟩, .ok (.frame [] (counter + 1)))
    else (⟨some length.toNat, []⟩, .ok (.incomplete counter))
  | none, _ => (d, .error ())

def sampleCodec : Codec where
  SerializedFrame := List UInt8
  Decoder := SampleDecoder
  DecryptState := Nat
  Encoder := Unit
  EncryptState := Nat
  CodecError := Unit
  aeadError := ()
  writableLen d := d.payload.getD 2
  copyFromSlice d bytes := { d with block := bytes }
  nextTransportFrame := sampleNext
  encodeTransport _ counter frame :=
    if frame.length < 256 then
      ((), counter + 1, .ok ([UInt8.ofNat counter, UInt8.ofNat frame.length] ++ frame))
    else ((), counter, .error ())

def sampleDecoder : SampleDecoder := ⟨none, []⟩

end Sv2Apps.Network
