/-
  Extensions/Negotiation.lean
  ===========================
  **Extension negotiation** — one connection of a client (translator or JD-client) with a server
  (pool or JD-client): `setup_connection` of the client asks for what the client requires,
  `handle_request_extensions` of the server answers with the part it supports or with what it
  misses, and the channel manager of the client stores the answer, leaves, or asks again.

  Frames travel in order in both directions, and every frame is read in a step of its own.  On the
  server the shares pass a second queue, from the task of the connection to the channel manager.
  The connection may be cut at any time; frames on their way are then lost from the end.
-/
import Sv2Apps.Lib.Runs
import Sv2Apps.Lib.OverflowChecks

namespace Sv2Apps.Extensions

open OverflowChecks

structure RequestExtensions where
  requestId : UInt16
  requestedExtensions : List UInt16
deriving DecidableEq

structure RequestExtensionsSuccess where
  requestId : UInt16
  supportedExtensions : List UInt16
deriving DecidableEq

structure RequestExtensionsError where
  requestId : UInt16
  unsupportedExtensions : List UInt16
  requiredExtensions : List UInt16
deriving DecidableEq

/-- `Seq064KOwned::new`: the count of the elements is a u16. -/
def seq064K (l : List UInt16) : Option (List UInt16) :=
  if l.length < 2 ^ 16 then some l else none

/-- The first extension type that is not in the base protocol and that the applications use. -/
def EXTENSION_TYPE_WORKER_HASHRATE_TRACKING : UInt16 := 2

/-! ## The server -/

inductive ServerKind where
  | pool
  | jdClient
deriving DecidableEq

inductive ServerLeave where
  | clientDoesNotSupportRequiredExtensions (missing : List UInt16)
  | channelErrorSender
  | channelRecv
  | parserError
  | shutdown
deriving DecidableEq

inductive ServerFrame where
  | success (m : RequestExtensionsSuccess)
  | error (m : RequestExtensionsError)
deriving DecidableEq

/-- What a call of the handler stores, what it sends, and whether it returns an error. -/
structure ServerResult where
  negotiatedExtensions : List UInt16
  reply : Option ServerFrame
  left : Option ServerLeave

/-- `Downstream::handle_request_extensions`; `onMissing` is what the server does with a client that
    has not asked for all that it requires. -/
def requestExtensions (onMissing : List UInt16 → Option ServerLeave)
    (supportedExtensions requiredExtensions negotiatedExtensions : List UInt16)
    (msg : RequestExtensions) : ServerResult :=
  let supported := msg.requestedExtensions.filter (supportedExtensions.contains ·)
  let unsupported := msg.requestedExtensions.filter (!supportedExtensions.contains ·)
  let missingRequired := requiredExtensions.filter (!msg.requestedExtensions.contains ·)
  if supported.isEmpty || !missingRequired.isEmpty then
    match seq064K unsupported, seq064K missingRequired with
    | some us, some ms =>
      { negotiatedExtensions
        reply := some (.error ⟨msg.requestId, us, ms⟩)
        left := if missingRequired.isEmpty then none else onMissing missingRequired }
    | _, _ => { negotiatedExtensions, reply := none, left := some .shutdown }
  else
    match seq064K supported with
    | some ss =>
      { negotiatedExtensions := supported
        reply := some (.success ⟨msg.requestId, ss⟩)
        left := none }
    | none => { negotiatedExtensions := supported, reply := none, left := some .shutdown }

/-- The pool disconnects the client. -/
def Pool.handleRequestExtensions : List UInt16 → List UInt16 → List UInt16 → RequestExtensions →
    ServerResult :=
  requestExtensions fun missing => some (.clientDoesNotSupportRequiredExtensions missing)

/-- The JD-client logs that it must disconnect the client, and does not. -/
def Jdc.handleRequestExtensions : List UInt16 → List UInt16 → List UInt16 → RequestExtensions →
    ServerResult :=
  requestExtensions fun _ => none

/-! ## The client -/

inductive ClientKind where
  | translator
  | jdClient
deriving DecidableEq

inductive FallbackReason where
  | channelRecv
  /-- `Server does not support required extensions: {missing_required:?}` -/
  | general (missing : List UInt16)
  | requiredExtensionsNotSupported (missing : List UInt16)
  | serverRequiresUnsupportedExtensions (cannotSupport : List UInt16)
deriving DecidableEq

inductive ClientLeave where
  | fallback (reason : FallbackReason)
  | shutdown
  | panicked
deriving DecidableEq

/-- The request of `setup_connection`, if there is one. -/
def setupRequest (requestId : UInt16) (requiredExtensions : List UInt16) :
    Except ClientLeave (Option RequestExtensions) :=
  if requiredExtensions.isEmpty then .ok none
  else
    match seq064K requiredExtensions with
    | some requested => .ok (some ⟨requestId, requested⟩)
    | none => .error .shutdown

def Translator.setupRequest : List UInt16 → Except ClientLeave (Option RequestExtensions) :=
  Extensions.setupRequest 1

/-- `send_request_extensions`. -/
def Jdc.setupRequest : List UInt16 → Except ClientLeave (Option RequestExtensions) :=
  Extensions.setupRequest 0

/-- `handle_request_extensions_success`: the extensions that are stored. -/
def extensionsSuccess (tooFew : List UInt16 → FallbackReason) (requiredExtensions : List UInt16)
    (msg : RequestExtensionsSuccess) : Except ClientLeave (List UInt16) :=
  let missingRequired := requiredExtensions.filter (!msg.supportedExtensions.contains ·)
  if !missingRequired.isEmpty then .error (.fallback (tooFew missingRequired))
  else .ok msg.supportedExtensions

def Translator.handleRequestExtensionsSuccess : List UInt16 → RequestExtensionsSuccess →
    Except ClientLeave (List UInt16) :=
  extensionsSuccess .general

def Jdc.handleRequestExtensionsSuccess : List UInt16 → RequestExtensionsSuccess →
    Except ClientLeave (List UInt16) :=
  extensionsSuccess .requiredExtensionsNotSupported

/-- `handle_request_extensions_error`, the same in both clients: the next request, if there is one. -/
def handleRequestExtensionsError (build : Build) (supportedExtensions requiredExtensions : List UInt16)
    (msg : RequestExtensionsError) : Except ClientLeave (Option RequestExtensions) :=
  let missingRequired := requiredExtensions.filter (msg.unsupportedExtensions.contains ·)
  if !missingRequired.isEmpty then
    .error (.fallback (.requiredExtensionsNotSupported missingRequired))
  else if !msg.requiredExtensions.isEmpty then
    let canSupport := msg.requiredExtensions.filter (supportedExtensions.contains ·)
    let cannotSupport := msg.requiredExtensions.filter (!supportedExtensions.contains ·)
    if !cannotSupport.isEmpty then
      .error (.fallback (.serverRequiresUnsupportedExtensions cannotSupport))
    else
      match addU16 build msg.requestId 1, seq064K canSupport with
      | some requestId, some requested => .ok (some ⟨requestId, requested⟩)
      | _, _ => .error .panicked
  else .ok none

/-! ## Worker names on shares -/

structure Tlv where
  extensionType : UInt16
  fieldType : UInt8
  value : List UInt8
deriving DecidableEq

/-- What is used of the crates that write and read TLV fields. -/
structure TlvCrate where
  MAX_USER_IDENTITY_LENGTH : Nat
  TLV_FIELD_TYPE_USER_IDENTITY : UInt8
  /-- `UserIdentity::new`, then `to_tlv`. -/
  toTlv : String → Option Tlv
  /-- `UserIdentity::from_tlv`. -/
  fromTlv : Tlv → Option String
  /-- `parse_message_frame_with_tlvs`: the fields found behind a message, or an error. -/
  parseTlvs : List UInt16 → List Tlv → Option (Option (List Tlv))

/-- A crate that writes the text as it is. -/
def plainCrate : TlvCrate where
  MAX_USER_IDENTITY_LENGTH := 32
  TLV_FIELD_TYPE_USER_IDENTITY := 1
  toTlv name :=
    if name.utf8ByteSize ≤ 32 then
      some ⟨EXTENSION_TYPE_WORKER_HASHRATE_TRACKING, 1, name.toUTF8.data.toList⟩
    else none
  fromTlv t := String.fromUTF8? ⟨t.value.toArray⟩
  parseTlvs exts tlvs := some (some (tlvs.filter (exts.contains ·.extensionType)))

/-- `str::is_char_boundary`. -/
def isCharBoundary : List Char → Nat → Bool
  | _, 0 => true
  | [], _ + 1 => false
  | c :: cs, i + 1 => c.utf8Size ≤ i + 1 && isCharBoundary cs (i + 1 - c.utf8Size)

/-- The loop that goes down to a boundary. -/
def charBoundaryBelow (cs : List Char) : Nat → Nat
  | 0 => 0
  | i + 1 => if isCharBoundary cs (i + 1) then i + 1 else charBoundaryBelow cs i

/-- `&s[..i]`, at a boundary. -/
def sliceTo : List Char → Nat → List Char
  | _, 0 => []
  | [], _ + 1 => []
  | c :: cs, i + 1 => if c.utf8Size ≤ i + 1 then c :: sliceTo cs (i + 1 - c.utf8Size) else []

/-- The text of `tlv_user_identity_from_sv1_worker_name`. -/
def truncatedWorkerName (maxLength : Nat) (sv1WorkerName : String) : String :=
  if sv1WorkerName.utf8ByteSize ≤ maxLength then sv1WorkerName
  else
    String.ofList (sliceTo sv1WorkerName.toList (charBoundaryBelow sv1WorkerName.toList maxLength))

/-- The worker name that a share is to carry: the extension is negotiated and there is a name. -/
def attachedName (maxLength : Nat) (negotiatedExtensions : List UInt16)
    (sv1WorkerName : Option String) : Option String :=
  if negotiatedExtensions.contains EXTENSION_TYPE_WORKER_HASHRATE_TRACKING then
    (sv1WorkerName.filter (!·.isEmpty)).map (truncatedWorkerName maxLength)
  else none

/-- What `handle_submit_shares_extended` of the server makes of the fields of a share. -/
def readUserIdentity (crate : TlvCrate) (negotiatedExtensions : List UInt16)
    (tlvFields : Option (List Tlv)) : Option String :=
  if negotiatedExtensions.contains EXTENSION_TYPE_WORKER_HASHRATE_TRACKING then
    (tlvFields.bind fun tlvs =>
      tlvs.find? fun tlv =>
        tlv.extensionType = EXTENSION_TYPE_WORKER_HASHRATE_TRACKING &&
          tlv.fieldType = crate.TLV_FIELD_TYPE_USER_IDENTITY).bind crate.fromTlv
  else none

/-! ## One connection -/

/-- Who is at the two ends, and with what configuration. -/
structure Parties where
  build : Build
  crate : TlvCrate
  client : ClientKind
  clientSupported : List UInt16
  clientRequired : List UInt16
  server : ServerKind
  serverSupported : List UInt16
  serverRequired : List UInt16

/-- A translator that requires the extension, and a pool that requires it as well. -/
def workerNameParties : Parties where
  build := .wrapping
  crate := plainCrate
  client := .translator
  clientSupported := [2]
  clientRequired := [2]
  server := .pool
  serverSupported := [2, 3]
  serverRequired := [2]

inductive ClientFrame where
  | requestExtensions (m : RequestExtensions)
  | submitShares (sequenceNumber : Nat) (tlvs : List Tlv)
deriving DecidableEq

structure Session where
  clientNegotiated : List UInt16
  clientLeft : Option ClientLeave
  serverNegotiated : List UInt16
  serverLeft : Option ServerLeave
  connected : Bool
  /-- The connection is still in the map of the server's channel manager. -/
  registered : Bool
  toServer : List ClientFrame
  toManager : List (Nat × Option (List Tlv))
  toClient : List ServerFrame
  /-- The shares sent, each with the name that it is to carry. -/
  sent : List (Nat × Option String)
  /-- The shares handled by the server's channel manager, each with the name that was read. -/
  read : List (Nat × Option String)

inductive Action where
  /-- The task of the connection reads a frame. -/
  | serverReads
  /-- The channel manager of the server handles a share. -/
  | managerReads
  | clientReads
  /-- A share that was accepted by the client is sent on. -/
  | submit (sequenceNumber : Nat) (sv1WorkerName : Option String)
  /-- The connection ends; so many of the frames on their way still reach the two sides. -/
  | hangUp (toServer toClient : Nat)
  /-- `remove_downstream`, once the task of the connection has ended. -/
  | remove

namespace Session

def idle : Session :=
  { clientNegotiated := []
    clientLeft := none
    serverNegotiated := []
    serverLeft := none
    connected := true
    registered := true
    toServer := []
    toManager := []
    toClient := []
    sent := []
    read := [] }

variable (p : Parties)

def setup : Except ClientLeave (Option RequestExtensions) :=
  match p.client with
  | .translator => Translator.setupRequest p.clientRequired
  | .jdClient => Jdc.setupRequest p.clientRequired

/-- After the answer to `SetupConnection`. -/
def start : Session :=
  match setup p with
  | .ok none => idle
  | .ok (some m) => { idle with toServer := [.requestExtensions m] }
  | .error e => { idle with clientLeft := some e }

def answer (negotiated : List UInt16) (m : RequestExtensions) : ServerResult :=
  match p.server with
  | .pool => Pool.handleRequestExtensions p.serverSupported p.serverRequired negotiated m
  | .jdClient => Jdc.handleRequestExtensions p.serverSupported p.serverRequired negotiated m

def onSuccess (m : RequestExtensionsSuccess) : Except ClientLeave (List UInt16) :=
  match p.client with
  | .translator => Translator.handleRequestExtensionsSuccess p.clientRequired m
  | .jdClient => Jdc.handleRequestExtensionsSuccess p.clientRequired m

def onError (m : RequestExtensionsError) : Except ClientLeave (Option RequestExtensions) :=
  handleRequestExtensionsError p.build p.clientSupported p.clientRequired m

/-- What the client puts on the wire; after the end of the connection it is lost. -/
def sendToServer (s : Session) (f : ClientFrame) : Session :=
  if s.connected then { s with toServer := s.toServer ++ [f] } else s

/-- The reply of the server: its error is returned once the reply is queued, and a reply that
    cannot be queued is an error itself. -/
def sendReply (s : Session) (reply : Option ServerFrame) (left : Option ServerLeave) : Session :=
  match reply with
  | none => { s with serverLeft := left }
  | some f =>
    if s.connected then { s with toClient := s.toClient ++ [f], serverLeft := left }
    else { s with serverLeft := some .channelErrorSender }

def serverReads (s : Session) : Session :=
  match s.serverLeft, s.toServer with
  | some _, _ => s
  | none, [] => if s.connected then s else { s with serverLeft := some .channelRecv }
  | none, .requestExtensions m :: rest =>
    let r := answer p s.serverNegotiated m
    sendReply { s with toServer := rest, serverNegotiated := r.negotiatedExtensions } r.reply r.left
  | none, .submitShares n tlvs :: rest =>
    match p.crate.parseTlvs s.serverNegotiated tlvs with
    | some fields => { s with toServer := rest, toManager := s.toManager ++ [(n, fields)] }
    | none => { s with toServer := rest, serverLeft := some .parserError }

def managerReads (s : Session) : Session :=
  match s.toManager with
  | [] => s
  | (n, fields) :: rest =>
    if s.registered then
      { s with
        toManager := rest
        read := s.read ++ [(n, readUserIdentity p.crate s.serverNegotiated fields)] }
    else { s with toManager := rest }

def clientReads (s : Session) : Session :=
  match s.clientLeft, s.toClient with
  | some _, _ => s
  | none, [] => if s.connected then s else { s with clientLeft := some (.fallback .channelRecv) }
  | none, .success m :: rest =>
    match onSuccess p m with
    | .ok negotiated => { s with toClient := rest, clientNegotiated := negotiated }
    | .error e => { s with toClient := rest, clientLeft := some e }
  | none, .error m :: rest =>
    match onError p m with
    | .ok none => { s with toClient := rest }
    | .ok (some m') => sendToServer { s with toClient := rest } (.requestExtensions m')
    | .error e => { s with toClient := rest, clientLeft := some e }

/-- The fields with which the share is sent; only the translator writes any. -/
def shareTlvs (s : Session) (sv1WorkerName : Option String) :
    Option (Option String × List Tlv) :=
  match p.client with
  | .jdClient => some (none, [])
  | .translator =>
    match attachedName p.crate.MAX_USER_IDENTITY_LENGTH s.clientNegotiated sv1WorkerName with
    | none => some (none, [])
    | some name => (p.crate.toTlv name).map fun tlv => (some name, [tlv])

def submit (s : Session) (sequenceNumber : Nat) (sv1WorkerName : Option String) : Session :=
  match s.clientLeft with
  | some _ => s
  | none =>
    match shareTlvs p s sv1WorkerName with
    | some (name, tlvs) =>
      sendToServer { s with sent := s.sent ++ [(sequenceNumber, name)] }
        (.submitShares sequenceNumber tlvs)
    | none => { s with clientLeft := some .shutdown }

def hangUp (s : Session) (toServer toClient : Nat) : Session :=
  { s with
    connected := false
    toServer := s.toServer.take toServer
    toClient := s.toClient.take toClient }

def step (s : Session) : Action → Session
  | .serverReads => serverReads p s
  | .managerReads => managerReads p s
  | .clientReads => clientReads p s
  | .submit n name => submit p s n name
  | .hangUp toServer toClient => hangUp s toServer toClient
  | .remove => if s.serverLeft.isSome then { s with registered := false } else s

/-- The state after a run of the connection. -/
def after (as : List Action) : Session := Runs.run (step p) (start p) as

end Session

end Sv2Apps.Extensions
