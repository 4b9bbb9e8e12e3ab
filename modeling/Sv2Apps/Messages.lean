/-
  Messages.lean
  =============
  **Messages of the job declaration and mining protocols** that the job declarator
  server and the pool exchange with their clients, with the fields the handlers read.
  Byte-string fields (`B0255`, `B064K`) are byte lists; a text field is the text that
  `as_utf8_or_hex` gives for it.
-/
import Sv2Apps.Bitcoin

namespace Sv2Apps

open Bitcoin ByteCodec

abbrev DownstreamId := Nat
abbrev RequestId := UInt32
abbrev ChannelId := UInt32
abbrev JdToken := UInt64
/-- The text of a user identity. -/
abbrev Identity := String

/-- `token.to_le_bytes()`. -/
def tokenBytes (t : JdToken) : Bytes := leBytes 8 t.toNat

/-- `u64::from_le_bytes` on the eight bytes of a token field; any other length is refused. -/
def parseToken (b : Bytes) : Option JdToken :=
  if b.length = 8 then some (UInt64.ofNat (ofLe b)) else none

structure AllocateMiningJobToken where
  userIdentifier : Identity
  requestId : RequestId
deriving DecidableEq

structure DeclareMiningJob where
  requestId : RequestId
  miningJobToken : Bytes
  version : UInt32
  coinbaseTxPrefix : Bytes
  coinbaseTxSuffix : Bytes
  wtxidList : List Hash256
deriving DecidableEq

structure ProvideMissingTransactionsSuccess where
  requestId : RequestId
  transactionList : List Bytes
deriving DecidableEq

structure SetCustomMiningJob where
  channelId : ChannelId
  requestId : RequestId
  token : Bytes
  version : UInt32
  prevHash : Hash256
  ntimeStart : UInt32
  nbits : UInt32
  coinbaseTxVersion : UInt32
  coinbasePrefix : Bytes
  coinbaseTxInputNSequence : UInt32
  coinbaseTxOutputs : Bytes
  coinbaseTxLocktime : UInt32
  merklePath : List Hash256
deriving DecidableEq

/-- The error codes of `DeclareMiningJobError`; `core` is one that the node's validator chose. -/
inductive DeclareMiningJobErrorCode where
  | invalidMiningJobToken
  | missingTxs
  | internalError
  | invalidCoinbaseTx
  | invalidCoinbaseTxInput
  | staleChainTip
  | core (code : String)
deriving DecidableEq

/-- The error codes of `SetCustomMiningJobError`. -/
inductive SetCustomMiningJobErrorCode where
  | invalidMiningJobToken
  | jobNotYetValidated
  | staleChainTip
  | invalidNbits
  | invalidVersion
  | invalidCoinbaseTx
  | invalidCoinbaseTxVersion
  | invalidCoinbasePrefix
  | invalidCoinbaseTxInputNSequence
  | invalidCoinbaseTxOutputs
  | invalidCoinbaseTxLocktime
  | invalidMerklePath
  | invalidChannelId
  | jdNotSupported
deriving DecidableEq

/-- What the server sends to a job declaration client. -/
inductive JobDeclarationAnswer where
  | allocateMiningJobTokenSuccess (requestId : RequestId) (token : JdToken)
      (coinbaseOutputs : Bytes)
  | declareMiningJobSuccess (requestId : RequestId) (newToken : JdToken)
  | declareMiningJobError (requestId : RequestId) (code : DeclareMiningJobErrorCode)
  | provideMissingTransactions (requestId : RequestId) (unknownTxPositionList : List UInt16)
deriving DecidableEq

end Sv2Apps
