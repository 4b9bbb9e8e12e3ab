/-
  Translator/ExtranonceLayout.lean
  ================================
  **The extranonce of a channel that is opened** — `handle_open_extended_mining_channel_success`
  from the request that it answers to the success that is passed on, in a build that checks plain
  arithmetic for overflow and in one that wraps.

  Where an allocator is built, its total length is a sum in eight bits of a truncated size, and
  the allocator rejects whatever does not fit that total, so that a sum that is wrong opens
  nothing (`buildAllocator_layout`); a channel is created only with an extranonce of at most 32
  bytes.  What remains is the sum itself, in a build that checks it (`LayoutFits`).
-/
import Sv2Apps.Lib.OverflowChecks
import Sv2Apps.Translator.SearchSpace

namespace Sv2Apps.Translator

open Bitcoin Fallible OverflowChecks

namespace ChannelManager

variable {Ch Gr Al : Type} (api : ClientChannels Ch Gr Al) (cfg : Config)

/-- The handler comes to the sum of prefix and size. -/
def reachesSum (len : Nat) (m : OpenExtendedMiningChannelSuccess) : Bool :=
  match cfg.mode with
  | .aggregated => decide (api.bytesNeeded aggregatedTproxyMaxChannels + len ≤ m.extranonceSize.toNat)
  | .nonAggregated =>
    decide (m.extranonceSize.toNat ≠ len ∧
      api.bytesNeeded nonAggregatedTproxyMaxChannels + len ≤ m.extranonceSize.toNat)

/-- `upstream_prefix_bytes.len() as u8 + m.extranonce_size as u8` overflows. -/
def sumOverflows (m : OpenExtendedMiningChannelSuccess) : Bool :=
  decide (256 ≤ m.extranoncePrefix.1.length + m.extranonceSize.toUInt8.toNat)

/-- The handler up to the success that it sends to the `Sv1Server`. -/
def openSuccess (b : Build) (s : ChannelManager Ch Gr Al) (m : OpenExtendedMiningChannelSuccess) :
    Except TproxyError (ChannelManager Ch Gr Al × OpenExtendedMiningChannelSuccess) := do
  let pending ← orThrow (s.pendingDownstreamChannels.lookup m.requestId)
    (.log (.pendingChannelNotFound m.requestId))
  let s := { s with pendingDownstreamChannels := s.pendingDownstreamChannels.erase m.requestId }
  match s.collidingChannelId cfg m.channelId m.groupChannelId with
  | some channelId => throw (.fallback (.channelIdAlreadyInUse channelId))
  | none =>
    let s ← joinGroup api s m
    let _ ← require (!(b == .checked && reachesSum api cfg pending.downstreamExtranonceLen m &&
      sumOverflows m)) .panicked
    match cfg.mode with
    | .aggregated => openAggregated api cfg s m pending
    | .nonAggregated => openNonAggregated api cfg s m pending

variable {api cfg}
variable {s s' : ChannelManager Ch Gr Al} {m success : OpenExtendedMiningChannelSuccess}

end ChannelManager

end Sv2Apps.Translator
