/-
  Jds/TokenManagement.lean
  ========================
  **The token manager** — `token_management/mod.rs`.  Allocated tokens are handed out
  in `AllocateMiningJobToken.Success`, active ones in `DeclareMiningJob.Success`; both
  kinds are numbered by one 64-bit counter.

  Every operation that the source performs under one map guard is one function here:
  `activate` is the removal of the allocated entry (`activateRemove`) and, later, the
  insertion of the active one (`activateInsert`).  `retain` visits the shards of a map
  one after another, so the sweeps take the set of keys of the shard they visit.
-/
import Sv2Apps.Messages
import Sv2Apps.Lib.KeyMap

namespace Sv2Apps.Jds

/-- Nanoseconds of a monotonic clock. -/
abbrev Instant := Nat

def durationFromSecs (s : Nat) : Nat := s * 1000000000

def temporaryTimeoutMultiplier : Nat := 144
def allocatedTokenTimeoutSecs : Nat := temporaryTimeoutMultiplier * 60 * 10
def activeTokenTimeoutSecs : Nat := 10

structure AllocatedTokenData where
  allocatedAt : Instant
  owner : DownstreamId
  userIdentity : Identity
deriving DecidableEq

structure ActiveTokenData where
  allocatedToken : JdToken
  activatedAt : Instant
  owner : DownstreamId
  userIdentity : Identity
deriving DecidableEq

structure TokenManager where
  tokenFactory : UInt64
  allocatedTokens : KeyMap JdToken AllocatedTokenData
  activeTokens : KeyMap JdToken ActiveTokenData

namespace TokenManager

def new : TokenManager := ⟨0, ∅, ∅⟩

/-- A new token, bound to the given downstream and identity.  Only the message loop takes
    numbers from the counter, so nothing can come between taking one and the insertion. -/
def allocate (tm : TokenManager) (downstreamId : DownstreamId) (userIdentity : Identity)
    (now : Instant) : JdToken × TokenManager :=
  (tm.tokenFactory,
    { tm with
      tokenFactory := tm.tokenFactory + 1
      allocatedTokens := tm.allocatedTokens.insert tm.tokenFactory
        ⟨now, downstreamId, userIdentity⟩ })

def deallocate (tm : TokenManager) (token : JdToken) : TokenManager :=
  { tm with allocatedTokens := tm.allocatedTokens.erase token }

def isAllocated (tm : TokenManager) (token : JdToken) (downstreamId : DownstreamId) : Bool :=
  match tm.allocatedTokens.lookup token with
  | some data => data.owner == downstreamId
  | none => false

/-- First half of `activate`: take the allocated entry if `downstreamId` owns it. -/
def activateRemove (tm : TokenManager) (allocatedToken : JdToken)
    (downstreamId : DownstreamId) : Option (AllocatedTokenData × TokenManager) :=
  (KeyMap.removeIf allocatedToken (fun data => data.owner == downstreamId)
    tm.allocatedTokens).map fun p => (p.1, { tm with allocatedTokens := p.2 })

/-- Second half of `activate`: number the active token and insert it. -/
def activateInsert (tm : TokenManager) (allocatedToken : JdToken)
    (downstreamId : DownstreamId) (data : AllocatedTokenData) (now : Instant) :
    JdToken × TokenManager :=
  (tm.tokenFactory,
    { tm with
      tokenFactory := tm.tokenFactory + 1
      activeTokens := tm.activeTokens.insert tm.tokenFactory
        ⟨allocatedToken, now, downstreamId, data.userIdentity⟩ })

def deactivate (tm : TokenManager) (activeToken : JdToken) : TokenManager :=
  { tm with activeTokens := tm.activeTokens.erase activeToken }

def allocatedFromActive (tm : TokenManager) (activeToken : JdToken) :
    Option ActiveTokenData :=
  tm.activeTokens.lookup activeToken

/-- `remove_downstream` on one shard of the allocated tokens. -/
def removeDownstreamAllocated (tm : TokenManager) (shard : JdToken → Bool)
    (downstreamId : DownstreamId) : TokenManager :=
  { tm with allocatedTokens :=
      KeyMap.retain (fun t data => !shard t || data.owner != downstreamId) tm.allocatedTokens }

/-- `remove_downstream` on one shard of the active tokens. -/
def removeDownstreamActive (tm : TokenManager) (shard : JdToken → Bool)
    (downstreamId : DownstreamId) : TokenManager :=
  { tm with activeTokens :=
      KeyMap.retain (fun t data => !shard t || data.owner != downstreamId) tm.activeTokens }

/-- The janitor on one shard of the allocated tokens. -/
def janitorAllocated (tm : TokenManager) (shard : JdToken → Bool) (now : Instant) :
    TokenManager :=
  { tm with allocatedTokens := tm.allocatedTokens |> KeyMap.retain fun t data =>
      !shard t || decide (now - data.allocatedAt ≤ durationFromSecs allocatedTokenTimeoutSecs) }

/-- The janitor on one shard of the active tokens. -/
def janitorActive (tm : TokenManager) (shard : JdToken → Bool) (now : Instant) :
    TokenManager :=
  { tm with activeTokens := tm.activeTokens |> KeyMap.retain fun t data =>
      !shard t || decide (now - data.activatedAt ≤ durationFromSecs activeTokenTimeoutSecs) }

/-! ## What each operation does -/

theorem isAllocated_iff {tm : TokenManager} {t : JdToken} {d : DownstreamId} :
    tm.isAllocated t d = true ↔ ∃ data, tm.allocatedTokens.lookup t = some data ∧
      data.owner = d := by
  unfold isAllocated
  cases tm.allocatedTokens.lookup t with
  | none => simp
  | some data => simp

theorem activateRemove_eq_some {tm tm' : TokenManager} {t : JdToken} {d : DownstreamId}
    {data : AllocatedTokenData} (h : tm.activateRemove t d = some (data, tm')) :
    tm.allocatedTokens.lookup t = some data ∧ data.owner = d ∧
      tm' = { tm with allocatedTokens := tm.allocatedTokens.erase t } := by
  obtain ⟨⟨data', m⟩, hrem, heq⟩ := Option.map_eq_some_iff.mp h
  cases heq
  obtain ⟨hlook, howner, rfl⟩ := KeyMap.removeIf_eq_some.mp hrem
  exact ⟨hlook, by simpa using howner, rfl⟩

end TokenManager

end Sv2Apps.Jds
