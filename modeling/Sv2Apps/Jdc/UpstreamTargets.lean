/-
  Jdc/UpstreamTargets.lean
  ========================
  **The target asked of the pool** — `run_vardiff` and `handle_update_channel` both send an
  `UpdateChannel` with the smallest target of all open channels.  The second compares targets as
  numbers; the first compares their little-endian bytes, as arrays.

  The channels and the vardiff algorithm come from `channels_sv2` and are parameters (`Env`), as
  is the arithmetic of hashrates, which are floating point numbers.  A target is a number of 256
  bits.
-/
import Sv2Apps.Jdc.Channels
import Sv2Apps.Lib.LeastElement

namespace Sv2Apps.Jdc.UpstreamTargets

open Bitcoin ByteCodec LeastElement

/-! ## Targets -/

abbrev Target := { n : Nat // n < 2 ^ 256 }

def Target.toLeBytes (t : Target) : Bytes := leBytes 32 t.val

/-- `Target::from_le_bytes`, for 32 bytes. -/
def Target.fromLeBytes (b : Bytes) : Target :=
  ⟨ofLe b % 2 ^ 256, Nat.mod_lt _ (by decide)⟩

/-- `[0xff; 32]`. -/
def allOnes : Bytes := List.replicate 32 0xff

/-- Byte arrays are compared from their first byte on. -/
instance : Min Bytes := Min.leftLeaningOfLE Bytes

@[simp] theorem Target.length_toLeBytes (t : Target) : t.toLeBytes.length = 32 :=
  length_leBytes 32 t.val

theorem Target.toLeBytes_fromLeBytes {b : Bytes} (h : b.length = 32) :
    (fromLeBytes b).toLeBytes = b := by
  have hlt : ofLe b < 2 ^ 256 := by
    have := ofLe_lt b
    rwa [h, show (256 : Nat) ^ 32 = 2 ^ 256 by decide] at this
  have hbytes := leBytes_ofLe b
  rw [h] at hbytes
  show leBytes 32 (ofLe b % 2 ^ 256) = b
  rw [Nat.mod_eq_of_lt hlt]
  exact hbytes

/-- As a number the all-ones target is the largest. -/
theorem Target.le_allOnes (t : Target) : t ≤ fromLeBytes allOnes := by
  have hval : (fromLeBytes allOnes).val = 2 ^ 256 - 1 := by decide
  have ht : t.val < 2 ^ 256 := t.property
  show t.val ≤ (fromLeBytes allOnes).val
  rw [hval]
  omega

theorem le_replicate (b : Bytes) : b ≤ List.replicate b.length 0xff := by
  induction b with
  | nil => exact Std.le_refl _
  | cons x b ih =>
    rw [List.length_cons, List.replicate_succ, List.cons_le_cons_iff]
    by_cases hx : x = 0xff
    · exact Or.inr ⟨hx, ih⟩
    · left
      have hlt : x.toNat < 256 := x.toNat_lt
      have hne : x.toNat ≠ 255 := fun h => hx (UInt8.toNat_inj.mp h)
      show x.toNat < 255
      omega

/-- As bytes it comes last too. -/
theorem Target.toLeBytes_le_allOnes (t : Target) : t.toLeBytes ≤ allOnes := by
  have h := le_replicate t.toLeBytes
  rwa [length_toLeBytes] at h

/-! ## The state -/

/-- A standard or extended channel of a miner. -/
structure Channel (F32 : Type) where
  nominalHashrate : F32
  target : Target
  sharesPerMinute : F32
  stableHashrate : Bool

inductive ChannelKind where
  | standard
  | extended
deriving DecidableEq

/-- The errors of `update_channel`, with the code that two of them carry. -/
inductive UpdateChannelFailure where
  | invalidNominalHashrate (code : String)
  | invalidMaxTarget (code : String)
  | other

def UpdateChannelFailure.errCode : UpdateChannelFailure → String
  | .invalidNominalHashrate code => code
  | .invalidMaxTarget code => code
  | .other => "internal-error"

structure Downstream (F32 : Type) where
  standardChannels : KeyMap ChannelId (Channel F32)
  extendedChannels : KeyMap ChannelId (Channel F32)

structure UpstreamChannel (F32 : Type) where
  channelId : ChannelId
  nominalHashrate : F32

structure UpdateChannel (F32 : Type) where
  channelId : ChannelId
  nominalHashRate : F32
  maxTarget : Bytes
deriving DecidableEq

inductive Message (F32 : Type) where
  | setTarget (d : DownstreamId) (channelId : ChannelId) (target : Bytes)
  | updateChannelError (d : DownstreamId) (channelId : ChannelId) (errorCode : String)
  | updateChannel (u : UpdateChannel F32)
deriving DecidableEq

/-- What comes from outside: hashrates, `VardiffState` and the channels. -/
structure Env (F32 Vardiff : Type) where
  zero : F32
  add : F32 → F32 → F32
  /-- `try_vardiff`: the new hashrate, if any; `none` when it fails. -/
  tryVardiff : Vardiff → F32 → Target → F32 → Vardiff × Option (Option F32)
  /-- `update_channel`: the channel it leaves, and the error. -/
  updateChannel : ChannelKind → Channel F32 → F32 → Option Target →
    Channel F32 × Option UpdateChannelFailure
  /-- `ERROR_CODE_UPDATE_CHANNEL_INVALID_CHANNEL_ID`. -/
  invalidChannelId : String

structure ChannelManager (F32 Vardiff : Type) where
  downstream : KeyMap DownstreamId (Downstream F32)
  vardiff : KeyMap (DownstreamId × ChannelId) Vardiff
  upstreamChannel : Option (UpstreamChannel F32)

variable {F32 Vardiff : Type}

/-- The channels of a miner, standard ones first. -/
def Downstream.channels (ds : Downstream F32) : List (Channel F32) :=
  ds.standardChannels.entries.map (·.2) ++ ds.extendedChannels.entries.map (·.2)

namespace ChannelManager

/-- The channels that `for_each` visits. -/
def openChannels (s : ChannelManager F32 Vardiff) : List (Channel F32) :=
  s.downstream.entries.flatMap fun e => e.2.channels

def openTargets (s : ChannelManager F32 Vardiff) : List Target :=
  s.openChannels.map Channel.target

def downstreamHashrate (env : Env F32 Vardiff) (s : ChannelManager F32 Vardiff) : F32 :=
  s.openChannels.foldl (fun sum c => env.add sum c.nominalHashrate) env.zero

/-! ## The vardiff cycle -/

/-- What `run_vardiff_on_standard_channel` and `run_vardiff_on_extended_channel` both do. -/
def runVardiffOnChannel (env : Env F32 Vardiff) (kind : ChannelKind) (d : DownstreamId)
    (channelId : ChannelId) (c : Channel F32) (v : Vardiff) :
    Channel F32 × Vardiff × List (Message F32) :=
  match env.tryVardiff v c.nominalHashrate c.target c.sharesPerMinute with
  | (v', none) => (c, v', [])
  | (v', some none) => ({ c with stableHashrate := true }, v', [])
  | (v', some (some newHashrate)) =>
    match env.updateChannel kind { c with stableHashrate := false } newHashrate none with
    | (c', none) => (c', v', [.setTarget d channelId c'.target.toLeBytes])
    | (c', some _) => (c', v', [])

def runVardiffOnStandardChannel (env : Env F32 Vardiff) :=
  runVardiffOnChannel env .standard

def runVardiffOnExtendedChannel (env : Env F32 Vardiff) :=
  runVardiffOnChannel env .extended

/-- `with_mut` on the channel, when it is in the map. -/
def withChannel (run : Channel F32 → Vardiff → Channel F32 × Vardiff × List (Message F32))
    (channels : KeyMap ChannelId (Channel F32)) (channelId : ChannelId) (v : Vardiff) :
    KeyMap ChannelId (Channel F32) × Vardiff × List (Message F32) :=
  match channels.lookup channelId with
  | none => (channels, v, [])
  | some c =>
    let (c', v', messages) := run c v
    (KeyMap.modify channelId (fun _ => c') channels, v', messages)

/-- One key of the loop of `run_vardiff`. -/
def visitVardiff (env : Env F32 Vardiff) (s : ChannelManager F32 Vardiff)
    (key : DownstreamId × ChannelId) : ChannelManager F32 Vardiff × List (Message F32) :=
  match s.downstream.lookup key.1 with
  | none => ({ s with vardiff := s.vardiff.erase key }, [])
  | some ds =>
    match s.vardiff.lookup key with
    | none => (s, [])
    | some v =>
      let (standard, v₁, messages₁) :=
        withChannel (runVardiffOnStandardChannel env key.1 key.2) ds.standardChannels key.2 v
      let (extended, v₂, messages₂) :=
        withChannel (runVardiffOnExtendedChannel env key.1 key.2) ds.extendedChannels key.2 v₁
      ({ s with
          downstream := KeyMap.modify key.1 (fun _ => ⟨standard, extended⟩) s.downstream
          vardiff := KeyMap.modify key (fun _ => v₂) s.vardiff }, messages₁ ++ messages₂)

/-- The loop of `run_vardiff` over the keys it has read. -/
def visitVardiffs (env : Env F32 Vardiff) :
    ChannelManager F32 Vardiff → List (DownstreamId × ChannelId) →
      ChannelManager F32 Vardiff × List (Message F32)
  | s, [] => (s, [])
  | s, key :: keys =>
    let (s₁, messages₁) := s.visitVardiff env key
    let (s₂, messages₂) := s₁.visitVardiffs env keys
    (s₂, messages₁ ++ messages₂)

/-- The channel to the pool takes the hashrate; the pool is asked for the target. -/
def sendUpstream (s : ChannelManager F32 Vardiff) (hashrate : F32) (maxTarget : Bytes)
    (messages : List (Message F32)) : ChannelManager F32 Vardiff × List (Message F32) :=
  match s.upstreamChannel with
  | none => (s, messages)
  | some up =>
    ({ s with upstreamChannel := some { up with nominalHashrate := hashrate } },
      messages ++ [.updateChannel ⟨up.channelId, hashrate, maxTarget⟩])

/-- `min_target` of `run_vardiff`: the bytes are compared. -/
def vardiffMinTarget (s : ChannelManager F32 Vardiff) : Bytes :=
  s.openTargets.foldl (fun minTarget target => min target.toLeBytes minTarget) allOnes

def runVardiff (env : Env F32 Vardiff) (s : ChannelManager F32 Vardiff) :
    ChannelManager F32 Vardiff × List (Message F32) :=
  let (s, messages) := s.visitVardiffs env s.vardiff.keys
  if messages.isEmpty then (s, [])
  else s.sendUpstream (s.downstreamHashrate env) s.vardiffMinTarget messages

/-! ## A miner's request -/

/-- The answer to a miner whose channel was to be updated. -/
def updateAnswer (d : DownstreamId) (channelId : ChannelId) (c : Channel F32) :
    Option UpdateChannelFailure → Message F32
  | none => .setTarget d channelId c.target.toLeBytes
  | some e =>
    if e.errCode ≠ "internal-error" then .updateChannelError d channelId e.errCode
    else .setTarget d channelId c.target.toLeBytes

/-- `with_mut` on the channel the miner names, when it is in the map. -/
def updateIn (env : Env F32 Vardiff) (kind : ChannelKind) (d : DownstreamId)
    (msg : UpdateChannel F32) (channels : KeyMap ChannelId (Channel F32)) :
    Option (KeyMap ChannelId (Channel F32) × Message F32) :=
  (channels.lookup msg.channelId).map fun c =>
    let (c', failure) := env.updateChannel kind c msg.nominalHashRate
      (some (Target.fromLeBytes msg.maxTarget))
    (KeyMap.modify msg.channelId (fun _ => c') channels, updateAnswer d msg.channelId c' failure)

/-- `min_target` of `handle_update_channel`: the numbers are compared. -/
def updateMinTarget (s : ChannelManager F32 Vardiff) : Target :=
  s.openTargets.foldl (fun minTarget target => min target minTarget) (Target.fromLeBytes allOnes)

/-- The miner's channel is updated, if it has one with this id. -/
def updateDownstream (env : Env F32 Vardiff) (d : DownstreamId) (msg : UpdateChannel F32)
    (ds : Downstream F32) : Downstream F32 × Message F32 :=
  match updateIn env .standard d msg ds.standardChannels with
  | some (standard, answer) => ({ ds with standardChannels := standard }, answer)
  | none =>
    match updateIn env .extended d msg ds.extendedChannels with
    | some (extended, answer) => ({ ds with extendedChannels := extended }, answer)
    | none => (ds, .updateChannelError d msg.channelId env.invalidChannelId)

/-- `none` when the miner is not registered. -/
def handleUpdateChannel (env : Env F32 Vardiff) (s : ChannelManager F32 Vardiff) (d : DownstreamId)
    (msg : UpdateChannel F32) : Option (ChannelManager F32 Vardiff × List (Message F32)) :=
  (s.downstream.lookup d).map fun ds =>
    let (ds', answer) := updateDownstream env d msg ds
    let s := { s with downstream := KeyMap.modify d (fun _ => ds') s.downstream }
    s.sendUpstream (s.downstreamHashrate env) s.updateMinTarget.toLeBytes [answer]

/-! ## What the two messages carry -/

theorem sendUpstream_downstream (s : ChannelManager F32 Vardiff) (hashrate : F32)
    (maxTarget : Bytes) (messages : List (Message F32)) :
    (s.sendUpstream hashrate maxTarget messages).1.downstream = s.downstream := by
  unfold sendUpstream
  split <;> rfl

theorem sendUpstream_updateChannel {s : ChannelManager F32 Vardiff} {hashrate : F32}
    {maxTarget : Bytes} {messages : List (Message F32)} {u : UpdateChannel F32}
    (h : .updateChannel u ∈ (s.sendUpstream hashrate maxTarget messages).2)
    (hno : .updateChannel u ∉ messages) : u.maxTarget = maxTarget := by
  unfold sendUpstream at h
  split at h
  · exact absurd h hno
  · rcases List.mem_append.mp h with hin | hlast
    · exact absurd hin hno
    · cases List.mem_singleton.mp hlast
      rfl

theorem runVardiffOnChannel_messages (env : Env F32 Vardiff) (kind : ChannelKind)
    (d : DownstreamId) (channelId : ChannelId) (c : Channel F32) (v : Vardiff)
    (u : UpdateChannel F32) :
    .updateChannel u ∉ (runVardiffOnChannel env kind d channelId c v).2.2 := by
  unfold runVardiffOnChannel
  split
  · simp
  · simp
  · split <;> simp

theorem withChannel_messages
    {run : Channel F32 → Vardiff → Channel F32 × Vardiff × List (Message F32)}
    {u : UpdateChannel F32} (hrun : ∀ c v, .updateChannel u ∉ (run c v).2.2)
    (channels : KeyMap ChannelId (Channel F32)) (channelId : ChannelId) (v : Vardiff) :
    .updateChannel u ∉ (withChannel run channels channelId v).2.2 := by
  unfold withChannel
  split
  · simp
  · exact hrun _ _

theorem visitVardiff_messages (env : Env F32 Vardiff) (s : ChannelManager F32 Vardiff)
    (key : DownstreamId × ChannelId) (u : UpdateChannel F32) :
    .updateChannel u ∉ (s.visitVardiff env key).2 := by
  unfold visitVardiff
  split
  · simp
  · split
    · simp
    · intro h
      rcases List.mem_append.mp h with h | h
      · exact withChannel_messages (runVardiffOnChannel_messages env .standard _ _ · · u) _ _ _ h
      · exact withChannel_messages (runVardiffOnChannel_messages env .extended _ _ · · u) _ _ _ h

theorem visitVardiffs_messages (env : Env F32 Vardiff) (s : ChannelManager F32 Vardiff)
    (keys : List (DownstreamId × ChannelId)) (u : UpdateChannel F32) :
    .updateChannel u ∉ (s.visitVardiffs env keys).2 := by
  induction keys generalizing s with
  | nil => simp [visitVardiffs]
  | cons key keys ih =>
    intro h
    rcases List.mem_append.mp h with h | h
    · exact s.visitVardiff_messages env key u h
    · exact ih _ h

/-- The open channels are those of the state that the cycle leaves. -/
theorem runVardiff_updateChannel {env : Env F32 Vardiff} {s t : ChannelManager F32 Vardiff}
    {messages : List (Message F32)} {u : UpdateChannel F32} (h : s.runVardiff env = (t, messages))
    (hu : .updateChannel u ∈ messages) : u.maxTarget = t.vardiffMinTarget := by
  unfold runVardiff at h
  split at h
  next s₁ messages₁ hvisits =>
    split at h
    · cases h
      simp at hu
    · have hno : .updateChannel u ∉ messages₁ := by
        have := s.visitVardiffs_messages env s.vardiff.keys u
        rwa [hvisits] at this
      have hopen : t.downstream = s₁.downstream := by
        have := s₁.sendUpstream_downstream (s₁.downstreamHashrate env) s₁.vardiffMinTarget messages₁
        rwa [h] at this
      have hsent : .updateChannel u ∈ (s₁.sendUpstream (s₁.downstreamHashrate env)
          s₁.vardiffMinTarget messages₁).2 := by
        rw [h]
        exact hu
      rw [sendUpstream_updateChannel hsent hno]
      unfold vardiffMinTarget openTargets openChannels
      rw [hopen]

theorem updateAnswer_ne (d : DownstreamId) (channelId : ChannelId) (c : Channel F32)
    (failure : Option UpdateChannelFailure) (u : UpdateChannel F32) :
    updateAnswer d channelId c failure ≠ .updateChannel u := by
  unfold updateAnswer
  split
  · simp
  · split <;> simp

theorem updateIn_answer_ne {env : Env F32 Vardiff} {kind : ChannelKind} {d : DownstreamId}
    {msg : UpdateChannel F32} {channels channels' : KeyMap ChannelId (Channel F32)}
    {answer : Message F32} (h : updateIn env kind d msg channels = some (channels', answer))
    (u : UpdateChannel F32) : answer ≠ .updateChannel u := by
  obtain ⟨c, -, heq⟩ := Option.map_eq_some_iff.mp h
  cases heq
  exact updateAnswer_ne _ _ _ _ u

theorem updateDownstream_answer_ne (env : Env F32 Vardiff) (d : DownstreamId)
    (msg : UpdateChannel F32) (ds : Downstream F32) (u : UpdateChannel F32) :
    (updateDownstream env d msg ds).2 ≠ .updateChannel u := by
  unfold updateDownstream
  split
  next h => exact updateIn_answer_ne h u
  next =>
    split
    next h => exact updateIn_answer_ne h u
    next => simp

theorem handleUpdateChannel_updateChannel {env : Env F32 Vardiff} {s t : ChannelManager F32 Vardiff}
    {d : DownstreamId} {msg u : UpdateChannel F32} {messages : List (Message F32)}
    (h : s.handleUpdateChannel env d msg = some (t, messages)) (hu : .updateChannel u ∈ messages) :
    u.maxTarget = t.updateMinTarget.toLeBytes := by
  obtain ⟨ds, -, heq⟩ := Option.map_eq_some_iff.mp h
  dsimp only at heq
  generalize hs₁ : ({ s with downstream := _ } : ChannelManager F32 Vardiff) = s₁ at heq
  have hopen : t.downstream = s₁.downstream := by
    have := s₁.sendUpstream_downstream (s₁.downstreamHashrate env) s₁.updateMinTarget.toLeBytes
      [(updateDownstream env d msg ds).2]
    rwa [heq] at this
  have hsent : .updateChannel u ∈ (s₁.sendUpstream (s₁.downstreamHashrate env)
      s₁.updateMinTarget.toLeBytes [(updateDownstream env d msg ds).2]).2 := by
    rw [heq]
    exact hu
  rw [sendUpstream_updateChannel hsent]
  · unfold updateMinTarget openTargets openChannels
    rw [hopen]
  · intro hmem
    exact updateDownstream_answer_ne env d msg ds u (List.mem_singleton.mp hmem).symm

end ChannelManager

/-! ## The result -/

/-- The numerically smallest target, all-ones when there is none. -/
def IsSmallestTarget (targets : List Target) (t : Target) : Prop :=
  (targets = [] ∧ t = Target.fromLeBytes allOnes) ∨ IsLeast {x | x ∈ targets} t

/-- There is no target, or the smallest number among them also comes first as bytes. -/
def FirstInBothOrders (targets : List Target) : Prop :=
  targets = [] ∨
    ∃ t, IsLeast {x | x ∈ targets} t ∧ ∀ x ∈ targets, t.toLeBytes ≤ x.toLeBytes

/-- The all-ones target is never smaller than a target that is there. -/
theorem isSmallestTarget_of_isLeast {targets : List Target} {t : Target}
    (h : IsLeast {x | x ∈ Target.fromLeBytes allOnes :: targets} t) :
    IsSmallestTarget targets t := by
  cases targets with
  | nil => exact Or.inl ⟨rfl, List.mem_singleton.mp h.1⟩
  | cons y ys =>
    right
    refine ⟨?_, fun x hx => h.2 (List.mem_cons_of_mem _ hx)⟩
    rcases List.mem_cons.mp h.1 with rfl | hin
    · have hy : Target.fromLeBytes allOnes ≤ y :=
        h.2 (List.mem_cons_of_mem _ (List.mem_cons_self ..))
      have heq : Target.fromLeBytes allOnes = y := Std.le_antisymm hy y.le_allOnes
      rw [heq]
      exact List.mem_cons_self ..
    · exact hin

theorem firstInBothOrders_iff {targets : List Target} :
    FirstInBothOrders targets ↔
      ∃ t, IsLeast {x | x ∈ Target.fromLeBytes allOnes :: targets} t ∧
        ∀ x ∈ Target.fromLeBytes allOnes :: targets, t.toLeBytes ≤ x.toLeBytes := by
  have hones : (Target.fromLeBytes allOnes).toLeBytes = allOnes :=
    Target.toLeBytes_fromLeBytes (by decide)
  constructor
  · rintro (rfl | ⟨t, hleast, hbytes⟩)
    · refine ⟨Target.fromLeBytes allOnes, ⟨List.mem_cons_self .., ?_⟩, ?_⟩
      · intro x hx
        rw [List.mem_singleton.mp hx]
      · intro x hx
        rw [List.mem_singleton.mp hx]
        exact Std.le_refl _
    · refine ⟨t, ⟨List.mem_cons_of_mem _ hleast.1, ?_⟩, ?_⟩
      · intro x hx
        rcases List.mem_cons.mp hx with rfl | hin
        · exact t.le_allOnes
        · exact hleast.2 hin
      · intro x hx
        rcases List.mem_cons.mp hx with rfl | hin
        · rw [hones]
          exact t.toLeBytes_le_allOnes
        · exact hbytes x hin
  · rintro ⟨t, hleast, hbytes⟩
    rcases isSmallestTarget_of_isLeast hleast with ⟨hnil, -⟩ | hmin
    · exact Or.inl hnil
    · exact Or.inr ⟨t, hmin, fun x hx => hbytes x (List.mem_cons_of_mem _ hx)⟩

namespace ChannelManager

/-- Comparing numbers finds the smallest target. -/
theorem updateMinTarget_isLeast (s : ChannelManager F32 Vardiff) :
    IsLeast {x | x ∈ Target.fromLeBytes allOnes :: s.openTargets} s.updateMinTarget :=
  foldl_min_isLeast s.openTargets (Target.fromLeBytes allOnes)

theorem updateMinTarget_of_perm {s s' : ChannelManager F32 Vardiff}
    (h : s.openTargets.Perm s'.openTargets) : s.updateMinTarget = s'.updateMinTarget := by
  apply isLeast_unique s.updateMinTarget_isLeast
  have hsame : {x | x ∈ Target.fromLeBytes allOnes :: s.openTargets} =
      {x | x ∈ Target.fromLeBytes allOnes :: s'.openTargets} :=
    Set.ext fun x => (h.cons (Target.fromLeBytes allOnes)).mem_iff
  rw [hsame]
  exact s'.updateMinTarget_isLeast

/-- Comparing bytes finds the same target when one comes first in both orders. -/
theorem vardiffMinTarget_eq_iff (s : ChannelManager F32 Vardiff) :
    s.vardiffMinTarget = s.updateMinTarget.toLeBytes ↔ FirstInBothOrders s.openTargets := by
  have hfold := foldl_min_map_iff Target.toLeBytes s.openTargets (Target.fromLeBytes allOnes)
  rw [List.foldl_map, Target.toLeBytes_fromLeBytes (by decide)] at hfold
  exact hfold.trans firstInBothOrders_iff.symm

end ChannelManager

/-- **The two requests agree exactly when the two orders do.**  Whatever was sent by a vardiff
    cycle and by the handling of a miner's request that leave the same targets open: the targets
    asked of the pool are equal, and are the smallest of all open channels, if and only if one of
    the open targets comes first both as a number and as little-endian bytes. -/
theorem upstreamTargets_agree_iff (env : Env F32 Vardiff)
    {s t s' t' : ChannelManager F32 Vardiff} {messages messages' : List (Message F32)}
    {u u' msg : UpdateChannel F32} {d : DownstreamId}
    (hvardiff : s.runVardiff env = (t, messages)) (hu : .updateChannel u ∈ messages)
    (hupdate : s'.handleUpdateChannel env d msg = some (t', messages'))
    (hu' : .updateChannel u' ∈ messages') (hopen : t.openTargets.Perm t'.openTargets) :
    (u.maxTarget = u'.maxTarget ∧
      ∃ smallest, IsSmallestTarget t.openTargets smallest ∧
        u.maxTarget = smallest.toLeBytes) ↔ FirstInBothOrders t.openTargets := by
  rw [ChannelManager.runVardiff_updateChannel hvardiff hu,
    ChannelManager.handleUpdateChannel_updateChannel hupdate hu',
    ← ChannelManager.updateMinTarget_of_perm hopen]
  constructor
  · rintro ⟨heq, -⟩
    exact t.vardiffMinTarget_eq_iff.mp heq
  · intro hfirst
    have heq := t.vardiffMinTarget_eq_iff.mpr hfirst
    exact ⟨heq, _, isSmallestTarget_of_isLeast t.updateMinTarget_isLeast, heq⟩

/-! ## Two channels -/

/-- Hashrates are whole numbers; every cycle gives every channel its hashrate anew. -/
def sampleEnv : Env Nat Unit where
  zero := 0
  add := (· + ·)
  tryVardiff := fun v hashrate _ _ => (v, some (some hashrate))
  updateChannel := fun _ c hashrate maxTarget =>
    ({ c with nominalHashrate := hashrate, target := maxTarget.getD c.target }, none)
  invalidChannelId := "invalid-channel-id"

/-- A miner with two channels of the given targets. -/
def sampleManager (target₁ target₂ : Target) : ChannelManager Nat Unit where
  downstream := (∅ : KeyMap DownstreamId (Downstream Nat)).insert 1
    { standardChannels := (∅ : KeyMap ChannelId (Channel Nat)).insert 2 ⟨10, target₁, 6, true⟩
      extendedChannels := (∅ : KeyMap ChannelId (Channel Nat)).insert 3 ⟨20, target₂, 6, true⟩ }
  vardiff := ((∅ : KeyMap (DownstreamId × ChannelId) Unit).insert (1, 2) ()).insert (1, 3) ()
  upstreamChannel := some ⟨9, 0⟩

/-- The miner asks for the target it has. -/
def sampleRequest : UpdateChannel Nat :=
  ⟨2, 10, Target.toLeBytes ⟨256, by decide⟩⟩

/-- The targets 256 and 1: the bytes of 256 come first, so the vardiff cycle asks the pool for
    256, which is easier than the second channel allows. -/
theorem runVardiff_asks_easier :
    let s := sampleManager ⟨256, by decide⟩ ⟨1, by decide⟩
    let numeric := (s.handleUpdateChannel sampleEnv 1 sampleRequest).getD (s, [])
    (s.runVardiff sampleEnv).1.openTargets = numeric.1.openTargets ∧
    .updateChannel ⟨9, 30, Target.toLeBytes ⟨256, by decide⟩⟩ ∈ (s.runVardiff sampleEnv).2 ∧
    .updateChannel ⟨9, 30, Target.toLeBytes ⟨1, by decide⟩⟩ ∈ numeric.2 := by
  decide +kernel

/-- The targets 256 and 512. -/
def sampleAgreeing : ChannelManager Nat Unit :=
  sampleManager ⟨256, by decide⟩ ⟨512, by decide⟩

theorem sampleAgreeing_found :
    (sampleAgreeing.handleUpdateChannel sampleEnv 1 sampleRequest).isSome := by
  decide +kernel

/-- Both requests carry 256. -/
theorem upstreamTargets_agree_sample :
    (Target.toLeBytes ⟨256, by decide⟩ = Target.toLeBytes ⟨256, by decide⟩ ∧
      ∃ smallest, IsSmallestTarget (sampleAgreeing.runVardiff sampleEnv).1.openTargets smallest ∧
        Target.toLeBytes ⟨256, by decide⟩ = smallest.toLeBytes) ↔
      FirstInBothOrders (sampleAgreeing.runVardiff sampleEnv).1.openTargets := by
  have hvardiff : sampleAgreeing.runVardiff sampleEnv =
      ((sampleAgreeing.runVardiff sampleEnv).1, (sampleAgreeing.runVardiff sampleEnv).2) := rfl
  have hsent : .updateChannel ⟨9, 30, Target.toLeBytes ⟨256, by decide⟩⟩ ∈
      (sampleAgreeing.runVardiff sampleEnv).2 := by decide +kernel
  have hupdate := (Option.some_get sampleAgreeing_found).symm
  have hanswered : .updateChannel ⟨9, 30, Target.toLeBytes ⟨256, by decide⟩⟩ ∈
      ((sampleAgreeing.handleUpdateChannel sampleEnv 1 sampleRequest).get
        sampleAgreeing_found).2 := by decide +kernel
  exact upstreamTargets_agree_iff sampleEnv hvardiff hsent hupdate hanswered (by decide +kernel)

end Sv2Apps.Jdc.UpstreamTargets
