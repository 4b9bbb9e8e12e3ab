/-
  Jdc/ExtranonceLayout.lean
  =========================
  **The extranonce layout below the channel to the pool** — the prefix of every miner's channel is
  the prefix of the pool, a local index of its own and, for a standard channel, zeros up to the
  size of a full extranonce; group channels and the allocator go by the same size.

  The layout changes with two messages of the pool, each of which goes through the connections.
  `handle_open_extended_mining_channel_success` tells every group channel the new size;
  `handle_set_extranonce_prefix` gives every channel a prefix of a new allocator, tells no group
  channel the new size, and drops the errors it has collected (`keepsLayout`).
-/
import Sv2Apps.Jdc.PoolChannel

namespace Sv2Apps.Jdc

open Bitcoin

namespace LoopTask

/-- No handler is changing the layout. -/
def isSettled : LoopTask → Bool
  | .openSuccess _ _ _ _ => false
  | .setExtranoncePrefix _ _ _ => false
  | _ => true

/-- The loop has ended with a fallback. -/
def hasFallenBack : LoopTask → Bool
  | .stopped .fallback => true
  | _ => false

/-- The group channel of the connection goes by the size of the channel to the pool. -/
def hasSized : LoopTask → DownstreamId → Prop
  | .openSuccess _ _ _ visited, d => d ∈ visited
  | _, _ => True

/-- The channels of the connection have prefixes of the current allocator. -/
def hasRenewed : LoopTask → DownstreamId → Prop
  | .setExtranoncePrefix _ visited _, d => d ∈ visited
  | _, _ => True

/-- The new prefixes that the owners of the channels will be told. -/
def renewals : LoopTask → List Renewal
  | .setExtranoncePrefix _ _ rs => rs
  | _ => []

theorem of_isSettled {l : LoopTask} (h : l.isSettled = true) (d : DownstreamId) :
    l.hasSized d ∧ l.hasRenewed d ∧ l.renewals = [] := by
  cases l <;> first | exact ⟨trivial, trivial, rfl⟩ | cases h

theorem not_replaying_of_hasFallenBack {l : LoopTask} (h : l.hasFallenBack = true) :
    l.isReplaying = false := by
  cases l <;> first | rfl | cases h

end LoopTask

def OpenKind.channelKind : OpenKind → ChannelKind
  | .standard => .standard
  | .extended _ => .extended

/-- The channel gets a prefix and takes it. -/
def PrefixAnswers.renews (ans : PrefixAnswers) (ch : ChannelId) : Bool :=
  match ans.allocation ch with
  | .allocated _ => ans.channelAccepts ch
  | _ => false

namespace Downstream

def openChannels (ds : Downstream) : List (ChannelKind × ChannelId × Channel) :=
  (ds.standardChannels.entries.map fun e => (.standard, e.1, e.2)) ++
    ds.extendedChannels.entries.map fun e => (.extended, e.1, e.2)

theorem mem_openChannels {ds : Downstream} {k : ChannelKind} {ch : ChannelId} {c : Channel} :
    (k, ch, c) ∈ ds.openChannels ↔ (ds.channels k).lookup ch = some c := by
  have hentries : ∀ (k' : ChannelKind) (m : KeyMap ChannelId Channel),
      (k, ch, c) ∈ (m.entries.map fun e => (k', e.1, e.2)) ↔ k = k' ∧ m.lookup ch = some c := by
    intro k' m
    rw [List.mem_map, ← KeyMap.mem_entries_iff]
    constructor
    · rintro ⟨e, he, heq⟩
      cases heq
      exact ⟨rfl, he⟩
    · rintro ⟨rfl, he⟩
      exact ⟨_, he, rfl⟩
  rw [openChannels, List.mem_append, hentries, hentries]
  cases k <;> simp [channels]

end Downstream

/-- The bytes that follow the prefix of the pool. -/
def localIndex (upstreamPrefix bytes : Bytes) : Bytes :=
  (bytes.drop upstreamPrefix.length).take localPrefixBytes

/-- The prefix that the owner of a channel has been told last. -/
def toldPrefix (sent : List Message) (key : DownstreamId × ChannelId) : Option Bytes :=
  sent.findSome? fun m => m.tellsPrefix.bind fun e => if e.1 = key then some e.2 else none

theorem toldPrefix_append (ms sent : List Message) (key : DownstreamId × ChannelId) :
    toldPrefix (ms ++ sent) key = (toldPrefix ms key).or (toldPrefix sent key) :=
  List.findSome?_append

theorem toldPrefix_eq_none {ms : List Message} {key : DownstreamId × ChannelId}
    (h : ∀ m ∈ ms, ∀ bytes, m.tellsPrefix ≠ some (key, bytes)) : toldPrefix ms key = none := by
  rw [toldPrefix, List.findSome?_eq_none_iff]
  intro m hm
  cases htells : m.tellsPrefix with
  | none => rfl
  | some e =>
    obtain ⟨key', bytes⟩ := e
    have hne : key' ≠ key := by
      rintro rfl
      exact h m hm bytes htells
    exact if_neg hne

/-- All messages about the channel tell the same prefix. -/
theorem toldPrefix_eq_some {ms : List Message} {key : DownstreamId × ChannelId} {bytes : Bytes}
    (hmem : ∃ m ∈ ms, m.tellsPrefix = some (key, bytes))
    (h : ∀ m ∈ ms, ∀ b, m.tellsPrefix = some (key, b) → b = bytes) :
    toldPrefix ms key = some bytes := by
  have hvalue : ∀ b, toldPrefix ms key = some b → b = bytes := by
    intro b hb
    obtain ⟨m, hm, hmb⟩ := List.exists_of_findSome?_eq_some hb
    obtain ⟨⟨key', b'⟩, htells, hkey⟩ := Option.bind_eq_some_iff.mp hmb
    by_cases heq : key' = key
    · rw [if_pos heq] at hkey
      cases hkey
      rw [heq] at htells
      exact h m hm _ htells
    · rw [if_neg heq] at hkey
      cases hkey
  obtain ⟨m, hm, htells⟩ := hmem
  have hsome : (toldPrefix ms key).isSome = true := by
    rw [toldPrefix, List.findSome?_isSome_iff]
    refine ⟨m, hm, ?_⟩
    rw [htells]
    simp
  obtain ⟨b, hb⟩ := Option.isSome_iff_exists.mp hsome
  rw [hb, hvalue b hb]

/-! ## The allocator -/

namespace ExtranonceAllocator

/-- There is room for a local index, and a full extranonce is not too long. -/
def fits (upstreamPrefix : Bytes) (totalLen : Nat) : Bool :=
  decide (upstreamPrefix.length + localPrefixBytes ≤ totalLen) && decide (totalLen ≤ maxExtranonceLen)

/-- A prefix for a channel of the kind, with a local index that is not taken. -/
def gives (a : ExtranonceAllocator) (taken : List Bytes) (k : ChannelKind) (bytes : Bytes) : Bool :=
  a.upstreamPrefix.isPrefixOf bytes &&
  decide (bytes.length = match k with
    | .standard => a.totalLen
    | .extended => a.upstreamPrefix.length + localPrefixBytes) &&
  !taken.contains (localIndex a.upstreamPrefix bytes)

/-- The prefixes for channels that ask one after the other. -/
def givesAll (a : ExtranonceAllocator) (answers : ChannelId → AllocationAnswer) :
    List Bytes → List (ChannelKind × ChannelId × Channel) → Bool
  | _, [] => true
  | taken, (k, ch, _) :: cs => match answers ch with
    | .allocated bytes => a.gives taken k bytes &&
      a.givesAll answers (localIndex a.upstreamPrefix bytes :: taken) cs
    | _ => a.givesAll answers taken cs

end ExtranonceAllocator

namespace ChannelManager

variable {env : Env} {s s' : ChannelManager} {d : DownstreamId}

/-- The local indexes of the channels that have their prefix from the current allocator. -/
def takenIndexes (s : ChannelManager) : List Bytes :=
  s.downstream.entries.flatMap fun e => e.2.openChannels.filterMap fun c =>
    if c.2.2.generation = s.extranonceAllocator.generation then
      some (localIndex s.extranonceAllocator.upstreamPrefix c.2.2.extranoncePrefix)
    else none

/-- The crate builds an allocator only for sizes that fit, and gives every channel the prefix of
    the pool with a local index that no channel has. -/
def allocatorSound (s : ChannelManager) (a : Action) : Bool :=
  match s.openOf a with
  | some (r, ans) => match s.upstreamState, ans.allocation with
    | .connected, .allocated bytes =>
      s.extranonceAllocator.gives s.takenIndexes r.request.kind.channelKind bytes
    | _, _ => true
  | none => match a, s.loop with
    | .event (.openExtendedMiningChannelSuccess msg ans), _ =>
      !ans.allocatorBuilt ||
        ExtranonceAllocator.fits msg.extranoncePrefix.val (msg.totalLen.toNat % 2 ^ 8)
    | .event (.setExtranoncePrefix extranoncePrefix _ built), _ => match s.upstreamChannel with
      | none => true
      | some u => !built || ExtranonceAllocator.fits extranoncePrefix.val
        ((extranoncePrefix.val.length + u.rollableExtranonceSize.toNat) % 2 ^ 8)
    | .visit d ans, .setExtranoncePrefix _ visited _ => match s.downstream.lookup d with
      | none => true
      | some ds => decide (d ∈ visited) ||
        s.extranonceAllocator.givesAll ans.extranoncePrefix.allocation s.takenIndexes ds.openChannels
    | _, _ => true

/-! ## Conditions -/

/-- The next channel id of a connection is not that of one of its channels. -/
def idIsFree (ds : Downstream) : Bool :=
  (ds.standardChannels.lookup ds.channelIdFactory).isNone &&
    (ds.extendedChannels.lookup ds.channelIdFactory).isNone

theorem idIsFree_lookup {ds : Downstream} (h : idIsFree ds = true) (k : ChannelKind) :
    (ds.channels k).lookup ds.channelIdFactory = none := by
  simp only [idIsFree, Bool.and_eq_true, Option.isNone_iff_eq_none] at h
  cases k with
  | standard => exact h.1
  | extended => exact h.2

/-- The action does not break the layout.  No size is too wide, a channel id is that of one channel,
    no channel is open when the client gets a channel to the pool, a new prefix is as long as the
    old one unless nobody is connected, every channel gets its new prefix, and every group channel
    its size. -/
def keepsLayout (env : Env) (s : ChannelManager) (a : Action) : Bool :=
  s.loop.hasFallenBack || match s.openOf a with
  | some (r, _) => match s.upstreamState with
    | .noChannel => !upstreamMinExtranonceSizeWraps env r.request.kind
    | .connected => match s.downstream.lookup r.downstreamId with
      | none => true
      | some ds => idIsFree ds
    | _ => true
  | none => match a, s.loop with
    | .event (.openExtendedMiningChannelSuccess msg ans), _ =>
      s.coinbaseOutputs.isNone || s.pendingDownstreamRequests.isEmpty ||
      decide (msg.extranonceSize.toNat <
        localPrefixBytes + env.reservedDownstreamRollableExtranonceSize.toNat) ||
      !msg.wraps && (!ans.allocatorBuilt || !ans.channelBuilt ||
        s.downstream.entries.all fun e => e.2.openChannels.isEmpty)
    | .event (.setExtranoncePrefix extranoncePrefix upstreamAccepts built), _ =>
      match s.upstreamState, s.upstreamChannel with
      | .connected, some u => !upstreamAccepts || !built ||
        decide (maxExtranonceLen < extranoncePrefix.val.length + u.rollableExtranonceSize.toNat) ||
        decide (extranoncePrefix.val.length = u.extranoncePrefix.length) ||
        s.downstream.entries.isEmpty
      | _, _ => true
    | .visit d ans, .openSuccess _ _ _ visited =>
      (s.downstream.lookup d).isNone || decide (d ∈ visited) || ans.groupSizeAccepted
    | .visit d ans, .setExtranoncePrefix _ visited _ => match s.upstreamState, s.downstream.lookup d with
      | .connected, some ds =>
        decide (d ∈ visited) || ds.openChannels.all fun c => ans.extranoncePrefix.renews c.2.1
      | _, _ => true
    | .finish, .openSuccess size _ present visited =>
      !s.visitedAll present visited || s.downstream.entries.all fun e =>
        decide (e.1 ∈ visited) || decide (e.2.groupFullExtranonceSize = size)
    | .register d, loop => match s.upstreamState, s.accepting.lookup d with
      | .connected, some (.bootstrapped size) =>
        decide (size = s.fullExtranonceSize) || (match loop with
          | .openSuccess _ _ _ visited => decide (d ∉ visited)
          | _ => false)
      | _, _ => true
    | _, _ => true

/-! ## The layout -/

/-- The layout of the extranonces below a channel to the pool. -/
structure Layout (s : ChannelManager) (u : UpstreamChannel) : Prop where
  fits : u.fullExtranonceSize ≤ maxExtranonceLen
  allocator : s.extranonceAllocator.totalLen = u.fullExtranonceSize
  groups : ∀ d ds, s.downstream.lookup d = some ds →
    ds.groupFullExtranonceSize = u.fullExtranonceSize
  prefixes : ∀ d k ch c, s.IsOpen d k ch c → ∃ index rest, index.length = localPrefixBytes ∧
    c.extranoncePrefix = u.extranoncePrefix ++ index ++ rest
  distinct : ∀ d k ch c d' k' ch' c', s.IsOpen d k ch c → s.IsOpen d' k' ch' c' →
    localIndex u.extranoncePrefix c.extranoncePrefix =
      localIndex u.extranoncePrefix c'.extranoncePrefix → (d, k, ch) = (d', k', ch')
  sizes : ∀ d k ch c, s.IsOpen d k ch c → c.fullExtranonceSize = u.fullExtranonceSize
  told : ∀ d k ch c, s.IsOpen d k ch c → toldPrefix s.sent (d, ch) = some c.extranoncePrefix

/-- No size has left its type, and a client that is connected and does not change its layout has
    one. -/
structure LayoutKept (s : ChannelManager) : Prop where
  sizes : s.sizeWrapped = false
  connected : s.upstreamState = .connected → s.loop.isSettled = true → s.loop.hasFallenBack = false →
    ∃ u, s.upstreamChannel = some u ∧ Layout s u

/-- A message of the pool that changes the layout, or a part of its handler. -/
def changesLayout (s : ChannelManager) : Action → Bool
  | .event (.openExtendedMiningChannelSuccess _ _) => true
  | .event (.setExtranoncePrefix _ _ _) => true
  | _ => !s.loop.isSettled

/-! ## The invariant -/

/-- What a channel rolls is what its prefix leaves. -/
def Rolls (a : ExtranonceAllocator) (c : Channel) : ChannelKind → Prop
  | .standard => c.rollableExtranonceSize = 0
  | .extended =>
    a.upstreamPrefix.length + localPrefixBytes + c.rollableExtranonceSize = a.totalLen

/-- The prefix of the channel is one of the allocator. -/
structure HoldsPrefix (a : ExtranonceAllocator) (k : ChannelKind) (c : Channel) : Prop where
  generation : c.generation = a.generation
  isPrefix : a.upstreamPrefix <+: c.extranoncePrefix
  length : c.extranoncePrefix.length = match k with
    | .standard => a.totalLen
    | .extended => a.upstreamPrefix.length + localPrefixBytes

/-- What has been sent, newest first, with what the handler at work will tell the miners. -/
def outgoing (s : ChannelManager) : List Message :=
  (s.loop.renewals.map Renewal.message).reverse ++ s.sent

/-- A connected client, as far as the handler at work has come. -/
structure Connected (s : ChannelManager) : Prop where
  upstream : ∃ rollable, s.upstreamLayout = some (s.extranonceAllocator.upstreamPrefix, rollable) ∧
    s.extranonceAllocator.upstreamPrefix.length + rollable.toNat = s.extranonceAllocator.totalLen
  room : s.extranonceAllocator.upstreamPrefix.length + localPrefixBytes ≤
    s.extranonceAllocator.totalLen
  fits : s.extranonceAllocator.totalLen ≤ maxExtranonceLen
  groups : ∀ d ds, s.downstream.lookup d = some ds → s.loop.hasSized d →
    ds.groupFullExtranonceSize = s.extranonceAllocator.totalLen
  opening : ∀ size customJob present visited, s.loop = .openSuccess size customJob present visited →
    size = s.extranonceAllocator.totalLen ∧ ∀ d k ch c, ¬ s.IsOpen d k ch c
  present : ∀ present visited rs, s.loop = .setExtranoncePrefix present visited rs →
    ∀ d k ch c, s.IsOpen d k ch c → d ∈ present
  rolls : ∀ d k ch c, s.IsOpen d k ch c → Rolls s.extranonceAllocator c k
  old : ∀ d k ch c, s.IsOpen d k ch c → ¬ s.loop.hasRenewed d →
    c.generation ≠ s.extranonceAllocator.generation
  holds : ∀ d k ch c, s.IsOpen d k ch c → s.loop.hasRenewed d →
    HoldsPrefix s.extranonceAllocator k c
  distinct : ∀ d k ch c d' k' ch' c', s.IsOpen d k ch c → s.IsOpen d' k' ch' c' →
    s.loop.hasRenewed d → s.loop.hasRenewed d' →
    localIndex s.extranonceAllocator.upstreamPrefix c.extranoncePrefix =
      localIndex s.extranonceAllocator.upstreamPrefix c'.extranoncePrefix →
    (d, k, ch) = (d', k', ch')
  told : ∀ d k ch c, s.IsOpen d k ch c → s.loop.hasRenewed d →
    toldPrefix s.outgoing (d, ch) = some c.extranoncePrefix

/-- No size has left its type, no id is that of two channels of a connection, and the client is
    `Connected` when it says so. -/
structure LayoutInv (s : ChannelManager) : Prop where
  sizes : s.sizeWrapped = false
  upstream : s.upstreamState ≠ .soloMining
  replaying : s.loop.isReplaying = true → s.upstreamState = .connected
  disjoint : ∀ d k k' ch c c', s.IsOpen d k ch c → s.IsOpen d k' ch c' → k = k'
  connected : s.upstreamState = .connected → s.loop.hasFallenBack = false → Connected s

theorem layoutInv_start (outs : Option (List TxOut)) : LayoutInv (start outs) := by
  refine ⟨rfl, ?_, ?_, ?_, ?_⟩
  · intro h
    cases h
  · intro h
    cases h
  · rintro d k k' ch c c' ⟨ds, hds, -⟩
    cases hds
  · intro h
    cases h

/-! ## Steps that leave the layout alone -/

/-- Channels have at most gone away or got jobs, and nobody has been told a prefix. -/
structure PrefixFrame (s s' : ChannelManager) : Prop where
  state : s'.upstreamState = s.upstreamState
  wrapped : s'.sizeWrapped = s.sizeWrapped
  allocator : s'.extranonceAllocator = s.extranonceAllocator
  upstream : s'.upstreamLayout = s.upstreamLayout
  opened : ∀ d k ch c', s'.IsOpen d k ch c' → ∃ c, s.IsOpen d k ch c ∧
    c'.extranoncePrefix = c.extranoncePrefix ∧
    c'.rollableExtranonceSize = c.rollableExtranonceSize ∧ c'.generation = c.generation
  sent : ∃ ms, s'.sent = ms ++ s.sent ∧ ∀ m ∈ ms, m.tellsPrefix = none

/-- Besides, the group channels of the connections go by the sizes they had. -/
structure LayoutFrame (s s' : ChannelManager) : Prop extends PrefixFrame s s' where
  groups : ∀ d ds', s'.downstream.lookup d = some ds' → ∃ ds, s.downstream.lookup d = some ds ∧
    ds'.groupFullExtranonceSize = ds.groupFullExtranonceSize

theorem LayoutFrame.withLoop (h : LayoutFrame s s') (loop : LoopTask) :
    LayoutFrame s { s' with loop := loop } :=
  ⟨⟨h.state, h.wrapped, h.allocator, h.upstream, h.opened, h.sent⟩, h.groups⟩

/-- The handler at work is the same, or neither changes the layout. -/
def SamePhase (l l' : LoopTask) : Prop :=
  l' = l ∨ l.isSettled = true ∧ l'.isSettled = true

theorem SamePhase.sized {l l' : LoopTask} (h : SamePhase l l') {d : DownstreamId}
    (hd : l'.hasSized d) : l.hasSized d := by
  rcases h with rfl | ⟨hl, -⟩
  · exact hd
  · exact (LoopTask.of_isSettled hl d).1

theorem SamePhase.renewed {l l' : LoopTask} (h : SamePhase l l') (d : DownstreamId) :
    l'.hasRenewed d ↔ l.hasRenewed d := by
  rcases h with rfl | ⟨hl, hl'⟩
  · rfl
  · exact iff_of_true (LoopTask.of_isSettled hl' d).2.1 (LoopTask.of_isSettled hl d).2.1

theorem SamePhase.renewals {l l' : LoopTask} (h : SamePhase l l') : l'.renewals = l.renewals := by
  rcases h with rfl | ⟨hl, hl'⟩
  · rfl
  · exact (LoopTask.of_isSettled hl' 0).2.2.trans (LoopTask.of_isSettled hl 0).2.2.symm

theorem Connected.of_groups (h : Connected s) (hphase : SamePhase s.loop s'.loop)
    (hframe : PrefixFrame s s') (hgroups : ∀ d ds, s'.downstream.lookup d = some ds →
      s'.loop.hasSized d → ds.groupFullExtranonceSize = s.extranonceAllocator.totalLen) :
    Connected s' := by
  have ha := hframe.allocator
  have hrolls : ∀ {k : ChannelKind} {c c' : Channel},
      c'.rollableExtranonceSize = c.rollableExtranonceSize →
      Rolls s.extranonceAllocator c k → Rolls s.extranonceAllocator c' k := by
    intro k c c' heq hc
    cases k with
    | standard => exact heq.trans hc
    | extended =>
      rw [Rolls, heq]
      exact hc
  refine ⟨?_, ?_, ?_, ?_, ?_, ?_, ?_, ?_, ?_, ?_, ?_⟩
  · rw [hframe.upstream, ha]
    exact h.upstream
  · rw [ha]
    exact h.room
  · rw [ha]
    exact h.fits
  · rw [ha]
    exact hgroups
  · intro size customJob present visited hloop
    rcases hphase with heq | ⟨-, hsettled⟩
    · rw [heq] at hloop
      obtain ⟨hsize, hnone⟩ := h.opening size customJob present visited hloop
      refine ⟨hsize.trans (by rw [ha]), ?_⟩
      intro d k ch c' hc'
      obtain ⟨c, hc, -⟩ := hframe.opened d k ch c' hc'
      exact hnone d k ch c hc
    · rw [hloop] at hsettled
      cases hsettled
  · intro present visited rs hloop d k ch c' hc'
    obtain ⟨c, hc, -⟩ := hframe.opened d k ch c' hc'
    rcases hphase with heq | ⟨-, hsettled⟩
    · rw [heq] at hloop
      exact h.present present visited rs hloop d k ch c hc
    · rw [hloop] at hsettled
      cases hsettled
  · intro d k ch c' hc'
    obtain ⟨c, hc, -, hrollable, -⟩ := hframe.opened d k ch c' hc'
    rw [ha]
    exact hrolls hrollable (h.rolls d k ch c hc)
  · intro d k ch c' hc' hrenewed
    obtain ⟨c, hc, -, -, hgeneration⟩ := hframe.opened d k ch c' hc'
    rw [hgeneration, ha]
    exact h.old d k ch c hc (fun hr => hrenewed ((hphase.renewed d).mpr hr))
  · intro d k ch c' hc' hrenewed
    obtain ⟨c, hc, hbytes, -, hgeneration⟩ := hframe.opened d k ch c' hc'
    have hholds := h.holds d k ch c hc ((hphase.renewed d).mp hrenewed)
    rw [ha]
    exact ⟨hgeneration.trans hholds.generation, by rw [hbytes]; exact hholds.isPrefix,
      by rw [hbytes]; exact hholds.length⟩
  · intro d k ch c' d₁ k₁ ch₁ c₁' hc' hc₁' hrenewed hrenewed₁ heq
    obtain ⟨c, hc, hbytes, -⟩ := hframe.opened d k ch c' hc'
    obtain ⟨c₁, hc₁, hbytes₁, -⟩ := hframe.opened d₁ k₁ ch₁ c₁' hc₁'
    rw [ha, hbytes, hbytes₁] at heq
    exact h.distinct d k ch c d₁ k₁ ch₁ c₁ hc hc₁ ((hphase.renewed d).mp hrenewed)
      ((hphase.renewed d₁).mp hrenewed₁) heq
  · intro d k ch c' hc' hrenewed
    obtain ⟨c, hc, hbytes, -⟩ := hframe.opened d k ch c' hc'
    obtain ⟨ms, hsent, hms⟩ := hframe.sent
    have hsilent : toldPrefix ms (d, ch) = none := by
      apply toldPrefix_eq_none
      intro m hm bytes htells
      rw [hms m hm] at htells
      cases htells
    have htold := h.told d k ch c hc ((hphase.renewed d).mp hrenewed)
    rw [outgoing, toldPrefix_append] at htold
    rw [outgoing, hphase.renewals, hsent, toldPrefix_append, toldPrefix_append ms, hsilent, hbytes]
    exact htold

theorem Connected.frame (h : Connected s) (hphase : SamePhase s.loop s'.loop)
    (hframe : LayoutFrame s s') : Connected s' := by
  refine h.of_groups hphase hframe.toPrefixFrame ?_
  intro d ds' hds' hsized
  obtain ⟨ds, hds, hsize⟩ := hframe.groups d ds' hds'
  rw [hsize]
  exact h.groups d ds hds (hphase.sized hsized)

namespace LayoutFrame

theorem of_eq (hstate : s'.upstreamState = s.upstreamState) (hwrapped : s'.sizeWrapped = s.sizeWrapped)
    (ha : s'.extranonceAllocator = s.extranonceAllocator) (hu : s'.upstreamLayout = s.upstreamLayout)
    (hs' : s'.downstream = s.downstream)
    (hsent : ∃ ms, s'.sent = ms ++ s.sent ∧ ∀ m ∈ ms, m.tellsPrefix = none) : LayoutFrame s s' := by
  refine ⟨⟨hstate, hwrapped, ha, hu, ?_, hsent⟩, ?_⟩
  · rintro d k ch c ⟨ds, hds, hc⟩
    rw [hs'] at hds
    exact ⟨c, ⟨ds, hds, hc⟩, rfl, rfl, rfl⟩
  · intro d ds hds
    rw [hs'] at hds
    exact ⟨ds, hds, rfl⟩

theorem of_calm (h : Calm s s') : LayoutFrame s s' := by
  obtain ⟨ms, hsent, hcalm⟩ := h.sent
  exact .of_eq h.state h.wrapped h.allocator h.upstream h.downstream
    ⟨ms, hsent, fun m hm => (hcalm m hm).tellsPrefix⟩

/-- One connection has at most lost channels, or its channels have got jobs. -/
theorem of_insert {ds ds' : Downstream} (hds : s.downstream.lookup d = some ds)
    (hsize : ds'.groupFullExtranonceSize = ds.groupFullExtranonceSize)
    (hchannels : ∀ k ch c', (ds'.channels k).lookup ch = some c' → ∃ c,
      (ds.channels k).lookup ch = some c ∧ c'.extranoncePrefix = c.extranoncePrefix ∧
      c'.rollableExtranonceSize = c.rollableExtranonceSize ∧ c'.generation = c.generation)
    (hs' : s'.downstream = s.downstream.insert d ds') (hstate : s'.upstreamState = s.upstreamState)
    (hwrapped : s'.sizeWrapped = s.sizeWrapped) (ha : s'.extranonceAllocator = s.extranonceAllocator)
    (hu : s'.upstreamLayout = s.upstreamLayout)
    (hsent : ∃ ms, s'.sent = ms ++ s.sent ∧ ∀ m ∈ ms, m.tellsPrefix = none) : LayoutFrame s s' := by
  refine ⟨⟨hstate, hwrapped, ha, hu, ?_, hsent⟩, ?_⟩
  · rintro d₁ k ch c' ⟨ds₁, hds₁, hc'⟩
    rcases lookup_of_insert hs' hds₁ with ⟨rfl, rfl⟩ | ⟨-, hold⟩
    · obtain ⟨c, hc, hsame⟩ := hchannels k ch c' hc'
      exact ⟨c, ⟨ds, hds, hc⟩, hsame⟩
    · exact ⟨c', ⟨ds₁, hold, hc'⟩, rfl, rfl, rfl⟩
  · intro d₁ ds₁ hds₁
    rcases lookup_of_insert hs' hds₁ with ⟨rfl, rfl⟩ | ⟨-, hold⟩
    · exact ⟨ds, hds, hsize⟩
    · exact ⟨ds₁, hold, rfl⟩

theorem removeDownstream (s : ChannelManager) (d : DownstreamId) :
    LayoutFrame s (s.removeDownstream d) := by
  refine ⟨⟨rfl, rfl, rfl, rfl, ?_, [], rfl, by simp⟩, ?_⟩
  · rintro d₁ k ch c ⟨ds, hds, hc⟩
    exact ⟨c, ⟨ds, KeyMap.lookup_erase_some hds, hc⟩, rfl, rfl, rfl⟩
  · intro d₁ ds hds
    exact ⟨ds, KeyMap.lookup_erase_some hds, rfl⟩

theorem fail (s : ChannelManager) (f : Fault) : LayoutFrame s (s.fail f) := by
  cases f with
  | disconnect d => exact (removeDownstream s d).withLoop .idle
  | _ => exact .of_eq rfl rfl rfl rfl rfl ⟨[], rfl, by simp⟩

end LayoutFrame

namespace LayoutInv

theorem frame (h : LayoutInv s) (hframe : LayoutFrame s s') (hphase : SamePhase s.loop s'.loop)
    (hstopped : s.loop.hasFallenBack = true → s'.loop.hasFallenBack = true)
    (hreplaying : s'.loop.isReplaying = true → s'.upstreamState = .connected) : LayoutInv s' := by
  refine ⟨hframe.wrapped.trans h.sizes, ?_, hreplaying, ?_, ?_⟩
  · rw [hframe.state]
    exact h.upstream
  · intro d k k' ch c c' hc hc'
    obtain ⟨c₀, hc₀, -⟩ := hframe.opened d k ch c hc
    obtain ⟨c₁, hc₁, -⟩ := hframe.opened d k' ch c' hc'
    exact h.disjoint d k k' ch c₀ c₁ hc₀ hc₁
  · intro hstate hrun
    rw [hframe.state] at hstate
    have hrun : s.loop.hasFallenBack = false := by
      rw [← Bool.not_eq_true] at hrun ⊢
      exact fun hs => hrun (hstopped hs)
    exact (h.connected hstate hrun).frame hphase hframe

/-- The loop ends with a fallback. -/
theorem fallBack (h : LayoutInv s) (hwrapped : s'.sizeWrapped = false)
    (hstate : s'.upstreamState = s.upstreamState) (hs' : s'.downstream = s.downstream)
    (hloop : s'.loop.hasFallenBack = true) : LayoutInv s' := by
  refine ⟨hwrapped, ?_, ?_, ?_, ?_⟩
  · rw [hstate]
    exact h.upstream
  · intro hreplaying
    rw [LoopTask.not_replaying_of_hasFallenBack hloop] at hreplaying
    cases hreplaying
  · rintro d k k' ch c c' ⟨ds, hds, hc⟩ ⟨ds', hds', hc'⟩
    rw [hs'] at hds hds'
    exact h.disjoint d k k' ch c c' ⟨ds, hds, hc⟩ ⟨ds', hds', hc'⟩
  · intro _ hrun
    rw [hloop] at hrun
    cases hrun

/-- An error while the layout is settled. -/
theorem fail (h : LayoutInv s) (hsettled : s.loop.isSettled = true)
    (hrun : s.loop.hasFallenBack = false) (f : Fault) : LayoutInv (s.fail f) := by
  refine h.frame (.fail s f) (Or.inr ⟨hsettled, by cases f <;> rfl⟩) ?_ ?_
  · intro hs
    rw [hrun] at hs
    cases hs
  · intro hreplaying
    cases f <;> cases hreplaying

end LayoutInv

end ChannelManager

end Sv2Apps.Jdc
