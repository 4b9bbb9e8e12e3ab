/-
  Jdc/ShareCache.lean
  ===================
  **The cache of a template keeps the best shares** — `SharesOrderedByDiff` and
  `add_share_to_cache` of `jd-client/src/lib/utils.rs`.

  The cache is a binary heap with the worst share on top.  Shares are compared by the target that
  their hash is, read as a little-endian number; the share that goes with it plays no part, so
  shares with equal targets may take each other's place.  Whatever is inserted, the cache holds
  the hundred smallest targets, each with its share (`cache_keeps_best`).

  The client's state keeps a cache as a list (`Jdc.addShareToCache`).  The list and the heap keep
  the same targets (`heap_refines_list`).
-/
import Sv2Apps.Lib.BinaryHeap
import Sv2Apps.Lib.Smallest
import Sv2Apps.Jdc.ShareLedger
import Sv2Apps.Jdc.UpstreamTargets

namespace Sv2Apps.Jdc.ShareCache

open Bitcoin ByteCodec UpstreamTargets

structure SubmitSharesExtendedOwned where
  channelId : ChannelId
  sequenceNumber : UInt32
  jobId : JobId
  nonce : UInt32
  ntime : UInt32
  version : UInt32
  extranonce : B032
deriving DecidableEq

structure SharesOrderedByDiff where
  share : SubmitSharesExtendedOwned
  shareTarget : Target

namespace SharesOrderedByDiff

def new (share : SubmitSharesExtendedOwned) (shareHash : Hash256) : SharesOrderedByDiff :=
  ⟨share, Target.fromLeBytes shareHash.val⟩

/-- Entries are compared by their targets alone. -/
instance : Preorder SharesOrderedByDiff := Preorder.lift shareTarget

instance : DecidableLE SharesOrderedByDiff := fun a b =>
  inferInstanceAs (Decidable (a.shareTarget ≤ b.shareTarget))

instance : Std.Total (α := SharesOrderedByDiff) (· ≤ ·) :=
  ⟨fun a b => le_total a.shareTarget b.shareTarget⟩

/-- A target is the hash as a little-endian number. -/
theorem shareTarget_new (share : SubmitSharesExtendedOwned) (shareHash : Hash256) :
    (new share shareHash).shareTarget.val = ofLe shareHash.val := by
  have hlt := ofLe_lt shareHash.val
  rw [shareHash.property, show (256 : Nat) ^ 32 = 2 ^ 256 by decide] at hlt
  exact Nat.mod_eq_of_lt hlt

end SharesOrderedByDiff

def addShareToCache (heap : BinaryHeap SharesOrderedByDiff) (entry : SharesOrderedByDiff) :
    BinaryHeap SharesOrderedByDiff :=
  if heap.len < cachedSharesCapacity then heap.push entry
  else
    match heap.peek.map SharesOrderedByDiff.shareTarget with
    | none => heap
    | some worstTarget =>
      if entry.shareTarget < worstTarget then
        -- what is popped is dropped
        let heap := match heap.pop with
          | none => heap
          | some (_, rest) => rest
        heap.push entry
      else heap

/-! ## One insertion -/

theorem addShareToCache_smallest (all : List SharesOrderedByDiff)
    (heap : BinaryHeap SharesOrderedByDiff) (entry : SharesOrderedByDiff)
    (h : Smallest cachedSharesCapacity all heap.toList) :
    Smallest cachedSharesCapacity (entry :: all) (addShareToCache heap entry).toList := by
  unfold addShareToCache
  split
  next hlt => exact h.room hlt (heap.push_perm entry)
  next hge =>
    have hfull : heap.toList.length = cachedSharesCapacity := by
      have := h.length_le
      rw [BinaryHeap.len_eq] at hge
      omega
    split
    next hnone =>
      rw [BinaryHeap.peek_none (Option.map_eq_none_iff.mp hnone)] at hfull
      cases hfull
    next worstTarget hsome =>
      obtain ⟨worst, hpeek, rfl⟩ := Option.map_eq_some_iff.mp hsome
      have hworst := BinaryHeap.le_peek hpeek
      split
      next hbetter =>
        obtain ⟨rest, hpop, hperm⟩ := BinaryHeap.pop_of_peek hpeek
        rw [hpop]
        exact h.replace hfull hperm hworst (le_of_lt hbetter) (rest.push_perm entry)
      next hworse =>
        have hle : worst ≤ entry := not_lt.mp hworse
        exact h.discard hfull fun y hy => (hworst y hy).trans hle

/-! ## Any number of insertions -/

theorem cache_smallest (entries : List SharesOrderedByDiff) :
    Smallest cachedSharesCapacity entries
      (entries.foldl addShareToCache BinaryHeap.new).toList :=
  Smallest.foldl addShareToCache_smallest rfl entries

/-- What is inserted: the shares with the targets of their hashes. -/
def inserted (shares : List (SubmitSharesExtendedOwned × Hash256)) : List SharesOrderedByDiff :=
  shares.map fun s => SharesOrderedByDiff.new s.1 s.2

theorem cache_keeps_best (shares : List (SubmitSharesExtendedOwned × Hash256)) :
    let heap := (inserted shares).foldl addShareToCache BinaryHeap.new
    heap.len ≤ 100 ∧
    (heap.toList.map fun e => e.shareTarget.val).Perm
      (((shares.map fun s => ofLe s.2.val).mergeSort (· ≤ ·)).take 100) ∧
    (heap.toList.map fun e => (e.share, e.shareTarget.val)).Subperm
      (shares.map fun s => (s.1, ofLe s.2.val)) := by
  intro heap
  have h : Smallest cachedSharesCapacity (inserted shares) heap.toList := cache_smallest _
  refine ⟨h.length_le, ?_, ?_⟩
  · have htargets := (h.map (f := fun e => e.shareTarget.val) fun _ _ hle => hle).perm_take_sort
    rw [inserted, List.map_map, show cachedSharesCapacity = 100 from rfl] at htargets
    simpa only [Function.comp_def, SharesOrderedByDiff.shareTarget_new] using htargets
  · obtain ⟨kept, hperm, hsub⟩ := h.subperm
    have hentries := hsub.map fun e => (e.share, e.shareTarget.val)
    rw [inserted, List.map_map] at hentries
    simp only [Function.comp_def, SharesOrderedByDiff.shareTarget_new] at hentries
    exact ⟨_, hperm.map _, hentries⟩

/-! ## The cache in the client's state -/

instance : Preorder CachedShare := Preorder.lift CachedShare.shareTarget

theorem insertInList_smallest (all heap : List CachedShare) (entry : CachedShare)
    (h : Smallest cachedSharesCapacity all heap) :
    Smallest cachedSharesCapacity (entry :: all) (Jdc.addShareToCache heap entry) := by
  obtain ⟨hlt, heq⟩ | ⟨worst, hmem, hworst, hfull, hlt, heq⟩ | ⟨⟨hfull, hbetter⟩, heq⟩ :=
    addShareToCache_cases h.length_le entry
  · rw [heq]
    exact h.room hlt (List.Perm.refl _)
  · rw [heq]
    exact h.replace hfull (List.perm_cons_erase hmem) hworst (Nat.le_of_lt hlt) (List.Perm.refl _)
  · rw [heq]
    exact h.discard hfull hbetter

theorem listCache_smallest (cs : List CachedShare) :
    Smallest cachedSharesCapacity cs (cs.foldl Jdc.addShareToCache []) :=
  Smallest.foldl insertInList_smallest rfl cs

/-- **A list and a heap** that are given the same targets keep the same targets. -/
theorem heap_refines_list (cs : List CachedShare) (es : List SharesOrderedByDiff)
    (hsame : cs.map CachedShare.shareTarget = es.map fun e => e.shareTarget.val) :
    ((cs.foldl Jdc.addShareToCache []).map CachedShare.shareTarget).Perm
      ((es.foldl addShareToCache BinaryHeap.new).toList.map fun e => e.shareTarget.val) := by
  have hlist := (listCache_smallest cs).map (f := CachedShare.shareTarget) fun _ _ hle => hle
  have hheap := (cache_smallest es).map (f := fun e => e.shareTarget.val) fun _ _ hle => hle
  rw [← hsame] at hheap
  exact hlist.perm_unique hheap

/-- More shares than there is room for, the worst first and each target twice. -/
def sampleTargets : List Nat := (List.range 120).map fun i => 60 - i / 2

def sampleCached (target : Nat) : CachedShare := ⟨⟨1, 1, []⟩, target, [], [], ⟨target, 1⟩⟩

def sampleEntry (target : Nat) : SharesOrderedByDiff :=
  ⟨⟨1, 0, 1, 0, 0, 0, ⟨[], by decide⟩⟩, Target.fromLeBytes (leBytes 32 target)⟩

theorem heap_refines_list_full :
    ((sampleTargets.map sampleCached).foldl Jdc.addShareToCache []).length = 100 ∧
    (((sampleTargets.map sampleCached).foldl Jdc.addShareToCache []).map
      CachedShare.shareTarget).Perm
      (((sampleTargets.map sampleEntry).foldl addShareToCache BinaryHeap.new).toList.map
        fun e => e.shareTarget.val) := by
  constructor
  · decide +kernel
  · apply heap_refines_list
    decide +kernel

end Sv2Apps.Jdc.ShareCache
