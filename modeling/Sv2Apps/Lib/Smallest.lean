/-
  Lib/Smallest.lean
  =================
  **The smallest elements of a list that grows** — `Smallest n all kept` says that `kept` holds
  the `n` smallest elements of `all`, or all of them while there are fewer.  Of elements that are
  equal for the order any may be kept.

  A collection with room takes a new element (`Smallest.room`); a full one lets its greatest
  element go for a smaller one (`Smallest.replace`), or does without an element that is not
  smaller than what it keeps (`Smallest.discard`).  In a linear order that leaves the first `n` of
  the sorted list (`Smallest.perm_take_sort`).
-/
import Mathlib.Data.List.Sort

variable {α β : Type}

/-- The elements of `all` that are not kept are not smaller than those that are. -/
def Smallest [LE α] (n : Nat) (all kept : List α) : Prop :=
  ∃ rest, all.Perm (kept ++ rest) ∧ kept.length = min n all.length ∧
    ∀ x ∈ kept, ∀ y ∈ rest, x ≤ y

namespace Smallest

variable {n : Nat} {all kept kept' : List α}

section Preorder

variable [Preorder α]

theorem nil : Smallest n ([] : List α) [] :=
  ⟨[], List.Perm.refl _, (Nat.min_zero n).symm, fun _ hx => absurd hx List.not_mem_nil⟩

theorem length_le (h : Smallest n all kept) : kept.length ≤ n := by
  obtain ⟨_, _, hlen, _⟩ := h
  rw [hlen]
  exact Nat.min_le_left _ _

theorem subperm (h : Smallest n all kept) : kept.Subperm all := by
  obtain ⟨rest, hperm, _, _⟩ := h
  exact (List.sublist_append_left kept rest).subperm.trans hperm.symm.subperm

theorem perm_all {all' : List α} (h : Smallest n all kept) (hperm : all.Perm all') :
    Smallest n all' kept := by
  obtain ⟨rest, hrest, hlen, hle⟩ := h
  exact ⟨rest, hperm.symm.trans hrest, hlen.trans (by rw [hperm.length_eq]), hle⟩

/-- While there is room every element is kept. -/
theorem room (h : Smallest n all kept) {x : α} (hlt : kept.length < n)
    (hk : kept'.Perm (x :: kept)) : Smallest n (x :: all) kept' := by
  obtain ⟨rest, hperm, hlen, _⟩ := h
  have hall := hperm.length_eq
  rw [List.length_append] at hall
  have hrest : rest = [] := List.eq_nil_of_length_eq_zero (by omega)
  subst hrest
  rw [List.append_nil] at hperm
  refine ⟨[], ?_, ?_, fun _ _ _ hy => absurd hy List.not_mem_nil⟩
  · rw [List.append_nil]
    exact (hperm.cons x).trans hk.symm
  · rw [hk.length_eq, List.length_cons, List.length_cons]
    omega

/-- The greatest element kept makes room for one that is not greater. -/
theorem replace (h : Smallest n all kept) {x w : α} {others : List α} (hfull : kept.length = n)
    (hw : kept.Perm (w :: others)) (hgreatest : ∀ y ∈ kept, y ≤ w) (hx : x ≤ w)
    (hk : kept'.Perm (x :: others)) : Smallest n (x :: all) kept' := by
  obtain ⟨rest, hperm, hlen, hle⟩ := h
  have hmem : ∀ y, y ∈ kept ↔ y = w ∨ y ∈ others := fun y => by
    rw [hw.mem_iff, List.mem_cons]
  refine ⟨w :: rest, ?_, ?_, ?_⟩
  · have hall : (x :: all).Perm (x :: (w :: others ++ rest)) :=
      (hperm.trans (hw.append_right rest)).cons x
    refine hall.trans ?_
    refine List.Perm.trans ?_ (hk.symm.append_right (w :: rest))
    exact (List.perm_middle.symm).cons x
  · rw [hk.length_eq, List.length_cons, List.length_cons]
    have := hw.length_eq
    rw [List.length_cons] at this
    omega
  · intro a ha b hb
    have haw : a ≤ w := by
      rcases List.mem_cons.mp (hk.mem_iff.mp ha) with rfl | ha
      · exact hx
      · exact hgreatest a ((hmem a).mpr (Or.inr ha))
    rcases List.mem_cons.mp hb with rfl | hb
    · exact haw
    · exact haw.trans (hle w ((hmem w).mpr (Or.inl rfl)) b hb)

/-- Nothing is missed with an element that is not smaller than those kept. -/
theorem discard (h : Smallest n all kept) {x : α} (hfull : kept.length = n)
    (hx : ∀ y ∈ kept, y ≤ x) : Smallest n (x :: all) kept := by
  obtain ⟨rest, hperm, hlen, hle⟩ := h
  refine ⟨x :: rest, (hperm.cons x).trans List.perm_middle.symm, ?_, ?_⟩
  · rw [List.length_cons]
    omega
  · intro a ha b hb
    rcases List.mem_cons.mp hb with rfl | hb
    · exact hx a ha
    · exact hle a ha b hb

/-- The order may be that of a key. -/
theorem map [Preorder β] {f : α → β} (hf : Monotone f) (h : Smallest n all kept) :
    Smallest n (all.map f) (kept.map f) := by
  obtain ⟨rest, hperm, hlen, hle⟩ := h
  refine ⟨rest.map f, ?_, ?_, ?_⟩
  · rw [← List.map_append]
    exact hperm.map f
  · rw [List.length_map, List.length_map]
    exact hlen
  · intro a ha b hb
    obtain ⟨x, hx, rfl⟩ := List.mem_map.mp ha
    obtain ⟨y, hy, rfl⟩ := List.mem_map.mp hb
    exact hf (hle x hx y hy)

/-- What a step keeps of one element more, a run keeps of all that are inserted. -/
theorem foldl {σ : Type} {content : σ → List α} {insert : σ → α → σ}
    (hstep : ∀ all s x, Smallest n all (content s) → Smallest n (x :: all) (content (insert s x)))
    {s : σ} (hs : content s = []) (l : List α) : Smallest n l (content (l.foldl insert s)) := by
  have hrun : ∀ l all s, Smallest n all (content s) →
      Smallest n (l ++ all) (content (l.foldl insert s)) := by
    intro l
    induction l with
    | nil => exact fun _ _ h => h
    | cons x l ih =>
      intro all s h
      exact (ih (x :: all) (insert s x) (hstep all s x h)).perm_all List.perm_middle
  have hall := hrun l [] s (by rw [hs]; exact nil)
  rwa [List.append_nil] at hall

end Preorder

/-- In a linear order the smallest elements are the first ones of the sorted list. -/
theorem perm_take_sort [LinearOrder α] (h : Smallest n all kept) :
    kept.Perm ((all.mergeSort (· ≤ ·)).take n) := by
  obtain ⟨rest, hperm, hlen, hle⟩ := h
  have hsorted : (kept.mergeSort (· ≤ ·) ++ rest.mergeSort (· ≤ ·)).Pairwise (· ≤ ·) := by
    refine List.pairwise_append.mpr
      ⟨List.pairwise_mergeSort' _ kept, List.pairwise_mergeSort' _ rest, ?_⟩
    intro a ha b hb
    exact hle a (List.mem_mergeSort.mp ha) b (List.mem_mergeSort.mp hb)
  have hsort : all.mergeSort (· ≤ ·) = kept.mergeSort (· ≤ ·) ++ rest.mergeSort (· ≤ ·) := by
    refine List.Perm.eq_of_pairwise' (List.pairwise_mergeSort' _ all) hsorted ?_
    refine (List.mergeSort_perm _ _).trans (hperm.trans ?_)
    exact (List.mergeSort_perm _ _).symm.append (List.mergeSort_perm _ _).symm
  have htake : (all.mergeSort (· ≤ ·)).take n = kept.mergeSort (· ≤ ·) := by
    have hall := hperm.length_eq
    rw [List.length_append] at hall
    rw [hsort, List.take_append, List.length_mergeSort]
    by_cases hn : n ≤ all.length
    · rw [show n - kept.length = 0 by omega, List.take_zero, List.append_nil]
      exact List.take_of_length_le (by rw [List.length_mergeSort]; omega)
    · have hrest : rest = [] := List.eq_nil_of_length_eq_zero (by omega)
      rw [hrest, List.mergeSort_nil, List.take_nil, List.append_nil]
      exact List.take_of_length_le (by rw [List.length_mergeSort]; omega)
  rw [htake]
  exact (List.mergeSort_perm _ _).symm

/-- Two collections that keep the smallest elements keep equal ones. -/
theorem perm_unique [LinearOrder α] (h : Smallest n all kept) (h' : Smallest n all kept') :
    kept.Perm kept' :=
  h.perm_take_sort.trans h'.perm_take_sort.symm

end Smallest
