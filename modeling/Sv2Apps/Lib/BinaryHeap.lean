/-
  Lib/BinaryHeap.lean
  ===================
  **A max-heap in an array** — the children of position `i` are at `2 * i + 1` and `2 * i + 2`.  An
  element is pushed at the end and sifted up; the greatest one is popped by putting the last in
  its place, sifting that down to the bottom, and up again from there.

  The order need not be antisymmetric: elements may be equal for it and differ otherwise.  Which
  of the greatest elements comes first is up to the positions, and no lemma depends on it.
-/
import Mathlib.Order.Defs.Unbundled
import Mathlib.Order.Basic
import Mathlib.Logic.Equiv.Basic

namespace BinaryHeap

variable {α : Type}

/-! ## Sifting -/

section Sift

variable [Preorder α] [DecidableLE α]

def siftUp (a : Array α) (pos : Nat) : Array α :=
  if h : 0 < pos ∧ pos < a.size then
    if a[pos] ≤ a[(pos - 1) / 2] then a
    else siftUp (a.swap pos ((pos - 1) / 2) h.2 (by omega)) ((pos - 1) / 2)
  else a
termination_by pos
decreasing_by omega

/-- The greater child, the right one if they are equal; `pos` has both. -/
def greaterChild (a : Array α) (pos : Nat) (h : 2 * pos + 2 < a.size) : Nat :=
  if a[2 * pos + 1] ≤ a[2 * pos + 2] then 2 * pos + 2 else 2 * pos + 1

theorem greaterChild_lt {a : Array α} {pos : Nat} (h : 2 * pos + 2 < a.size) :
    pos < greaterChild a pos h ∧ greaterChild a pos h < a.size := by
  unfold greaterChild
  split <;> omega

/-- The way down does not compare with the element that is sifted, only the way up does. -/
def siftDownToBottom (a : Array α) (pos : Nat) : Array α :=
  if h : 2 * pos + 2 < a.size then
    siftDownToBottom
      (a.swap pos (greaterChild a pos h) (by omega) (greaterChild_lt h).2) (greaterChild a pos h)
  else if h : 2 * pos + 1 < a.size then
    siftUp (a.swap pos (2 * pos + 1) (by omega) h) (2 * pos + 1)
  else siftUp a pos
termination_by a.size - pos
decreasing_by
  have := greaterChild_lt h
  rw [Array.size_swap]
  omega

end Sift

/-! ## Taking the root out -/

/-- The array without its last element, which replaces the root. -/
def replaceRoot (a : Array α) (h : 1 < a.size) : Array α :=
  a.pop.set 0 a[a.size - 1] (by rw [Array.size_pop]; omega)

theorem size_replaceRoot {a : Array α} (h : 1 < a.size) :
    (replaceRoot a h).size = a.size - 1 := by
  unfold replaceRoot
  rw [Array.size_set, Array.size_pop]

theorem getElem_replaceRoot {a : Array α} (h : 1 < a.size) {i : Nat}
    (hi : i < (replaceRoot a h).size) (hia : i < a.size) (h0 : i ≠ 0) :
    (replaceRoot a h)[i] = a[i] := by
  have hpop : i < a.pop.size := by
    rw [size_replaceRoot] at hi
    rwa [Array.size_pop]
  exact (Array.getElem_set_ne _ hpop (Ne.symm h0)).trans (Array.getElem_pop hpop)

theorem replaceRoot_perm {a : Array α} (h : 1 < a.size) :
    a.toList.Perm (a[0] :: (replaceRoot a h).toList) := by
  obtain ⟨l⟩ := a
  cases l with
  | nil => cases h
  | cons x l =>
    rcases List.eq_nil_or_concat l with rfl | ⟨m, y, rfl⟩
    · exact absurd h (Nat.lt_irrefl 1)
    · have hdrop : (x :: (m ++ [y])).dropLast = x :: m := by
        rw [← List.cons_append, List.dropLast_concat]
      simp [replaceRoot, hdrop]

/-! ## The order of the tree -/

def Child (i j : Nat) : Prop := j = 2 * i + 1 ∨ j = 2 * i + 2

theorem Child.lt {i j : Nat} (h : Child i j) : i < j := by
  unfold Child at h
  omega

theorem Child.parent_unique {i i' j : Nat} (h : Child i j) (h' : Child i' j) : i = i' := by
  unfold Child at h h'
  omega

theorem child_parent {j : Nat} (h : 0 < j) : Child ((j - 1) / 2) j := by
  unfold Child
  omega

section Order

variable [Preorder α]

/-- The element at `j` is at most the one at `i`, if both are there. -/
def Below (a : Array α) (j i : Nat) : Prop :=
  ∀ (hj : j < a.size) (hi : i < a.size), a[j] ≤ a[i]

def IsHeap (a : Array α) : Prop := ∀ i j, Child i j → Below a j i

/-- The order holds wherever `k` is not involved, and past `k`. -/
structure HeapExcept (a : Array α) (k : Nat) : Prop where
  off : ∀ i j, Child i j → i ≠ k → j ≠ k → Below a j i
  past : ∀ i j, Child i k → Child k j → Below a j i

/-- The order holds except, perhaps, between `k` and its parent. -/
structure HeapBelow (a : Array α) (k : Nat) : Prop extends HeapExcept a k where
  under : ∀ j, Child k j → Below a j k

theorem Below.trans {a : Array α} {i j k : Nat} (hkj : Below a k j) (hji : Below a j i)
    (hj : j < a.size) : Below a k i :=
  fun hk hi => le_trans (hkj hk hj) (hji hj hi)

/-- The two positions of a swap change places. -/
theorem below_swap {a : Array α} {k c : Nat} (hk : k < a.size) (hc : c < a.size) {i j : Nat} :
    Below (a.swap k c hk hc) j i ↔ Below a (Equiv.swap k c j) (Equiv.swap k c i) := by
  have hget : ∀ x (hx : x < (a.swap k c hk hc).size),
      ∃ hx' : Equiv.swap k c x < a.size, (a.swap k c hk hc)[x] = a[Equiv.swap k c x] := by
    intro x hx
    rw [Array.size_swap] at hx
    by_cases hxk : x = k
    · subst hxk
      simp [hc]
    · by_cases hxc : x = c
      · subst hxc
        simp [hk]
      · simp [Equiv.swap_apply_of_ne_of_ne hxk hxc, hxk, hxc, hx]
  have hsize : ∀ x, Equiv.swap k c x < a.size → x < (a.swap k c hk hc).size := by
    intro x hx
    rw [Array.size_swap]
    by_cases hxk : x = k
    · exact hxk ▸ hk
    · by_cases hxc : x = c
      · exact hxc ▸ hc
      · rwa [Equiv.swap_apply_of_ne_of_ne hxk hxc] at hx
  constructor
  · intro h hj hi
    obtain ⟨hj', hjeq⟩ := hget j (hsize j hj)
    obtain ⟨hi', hieq⟩ := hget i (hsize i hi)
    have hle := h (hsize j hj) (hsize i hi)
    rwa [hjeq, hieq] at hle
  · intro h hj hi
    obtain ⟨hj', hjeq⟩ := hget j hj
    obtain ⟨hi', hieq⟩ := hget i hi
    rw [hjeq, hieq]
    exact h hj' hi'

/-- Nothing is greater than the root. -/
theorem IsHeap.le_root {a : Array α} (h : IsHeap a) (j : Nat) : Below a j 0 := by
  induction j using Nat.strongRecOn with
  | ind j ih =>
    by_cases hj : 0 < j
    · have hchild := child_parent hj
      intro hlt
      exact ((h _ _ hchild).trans (ih _ hchild.lt) (by omega)) hlt
    · obtain rfl : j = 0 := by omega
      exact fun _ _ => le_refl _

/-- A heap whose element at `k` is replaced. -/
theorem IsHeap.except_of_agree {a b : Array α} {k : Nat} (h : IsHeap a) (hsize : b.size ≤ a.size)
    (heq : ∀ i (hi : i < b.size), i ≠ k → b[i] = a[i]) : HeapExcept b k where
  off i j hij hik hjk hj hi := by
    rw [heq i hi hik, heq j hj hjk]
    exact h i j hij _ _
  past i j hik hkj hj hi := by
    have hilt := hik.lt
    have hklt := hkj.lt
    rw [heq i hi (by omega), heq j hj (by omega)]
    exact ((h k j hkj).trans (h i k hik) (by omega)) _ _

/-- Moving the greater child up moves the exception down. -/
theorem HeapExcept.swap_child {a : Array α} {k c : Nat} (h : HeapExcept a k) (hchild : Child k c)
    (hk : k < a.size) (hc : c < a.size) (hgreatest : ∀ j, Child k j → Below a j c) :
    HeapExcept (a.swap k c hk hc) c where
  off i j hij hic hjc := by
    rw [below_swap]
    by_cases hjk : j = k
    · subst hjk
      have hij' := hij.lt
      rw [Equiv.swap_apply_left, Equiv.swap_apply_of_ne_of_ne (by omega) hic]
      exact h.past i c hij hchild
    · rw [Equiv.swap_apply_of_ne_of_ne hjk hjc]
      by_cases hik : i = k
      · subst hik
        rw [Equiv.swap_apply_left]
        exact hgreatest j hij
      · rw [Equiv.swap_apply_of_ne_of_ne hik hic]
        exact h.off i j hij hik hjk
  past i j hic hcj := by
    obtain rfl := hic.parent_unique hchild
    have hlt := hchild.lt
    have hlt' := hcj.lt
    rw [below_swap, Equiv.swap_apply_left, Equiv.swap_apply_of_ne_of_ne (by omega) (by omega)]
    exact h.off c j hcj (by omega) (by omega)

/-- Moving a parent down that is not greater moves the exception up. -/
theorem HeapBelow.swap_parent {a : Array α} {p k : Nat} (h : HeapBelow a k) (hchild : Child p k)
    (hk : k < a.size) (hp : p < a.size) (hle : Below a p k) :
    HeapBelow (a.swap k p hk hp) p where
  off i j hij hip hjp := by
    rw [below_swap]
    by_cases hjk : j = k
    · subst hjk
      exact absurd (hij.parent_unique hchild) hip
    · rw [Equiv.swap_apply_of_ne_of_ne hjk hjp]
      by_cases hik : i = k
      · subst hik
        rw [Equiv.swap_apply_left]
        exact h.past p j hchild hij
      · rw [Equiv.swap_apply_of_ne_of_ne hik hip]
        exact h.off i j hij hik hjk
  past i j hip hpj := by
    have hik := hip.lt
    have hpk := hchild.lt
    have hpj' := hpj.lt
    rw [below_swap, Equiv.swap_apply_of_ne_of_ne (x := i) (by omega) (by omega)]
    have hup : Below a p i := h.off i p hip (by omega) (by omega)
    by_cases hjk : j = k
    · subst hjk
      rw [Equiv.swap_apply_left]
      exact hup
    · rw [Equiv.swap_apply_of_ne_of_ne hjk (by omega)]
      exact (h.off p j hpj (by omega) hjk).trans hup hp
  under j hpj := by
    have hpk := hchild.lt
    have hpj' := hpj.lt
    rw [below_swap, Equiv.swap_apply_right]
    by_cases hjk : j = k
    · subst hjk
      rw [Equiv.swap_apply_left]
      exact hle
    · rw [Equiv.swap_apply_of_ne_of_ne hjk (by omega)]
      exact (h.off p j hpj (by omega) hjk).trans hle hp

/-- No exception is left where the parent is not smaller. -/
theorem HeapBelow.isHeap {a : Array α} {k : Nat} (h : HeapBelow a k)
    (hle : ∀ i, Child i k → Below a k i) : IsHeap a := by
  intro i j hij
  by_cases hik : i = k
  · subst hik
    exact h.under j hij
  · by_cases hjk : j = k
    · subst hjk
      exact hle i hij
    · exact h.off i j hij hik hjk

end Order

/-! ## What sifting does -/

section Spec

variable [Preorder α] [DecidableLE α]

theorem siftUp_perm (a : Array α) (pos : Nat) : (siftUp a pos).Perm a := by
  induction a, pos using siftUp.induct with
  | case1 a pos h hle =>
    rw [siftUp, dif_pos h, if_pos hle]
  | case2 a pos h hle ih =>
    rw [siftUp, dif_pos h, if_neg hle]
    exact ih.trans (Array.swap_perm _ _)
  | case3 a pos h =>
    rw [siftUp, dif_neg h]

theorem siftDownToBottom_perm (a : Array α) (pos : Nat) : (siftDownToBottom a pos).Perm a := by
  induction a, pos using siftDownToBottom.induct with
  | case1 a pos h ih =>
    rw [siftDownToBottom, dif_pos h]
    exact ih.trans (Array.swap_perm _ _)
  | case2 a pos h h' =>
    rw [siftDownToBottom, dif_neg h, dif_pos h']
    exact (siftUp_perm _ _).trans (Array.swap_perm _ _)
  | case3 a pos h h' =>
    rw [siftDownToBottom, dif_neg h, dif_neg h']
    exact siftUp_perm _ _

theorem greaterChild_child {a : Array α} {pos : Nat} (h : 2 * pos + 2 < a.size) :
    Child pos (greaterChild a pos h) := by
  unfold greaterChild Child
  split <;> omega

variable [Std.Total (α := α) (· ≤ ·)]

theorem isHeap_siftUp {a : Array α} {pos : Nat} (h : HeapBelow a pos) : IsHeap (siftUp a pos) := by
  induction a, pos using siftUp.induct with
  | case1 a pos hpos hle =>
    rw [siftUp, dif_pos hpos, if_pos hle]
    refine h.isHeap ?_
    intro i hi
    obtain rfl := hi.parent_unique (child_parent hpos.1)
    exact fun _ _ => hle
  | case2 a pos hpos hle ih =>
    rw [siftUp, dif_pos hpos, if_neg hle]
    refine ih (h.swap_parent (child_parent hpos.1) _ _ ?_)
    intro hp hj
    exact (Std.Total.total (r := (· ≤ · : α → α → Prop)) _ _).resolve_right hle
  | case3 a pos hpos =>
    rw [siftUp, dif_neg hpos]
    refine h.isHeap ?_
    intro i hi hj
    have := hi.lt
    omega

theorem below_greaterChild {a : Array α} {pos : Nat} (h : 2 * pos + 2 < a.size) (j : Nat)
    (hj : Child pos j) : Below a j (greaterChild a pos h) := by
  unfold greaterChild
  split
  next hle =>
    rcases hj with rfl | rfl
    · exact fun _ _ => hle
    · exact fun _ _ => le_refl _
  next hle =>
    rcases hj with rfl | rfl
    · exact fun _ _ => le_refl _
    · exact fun _ _ => (Std.Total.total (r := (· ≤ · : α → α → Prop)) _ _).resolve_left hle

theorem isHeap_siftDownToBottom {a : Array α} {pos : Nat} (h : HeapExcept a pos) :
    IsHeap (siftDownToBottom a pos) := by
  induction a, pos using siftDownToBottom.induct with
  | case1 a pos hboth ih =>
    rw [siftDownToBottom, dif_pos hboth]
    exact ih (h.swap_child (greaterChild_child hboth) _ _ (below_greaterChild hboth))
  | case2 a pos hboth hleft =>
    rw [siftDownToBottom, dif_neg hboth, dif_pos hleft]
    have hswap := h.swap_child (c := 2 * pos + 1) (Or.inl rfl) (by omega) hleft (by
      rintro j (rfl | rfl)
      · exact fun _ _ => le_refl _
      · intro hj
        omega)
    refine isHeap_siftUp { hswap with under := ?_ }
    intro j hj hlt
    rw [Array.size_swap] at hlt
    have := hj.lt
    unfold Child at hj
    omega
  | case3 a pos hboth hleft =>
    rw [siftDownToBottom, dif_neg hboth, dif_neg hleft]
    refine isHeap_siftUp { h with under := ?_ }
    intro j hj hlt
    unfold Child at hj
    omega

end Spec

end BinaryHeap

/-! ## Heaps -/

structure BinaryHeap (α : Type) [Preorder α] where
  data : Array α
  isHeap : BinaryHeap.IsHeap data

namespace BinaryHeap

variable {α : Type} [Preorder α]

def new : BinaryHeap α := ⟨#[], fun _ _ _ hj => absurd hj (Nat.not_lt_zero _)⟩

def toList (h : BinaryHeap α) : List α := h.data.toList

def len (h : BinaryHeap α) : Nat := h.data.size

def peek (h : BinaryHeap α) : Option α := h.data[0]?

@[simp] theorem toList_new : (new : BinaryHeap α).toList = [] := rfl

theorem len_eq (h : BinaryHeap α) : h.len = h.toList.length := rfl

theorem peek_none {h : BinaryHeap α} (hp : h.peek = none) : h.toList = [] := by
  have hsize : h.data.size ≤ 0 := Array.getElem?_eq_none_iff.mp hp
  exact List.eq_nil_of_length_eq_zero (Nat.le_zero.mp hsize)

/-- Nothing in the heap is greater than what `peek` shows. -/
theorem le_peek {h : BinaryHeap α} {x : α} (hp : h.peek = some x) : ∀ y ∈ h.toList, y ≤ x := by
  intro y hy
  obtain ⟨h0, rfl⟩ := Array.getElem?_eq_some_iff.mp hp
  obtain ⟨i, hi, rfl⟩ := List.mem_iff_getElem.mp hy
  exact h.isHeap.le_root i hi h0

theorem IsHeap.replaceRoot_except {a : Array α} (ha : IsHeap a) (h : 1 < a.size) :
    HeapExcept (replaceRoot a h) 0 :=
  ha.except_of_agree (by rw [size_replaceRoot]; omega) fun _ hi h0 => getElem_replaceRoot h hi _ h0

theorem IsHeap.push {a : Array α} (ha : IsHeap a) (x : α) : HeapBelow (a.push x) a.size where
  off i j hij hi hj hjlt hilt := by
    rw [Array.size_push] at hjlt hilt
    rw [Array.getElem_push_lt (by omega), Array.getElem_push_lt (by omega)]
    exact ha i j hij _ _
  past i j _ hkj hjlt := by
    have := hkj.lt
    rw [Array.size_push] at hjlt
    omega
  under j hkj hjlt := by
    have := hkj.lt
    rw [Array.size_push] at hjlt
    omega

section Operations

variable [DecidableLE α] [Std.Total (α := α) (· ≤ ·)]

def push (h : BinaryHeap α) (x : α) : BinaryHeap α :=
  ⟨siftUp (h.data.push x) h.data.size, isHeap_siftUp (h.isHeap.push x)⟩

def pop (h : BinaryHeap α) : Option (α × BinaryHeap α) :=
  if h1 : 1 < h.data.size then
    some (h.data[0],
      ⟨siftDownToBottom (replaceRoot h.data h1) 0, isHeap_siftDownToBottom (h.isHeap.replaceRoot_except h1)⟩)
  else
    match h.peek with
    | none => none
    | some x => some (x, new)

theorem push_perm (h : BinaryHeap α) (x : α) : (h.push x).toList.Perm (x :: h.toList) := by
  have hsift := (siftUp_perm (h.data.push x) h.data.size).toList
  rw [Array.toList_push] at hsift
  exact hsift.trans (List.perm_append_singleton x h.data.toList)

/-- `pop` takes out what `peek` shows, and nothing else. -/
theorem pop_of_peek {h : BinaryHeap α} {x : α} (hp : h.peek = some x) :
    ∃ h', h.pop = some (x, h') ∧ h.toList.Perm (x :: h'.toList) := by
  obtain ⟨h0, rfl⟩ := Array.getElem?_eq_some_iff.mp hp
  unfold pop
  split
  next h1 =>
    refine ⟨_, rfl, (replaceRoot_perm h1).trans ?_⟩
    exact (siftDownToBottom_perm _ 0).toList.symm.cons _
  next h1 =>
    refine ⟨new, by rw [hp], ?_⟩
    have hone : h.toList.length = 1 := by
      rw [← len_eq]
      unfold len
      omega
    obtain ⟨y, hy⟩ := List.length_eq_one_iff.mp hone
    have hmem : h.data[0] ∈ h.toList := Array.getElem_mem_toList h0
    rw [hy] at hmem
    rw [hy, List.mem_singleton.mp hmem, toList_new]

end Operations

end BinaryHeap
