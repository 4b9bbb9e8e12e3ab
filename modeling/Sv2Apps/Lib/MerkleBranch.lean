/-
  Lib/MerkleBranch.lean
  =====================
  **The branch of the first leaf of a Merkle tree** — over an arbitrary node
  function.  A level is paired up from the left, an odd last entry with itself.

  `foldl_branch`: folding the siblings of the first leaf into that leaf gives the root.
  `branch_congr`: the siblings do not depend on the first leaf, so one branch serves
  every first leaf.  `length_branch`: there is one sibling for each level above the leaves,
  and `n` leaves have `Nat.clog 2 n` of them.
-/
import Mathlib.Data.List.Basic
import Mathlib.Data.Nat.Log
import Mathlib.Tactic.Common

namespace MerkleBranch

variable {H : Type} (node : H → H → H)

/-- The level above: neighbours are joined, an odd last entry with itself. -/
def nextLevel : List H → List H
  | [] => []
  | [a] => [node a a]
  | a :: b :: rest => node a b :: nextLevel rest

theorem length_nextLevel : ∀ l : List H, (nextLevel node l).length = (l.length + 1) / 2
  | [] => by simp [nextLevel]
  | [_] => by simp [nextLevel]
  | _ :: _ :: rest => by
    simp only [nextLevel, List.length_cons, length_nextLevel rest]
    omega

/-- Go up level by level until one entry is left. -/
def rootAux : Nat → List H → Option H
  | _, [] => none
  | _, [a] => some a
  | 0, _ => none
  | n + 1, a :: b :: rest => rootAux n (nextLevel node (a :: b :: rest))

/-- The sibling of the first entry at each level, from the leaves up. -/
def branchAux : Nat → List H → List H
  | n + 1, a :: b :: rest => b :: branchAux n (nextLevel node (a :: b :: rest))
  | _, _ => []

def root (leaves : List H) : Option H := rootAux node leaves.length leaves

def branch (leaves : List H) : List H := branchAux node leaves.length leaves

theorem rootAux_eq_foldl : ∀ (n : Nat) (c : H) (xs : List H), xs.length ≤ n →
    rootAux node n (c :: xs) = some ((branchAux node n (c :: xs)).foldl node c)
  | 0, c, [], _ => rfl
  | n + 1, c, [], _ => rfl
  | n + 1, c, b :: rest, h => by
    have hlen : (nextLevel node rest).length ≤ n := by
      rw [length_nextLevel]
      simp only [List.length_cons] at h
      omega
    simp only [rootAux, branchAux, nextLevel, List.foldl_cons]
    exact rootAux_eq_foldl n (node c b) (nextLevel node rest) hlen

/-- **The branch leads from the first leaf to the root.** -/
theorem foldl_branch (c : H) (xs : List H) :
    root node (c :: xs) = some ((branch node (c :: xs)).foldl node c) :=
  rootAux_eq_foldl node _ c xs (by simp)

theorem branchAux_congr (n : Nat) (c c' : H) (xs : List H) :
    branchAux node n (c :: xs) = branchAux node n (c' :: xs) := by
  induction n generalizing c c' xs with
  | zero => rfl
  | succ n ih =>
    cases xs with
    | nil => rfl
    | cons b rest =>
      simp only [branchAux, nextLevel]
      rw [ih (node c b) (node c' b)]

/-- **The branch is the same whatever the first leaf is.** -/
theorem branch_congr (c c' : H) (xs : List H) :
    branch node (c :: xs) = branch node (c' :: xs) :=
  branchAux_congr node _ c c' xs

/-- An entry of the level above is made of the two entries below it, the second of them the last one
    of its level if there is no further. -/
theorem getElem?_nextLevel : ∀ (l : List H) (i : Nat), i < (nextLevel node l).length →
    (nextLevel node l)[i]? = l[2 * i]?.bind fun left =>
      l[min (2 * i + 1) (l.length - 1)]?.map fun right => node left right
  | [], i, h => absurd h (Nat.not_lt_zero i)
  | [a], i, h => by
    have hi : i = 0 := Nat.lt_one_iff.mp h
    subst hi
    rfl
  | a :: b :: rest, 0, _ => by
    have hmin : min (2 * 0 + 1) ((a :: b :: rest).length - 1) = 1 := by
      simp only [List.length_cons]
      omega
    rw [hmin]
    rfl
  | a :: b :: rest, i + 1, h => by
    have hlt : i < (nextLevel node rest).length := Nat.lt_of_succ_lt_succ h
    have hlen := length_nextLevel node rest
    have hmin : min (2 * (i + 1) + 1) ((a :: b :: rest).length - 1) =
        min (2 * i + 1) (rest.length - 1) + 2 := by
      simp only [List.length_cons]
      omega
    have hup := getElem?_nextLevel rest i hlt
    rw [nextLevel, List.getElem?_cons_succ, hup, hmin, Nat.mul_succ]
    rfl

/-- More rounds than are needed change nothing. -/
theorem branchAux_fuel : ∀ (n m : Nat) (l : List H), l.length ≤ n + 1 → l.length ≤ m + 1 →
    branchAux node n l = branchAux node m l
  | n, m, [], _, _ => by cases n <;> cases m <;> rfl
  | n, m, [a], _, _ => by cases n <;> cases m <;> rfl
  | 0, _, a :: b :: rest, hn, _ => by simp at hn
  | _, 0, a :: b :: rest, _, hm => by simp at hm
  | n + 1, m + 1, a :: b :: rest, hn, hm => by
    have hlen := length_nextLevel node (a :: b :: rest)
    simp only [List.length_cons] at hlen hn hm
    simp only [branchAux]
    rw [branchAux_fuel n m _ (by omega) (by omega)]

theorem length_branchAux : ∀ (n : Nat) (l : List H), l.length ≤ n + 1 →
    (branchAux node n l).length = Nat.clog 2 l.length
  | n, [], _ => by cases n <;> rfl
  | n, [a], _ => by cases n <;> simp [branchAux]
  | 0, a :: b :: rest, h => by simp at h
  | n + 1, a :: b :: rest, h => by
    have hlen := length_nextLevel node (a :: b :: rest)
    simp only [List.length_cons] at hlen h
    have hup := length_branchAux n (nextLevel node (a :: b :: rest)) (by omega)
    simp only [branchAux, List.length_cons]
    rw [hup, hlen, Nat.clog_of_two_le Nat.one_lt_two (Nat.le_add_left 2 rest.length)]
    congr 2

/-- **There is one entry for each level above the leaves.** -/
theorem length_branch (l : List H) : (branch node l).length = Nat.clog 2 l.length :=
  length_branchAux node _ l (Nat.le_succ _)

end MerkleBranch
