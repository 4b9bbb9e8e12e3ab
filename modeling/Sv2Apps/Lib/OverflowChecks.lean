/-
  Lib/OverflowChecks.lean
  =======================
  **Plain arithmetic in two builds** — where overflow is checked an operator panics (`none`),
  where it is not the operator wraps.  Most of it is for 64 bits; sums are also taken in 32 and
  in 16 bits.

  An operation whose exact result fits gives it in either build (`add_of_lt`, `mul_of_lt`,
  `sum_of_lt`); one whose result does not fit panics in the checked build.
-/
import Mathlib.Algebra.Group.Nat.Defs
import Mathlib.Data.List.Basic
import Mathlib.Tactic.NormNum

namespace OverflowChecks

/-- Whether a build checks its plain arithmetic for overflow. -/
inductive Build where
  | checked
  | wrapping
deriving DecidableEq

/-- The exact result `n`, as the build gives it. -/
def narrow (b : Build) (n : Nat) : Option UInt64 :=
  if b = .checked ∧ 2 ^ 64 ≤ n then none else some (UInt64.ofNat n)

def add (b : Build) (x y : UInt64) : Option UInt64 := narrow b (x.toNat + y.toNat)

def mul (b : Build) (x y : UInt64) : Option UInt64 := narrow b (x.toNat * y.toNat)

/-- `Iterator::sum`. -/
def sum (b : Build) (xs : List UInt64) : Option UInt64 := xs.foldlM (add b) 0

/-- The exact sum. -/
def total (xs : List UInt64) : Nat := (xs.map UInt64.toNat).sum

@[simp] theorem total_nil : total [] = 0 := rfl

@[simp] theorem total_cons (x : UInt64) (xs : List UInt64) : total (x :: xs) = x.toNat + total xs := by
  simp [total]

theorem narrow_of_lt {b : Build} {n : Nat} (h : n < 2 ^ 64) : narrow b n = some (UInt64.ofNat n) := by
  unfold narrow
  rw [if_neg]
  omega

theorem narrow_checked {n : Nat} : narrow .checked n ≠ none ↔ n < 2 ^ 64 := by
  unfold narrow
  constructor
  · intro h
    by_contra hn
    rw [if_pos ⟨rfl, by omega⟩] at h
    exact h rfl
  · intro h
    rw [if_neg (by omega)]
    simp

theorem toNat_ofNat_of_lt {n : Nat} (h : n < 2 ^ 64) : (UInt64.ofNat n).toNat = n := by
  rw [UInt64.toNat_ofNat']
  exact Nat.mod_eq_of_lt h

theorem add_of_lt {b : Build} {x y : UInt64} (h : x.toNat + y.toNat < 2 ^ 64) :
    add b x y = some (UInt64.ofNat (x.toNat + y.toNat)) :=
  narrow_of_lt h

theorem mul_of_lt {b : Build} {x y : UInt64} (h : x.toNat * y.toNat < 2 ^ 64) :
    mul b x y = some (UInt64.ofNat (x.toNat * y.toNat)) :=
  narrow_of_lt h

theorem mul_checked {x y : UInt64} : mul .checked x y ≠ none ↔ x.toNat * y.toNat < 2 ^ 64 :=
  narrow_checked

/-- Summing goes on from what has been summed. -/
theorem foldlM_add_of_lt {b : Build} {xs : List UInt64} {acc : UInt64}
    (h : acc.toNat + total xs < 2 ^ 64) :
    xs.foldlM (add b) acc = some (UInt64.ofNat (acc.toNat + total xs)) := by
  induction xs generalizing acc with
  | nil => simp
  | cons x xs ih =>
    rw [total_cons] at h
    have hx : acc.toNat + x.toNat < 2 ^ 64 := by omega
    rw [List.foldlM_cons, add_of_lt hx, Option.bind_eq_bind, Option.bind_some, ih]
    · rw [toNat_ofNat_of_lt hx, total_cons, Nat.add_assoc]
    · rw [toNat_ofNat_of_lt hx]
      omega

theorem foldlM_add_checked {xs : List UInt64} {acc : UInt64}
    (h : xs.foldlM (add .checked) acc ≠ none) : acc.toNat + total xs < 2 ^ 64 := by
  induction xs generalizing acc with
  | nil =>
    rw [total_nil]
    exact acc.toNat_lt
  | cons x xs ih =>
    rw [List.foldlM_cons] at h
    by_cases hx : acc.toNat + x.toNat < 2 ^ 64
    · rw [add_of_lt hx, Option.bind_eq_bind, Option.bind_some] at h
      have := ih h
      rw [toNat_ofNat_of_lt hx] at this
      rw [total_cons]
      omega
    · have hnone : add .checked acc x = none := by
        by_contra hn
        exact hx (narrow_checked.mp hn)
      rw [hnone] at h
      exact absurd rfl h

theorem sum_of_lt {b : Build} {xs : List UInt64} (h : total xs < 2 ^ 64) :
    sum b xs = some (UInt64.ofNat (total xs)) := by
  have h0 : (0 : UInt64).toNat + total xs < 2 ^ 64 := by simpa using h
  rw [sum, foldlM_add_of_lt h0]
  simp

theorem sum_checked {xs : List UInt64} : sum .checked xs ≠ none ↔ total xs < 2 ^ 64 := by
  constructor
  · intro h
    have := foldlM_add_checked h
    simpa using this
  · intro h
    rw [sum_of_lt h]
    simp

/-- Leaving terms out does not make a sum larger. -/
theorem total_filter_le {α : Type} (f : α → UInt64) (p : α → Bool) (xs : List α) :
    total ((xs.filter p).map f) ≤ total (xs.map f) := by
  induction xs with
  | nil => simp
  | cons x xs ih =>
    rw [List.filter_cons]
    split
    · simp only [List.map_cons, total_cons]
      omega
    · simp only [List.map_cons, total_cons]
      omega

/-! ## Sums of narrower integers -/

def addU32 (b : Build) (x y : UInt32) : Option UInt32 :=
  if b = .checked ∧ 2 ^ 32 ≤ x.toNat + y.toNat then none else some (x + y)

def addU16 (b : Build) (x y : UInt16) : Option UInt16 :=
  if b = .checked ∧ 2 ^ 16 ≤ x.toNat + y.toNat then none else some (x + y)

/-- `Iterator::sum`. -/
def sumU32 (b : Build) (xs : List UInt32) : Option UInt32 := xs.foldlM (addU32 b) 0

theorem addU32_of_lt {b : Build} {x y : UInt32} (h : x.toNat + y.toNat < 2 ^ 32) :
    ∃ z, addU32 b x y = some z ∧ z.toNat = x.toNat + y.toNat := by
  refine ⟨x + y, ?_, ?_⟩
  · unfold addU32
    rw [if_neg]
    omega
  · rw [UInt32.toNat_add, Nat.mod_eq_of_lt h]

theorem addU16_of_lt {b : Build} {x y : UInt16} (h : x.toNat + y.toNat < 2 ^ 16) :
    ∃ z, addU16 b x y = some z ∧ z.toNat = x.toNat + y.toNat := by
  refine ⟨x + y, ?_, ?_⟩
  · unfold addU16
    rw [if_neg]
    omega
  · rw [UInt16.toNat_add, Nat.mod_eq_of_lt h]

theorem foldlM_addU32_of_lt {b : Build} {xs : List UInt32} {acc : UInt32}
    (h : acc.toNat + (xs.map UInt32.toNat).sum < 2 ^ 32) :
    ∃ z, xs.foldlM (addU32 b) acc = some z ∧
      z.toNat = acc.toNat + (xs.map UInt32.toNat).sum := by
  induction xs generalizing acc with
  | nil => exact ⟨acc, rfl, by simp⟩
  | cons x xs ih =>
    rw [List.map_cons, List.sum_cons] at h ⊢
    obtain ⟨y, hadd, hy⟩ := addU32_of_lt (b := b) (x := acc) (y := x) (by omega)
    obtain ⟨z, hfold, hz⟩ := ih (show y.toNat + (xs.map UInt32.toNat).sum < 2 ^ 32 by omega)
    refine ⟨z, ?_, by omega⟩
    rw [List.foldlM_cons, hadd]
    exact hfold

theorem sumU32_of_lt {b : Build} {xs : List UInt32} (h : (xs.map UInt32.toNat).sum < 2 ^ 32) :
    ∃ z, sumU32 b xs = some z ∧ z.toNat = (xs.map UInt32.toNat).sum := by
  obtain ⟨z, hfold, hz⟩ := foldlM_addU32_of_lt (b := b)
    (show (0 : UInt32).toNat + (xs.map UInt32.toNat).sum < 2 ^ 32 by simpa using h)
  exact ⟨z, hfold, by simpa using hz⟩

end OverflowChecks
