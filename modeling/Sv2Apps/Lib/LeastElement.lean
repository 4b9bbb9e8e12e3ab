/-
  Lib/LeastElement.lean
  =====================
  **The least element that a fold of `min` finds** — over a list and a starting value, for any
  linear order, and what happens when the same elements are folded under two orders.

  `foldl_min_map_iff`: folding the images of the elements finds the image of their least element
  exactly when one element is least in both orders.
-/
import Mathlib.Data.List.Basic
import Mathlib.Order.Bounds.Basic

namespace LeastElement

variable {α β : Type} [LE α] [Std.IsLinearOrder α]

theorem isLeast_unique {s : Set α} {a b : α} (ha : IsLeast s a) (hb : IsLeast s b) : a = b :=
  Std.le_antisymm (ha.2 hb.1) (hb.2 ha.1)

variable [Min α] [Std.LawfulOrderMin α]

/-- The fold finds the least of the starting value and the elements. -/
theorem foldl_min_isLeast (xs : List α) (start : α) :
    IsLeast {x | x ∈ start :: xs} (xs.foldl (fun least x => min x least) start) := by
  induction xs generalizing start with
  | nil =>
    constructor
    · simp
    · intro x hx
      obtain rfl := List.mem_singleton.mp hx
      exact Std.le_refl x
  | cons y ys ih =>
    obtain ⟨hmem, hle⟩ := ih (min y start)
    have hmin : (ys.foldl (fun least x => min x least) (min y start)) ≤ min y start :=
      hle (List.mem_cons_self ..)
    constructor
    · show _ ∈ start :: y :: ys
      rcases List.mem_cons.mp hmem with heq | hin
      · rw [List.foldl_cons, heq]
        rcases Std.MinEqOr.min_eq_or y start with h | h
        · simp [h]
        · simp [h]
      · exact List.mem_cons_of_mem _ (List.mem_cons_of_mem _ hin)
    · intro x hx
      have hx' : x = start ∨ x = y ∨ x ∈ ys := by simpa using hx
      rcases hx' with rfl | rfl | hin
      · exact Std.le_trans hmin Std.min_le_right
      · exact Std.le_trans hmin Std.min_le_left
      · exact hle (List.mem_cons_of_mem _ hin)

variable [LE β] [Min β] [Std.IsLinearOrder β] [Std.LawfulOrderMin β]

/-- Two orders agree on the least element when one element is least in both. -/
theorem foldl_min_map_iff (f : α → β) (xs : List α) (start : α) :
    (xs.map f).foldl (fun least x => min x least) (f start) =
        f (xs.foldl (fun least x => min x least) start) ↔
      ∃ a, IsLeast {x | x ∈ start :: xs} a ∧ ∀ x ∈ start :: xs, f a ≤ f x := by
  have hleast := foldl_min_isLeast xs start
  have himage := foldl_min_isLeast (xs.map f) (f start)
  rw [← List.map_cons] at himage
  constructor
  · intro heq
    rw [heq] at himage
    exact ⟨_, hleast, fun x hx => himage.2 (List.mem_map_of_mem hx)⟩
  · rintro ⟨a, ha, hfa⟩
    rw [isLeast_unique hleast ha]
    apply isLeast_unique himage
    refine ⟨List.mem_map_of_mem ha.1, ?_⟩
    intro y hy
    obtain ⟨x, hx, rfl⟩ := List.mem_map.mp hy
    exact hfa x hx

end LeastElement
