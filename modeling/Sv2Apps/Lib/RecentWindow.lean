/-
  Lib/RecentWindow.lean
  =====================
  **Remembering the most recent entries** — a list that is kept at a bounded length by dropping its
  oldest entry (`pushBounded`), beside the log of everything that was pushed.

  What the list holds is at least the recent end of the log (`rtake_suffix_pushBounded`).  Where an
  entry is pushed only if the list does not hold it, two pushes of the same entry have at least
  `max` other pushes between them (`SpacedBy.between`).
-/
import Mathlib.Data.List.DropRight
import Mathlib.Data.List.Dedup

namespace RecentWindow

variable {α : Type}

/-- Push to a list of at most `max` entries; a full one loses its oldest entry. -/
def pushBounded (max : Nat) (l : List α) (a : α) : List α :=
  (if l.length = max then l.tail else l) ++ [a]

theorem rtake_suffix (l : List α) (n : Nat) : l.rtake n <:+ l := List.drop_suffix _ _

theorem rtake_of_length_le {l : List α} {n : Nat} (h : l.length ≤ n) : l.rtake n = l := by
  unfold List.rtake
  rw [Nat.sub_eq_zero_of_le h, List.drop_zero]

theorem rtake_cons_of_le {l : List α} {n : Nat} (a : α) (h : n ≤ l.length) :
    (a :: l).rtake n = l.rtake n := by
  unfold List.rtake
  rw [List.length_cons, Nat.succ_sub h, List.drop_succ_cons]

/-- The last `n` entries of a list are among any longer end of it. -/
theorem rtake_append_of_le {l₁ l₂ : List α} {n : Nat} (h : n ≤ l₂.length) :
    (l₁ ++ l₂).rtake n = l₂.rtake n := by
  unfold List.rtake
  rw [List.length_append, Nat.add_sub_assoc h, List.drop_append, List.drop_eq_nil_of_le (by omega),
    Nat.add_sub_cancel_left, List.nil_append]

theorem rtake_suffix_of_le (l : List α) {m n : Nat} (h : m ≤ n) : l.rtake m <:+ l.rtake n := by
  unfold List.rtake
  exact List.drop_suffix_drop_left l (Nat.sub_le_sub_left h l.length)

theorem length_rtake_le (l : List α) (n : Nat) : (l.rtake n).length ≤ n := by
  unfold List.rtake
  rw [List.length_drop]
  omega

/-- The recent end of the log stays in the list. -/
theorem rtake_suffix_pushBounded {max : Nat} {log l : List α} (h : log.rtake max <:+ l) (a : α) :
    (log ++ [a]).rtake max <:+ pushBounded max l a := by
  unfold pushBounded
  cases max with
  | zero =>
    rw [List.rtake_zero]
    exact List.nil_suffix
  | succ n =>
    rw [List.rtake_concat_succ]
    apply List.suffix_append_self_iff.mpr
    have hn : log.rtake n <:+ l := (rtake_suffix_of_le log (Nat.le_succ n)).trans h
    split
    next hfull =>
      apply List.suffix_of_suffix_length_le hn (List.tail_suffix l)
      rw [List.length_tail, hfull]
      exact length_rtake_le log n
    · exact hn

/-- No entry equals one of the `max` entries before it. -/
def SpacedBy (max : Nat) (log : List α) : Prop :=
  ∀ before a after, log = before ++ a :: after → a ∉ before.rtake max

theorem spacedBy_nil (max : Nat) : SpacedBy max ([] : List α) := by
  intro before a after h
  cases before <;> cases h

theorem SpacedBy.snoc {max : Nat} {log : List α} {a : α} (h : SpacedBy max log)
    (ha : a ∉ log.rtake max) : SpacedBy max (log ++ [a]) := by
  intro before b after heq
  rcases List.eq_nil_or_concat' after with rfl | ⟨after', c, rfl⟩
  · obtain ⟨rfl, hab⟩ := List.append_inj' heq rfl
    cases hab
    exact ha
  · have heq' : log ++ [a] = (before ++ b :: after') ++ [c] := by
      rw [heq, List.append_assoc]
      rfl
    obtain ⟨hlog, -⟩ := List.append_inj' heq' rfl
    exact h before b after' hlog

/-- Fewer than `max` entries come after `a`. -/
theorem mem_rtake_append_cons {max : Nat} (before : List α) (a : α) {between : List α}
    (h : between.length < max) : a ∈ (before ++ a :: between).rtake max := by
  have hsuffix : a :: between <:+ (before ++ a :: between).rtake max := by
    unfold List.rtake
    apply List.suffix_of_suffix_length_le (List.suffix_append before _) (List.drop_suffix _ _)
    rw [List.length_drop, List.length_append, List.length_cons]
    omega
  exact hsuffix.subset List.mem_cons_self

/-- Between two equal entries there are `max` others. -/
theorem SpacedBy.between [DecidableEq α] {max : Nat} {log before between after : List α} {a : α}
    (h : SpacedBy max log) (hlog : log = before ++ a :: between ++ a :: after) :
    max ≤ (between.filter (· ≠ a)).length := by
  -- up to the first one that follows
  have hfirst : ∀ between after, log = before ++ a :: between ++ a :: after → a ∉ between →
      max ≤ (between.filter (· ≠ a)).length := by
    intro between after heq hnot
    have hfilter : between.filter (· ≠ a) = between := by
      rw [List.filter_eq_self]
      intro b hb
      exact decide_eq_true fun hba => hnot (hba ▸ hb)
    rw [hfilter]
    by_contra hlt
    exact h (before ++ a :: between) a after heq
      (mem_rtake_append_cons before a (Nat.lt_of_not_le hlt))
  by_cases hmem : a ∈ between
  · obtain ⟨between', rest, rfl, hnot⟩ := List.eq_append_cons_of_mem hmem
    have heq : log = before ++ a :: between' ++ a :: (rest ++ a :: after) := by
      rw [hlog]
      simp only [List.append_assoc, List.cons_append]
    have hle := hfirst between' (rest ++ a :: after) heq hnot
    rw [List.filter_append, List.length_append]
    exact Nat.le_trans hle (Nat.le_add_right _ _)
  · exact hfirst between after hlog hmem

/-! ## The distinct entries, by when they came last -/

section Distinct

variable [DecidableEq α]

/-- An entry that is pushed again moves to the recent end. -/
theorem dedup_concat (l : List α) (a : α) :
    (l ++ [a]).dedup = (l.dedup.filter (· ≠ a)) ++ [a] := by
  induction l with
  | nil => simp
  | cons b l ih =>
    rw [List.cons_append]
    by_cases hmem : b ∈ l
    · rw [List.dedup_cons_of_mem (List.mem_append_left _ hmem), List.dedup_cons_of_mem hmem, ih]
    · rw [List.dedup_cons_of_notMem hmem]
      by_cases hba : b = a
      · subst hba
        rw [List.dedup_cons_of_mem (by simp), ih]
        simp
      · rw [List.dedup_cons_of_notMem (by simp [hmem, hba]), ih]
        simp [hba]

theorem dedup_filter (l : List α) (p : α → Bool) : (l.filter p).dedup = l.dedup.filter p := by
  induction l with
  | nil => rfl
  | cons a l ih =>
    by_cases hp : p a
    · rw [List.filter_cons_of_pos hp]
      by_cases hmem : a ∈ l
      · rw [List.dedup_cons_of_mem (List.mem_filter.mpr ⟨hmem, hp⟩), List.dedup_cons_of_mem hmem, ih]
      · rw [List.dedup_cons_of_notMem (fun h => hmem (List.mem_filter.mp h).1),
          List.dedup_cons_of_notMem hmem, List.filter_cons_of_pos hp, ih]
    · rw [List.filter_cons_of_neg hp, ih]
      by_cases hmem : a ∈ l
      · rw [List.dedup_cons_of_mem hmem]
      · rw [List.dedup_cons_of_notMem hmem, List.filter_cons_of_neg hp]

theorem length_filter_ne {l : List α} (h : l.Nodup) (a : α) :
    l.length ≤ (l.filter (· ≠ a)).length + 1 := by
  have herase : l.filter (· ≠ a) = l.erase a := by
    rw [h.erase_eq_filter]
    apply List.filter_congr
    intro b _
    by_cases hba : b = a <;> simp [hba]
  rw [herase, List.length_erase]
  split <;> omega

/-- A window of one more entry has enough left when one of them is taken out. -/
theorem rtake_filter_rtake {l : List α} (h : l.Nodup) (n : Nat) (a : α) :
    ((l.rtake (n + 1)).filter (· ≠ a)).rtake n = (l.filter (· ≠ a)).rtake n := by
  by_cases hlen : l.length ≤ n + 1
  · rw [rtake_of_length_le hlen]
  · obtain ⟨l₁, hl⟩ := rtake_suffix l (n + 1)
    have hnodup : (l.rtake (n + 1)).Nodup := h.sublist (rtake_suffix l (n + 1)).sublist
    have hfull : (l.rtake (n + 1)).length = n + 1 := by
      unfold List.rtake
      rw [List.length_drop]
      omega
    have hleft := length_filter_ne hnodup a
    conv_rhs => rw [← hl, List.filter_append]
    rw [rtake_append_of_le (by omega)]

end Distinct

end RecentWindow
