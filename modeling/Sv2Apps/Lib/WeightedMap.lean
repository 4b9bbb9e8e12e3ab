/-
  Lib/WeightedMap.lean
  ====================
  **The total weight of a map** — the sum of a weight over the entries of a map, and how it changes
  when an entry is added or entries are dropped.  `total_le_of_lookup` compares the totals of two
  maps through their lookups, so that no proof needs the order of the entries.

  A hash map is visited in an order that nobody promises: `Iteration` is any such order.
-/
import Sv2Apps.Lib.KeyMap
import Mathlib.Algebra.Order.BigOperators.Group.List
import Mathlib.Algebra.Order.Ring.Nat

namespace KeyMap

variable {K V : Type}

/-- An order in which the entries of a map are visited. -/
structure Iteration (K V : Type) where
  visit : List (Σ _ : K, V) → List (Σ _ : K, V)
  perm : ∀ es, (visit es).Perm es

/-- The order of the entries themselves. -/
def Iteration.asStored : Iteration K V := ⟨id, fun _ => List.Perm.refl _⟩

def weigh (w : V → Nat) (es : List (Σ _ : K, V)) : Nat := (es.map fun e => w e.2).sum

def total (w : V → Nat) (m : KeyMap K V) : Nat := weigh w m.entries

variable {w : V → Nat}

@[simp] theorem weigh_cons (e : Σ _ : K, V) (es : List (Σ _ : K, V)) :
    weigh w (e :: es) = w e.2 + weigh w es := rfl

@[simp] theorem total_empty : total w (∅ : KeyMap K V) = 0 := rfl

theorem weigh_perm {es es' : List (Σ _ : K, V)} (h : es.Perm es') : weigh w es = weigh w es' :=
  (h.map _).sum_eq

theorem weigh_sublist {es es' : List (Σ _ : K, V)} (h : es.Sublist es') :
    weigh w es ≤ weigh w es' := by
  exact (h.map fun e => w e.2).sum_le_sum fun n _ => Nat.zero_le n

theorem weigh_filter_add (p : (Σ _ : K, V) → Bool) (es : List (Σ _ : K, V)) :
    weigh w (es.filter p) + weigh w (es.filter fun e => !p e) = weigh w es := by
  induction es with
  | nil => rfl
  | cons e es ih =>
    cases hp : p e with
    | true => simp [hp, add_assoc, ih]
    | false => simp [hp, add_left_comm, ih]

/-- The weight of a map is that of the entries with `p` and of those without. -/
theorem total_retain_add (p : K → Bool) (m : KeyMap K V) :
    total w (retain (fun k _ => p k) m) + total w (retain (fun k _ => !p k) m) = total w m :=
  weigh_filter_add (fun e => p e.1) m.entries

variable [DecidableEq K]

theorem total_erase {m : KeyMap K V} {k : K} {v : V} (h : m.lookup k = some v) :
    total w m = w v + total w (m.erase k) :=
  weigh_perm (entries_perm_erase h)

theorem total_insert_of_lookup_none {m : KeyMap K V} {k : K} (h : m.lookup k = none) (v : V) :
    total w (m.insert k v) = w v + total w m := by
  unfold total
  rw [AList.entries_insert_of_notMem (AList.lookup_eq_none.mp h), weigh_cons]

theorem total_insert_le (m : KeyMap K V) (k : K) (v : V) :
    total w (m.insert k v) ≤ w v + total w m := by
  unfold total
  rw [AList.entries_insert, weigh_cons]
  exact Nat.add_le_add_left (weigh_sublist (List.kerase_sublist k m.entries)) _

theorem total_foldl_insert_le {α : Type} (f : α → K) (g : α → V) (l : List α) (m : KeyMap K V) :
    total w (l.foldl (fun m a => m.insert (f a) (g a)) m) ≤ total w m + (l.map (w ∘ g)).sum := by
  induction l generalizing m with
  | nil => exact Nat.le_refl _
  | cons a l ih =>
    have hinsert := total_insert_le m (f a) (g a) (w := w)
    have hrest := ih (m.insert (f a) (g a))
    simp only [List.foldl_cons, List.map_cons, List.sum_cons, Function.comp_apply] at *
    omega

/-- A map whose entries are all matched by heavier ones of another map is no heavier. -/
theorem total_le_of_lookup {m m' : KeyMap K V}
    (h : ∀ k v, m.lookup k = some v → ∃ v', m'.lookup k = some v' ∧ w v ≤ w v') :
    total w m ≤ total w m' := by
  have hes : ∀ (es : List (Σ _ : K, V)) (m' : KeyMap K V), es.NodupKeys →
      (∀ e ∈ es, ∃ v', m'.lookup e.1 = some v' ∧ w e.2 ≤ w v') → weigh w es ≤ total w m' := by
    intro es
    induction es with
    | nil =>
      intro m' _ _
      exact Nat.zero_le _
    | cons e es ih =>
      intro m' hnodup hall
      obtain ⟨hfresh, hnodup⟩ := List.nodupKeys_cons.mp hnodup
      obtain ⟨v', hv', hle⟩ := hall e List.mem_cons_self
      rw [weigh_cons, total_erase hv']
      refine Nat.add_le_add hle (ih _ hnodup ?_)
      intro e' he'
      have hne : e'.1 ≠ e.1 := by
        intro heq
        exact hfresh (heq ▸ List.mem_keys_of_mem he')
      obtain ⟨u, hu, hle'⟩ := hall e' (List.mem_cons_of_mem _ he')
      exact ⟨u, by rw [lookup_erase_eq, if_neg hne, hu], hle'⟩
  refine hes m.entries m' m.nodupKeys ?_
  intro e he
  exact h e.1 e.2 ((mem_entries_iff m e.1 e.2).mp he)

theorem lookup_foldl_ensure (es : List (Σ _ : K, V)) (m : KeyMap K V) (k : K) :
    (es.foldl (fun m e => ensure e.1 e.2 m) m).lookup k = (m.lookup k).or (es.dlookup k) := by
  induction es generalizing m with
  | nil => simp
  | cons e es ih =>
    rw [List.foldl_cons, ih, lookup_ensure]
    obtain ⟨k', v⟩ := e
    by_cases hk : k = k'
    · subst hk
      cases m.lookup k <;> simp
    · have hrest : List.dlookup k (⟨k', v⟩ :: es) = List.dlookup k es :=
        List.dlookup_cons_ne es ⟨k', v⟩ hk
      rw [if_neg hk, hrest]

end KeyMap
