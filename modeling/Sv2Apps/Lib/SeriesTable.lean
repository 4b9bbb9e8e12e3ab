/-
  Lib/SeriesTable.lean
  ====================
  **A table that follows a changing source** — values are written over those that are there, and
  then the keys that were recorded the last time and are not recorded now are removed
  (`resync`).  Nothing else forgets a value.

  A table whose keys are all recorded (`Covers`) shows the last value written at each recorded
  key; a key that is recorded and not written keeps the value it had (`get_resync`).  So the table
  shows what was written and no more exactly if no recorded key is left out that had a value
  (`resync_exact_iff`).
-/
import Sv2Apps.Lib.KeyMap

/-- Tables `T` of values at keys, and what can be done with them. -/
structure SeriesTable (K V T : Type) where
  empty : T
  set : T → K → V → T
  remove : T → K → T
  get : T → K → Option V

namespace SeriesTable

/-! ## The last word -/

section LastOf

variable {A B V : Type}

/-- The last one of several sources that says something. -/
def lastOf (f : A → Option V) : List A → Option V
  | [] => none
  | a :: as => (lastOf f as).or (f a)

theorem lastOf_append (f : A → Option V) (as bs : List A) :
    lastOf f (as ++ bs) = (lastOf f bs).or (lastOf f as) := by
  induction as with
  | nil => rw [List.nil_append, lastOf, Option.or_none]
  | cons a as ih => rw [List.cons_append, lastOf, lastOf, ih, Option.or_assoc]

theorem lastOf_eq_none {f : A → Option V} {as : List A} :
    lastOf f as = none ↔ ∀ a ∈ as, f a = none := by
  induction as with
  | nil => simp [lastOf]
  | cons a as ih => simp [lastOf, Option.or_eq_none_iff, ih, and_comm]

theorem lastOf_map (f : B → Option V) (g : A → B) (as : List A) :
    lastOf f (as.map g) = lastOf (fun a => f (g a)) as := by
  induction as with
  | nil => rfl
  | cons a as ih => rw [List.map_cons, lastOf, lastOf, ih]

/-- One value for every member of a list. -/
theorem lastOf_const [DecidableEq A] (as : List A) (v : V) (a : A) :
    lastOf (fun b => if a = b then some v else none) as = if a ∈ as then some v else none := by
  induction as with
  | nil => rfl
  | cons b as ih =>
    rw [lastOf, ih]
    by_cases ha : a ∈ as
    · rw [if_pos ha, if_pos (List.mem_cons_of_mem _ ha), Option.some_or]
    · rw [if_neg ha, Option.none_or]
      by_cases hb : a = b
      · rw [if_pos hb, if_pos (by rw [hb]; exact List.mem_cons_self)]
      · rw [if_neg hb, if_neg (by simp [ha, hb])]

/-- The entries of a map have one value at most for a key. -/
theorem lastOf_entries {K W : Type} [DecidableEq K] (m : KeyMap K V) (f : V → W) (k : K) :
    lastOf (fun e : Σ _ : K, V => if k = e.1 then some (f e.2) else none) m.entries =
      (m.lookup k).map f := by
  have hes : ∀ es : List (Σ _ : K, V), es.NodupKeys →
      lastOf (fun e : Σ _ : K, V => if k = e.1 then some (f e.2) else none) es =
        (es.dlookup k).map f := by
    intro es
    induction es with
    | nil => exact fun _ => rfl
    | cons e es ih =>
      intro hnd
      obtain ⟨j, v⟩ := e
      obtain ⟨hnot, hnd⟩ := List.nodupKeys_cons.mp hnd
      rw [lastOf, ih hnd]
      by_cases hk : k = j
      · subst hk
        rw [List.dlookup_eq_none.mpr hnot, List.dlookup_cons_eq]
        simp
      · rw [List.dlookup_cons_ne es ⟨j, v⟩ hk, if_neg hk, Option.or_none]
  exact hes m.entries m.nodupKeys

end LastOf

variable {K V T : Type} [DecidableEq K]

/-- The last value that is written at a key. -/
def lastWrite (ws : List (K × V)) (k : K) : Option V :=
  lastOf (fun w => if k = w.1 then some w.2 else none) ws

/-- The writes of several sources, one after the other. -/
theorem lastWrite_flatMap_of {A : Type} {f : A → List (K × V)} {g : A → Option V} {k : K}
    (h : ∀ a, lastWrite (f a) k = g a) {as : List A} :
    lastWrite (as.flatMap f) k = lastOf g as := by
  induction as with
  | nil => rfl
  | cons a as ih =>
    rw [List.flatMap_cons, lastWrite, lastOf_append, ← lastWrite, ← lastWrite, ih, h, lastOf]

theorem lastWrite_ne_none {ws : List (K × V)} {k : K} :
    lastWrite ws k ≠ none ↔ k ∈ ws.map Prod.fst := by
  rw [lastWrite, ne_eq, lastOf_eq_none]
  simp [eq_comm]

/-! ## Many writes and removals -/

structure Lawful (t : SeriesTable K V T) : Prop where
  get_empty : ∀ k, t.get t.empty k = none
  get_set : ∀ s k v j, t.get (t.set s k v) j = if j = k then some v else t.get s j
  get_remove : ∀ s k j, t.get (t.remove s k) j = if j = k then none else t.get s j

def setAll (t : SeriesTable K V T) (s : T) (ws : List (K × V)) : T :=
  ws.foldl (fun s w => t.set s w.1 w.2) s

def removeAll (t : SeriesTable K V T) (s : T) (ks : List K) : T := ks.foldl t.remove s

omit [DecidableEq K] in
theorem setAll_append (t : SeriesTable K V T) (s : T) (ws vs : List (K × V)) :
    t.setAll s (ws ++ vs) = t.setAll (t.setAll s ws) vs :=
  List.foldl_append

theorem get_setAll {t : SeriesTable K V T} (ht : t.Lawful) (s : T) (ws : List (K × V)) (k : K) :
    t.get (t.setAll s ws) k = (lastWrite ws k).or (t.get s k) := by
  induction ws generalizing s with
  | nil => rfl
  | cons w ws ih =>
    rw [setAll, List.foldl_cons, ← setAll, ih, ht.get_set, lastWrite, lastWrite, lastOf,
      Option.or_assoc]
    split <;> rfl

theorem get_removeAll {t : SeriesTable K V T} (ht : t.Lawful) (s : T) (ks : List K) (k : K) :
    t.get (t.removeAll s ks) k = if k ∈ ks then none else t.get s k := by
  induction ks generalizing s with
  | nil => simp [removeAll]
  | cons j ks ih =>
    rw [removeAll, List.foldl_cons, ← removeAll, ih, ht.get_remove]
    by_cases hmem : k ∈ ks
    · simp [hmem]
    · by_cases hj : k = j
      · simp [hj]
      · simp [hmem, hj]

/-! ## Following the source -/

/-- The keys of one list that are not in the other. -/
def difference (ks ks' : List K) : List K := ks.filter (· ∉ ks')

theorem mem_difference {ks ks' : List K} {k : K} : k ∈ difference ks ks' ↔ k ∈ ks ∧ k ∉ ks' := by
  simp [difference]

/-- The values `ws` are written, and what was recorded before and is not recorded now goes. -/
def resync (t : SeriesTable K V T) (s : T) (recorded recorded' : List K) (ws : List (K × V)) : T :=
  t.removeAll (t.setAll s ws) (difference recorded recorded')

/-- Every key that has a value is recorded. -/
def Covers (t : SeriesTable K V T) (s : T) (recorded : List K) : Prop :=
  ∀ k, t.get s k ≠ none → k ∈ recorded

variable {t : SeriesTable K V T} {s : T} {recorded recorded' : List K} {ws : List (K × V)}

theorem covers_empty (ht : t.Lawful) (recorded : List K) : t.Covers t.empty recorded :=
  fun k hk => absurd (ht.get_empty k) hk

theorem get_resync (ht : t.Lawful) (hcovers : t.Covers s recorded)
    (hwritten : ∀ w ∈ ws, w.1 ∈ recorded') (k : K) :
    t.get (t.resync s recorded recorded' ws) k =
      if k ∈ recorded' then (lastWrite ws k).or (t.get s k) else none := by
  simp only [resync, get_removeAll ht, get_setAll ht, mem_difference]
  by_cases hk : k ∈ recorded'
  · simp [hk]
  · have hnone : lastWrite ws k = none := by
      by_contra hsome
      obtain ⟨w, hw, rfl⟩ := List.mem_map.mp (lastWrite_ne_none.mp hsome)
      exact hk (hwritten w hw)
    by_cases hold : k ∈ recorded
    · simp [hk, hold]
    · have hget : t.get s k = none := by
        by_contra hsome
        exact hold (hcovers k hsome)
      simp [hk, hold, hnone, hget]

theorem covers_resync (ht : t.Lawful) (hcovers : t.Covers s recorded)
    (hwritten : ∀ w ∈ ws, w.1 ∈ recorded') :
    t.Covers (t.resync s recorded recorded' ws) recorded' := by
  intro k hk
  rw [get_resync ht hcovers hwritten] at hk
  by_contra hnot
  rw [if_neg hnot] at hk
  exact hk rfl

/-- The table shows the written values and no others exactly if every recorded key that had a
    value is written again. -/
theorem resync_exact_iff (ht : t.Lawful) (hcovers : t.Covers s recorded)
    (hwritten : ∀ w ∈ ws, w.1 ∈ recorded') :
    (∀ k, t.get (t.resync s recorded recorded' ws) k = lastWrite ws k) ↔
      ∀ k ∈ recorded', t.get s k ≠ none → lastWrite ws k ≠ none := by
  constructor
  · intro h k hk hsome hnone
    have hget := h k
    rw [get_resync ht hcovers hwritten, if_pos hk, hnone, Option.none_or] at hget
    exact hsome hget
  · intro h k
    rw [get_resync ht hcovers hwritten]
    split
    next hk =>
      cases hlast : lastWrite ws k with
      | some v => rfl
      | none =>
        rw [Option.none_or]
        by_contra hsome
        exact h k hk hsome hlast
    next hk =>
      by_contra hne
      obtain ⟨w, hw, rfl⟩ := List.mem_map.mp (lastWrite_ne_none.mp (Ne.symm hne))
      exact hk (hwritten w hw)

/-- Nothing is left over where every recorded key is written. -/
theorem resync_exact (ht : t.Lawful) (hcovers : t.Covers s recorded)
    (hwritten : ∀ k, k ∈ recorded' ↔ k ∈ ws.map Prod.fst) (k : K) :
    t.get (t.resync s recorded recorded' ws) k = lastWrite ws k :=
  (resync_exact_iff ht hcovers fun w hw => (hwritten w.1).mpr (List.mem_map_of_mem hw)).mpr
    (fun j hj _ => lastWrite_ne_none.mpr ((hwritten j).mp hj)) k

end SeriesTable
