/-
  Lib/KeyMap.lean
  ===============
  **Finite maps with the operations of a concurrent map** — association lists
  without duplicate keys (`AList`), with update in place, conditional removal and
  filtering, each with the lemma that says what a lookup sees afterwards.
-/
import Mathlib.Data.List.AList

/-- A finite map from `K` to `V`. -/
abbrev KeyMap (K V : Type) := AList fun _ : K => V

namespace KeyMap

variable {K V : Type}

/-- Keep the entries that satisfy `p`. -/
def retain (p : K → V → Bool) (m : KeyMap K V) : KeyMap K V :=
  ⟨m.entries.filter fun e => p e.1 e.2, m.nodupKeys.sublist List.filter_sublist⟩

/-- Apply `f` to every value. -/
def mapValues {W : Type} (f : K → V → W) (m : KeyMap K V) : KeyMap K W :=
  ⟨m.entries.map fun e => ⟨e.1, f e.1 e.2⟩, by
    have h := m.nodupKeys
    simpa [List.NodupKeys, List.keys, Function.comp_def] using h⟩

/-- Apply a fallible `f` to every value, up to the first error. -/
def tryMapEntries {ε W : Type} (f : K → V → Except ε W) :
    List (Σ _ : K, V) → Except ε (List (Σ _ : K, W))
  | [] => .ok []
  | e :: es =>
    match f e.1 e.2 with
    | .error err => .error err
    | .ok w =>
      match tryMapEntries f es with
      | .error err => .error err
      | .ok ws => .ok (⟨e.1, w⟩ :: ws)

theorem tryMapEntries_keys {ε W : Type} {f : K → V → Except ε W} {es : List (Σ _ : K, V)}
    {ws : List (Σ _ : K, W)} (h : tryMapEntries f es = .ok ws) : ws.keys = es.keys := by
  induction es generalizing ws with
  | nil => cases h; rfl
  | cons e es ih =>
    unfold tryMapEntries at h
    split at h
    · cases h
    · split at h
      · cases h
      next hws =>
        cases h
        simp only [List.keys_cons, ih hws]

def tryMap {ε W : Type} (f : K → V → Except ε W) (m : KeyMap K V) : Except ε (KeyMap K W) :=
  match h : tryMapEntries f m.entries with
  | .error err => .error err
  | .ok ws => .ok ⟨ws, by
      have hkeys := tryMapEntries_keys h
      have hnd := m.nodupKeys
      rw [List.NodupKeys] at hnd ⊢
      rw [hkeys]
      exact hnd⟩

theorem tryMap_eq_error {ε W : Type} {f : K → V → Except ε W} {m : KeyMap K V} {err : ε} :
    tryMap f m = .error err ↔ tryMapEntries f m.entries = .error err := by
  unfold tryMap
  split
  next h => simp [h]
  next ws h => simp [h]

/-- A pass only fails with an error at an entry. -/
theorem tryMap_error {ε W : Type} {f : K → V → Except ε W} {m : KeyMap K V} {err : ε}
    (h : tryMap f m = .error err) : ∃ k v, f k v = .error err := by
  have hes : ∀ es : List (Σ _ : K, V), tryMapEntries f es = .error err →
      ∃ k v, f k v = .error err := by
    intro es
    induction es with
    | nil =>
      intro hnil
      cases hnil
    | cons e es ih =>
      intro hcons
      unfold tryMapEntries at hcons
      split at hcons
      next herr =>
        cases hcons
        exact ⟨e.1, e.2, herr⟩
      · split at hcons
        next herr =>
          cases hcons
          exact ih herr
        · cases hcons
  unfold tryMap at h
  split at h
  next herr =>
    cases h
    exact hes m.entries herr
  · cases h

variable [DecidableEq K]

/-- Replace the value at `k`, if there is one. -/
def modify (k : K) (f : V → V) (m : KeyMap K V) : KeyMap K V :=
  match m.lookup k with
  | some v => m.insert k (f v)
  | none => m

/-- Make sure that `k` has a value. -/
def ensure (k : K) (d : V) (m : KeyMap K V) : KeyMap K V :=
  match m.lookup k with
  | some _ => m
  | none => m.insert k d

/-- Remove the entry at `k` if it satisfies `p`, and return it. -/
def removeIf (k : K) (p : V → Bool) (m : KeyMap K V) : Option (V × KeyMap K V) :=
  match m.lookup k with
  | some v => if p v then some (v, m.erase k) else none
  | none => none

/-! ## What a lookup sees -/

theorem lookup_insert_eq (m : KeyMap K V) (k j : K) (v : V) :
    (m.insert k v).lookup j = if j = k then some v else m.lookup j := by
  by_cases h : j = k
  · subst h; simp
  · simp [h]

/-- A key of a map with one more entry is the new one or an old one. -/
theorem isSome_lookup_insert {m : KeyMap K V} {k j : K} {v : V}
    (h : ((m.insert k v).lookup j).isSome = true) : j = k ∨ (m.lookup j).isSome = true := by
  rw [lookup_insert_eq] at h
  split at h
  next heq => exact Or.inl heq
  · exact Or.inr h

theorem lookup_erase_eq (m : KeyMap K V) (k j : K) :
    (m.erase k).lookup j = if j = k then none else m.lookup j := by
  by_cases h : j = k
  · subst h; simp
  · simp [h]

theorem lookup_erase_some {m : KeyMap K V} {k j : K} {v : V}
    (h : (m.erase k).lookup j = some v) : m.lookup j = some v := by
  rw [lookup_erase_eq] at h
  split at h
  · cases h
  · exact h

/-- The same value is inserted at several keys. -/
theorem lookup_foldl_insert {α : Type} (f : α → K) (v : V) (l : List α) (m : KeyMap K V) (j : K) :
    (l.foldl (fun m a => m.insert (f a) v) m).lookup j =
      if j ∈ l.map f then some v else m.lookup j := by
  induction l generalizing m with
  | nil => simp
  | cons a l ih =>
    rw [List.foldl_cons, ih, lookup_insert_eq]
    by_cases hl : j ∈ l.map f
    · simp [hl]
    · by_cases ha : j = f a
      · simp [ha]
      · simp [hl, ha]

theorem mem_entries_iff (m : KeyMap K V) (k : K) (v : V) :
    (⟨k, v⟩ : Σ _ : K, V) ∈ m.entries ↔ m.lookup k = some v :=
  AList.mem_lookup_iff.symm

/-- An entry can be taken out of the list and put in front. -/
theorem entries_perm_erase {m : KeyMap K V} {k : K} {v : V} (h : m.lookup k = some v) :
    m.entries.Perm (⟨k, v⟩ :: (m.erase k).entries) := by
  have hes : ∀ es : List (Σ _ : K, V), es.dlookup k = some v →
      es.Perm (⟨k, v⟩ :: es.kerase k) := by
    intro es
    induction es with
    | nil =>
      intro hnil
      cases hnil
    | cons e es ih =>
      intro hes
      obtain ⟨j, w⟩ := e
      by_cases hj : k = j
      · subst hj
        rw [List.dlookup_cons_eq] at hes
        cases hes
        have herase : List.kerase k (⟨k, v⟩ :: es) = es := List.kerase_cons_eq rfl
        rw [herase]
      · rw [List.dlookup_cons_ne es ⟨j, w⟩ hj] at hes
        have herase : List.kerase k (⟨j, w⟩ :: es) = ⟨j, w⟩ :: es.kerase k :=
          List.kerase_cons_ne hj
        rw [herase]
        exact ((ih hes).cons _).trans (List.Perm.swap _ _ _)
  exact hes m.entries h

theorem lookup_retain (p : K → V → Bool) (m : KeyMap K V) (k : K) :
    (retain p m).lookup k = (m.lookup k).filter (p k) := by
  apply Option.ext
  intro v
  rw [← mem_entries_iff, retain]
  simp only [List.mem_filter, mem_entries_iff, Option.filter_eq_some_iff]

theorem lookup_retain_some {p : K → V → Bool} {m : KeyMap K V} {k : K} {v : V}
    (h : (retain p m).lookup k = some v) : m.lookup k = some v := by
  rw [lookup_retain] at h
  exact (Option.filter_eq_some_iff.mp h).1

theorem lookup_mapValues {W : Type} (f : K → V → W) (m : KeyMap K V) (k : K) :
    (mapValues f m).lookup k = (m.lookup k).map (f k) := by
  exact List.dlookup_map₂ (γ := fun _ => V) (δ := fun _ => W) k

theorem lookup_modify (m : KeyMap K V) (k j : K) (f : V → V) :
    (modify k f m).lookup j = if j = k then (m.lookup k).map f else m.lookup j := by
  unfold modify
  split
  next v h => rw [lookup_insert_eq, h]; rfl
  next h =>
    by_cases hj : j = k
    · subst hj; simp [h]
    · simp [hj]

/-- Moving an entry to the front changes no lookup. -/
theorem lookup_modify_id (m : KeyMap K V) (k j : K) : (modify k id m).lookup j = m.lookup j := by
  rw [lookup_modify, Option.map_id_apply]
  split
  next hj => rw [hj]
  · rfl

theorem lookup_modify_ne {m : KeyMap K V} {k j : K} {f : V → V} (h : j ≠ k) :
    (modify k f m).lookup j = m.lookup j := by
  rw [lookup_modify, if_neg h]

theorem lookup_ensure (m : KeyMap K V) (k j : K) (d : V) :
    (ensure k d m).lookup j =
      if j = k then some ((m.lookup k).getD d) else m.lookup j := by
  unfold ensure
  split
  next v h =>
    by_cases hj : j = k
    · subst hj; simp [h]
    · simp [hj]
  next h => rw [lookup_insert_eq, h]; rfl

theorem mem_modify {m : KeyMap K V} {k j : K} {f : V → V} : j ∈ modify k f m ↔ j ∈ m := by
  unfold modify
  split
  next v h =>
    rw [AList.mem_insert]
    constructor
    · rintro (rfl | hj)
      · exact AList.lookup_isSome.mp (by rw [h]; rfl)
      · exact hj
    · exact Or.inr
  · exact Iff.rfl

theorem mem_ensure {m : KeyMap K V} {k j : K} {d : V} : j ∈ ensure k d m ↔ j = k ∨ j ∈ m := by
  unfold ensure
  split
  next v h =>
    have hk : k ∈ m := AList.lookup_isSome.mp (by rw [h]; rfl)
    constructor
    · exact Or.inr
    · rintro (rfl | hj)
      · exact hk
      · exact hj
  · exact AList.mem_insert m

/-- Overwriting an entry adds no key. -/
theorem mem_of_mem_insert {m : KeyMap K V} {k j : K} {v w : V} (hk : m.lookup k = some v)
    (hj : j ∈ m.insert k w) : j ∈ m := by
  rcases (AList.mem_insert m).mp hj with rfl | hj
  · exact AList.lookup_isSome.mp (by rw [hk]; rfl)
  · exact hj

theorem removeIf_eq_some {m : KeyMap K V} {k : K} {p : V → Bool} {v : V} {m' : KeyMap K V} :
    removeIf k p m = some (v, m') ↔ m.lookup k = some v ∧ p v = true ∧ m' = m.erase k := by
  unfold removeIf
  cases h : m.lookup k with
  | none => simp
  | some w =>
    by_cases hp : p w = true
    · simp only [hp, if_true, Option.some.injEq, Prod.mk.injEq]
      constructor
      · rintro ⟨rfl, rfl⟩; exact ⟨rfl, hp, rfl⟩
      · rintro ⟨rfl, -, rfl⟩; exact ⟨rfl, rfl⟩
    · simp only [hp, Option.some.injEq]
      constructor
      · intro h; cases h
      · rintro ⟨rfl, hv, -⟩; exact absurd hv hp

theorem lookup_tryMapEntries {ε W : Type} {f : K → V → Except ε W} {es : List (Σ _ : K, V)}
    {ws : List (Σ _ : K, W)} (h : tryMapEntries f es = .ok ws) (k : K) :
    (∀ v, es.dlookup k = some v → ∃ w, f k v = .ok w ∧ ws.dlookup k = some w) ∧
    (es.dlookup k = none → ws.dlookup k = none) := by
  induction es generalizing ws with
  | nil =>
    cases h
    refine ⟨?_, fun _ => rfl⟩
    intro v hv
    cases hv
  | cons e es ih =>
    unfold tryMapEntries at h
    split at h
    · cases h
    next w hw =>
      split at h
      · cases h
      next ws' hws =>
        cases h
        obtain ⟨k', v'⟩ := e
        by_cases hk : k = k'
        · subst hk
          simp only [List.dlookup_cons_eq]
          constructor
          · intro v hv
            cases hv
            exact ⟨w, hw, rfl⟩
          · intro hnone
            cases hnone
        · rw [List.dlookup_cons_ne es ⟨k', v'⟩ hk, List.dlookup_cons_ne ws' ⟨k', w⟩ hk]
          exact ih hws

/-- After a successful pass every value is the image of the one that was there. -/
theorem lookup_tryMap {ε W : Type} {f : K → V → Except ε W} {m : KeyMap K V} {m' : KeyMap K W}
    (h : tryMap f m = .ok m') (k : K) :
    (∀ v, m.lookup k = some v → ∃ w, f k v = .ok w ∧ m'.lookup k = some w) ∧
    (m.lookup k = none → m'.lookup k = none) := by
  unfold tryMap at h
  split at h
  · cases h
  next ws hws =>
    cases h
    exact lookup_tryMapEntries hws k

theorem lookup_tryMap_some {ε W : Type} {f : K → V → Except ε W} {m : KeyMap K V}
    {m' : KeyMap K W} (h : tryMap f m = .ok m') {k : K} {w : W} (hw : m'.lookup k = some w) :
    ∃ v, m.lookup k = some v ∧ f k v = .ok w := by
  obtain ⟨hsome, hnone⟩ := lookup_tryMap h k
  cases hv : m.lookup k with
  | none =>
    rw [hnone hv] at hw
    cases hw
  | some v =>
    obtain ⟨w', hf, hw'⟩ := hsome v hv
    rw [hw'] at hw
    cases hw
    exact ⟨v, rfl, hf⟩

/-- `lookup_tryMap` as a relation between the two lookups. -/
theorem rel_tryMap {ε W : Type} {f : K → V → Except ε W} {m : KeyMap K V} {m' : KeyMap K W}
    (h : tryMap f m = .ok m') (k : K) :
    Option.Rel (fun v w => f k v = .ok w) (m.lookup k) (m'.lookup k) := by
  obtain ⟨hsome, hnone⟩ := lookup_tryMap h k
  cases hv : m.lookup k with
  | none =>
    rw [hnone hv]
    exact .none
  | some v =>
    obtain ⟨w, hw, hw'⟩ := hsome v hv
    rw [hw']
    exact .some hw

/-- A pass succeeds if it succeeds at every entry. -/
theorem tryMap_ok {ε W : Type} {f : K → V → Except ε W} {m : KeyMap K V}
    (h : ∀ k v, m.lookup k = some v → ∃ w, f k v = .ok w) : ∃ m', tryMap f m = .ok m' := by
  have hes : ∀ es : List (Σ _ : K, V), (∀ e ∈ es, ∃ w, f e.1 e.2 = .ok w) →
      ∃ ws, tryMapEntries f es = .ok ws := by
    intro es
    induction es with
    | nil => intro _; exact ⟨[], rfl⟩
    | cons e es ih =>
      intro hall
      obtain ⟨w, hw⟩ := hall e List.mem_cons_self
      obtain ⟨ws, hws⟩ := ih fun e' he' => hall e' (List.mem_cons_of_mem _ he')
      exact ⟨⟨e.1, w⟩ :: ws, by simp only [tryMapEntries, hw, hws]⟩
  obtain ⟨ws, hws⟩ := hes m.entries fun e he =>
    h e.1 e.2 ((mem_entries_iff m e.1 e.2).mp he)
  unfold tryMap
  split
  next herr => rw [hws] at herr; cases herr
  next => exact ⟨_, rfl⟩

end KeyMap
