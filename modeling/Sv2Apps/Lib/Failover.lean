/-
  Lib/Failover.lean
  =================
  **Candidates tried in order** — each candidate is tried up to `m` times; it is flagged as soon as
  an attempt succeeds or all have failed, and a flagged candidate is never tried again.  A search
  starts from the first candidate every time; it ends at a success, when no candidate is left, or
  when it is abandoned, after which there is no other.

  The log of all attempts, over any number of searches, is one round after the other
  (`Rounds`): the rounds of the flagged candidates, in order, and the beginning of the next one.
-/
import Mathlib.Data.List.Basic

namespace Failover

structure Attempt where
  index : Nat
  /-- Counted from one. -/
  number : Nat
  succeeded : Bool
deriving DecidableEq

inductive Search where
  | idle
  | trying (index number : Nat)
  | found (index : Nat)
  | exhausted
  | abandoned
deriving DecidableEq

structure State where
  flags : List Bool
  search : Search
  log : List Attempt
deriving DecidableEq

def start (n : Nat) : State := ⟨List.replicate n false, .idle, []⟩

/-- The loop goes on at `i`, past the candidates that are flagged. -/
def nextFrom (flags : List Bool) (i : Nat) : Search :=
  match (List.range' i (flags.length - i)).find? (fun j => flags[j]? = some false) with
  | some j => .trying j 1
  | none => .exhausted

def beginSearch (s : State) : State :=
  match s.search with
  | .trying _ _ => s
  | .abandoned => s
  | _ => { s with search := nextFrom s.flags 0 }

def fail (m : Nat) (s : State) : State :=
  match s.search with
  | .trying i k =>
    let log := s.log ++ [⟨i, k, false⟩]
    if k = m then
      { flags := s.flags.set i true, search := nextFrom (s.flags.set i true) (i + 1), log }
    else { s with search := .trying i (k + 1), log }
  | _ => s

def succeed (s : State) : State :=
  match s.search with
  | .trying i k =>
    { flags := s.flags.set i true, search := .found i, log := s.log ++ [⟨i, k, true⟩] }
  | _ => s

/-- The search ends for good, after one more attempt or without. -/
def abandon (last : Option Bool) (s : State) : State :=
  match s.search with
  | .trying i k =>
    { s with
      search := .abandoned
      log := s.log ++ (last.map fun succeeded => (⟨i, k, succeeded⟩ : Attempt)).toList }
  | _ => s

/-! ## Rounds -/

def failures (i k : Nat) : List Attempt := (List.range k).map fun j => ⟨i, j + 1, false⟩

/-- All that happens with one candidate. -/
inductive Round (m i : Nat) : List Attempt → Prop
  | connected (k : Nat) (hk : k < m) : Round m i (failures i k ++ [⟨i, k + 1, true⟩])
  | spent : Round m i (failures i m)

/-- The rounds of the first `f` candidates, one after the other. -/
inductive Rounds (m : Nat) : Nat → List Attempt → Prop
  | nil : Rounds m 0 []
  | snoc {f : Nat} {l r : List Attempt} (hl : Rounds m f l) (hr : Round m f r) :
    Rounds m (f + 1) (l ++ r)

/-- Where the search stands when the first `f` candidates are flagged, and the attempts on the next
    one. -/
inductive Standing (m n f : Nat) : Search → List Attempt → Prop
  | idle : Standing m n f .idle []
  | trying (k : Nat) (hk : k < m) (hf : f < n) :
    Standing m n f (.trying f (k + 1)) (failures f k)
  | found (i : Nat) (hf : f = i + 1) : Standing m n f (.found i) []
  | exhausted (hf : f = n) : Standing m n f .exhausted []
  | abandoned (k : Nat) (hk : k ≤ m) : Standing m n f .abandoned (failures f k)
  | abandonedConnected (k : Nat) (hk : k < m) :
    Standing m n f .abandoned (failures f k ++ [⟨f, k + 1, true⟩])

/-- The flags after `f` rounds. -/
def flagged (n f : Nat) : List Bool := List.replicate f true ++ List.replicate (n - f) false

/-- What every run of searches keeps. -/
def Orderly (m n : Nat) (s : State) : Prop :=
  ∃ f l rest, f ≤ n ∧ s.flags = flagged n f ∧ Rounds m f l ∧ s.log = l ++ rest ∧
    Standing m n f s.search rest

variable {m n f i : Nat} {s : State}

theorem failures_succ (i k : Nat) : failures i (k + 1) = failures i k ++ [⟨i, k + 1, false⟩] := by
  simp [failures, List.range_succ]

theorem length_flagged (h : f ≤ n) : (flagged n f).length = n := by
  simp [flagged]
  omega

theorem flagged_set (h : f < n) : (flagged n f).set f true = flagged n (f + 1) := by
  obtain ⟨k, hk⟩ : ∃ k, n - f = k + 1 := ⟨n - f - 1, by omega⟩
  have hk' : n - (f + 1) = k := by omega
  rw [flagged, flagged, hk, hk', List.replicate_succ, List.set_append_right _ _ (by simp)]
  simp [List.replicate_succ', List.append_assoc]

theorem getElem?_flagged (h : f ≤ n) : (flagged n f)[i]? = some false ↔ f ≤ i ∧ i < n := by
  unfold flagged
  by_cases hi : i < f
  · rw [List.getElem?_append_left (by simpa using hi)]
    have hlow : ¬ f ≤ i := by omega
    simp [hi, hlow]
  · rw [List.getElem?_append_right (by simpa using hi)]
    by_cases hlt : i - f < n - f
    · simp [hlt]
      omega
    · simp [hlt]
      omega

/-- The loop finds the first candidate that is not flagged. -/
theorem nextFrom_flagged (hf : f ≤ n) (hi : i ≤ f) :
    nextFrom (flagged n f) i = if f < n then .trying f 1 else .exhausted := by
  unfold nextFrom
  rw [length_flagged hf]
  split
  next j hj =>
    obtain ⟨hsat, as, bs, heq, hbefore⟩ := List.find?_eq_some_iff_append.mp hj
    have hjf : f ≤ j ∧ j < n := (getElem?_flagged hf).mp (by simpa using hsat)
    have hfmem : f ∈ List.range' i (n - i) := by
      rw [List.mem_range'_1]
      omega
    have hjf' : j = f := by
      by_contra hne
      have hmem : f ∈ as := by
        have hsorted := List.pairwise_lt_range' (s := i) (n := n - i)
        rw [heq] at hfmem hsorted
        rcases List.mem_append.mp hfmem with hmem | hmem
        · exact hmem
        · rcases List.mem_cons.mp hmem with rfl | hmem
          · exact absurd rfl hne
          · have hrest := (List.pairwise_append.mp hsorted).2.1
            have := (List.pairwise_cons.mp hrest).1 f hmem
            omega
      have hnot := hbefore f hmem
      rw [(getElem?_flagged hf).mpr ⟨Nat.le_refl f, by omega⟩] at hnot
      simp at hnot
    rw [hjf', if_pos (by omega)]
  next hnone =>
    rw [if_neg]
    intro hlt
    have hmem : f ∈ List.range' i (n - i) := by
      rw [List.mem_range'_1]
      omega
    have hnot := List.find?_eq_none.mp hnone f hmem
    rw [(getElem?_flagged hf).mpr ⟨Nat.le_refl f, hlt⟩] at hnot
    simp at hnot

/-- A search that begins, or goes on, with the first `f` candidates flagged. -/
theorem standing_nextFrom (hm : 0 < m) (hf : f ≤ n) (hi : i ≤ f) :
    Standing m n f (nextFrom (flagged n f) i) [] := by
  rw [nextFrom_flagged hf hi]
  split
  next hlt => exact .trying 0 hm hlt
  next hge => exact .exhausted (by omega)

/-! ## What every operation keeps -/

theorem start_orderly (m n : Nat) : Orderly m n (start n) :=
  ⟨0, [], [], Nat.zero_le n, by simp [start, flagged], .nil, rfl, .idle⟩

theorem Orderly.beginSearch (hm : 0 < m) (h : Orderly m n s) : Orderly m n (beginSearch s) := by
  obtain ⟨f, l, rest, hf, hflags, hl, hlog, hst⟩ := h
  have hbegin : rest = [] → Orderly m n { s with search := nextFrom s.flags 0 } := by
    rintro rfl
    refine ⟨f, l, [], hf, hflags, hl, hlog, ?_⟩
    rw [hflags]
    exact standing_nextFrom hm hf (Nat.zero_le f)
  unfold Failover.beginSearch
  split
  · exact ⟨f, l, rest, hf, hflags, hl, hlog, hst⟩
  · exact ⟨f, l, rest, hf, hflags, hl, hlog, hst⟩
  next htrying habandoned =>
    apply hbegin
    generalize s.search = place at *
    cases hst with
    | idle => rfl
    | trying k hk hf => exact absurd rfl (htrying _ _)
    | found i hi => rfl
    | exhausted hn => rfl
    | abandoned k hk => exact absurd rfl habandoned
    | abandonedConnected k hk => exact absurd rfl habandoned

theorem Orderly.fail (hm : 0 < m) (h : Orderly m n s) : Orderly m n (fail m s) := by
  obtain ⟨f, l, rest, hf, hflags, hl, hlog, hst⟩ := h
  unfold Failover.fail
  split
  next i k hs =>
    rw [hs] at hst
    cases hst with
    | trying j hj hlt =>
      split
      next hlast =>
        have hround : Rounds m (f + 1) (l ++ failures f m) := .snoc hl .spent
        refine ⟨f + 1, l ++ failures f m, [], hlt, ?_, hround, ?_, ?_⟩
        · rw [hflags, flagged_set hlt]
        · rw [hlog, ← hlast, failures_succ, List.append_nil, List.append_assoc]
        · rw [hflags, flagged_set hlt]
          exact standing_nextFrom hm hlt (Nat.le_refl _)
      next hmore =>
        refine ⟨f, l, failures f (j + 1), hf, hflags, hl, ?_, .trying (j + 1) (by omega) hlt⟩
        rw [hlog, failures_succ, List.append_assoc]
  · exact ⟨f, l, rest, hf, hflags, hl, hlog, hst⟩

theorem Orderly.succeed (h : Orderly m n s) : Orderly m n (succeed s) := by
  obtain ⟨f, l, rest, hf, hflags, hl, hlog, hst⟩ := h
  unfold Failover.succeed
  split
  next i k hs =>
    rw [hs] at hst
    cases hst with
    | trying j hj hlt =>
      have hround : Rounds m (f + 1) (l ++ (failures f j ++ [⟨f, j + 1, true⟩])) :=
        .snoc hl (.connected j hj)
      refine ⟨f + 1, _, [], hlt, ?_, hround, ?_, .found f rfl⟩
      · rw [hflags, flagged_set hlt]
      · rw [hlog, List.append_nil, List.append_assoc]
  · exact ⟨f, l, rest, hf, hflags, hl, hlog, hst⟩

theorem Orderly.abandon (last : Option Bool) (h : Orderly m n s) : Orderly m n (abandon last s) := by
  obtain ⟨f, l, rest, hf, hflags, hl, hlog, hst⟩ := h
  unfold Failover.abandon
  split
  next i k hs =>
    rw [hs] at hst
    cases hst with
    | trying j hj hlt =>
      cases last with
      | none =>
        refine ⟨f, l, failures f j, hf, hflags, hl, ?_, .abandoned j (by omega)⟩
        simpa using hlog
      | some succeeded =>
        cases succeeded with
        | true =>
          refine ⟨f, l, failures f j ++ [⟨f, j + 1, true⟩], hf, hflags, hl, ?_,
            .abandonedConnected j hj⟩
          simp [hlog]
        | false =>
          refine ⟨f, l, failures f (j + 1), hf, hflags, hl, ?_, .abandoned (j + 1) hj⟩
          simp [hlog, failures_succ]
  · exact ⟨f, l, rest, hf, hflags, hl, hlog, hst⟩

/-! ## What a log of rounds says -/

theorem mem_failures {a : Attempt} {i k : Nat} (h : a ∈ failures i k) :
    a.index = i ∧ a.succeeded = false := by
  obtain ⟨j, _, rfl⟩ := List.mem_map.mp h
  exact ⟨rfl, rfl⟩

/-- A part of a round: at most `m` attempts on one candidate, at most one of them successful. -/
structure Part (m i : Nat) (r : List Attempt) : Prop where
  index : ∀ a ∈ r, a.index = i
  length_le : r.length ≤ m
  succeeded_le : r.countP (·.succeeded) ≤ 1

theorem part_failures {k : Nat} (hk : k ≤ m) : Part m i (failures i k) where
  index := fun a ha => (mem_failures ha).1
  length_le := by simpa [failures] using hk
  succeeded_le := by
    rw [List.countP_eq_zero.mpr]
    · omega
    · intro a ha
      simp [(mem_failures ha).2]

theorem part_connected {k : Nat} (hk : k < m) :
    Part m i (failures i k ++ [⟨i, k + 1, true⟩]) where
  index := by
    intro a ha
    rcases List.mem_append.mp ha with ha | ha
    · exact (mem_failures ha).1
    · rw [List.mem_singleton.mp ha]
  length_le := by
    simp [failures]
    omega
  succeeded_le := by
    have hnone : (failures i k).countP (·.succeeded) = 0 := by
      rw [List.countP_eq_zero]
      intro a ha
      simp [(mem_failures ha).2]
    simp [List.countP_append, hnone]

theorem Round.part {r : List Attempt} (h : Round m i r) : Part m i r := by
  cases h with
  | connected k hk => exact part_connected hk
  | spent => exact part_failures (Nat.le_refl m)

theorem Standing.part {place : Search} {rest : List Attempt} (h : Standing m n f place rest) :
    Part m f rest := by
  cases h with
  | idle => exact part_failures (Nat.zero_le m)
  | trying k hk hf => exact part_failures (Nat.le_of_lt hk)
  | found i hf => exact part_failures (Nat.zero_le m)
  | exhausted hf => exact part_failures (Nat.zero_le m)
  | abandoned k hk => exact part_failures hk
  | abandonedConnected k hk => exact part_connected hk

theorem Rounds.index_lt {l : List Attempt} (h : Rounds m f l) : ∀ a ∈ l, a.index < f := by
  induction h with
  | nil => simp
  | snoc hl hr ih =>
    intro a ha
    rcases List.mem_append.mp ha with ha | ha
    · exact Nat.lt_succ_of_lt (ih a ha)
    · rw [hr.part.index a ha]
      exact Nat.lt_succ_self _

/-- Rounds followed by a part of the next one: candidates in order, a bounded number of attempts
    on each, at most one success. -/
structure Fair (m : Nat) (log : List Attempt) : Prop where
  inOrder : log.Pairwise (fun a b => a.index ≤ b.index)
  attempts : ∀ i, log.countP (·.index = i) ≤ m
  successes : ∀ i, log.countP (fun a => a.index = i && a.succeeded) ≤ 1

theorem countP_index_eq_zero {l : List Attempt} (h : ∀ a ∈ l, a.index < f) (hi : f ≤ i) :
    l.countP (·.index = i) = 0 := by
  rw [List.countP_eq_zero]
  intro a ha
  have := h a ha
  simp
  omega

theorem countP_success_le (l : List Attempt) (i : Nat) :
    l.countP (fun a => a.index = i && a.succeeded) ≤ l.countP (·.index = i) := by
  apply List.countP_mono_left
  intro a _ ha
  simp only [Bool.and_eq_true, decide_eq_true_eq] at ha ⊢
  exact ha.1

theorem Fair.append {l r : List Attempt} (h : Fair m l) (hl : ∀ a ∈ l, a.index < f)
    (hr : Part m f r) : Fair m (l ++ r) where
  inOrder := by
    rw [List.pairwise_append]
    refine ⟨h.inOrder, ?_, ?_⟩
    · apply List.Pairwise.imp_of_mem _ (List.pairwise_of_forall (R := fun _ _ => True)
        (fun _ _ => trivial))
      intro a b ha hb _
      exact Nat.le_of_eq ((hr.index a ha).trans (hr.index b hb).symm)
    · intro a ha b hb
      rw [hr.index b hb]
      exact Nat.le_of_lt (hl a ha)
  attempts := by
    intro i
    rw [List.countP_append]
    by_cases hi : f ≤ i
    · rw [countP_index_eq_zero hl hi, Nat.zero_add]
      exact Nat.le_trans List.countP_le_length hr.length_le
    · have hnone : r.countP (·.index = i) = 0 := by
        rw [List.countP_eq_zero]
        intro a ha
        have := hr.index a ha
        simp
        omega
      rw [hnone]
      exact h.attempts i
  successes := by
    intro i
    rw [List.countP_append]
    by_cases hi : f ≤ i
    · have hnone := countP_success_le l i
      rw [countP_index_eq_zero hl hi] at hnone
      have hle : r.countP (fun a => a.index = i && a.succeeded) ≤ r.countP (·.succeeded) := by
        apply List.countP_mono_left
        intro a _ ha
        simp only [Bool.and_eq_true] at ha
        exact ha.2
      have := hr.succeeded_le
      omega
    · have hnone : r.countP (fun a => a.index = i && a.succeeded) = 0 := by
        rw [List.countP_eq_zero]
        intro a ha
        have := hr.index a ha
        simp
        omega
      rw [hnone]
      exact h.successes i

theorem Rounds.fair {l : List Attempt} (h : Rounds m f l) : Fair m l := by
  induction h with
  | nil => exact ⟨by simp, by simp, by simp⟩
  | snoc hl hr ih => exact ih.append hl.index_lt hr.part

theorem Orderly.fair (h : Orderly m n s) : Fair m s.log := by
  obtain ⟨f, l, rest, _, _, hl, hlog, hst⟩ := h
  rw [hlog]
  exact hl.fair.append hl.index_lt hst.part

/-- Every candidate of a round has been connected to, or all its attempts have failed. -/
theorem Rounds.spent {l : List Attempt} (h : Rounds m f l) (hi : i < f) :
    (∃ a ∈ l, a.index = i ∧ a.succeeded = true) ∨ l.countP (·.index = i) = m := by
  induction h with
  | nil => omega
  | @snoc f l r hl hr ih =>
    by_cases hlt : i < f
    · rcases ih hlt with ⟨a, ha, hidx, hs⟩ | hcount
      · exact .inl ⟨a, List.mem_append_left _ ha, hidx, hs⟩
      · right
        have hnone : r.countP (·.index = i) = 0 := by
          rw [List.countP_eq_zero]
          intro a ha
          have := hr.part.index a ha
          simp
          omega
        rw [List.countP_append, hcount, hnone, Nat.add_zero]
    · have hif : i = f := by omega
      rw [hif]
      cases hr with
      | connected k hk =>
        exact .inl ⟨⟨f, k + 1, true⟩, by simp, rfl, rfl⟩
      | spent =>
        right
        rw [List.countP_append, countP_index_eq_zero hl.index_lt (Nat.le_refl f), Nat.zero_add]
        have hall : (failures f m).countP (·.index = f) = (failures f m).length := by
          rw [List.countP_eq_length]
          intro a ha
          simp [(mem_failures ha).1]
        rw [hall]
        simp [failures]

/-- A search gives up only when no candidate is left. -/
theorem Orderly.spent (h : Orderly m n s) (hs : s.search = .exhausted) (hi : i < n) :
    (∃ a ∈ s.log, a.index = i ∧ a.succeeded = true) ∨ s.log.countP (·.index = i) = m := by
  obtain ⟨f, l, rest, _, _, hl, hlog, hst⟩ := h
  rw [hs] at hst
  cases hst with
  | exhausted hf =>
    rw [hlog, List.append_nil]
    exact hl.spent (by omega)

/-- A search never stands past the last candidate. -/
theorem Orderly.trying_lt {k : Nat} (h : Orderly m n s) (hs : s.search = .trying i k) : i < n := by
  obtain ⟨f, l, rest, _, _, _, _, hst⟩ := h
  rw [hs] at hst
  cases hst with
  | trying k hk hf => exact hf

/-- Once no candidate is left, no search finds one again. -/
theorem Orderly.beginSearch_exhausted (h : Orderly m n s) (hs : s.search = .exhausted) :
    (Failover.beginSearch s).search = .exhausted := by
  obtain ⟨f, l, rest, _, hflags, _, _, hst⟩ := h
  rw [hs] at hst
  cases hst with
  | exhausted hf =>
    simp only [Failover.beginSearch, hs, hflags, hf, nextFrom_flagged (Nat.le_refl n) (Nat.zero_le n)]
    simp

end Failover
