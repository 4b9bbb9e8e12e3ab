/-
  Translator/JobStore.lean
  ========================
  **The job store remembers the most recent jobs** — `Sv1JobStore` of
  `translator/src/lib/sv1/job_store.rs`, with its map of past jobs and the queue of their ids as the
  source keeps them.

  The loop that makes room pops the queue until the map is small enough.  With an empty queue and
  too many past jobs it would spin, so `evict` and `activate` have no result there.

  What the store is for is said of the activations alone (`referenceGet`): of those since the last
  clean one, the latest job of the active id, and of the ids that were displaced most recently.  The
  store answers as that says (`bounded_recency_store`).  The other modules work with the list of
  past jobs of `Sv1Jobs`, which `Lists` relates to the activations as well.
-/
import Sv2Apps.Lib.KeyMap
import Sv2Apps.Lib.RecentWindow
import Sv2Apps.Translator.Sv1Jobs

namespace Sv2Apps.Translator.JobStore

open RecentWindow

structure ActiveJob (K T : Type) where
  jobId : K
  job : T

structure Sv1JobStore (K T : Type) where
  activeJob : Option (ActiveJob K T)
  pastJobs : KeyMap K T
  pastJobOrder : List K
  maxPastJobs : Nat

variable {K T : Type}

/-- Zero counts as unset. -/
def new (maxPastJobs : Option Nat) : Sv1JobStore K T :=
  ⟨none, ∅, [], (maxPastJobs.filter (0 < ·)).getD defaultMaxPastJobs⟩

def clear (s : Sv1JobStore K T) : Sv1JobStore K T :=
  { s with activeJob := none, pastJobs := ∅, pastJobOrder := [] }

variable [DecidableEq K]

/-- `remove_past`. -/
def removePast (s : Sv1JobStore K T) (jobId : K) : Sv1JobStore K T :=
  match s.pastJobs.lookup jobId with
  | some _ =>
    { s with
      pastJobs := s.pastJobs.erase jobId
      pastJobOrder := s.pastJobOrder.filter (· ≠ jobId) }
  | none => s

/-- The active job is taken out, and kept as a past one unless its id is the new one. -/
def displace (s : Sv1JobStore K T) (jobId : K) : Sv1JobStore K T :=
  match s.activeJob with
  | some active =>
    if active.jobId ≠ jobId then
      { s with
        activeJob := none
        pastJobs := s.pastJobs.insert active.jobId active.job
        pastJobOrder := s.pastJobOrder ++ [active.jobId] }
    else { s with activeJob := none }
  | none => s

/-- The loop that makes room: the queue and the map after it; `none` if it never ends. -/
def evict (max : Nat) : List K → KeyMap K T → Option (List K × KeyMap K T)
  | [], past => if past.entries.length ≤ max then some ([], past) else none
  | jobId :: order, past =>
    if past.entries.length ≤ max then some (jobId :: order, past)
    else evict max order (past.erase jobId)

/-- `activate`. -/
def activate (s : Sv1JobStore K T) (jobId : K) (job : T) (cleanJobs : Bool) :
    Option (Sv1JobStore K T) :=
  if cleanJobs then some { clear s with activeJob := some ⟨jobId, job⟩ }
  else
    let s := displace (removePast s jobId) jobId
    (evict s.maxPastJobs s.pastJobOrder s.pastJobs).map fun (order, past) =>
      { s with activeJob := some ⟨jobId, job⟩, pastJobs := past, pastJobOrder := order }

def get (s : Sv1JobStore K T) (jobId : K) : Option T :=
  match s.activeJob.filter fun active => active.jobId = jobId with
  | some active => some active.job
  | none => s.pastJobs.lookup jobId

def active (s : Sv1JobStore K T) : Option T := s.activeJob.map ActiveJob.job

/-- The arguments of a call of `activate`. -/
structure Activation (K T : Type) where
  jobId : K
  job : T
  cleanJobs : Bool

/-- A store after a series of calls. -/
def activateAll (s : Sv1JobStore K T) (calls : List (Activation K T)) : Option (Sv1JobStore K T) :=
  calls.foldlM (fun s a => activate s a.jobId a.job a.cleanJobs) s

/-! ## What the store is for -/

/-- The activations from the last clean one on. -/
def sinceClean : List (Activation K T) → List (Activation K T)
  | [] => []
  | a :: log => if log.any Activation.cleanJobs then sinceClean log else a :: log

/-- The ids that lost their place to another id, in that order. -/
def displacedIds : List (Activation K T) → List K
  | a :: b :: log =>
    if a.jobId = b.jobId then displacedIds (b :: log) else a.jobId :: displacedIds (b :: log)
  | _ => []

/-- The distinct ids but the active one, the one that was displaced last at the end. -/
def otherIds (log : List (Activation K T)) : List K :=
  match log.getLast? with
  | some a => ((displacedIds log).filter (· ≠ a.jobId)).dedup
  | none => []

/-- The job that an id was activated with last. -/
def latest (log : List (Activation K T)) (jobId : K) : Option T :=
  (log.reverse.find? fun a => a.jobId = jobId).map Activation.job

/-- The jobs that are still valid after the activations of a log. -/
def referenceGet (max : Nat) (log : List (Activation K T)) (jobId : K) : Option T :=
  if (log.getLast?.map Activation.jobId) = some jobId ∨ jobId ∈ (otherIds log).rtake max then
    latest log jobId
  else none

/-! ## The reference, one activation at a time -/

omit [DecidableEq K] in
theorem sinceClean_concat (log : List (Activation K T)) (a : Activation K T) :
    sinceClean (log ++ [a]) = if a.cleanJobs then [a] else sinceClean log ++ [a] := by
  induction log with
  | nil => simp [sinceClean]
  | cons b log ih =>
    simp only [List.cons_append, sinceClean, ih]
    by_cases ha : a.cleanJobs
    · simp [ha]
    · simp only [ha, List.any_append, List.any_cons, List.any_nil, Bool.or_false, Bool.false_eq_true,
        if_false]
      split <;> rfl

omit [DecidableEq K] in
theorem getLast?_sinceClean (log : List (Activation K T)) :
    (sinceClean log).getLast? = log.getLast? := by
  rcases List.eq_nil_or_concat' log with rfl | ⟨log, a, rfl⟩
  · rfl
  · rw [sinceClean_concat, List.getLast?_concat]
    split
    · rfl
    · exact List.getLast?_concat

omit [DecidableEq K] in
theorem sinceClean_suffix (log : List (Activation K T)) : sinceClean log <:+ log := by
  induction log with
  | nil => exact List.suffix_refl _
  | cons a log ih =>
    unfold sinceClean
    split
    · exact ih.trans (List.suffix_cons a log)
    · exact List.suffix_refl _

theorem displacedIds_concat {log : List (Activation K T)} {a : Activation K T}
    (h : log.getLast? = some a) (b : Activation K T) :
    displacedIds (log ++ [b]) =
      displacedIds log ++ if a.jobId = b.jobId then [] else [a.jobId] := by
  induction log with
  | nil => cases h
  | cons c log ih =>
    cases log with
    | nil =>
      rw [List.getLast?_singleton, Option.some.injEq] at h
      subst h
      simp only [List.cons_append, List.nil_append, displacedIds]
    | cons d log =>
      rw [List.getLast?_cons_cons] at h
      have hrest := ih h
      simp only [List.cons_append, displacedIds] at hrest ⊢
      rw [hrest]
      split <;> rfl

theorem latest_concat (log : List (Activation K T)) (a : Activation K T) (jobId : K) :
    latest (log ++ [a]) jobId = if a.jobId = jobId then some a.job else latest log jobId := by
  unfold latest
  rw [List.reverse_concat, List.find?_cons]
  by_cases h : a.jobId = jobId <;> simp [h]

theorem latest_isSome {log : List (Activation K T)} {a : Activation K T} (h : a ∈ log) :
    (latest log a.jobId).isSome := by
  unfold latest
  rw [Option.isSome_map, List.find?_isSome]
  exact ⟨a, List.mem_reverse.mpr h, by simp⟩

theorem exists_of_latest {log : List (Activation K T)} {jobId : K} {job : T}
    (h : latest log jobId = some job) : ∃ a ∈ log, a.jobId = jobId ∧ a.job = job := by
  obtain ⟨a, ha, rfl⟩ := Option.map_eq_some_iff.mp h
  refine ⟨a, List.mem_reverse.mp (List.mem_of_find?_eq_some ha), ?_, rfl⟩
  simpa using List.find?_some ha

theorem latest_getLast {log : List (Activation K T)} {a : Activation K T}
    (h : log.getLast? = some a) : latest log a.jobId = some a.job := by
  obtain ⟨before, rfl⟩ := List.getLast?_eq_some_iff.mp h
  rw [latest_concat, if_pos rfl]

theorem mem_of_mem_displacedIds {log : List (Activation K T)} {jobId : K}
    (h : jobId ∈ displacedIds log) : ∃ a ∈ log, a.jobId = jobId := by
  induction log with
  | nil => cases h
  | cons a log ih =>
    cases log with
    | nil => cases h
    | cons b log =>
      rw [displacedIds] at h
      split at h
      · obtain ⟨c, hc, hid⟩ := ih h
        exact ⟨c, List.mem_cons_of_mem _ hc, hid⟩
      · rcases List.mem_cons.mp h with rfl | h
        · exact ⟨a, List.mem_cons_self, rfl⟩
        · obtain ⟨c, hc, hid⟩ := ih h
          exact ⟨c, List.mem_cons_of_mem _ hc, hid⟩

theorem nodup_otherIds (log : List (Activation K T)) : (otherIds log).Nodup := by
  unfold otherIds
  split
  · exact List.nodup_dedup _
  · exact List.nodup_nil

theorem not_mem_otherIds {log : List (Activation K T)} {a : Activation K T}
    (h : log.getLast? = some a) : a.jobId ∉ otherIds log := by
  unfold otherIds
  rw [h]
  intro hmem
  simpa using (List.mem_filter.mp (List.mem_dedup.mp hmem)).2

theorem latest_of_mem_otherIds {log : List (Activation K T)} {jobId : K}
    (h : jobId ∈ otherIds log) : (latest log jobId).isSome := by
  unfold otherIds at h
  split at h
  · obtain ⟨a, ha, rfl⟩ := mem_of_mem_displacedIds
      (List.mem_filter.mp (List.mem_dedup.mp h)).1
    exact latest_isSome ha
  · cases h

/-- What a further activation does to the ids that are not active. -/
theorem otherIds_concat {log : List (Activation K T)} {a : Activation K T}
    (h : log.getLast? = some a) (b : Activation K T) :
    otherIds (log ++ [b]) =
      (otherIds log).filter (· ≠ b.jobId) ++ if a.jobId = b.jobId then [] else [a.jobId] := by
  unfold otherIds
  rw [List.getLast?_concat, h]
  dsimp only
  rw [displacedIds_concat h]
  by_cases hid : a.jobId = b.jobId
  · rw [if_pos hid, List.append_nil, List.append_nil, hid]
    symm
    apply List.filter_eq_self.mpr
    intro jobId hmem
    exact (List.mem_filter.mp (List.mem_dedup.mp hmem)).2
  · rw [if_neg hid, List.filter_append, List.filter_cons_of_pos (by simpa using hid),
      List.filter_nil, dedup_concat, dedup_filter, dedup_filter, List.filter_comm]

/-- Every id that the queue gets has a job. -/
theorem latest_queue_isSome {log : List (Activation K T)} {a : Activation K T}
    (ha : log.getLast? = some a) (b : Activation K T) {order : List K}
    (horder : ∀ jobId ∈ order, jobId ∈ otherIds log) :
    ∀ jobId ∈ order.filter (· ≠ b.jobId) ++ (if a.jobId = b.jobId then [] else [a.jobId]),
      (latest (log ++ [b]) jobId).isSome := by
  intro jobId hmem
  rw [latest_concat]
  split
  · rfl
  · rcases List.mem_append.mp hmem with hmem | hmem
    · exact latest_of_mem_otherIds (horder jobId (List.mem_filter.mp hmem).1)
    · split at hmem
      · cases hmem
      · rw [List.mem_singleton.mp hmem, latest_getLast ha]
        rfl

theorem otherIds_singleton (a : Activation K T) : otherIds [a] = [] := rfl

/-! ## What one call does -/

/-- The queue holds each key of the map once. -/
structure Matched (order : List K) (past : KeyMap K T) : Prop where
  nodup : order.Nodup
  mem : ∀ jobId, jobId ∈ order ↔ jobId ∈ past

omit [DecidableEq K] in
theorem Matched.length {order : List K} {past : KeyMap K T} (h : Matched order past) :
    past.entries.length = order.length := by
  have hperm : past.keys.Perm order := by
    apply (List.perm_ext_iff_of_nodup past.keys_nodup h.nodup).mpr
    intro jobId
    rw [h.mem jobId]
    exact AList.mem_keys.symm
  rw [← hperm.length_eq, AList.keys, List.keys, List.length_map]

theorem matched_of_lookup {order : List K} {past : KeyMap K T} {f : K → Option T}
    (hnodup : order.Nodup) (hsome : ∀ jobId ∈ order, (f jobId).isSome)
    (hlookup : ∀ jobId, past.lookup jobId = if jobId ∈ order then f jobId else none) :
    Matched order past := by
  refine ⟨hnodup, fun jobId => ?_⟩
  rw [← AList.lookup_isSome, hlookup]
  by_cases hmem : jobId ∈ order
  · simp [hmem, hsome jobId hmem]
  · simp [hmem]

/-- The loop ends, with the last `max` ids of the queue. -/
theorem evict_eq {order : List K} {past : KeyMap K T} (h : Matched order past) (max : Nat) :
    ∃ past', evict max order past = some (order.rtake max, past') ∧
      ∀ jobId, past'.lookup jobId =
        if jobId ∈ order.rtake max then past.lookup jobId else none := by
  induction order generalizing past with
  | nil =>
    have hlen : past.entries.length = 0 := h.length
    refine ⟨past, by simp [evict, hlen, List.rtake_nil], ?_⟩
    intro jobId
    rw [List.rtake_nil, if_neg List.not_mem_nil, AList.lookup_eq_none]
    exact fun hmem => List.not_mem_nil ((h.mem jobId).mpr hmem)
  | cons first order ih =>
    have hlen := h.length
    rw [List.length_cons] at hlen
    unfold evict
    by_cases hfits : past.entries.length ≤ max
    · refine ⟨past, ?_, ?_⟩
      · rw [if_pos hfits, rtake_of_length_le (by rw [List.length_cons]; omega)]
      · intro jobId
        rw [rtake_of_length_le (by rw [List.length_cons]; omega)]
        split
        · rfl
        next hmem => rw [AList.lookup_eq_none, ← h.mem jobId]; exact hmem
    · have hnodup := List.nodup_cons.mp h.nodup
      have hrest : Matched order (past.erase first) := by
        refine ⟨hnodup.2, fun jobId => ?_⟩
        rw [AList.mem_erase, ← h.mem jobId, List.mem_cons]
        constructor
        · exact fun hmem => ⟨fun heq => hnodup.1 (heq ▸ hmem), Or.inr hmem⟩
        · rintro ⟨hne, rfl | hmem⟩
          · exact absurd rfl hne
          · exact hmem
      obtain ⟨past', hevict, hlookup⟩ := ih hrest
      have htake : (first :: order).rtake max = order.rtake max := rtake_cons_of_le first (by omega)
      refine ⟨past', by rw [if_neg hfits, hevict, htake], ?_⟩
      intro jobId
      rw [hlookup, htake]
      split
      next hmem =>
        rw [KeyMap.lookup_erase_eq, if_neg]
        rintro rfl
        exact hnodup.1 ((rtake_suffix order max).subset hmem)
      · rfl

/-- The store holds what it should after the activations of a log, the first of which is clean or
    the first of all. -/
structure Recorded (log : List (Activation K T)) (s : Sv1JobStore K T) : Prop where
  active : s.activeJob = log.getLast?.map fun a => ⟨a.jobId, a.job⟩
  order : s.pastJobOrder = (otherIds log).rtake s.maxPastJobs
  past : ∀ jobId, s.pastJobs.lookup jobId =
    if jobId ∈ s.pastJobOrder then latest log jobId else none

theorem Recorded.nodup {log : List (Activation K T)} {s : Sv1JobStore K T} (h : Recorded log s) :
    s.pastJobOrder.Nodup := by
  rw [h.order]
  exact (nodup_otherIds log).sublist (rtake_suffix _ _).sublist

theorem Recorded.mem_otherIds {log : List (Activation K T)} {s : Sv1JobStore K T} {jobId : K}
    (h : Recorded log s) (hmem : jobId ∈ s.pastJobOrder) : jobId ∈ otherIds log := by
  rw [h.order] at hmem
  exact (rtake_suffix _ _).subset hmem

theorem Recorded.matched {log : List (Activation K T)} {s : Sv1JobStore K T}
    (h : Recorded log s) : Matched s.pastJobOrder s.pastJobs := by
  apply matched_of_lookup h.nodup _ h.past
  exact fun jobId hmem => latest_of_mem_otherIds (h.mem_otherIds hmem)

theorem recorded_new (maxPastJobs : Option Nat) :
    Recorded [] (new maxPastJobs : Sv1JobStore K T) := by
  constructor
  · rfl
  · exact (List.rtake_nil _).symm
  · intro jobId
    exact AList.lookup_empty jobId

/-- Without the id in the map, it is not in the queue either. -/
theorem Recorded.removePast {log : List (Activation K T)} {s : Sv1JobStore K T}
    (h : Recorded log s) (jobId : K) :
    (removePast s jobId).pastJobOrder = s.pastJobOrder.filter (· ≠ jobId) ∧
    ∀ j, (JobStore.removePast s jobId).pastJobs.lookup j =
      if j = jobId then none else s.pastJobs.lookup j := by
  unfold JobStore.removePast
  split
  · exact ⟨rfl, fun j => KeyMap.lookup_erase_eq _ _ _⟩
  next hnone =>
    have hnot : jobId ∉ s.pastJobOrder := by
      rw [h.matched.mem, ← AList.lookup_eq_none]
      exact hnone
    constructor
    · symm
      apply List.filter_eq_self.mpr
      intro j hj
      exact decide_eq_true fun heq => hnot (heq ▸ hj)
    · intro j
      split
      next heq => rw [heq, hnone]
      · rfl

/-- The store that the loop starts from. -/
theorem Recorded.displace {log : List (Activation K T)} {s : Sv1JobStore K T}
    (h : Recorded log s) {a : Activation K T} (ha : log.getLast? = some a) (b : Activation K T) :
    let s' := displace (JobStore.removePast s b.jobId) b.jobId
    s'.maxPastJobs = s.maxPastJobs ∧
    s'.pastJobOrder = s.pastJobOrder.filter (· ≠ b.jobId) ++
      (if a.jobId = b.jobId then [] else [a.jobId]) ∧
    ∀ jobId, s'.pastJobs.lookup jobId =
      if jobId ∈ s'.pastJobOrder then latest (log ++ [b]) jobId else none := by
  have hactive : (JobStore.removePast s b.jobId).activeJob = some ⟨a.jobId, a.job⟩ := by
    have hkept : (JobStore.removePast s b.jobId).activeJob = s.activeJob := by
      unfold JobStore.removePast
      split <;> rfl
    rw [hkept, h.active, ha]
    rfl
  have hmax : (JobStore.removePast s b.jobId).maxPastJobs = s.maxPastJobs := by
    unfold JobStore.removePast
    split <;> rfl
  obtain ⟨horder, hlookup⟩ := h.removePast b.jobId
  unfold JobStore.displace
  rw [hactive]
  dsimp only
  by_cases hid : a.jobId = b.jobId
  · rw [if_neg (not_not.mpr hid), if_pos hid, List.append_nil]
    refine ⟨hmax, horder, fun jobId => ?_⟩
    dsimp only
    rw [hlookup, horder, latest_concat, h.past]
    by_cases hb : jobId = b.jobId
    · simp [hb]
    · simp [hb, Ne.symm hb]
  · rw [if_pos hid, if_neg hid]
    refine ⟨hmax, by rw [horder], fun jobId => ?_⟩
    dsimp only
    rw [KeyMap.lookup_insert_eq, hlookup, horder, latest_concat, h.past]
    by_cases hlast : jobId = a.jobId
    · have hjob : latest log a.jobId = some a.job := latest_getLast ha
      simp [hlast, Ne.symm hid, hjob]
    · by_cases hb : jobId = b.jobId
      · simp [hb, Ne.symm hid]
      · simp [hb, Ne.symm hb, hlast]

/-- The window of the new log is that of the store that the loop starts from. -/
theorem rtake_otherIds_concat {log : List (Activation K T)} {a : Activation K T}
    (ha : log.getLast? = some a) (b : Activation K T) (max : Nat) :
    (((otherIds log).rtake max).filter (· ≠ b.jobId) ++
      if a.jobId = b.jobId then [] else [a.jobId]).rtake max =
    (otherIds (log ++ [b])).rtake max := by
  rw [otherIds_concat ha]
  by_cases hid : a.jobId = b.jobId
  · have hfilter : (otherIds log).filter (· ≠ b.jobId) = otherIds log := by
      apply List.filter_eq_self.mpr
      intro jobId hmem
      exact decide_eq_true fun heq => not_mem_otherIds ha (hid ▸ heq ▸ hmem)
    rw [if_pos hid, List.append_nil, List.append_nil, hfilter, List.filter_eq_self.mpr]
    · exact rtake_of_length_le (length_rtake_le _ _)
    · intro jobId hmem
      exact decide_eq_true fun heq =>
        not_mem_otherIds ha (hid ▸ heq ▸ (rtake_suffix _ _).subset hmem)
  · rw [if_neg hid]
    cases max with
    | zero => rw [List.rtake_zero, List.rtake_zero]
    | succ n =>
      rw [List.rtake_concat_succ, List.rtake_concat_succ,
        rtake_filter_rtake (nodup_otherIds log)]

/-- The loop of a call. -/
theorem Recorded.evict {log : List (Activation K T)} {s : Sv1JobStore K T}
    (h : Recorded log s) (b : Activation K T) :
    let s' := JobStore.displace (JobStore.removePast s b.jobId) b.jobId
    let order := (otherIds (log ++ [b])).rtake s.maxPastJobs
    ∃ past, JobStore.evict s'.maxPastJobs s'.pastJobOrder s'.pastJobs = some (order, past) ∧
      s'.maxPastJobs = s.maxPastJobs ∧
      ∀ jobId, past.lookup jobId =
        if jobId ∈ order then latest (log ++ [b]) jobId else none := by
  cases ha : log.getLast? with
  | none =>
    -- nothing was active, so there is nothing in the queue either
    have hlog : log = [] := List.getLast?_eq_none_iff.mp ha
    subst hlog
    have hqueue : s.pastJobOrder = [] := by
      rw [h.order]
      exact List.rtake_nil _
    have hpast : s.pastJobs.lookup b.jobId = none := by
      rw [h.past, hqueue, if_neg List.not_mem_nil]
    have hsame : JobStore.displace (JobStore.removePast s b.jobId) b.jobId = s := by
      have hactive := h.active
      simp only [JobStore.displace, JobStore.removePast, hpast, hactive, List.getLast?_nil,
        Option.map_none]
    obtain ⟨past, hevict, hlookup⟩ := evict_eq h.matched s.maxPastJobs
    rw [hsame]
    refine ⟨past, ?_, rfl, fun jobId => ?_⟩
    · rw [hevict, hqueue]
      rfl
    · rw [hlookup, hqueue, List.nil_append, otherIds_singleton, List.rtake_nil,
        if_neg List.not_mem_nil, if_neg List.not_mem_nil]
  | some a =>
    obtain ⟨hmax, horder, hlookup⟩ := h.displace ha b
    have hnodup := h.nodup.filter (· ≠ b.jobId)
    have hmatched : Matched
        (JobStore.displace (JobStore.removePast s b.jobId) b.jobId).pastJobOrder
        (JobStore.displace (JobStore.removePast s b.jobId) b.jobId).pastJobs := by
      apply matched_of_lookup _ _ hlookup
      · rw [horder]
        split
        · rwa [List.append_nil]
        · rw [← List.concat_eq_append]
          apply List.Nodup.concat
          · intro hmem
            exact not_mem_otherIds ha (h.mem_otherIds (List.mem_filter.mp hmem).1)
          · exact hnodup
      · rw [horder]
        exact latest_queue_isSome ha b fun jobId hmem => h.mem_otherIds hmem
    obtain ⟨past, hevict, hpast⟩ := evict_eq hmatched s.maxPastJobs
    have hwindow := rtake_otherIds_concat ha b s.maxPastJobs
    rw [← h.order, ← horder] at hwindow
    rw [hwindow] at hevict hpast
    refine ⟨past, by rw [hmax, hevict], hmax, fun jobId => ?_⟩
    rw [hpast]
    split
    next hmem =>
      rw [hlookup, if_pos]
      rw [← hwindow] at hmem
      exact (rtake_suffix _ _).subset hmem
    · rfl

/-- One call: the loop ends, and the store has the new log. -/
theorem Recorded.activate {log : List (Activation K T)} {s : Sv1JobStore K T}
    (h : Recorded log s) (b : Activation K T) :
    ∃ s', activate s b.jobId b.job b.cleanJobs = some s' ∧ s'.maxPastJobs = s.maxPastJobs ∧
      Recorded (if b.cleanJobs then [b] else log ++ [b]) s' := by
  unfold JobStore.activate
  by_cases hclean : b.cleanJobs
  · refine ⟨{ clear s with activeJob := some ⟨b.jobId, b.job⟩ }, by rw [if_pos hclean], rfl, ?_⟩
    rw [if_pos hclean]
    constructor
    · rfl
    · exact (List.rtake_nil _).symm
    · intro jobId
      exact AList.lookup_empty jobId
  · obtain ⟨past, hevict, hmax, hpast⟩ := h.evict b
    rw [if_neg hclean, if_neg hclean]
    dsimp only
    rw [hevict]
    refine ⟨_, rfl, hmax, ?_⟩
    constructor
    · rw [List.getLast?_concat]
      rfl
    · dsimp only
      rw [hmax]
    · exact hpast

theorem Recorded.activateAll {log : List (Activation K T)} {s : Sv1JobStore K T}
    (h : Recorded (sinceClean log) s) (calls : List (Activation K T)) :
    ∃ s', activateAll s calls = some s' ∧ s'.maxPastJobs = s.maxPastJobs ∧
      Recorded (sinceClean (log ++ calls)) s' := by
  induction calls generalizing log s with
  | nil => exact ⟨s, rfl, rfl, by rwa [List.append_nil]⟩
  | cons b calls ih =>
    obtain ⟨s₁, hcall, hmax₁, h₁⟩ := h.activate b
    rw [← sinceClean_concat] at h₁
    obtain ⟨s₂, hcalls, hmax₂, h₂⟩ := ih h₁
    refine ⟨s₂, ?_, hmax₂.trans hmax₁, ?_⟩
    · unfold JobStore.activateAll at hcalls ⊢
      rw [List.foldlM_cons, hcall]
      exact hcalls
    · rwa [List.append_assoc, List.singleton_append] at h₂

/-- What a store with a log answers. -/
theorem Recorded.get_eq {log : List (Activation K T)} {s : Sv1JobStore K T}
    (h : Recorded log s) (jobId : K) : get s jobId = referenceGet s.maxPastJobs log jobId := by
  unfold get referenceGet
  rw [h.active, h.past, h.order]
  cases ha : log.getLast? with
  | none => simp
  | some a =>
    by_cases hid : a.jobId = jobId
    · subst hid
      simp [Option.filter, latest_getLast ha]
    · simp [Option.filter, hid]

/-- What a store answers was activated. -/
theorem Recorded.exists_of_get {log : List (Activation K T)} {s : Sv1JobStore K T}
    (h : Recorded log s) {jobId : K} {job : T} (hget : get s jobId = some job) :
    ∃ a ∈ log, a.jobId = jobId ∧ a.job = job := by
  rw [h.get_eq, referenceGet] at hget
  split at hget
  · exact exists_of_latest hget
  · cases hget

theorem Recorded.active_eq {log : List (Activation K T)} {s : Sv1JobStore K T}
    (h : Recorded log s) : JobStore.active s = log.getLast?.map Activation.job := by
  unfold JobStore.active
  rw [h.active, Option.map_map]
  rfl

/-- After any calls, with any configured number of past jobs: each call returned, the queue holds the
    keys of the map once and not the active id, there are no more past jobs than configured, and the
    store answers as the activations since the last clean one say. -/
theorem bounded_recency_store (maxPastJobs : Option Nat) (calls : List (Activation K T)) :
    ∃ s, activateAll (new maxPastJobs) calls = some s ∧
      s.maxPastJobs = (maxPastJobs.filter (0 < ·)).getD defaultMaxPastJobs ∧
      s.pastJobOrder.Nodup ∧ (∀ jobId, jobId ∈ s.pastJobOrder ↔ jobId ∈ s.pastJobs) ∧
      (∀ active, s.activeJob = some active → active.jobId ∉ s.pastJobOrder) ∧
      s.pastJobs.entries.length ≤ s.maxPastJobs ∧
      ∀ jobId, get s jobId = referenceGet s.maxPastJobs (sinceClean calls) jobId := by
  have hnew : Recorded (sinceClean []) (new maxPastJobs : Sv1JobStore K T) := recorded_new maxPastJobs
  obtain ⟨s, hcalls, hmax, h⟩ := hnew.activateAll calls
  rw [List.nil_append] at h
  refine ⟨s, hcalls, hmax, h.nodup, h.matched.mem, ?_, ?_, h.get_eq⟩
  · intro active hactive
    rw [h.active] at hactive
    obtain ⟨a, ha, rfl⟩ := Option.map_eq_some_iff.mp hactive
    exact fun hmem => not_mem_otherIds ha (h.mem_otherIds hmem)
  · rw [h.matched.length, h.order]
    exact length_rtake_le _ _

/-! ## The list of past jobs -/

/-- The jobs of a queue of ids. -/
def jobsOf (value : K → Option T) (order : List K) : List (K × T) :=
  order.filterMap fun jobId => (value jobId).map fun job => (jobId, job)

omit [DecidableEq K] in
theorem jobsOf_congr {value value' : K → Option T} {order : List K}
    (h : ∀ jobId ∈ order, value jobId = value' jobId) : jobsOf value order = jobsOf value' order := by
  apply List.filterMap_congr
  intro jobId hmem
  rw [h jobId hmem]

theorem filter_jobsOf (value : K → Option T) (order : List K) (jobId : K) :
    (jobsOf value order).filter (fun e => e.1 ≠ jobId) =
      jobsOf value (order.filter (· ≠ jobId)) := by
  unfold jobsOf
  rw [List.filter_filterMap, List.filterMap_filter]
  apply List.filterMap_congr
  intro j _
  by_cases hj : j = jobId
  · subst hj
    cases value j <;> simp [Option.filter]
  · cases value j <;> simp [Option.filter, hj]

omit [DecidableEq K] in
theorem rtake_jobsOf {value : K → Option T} {order : List K}
    (h : ∀ jobId ∈ order, (value jobId).isSome) (n : Nat) :
    (jobsOf value order).rtake n = jobsOf value (order.rtake n) := by
  have hlen : ∀ l : List K, (∀ jobId ∈ l, (value jobId).isSome) →
      (jobsOf value l).length = l.length := by
    intro l hl
    induction l with
    | nil => rfl
    | cons a l ih =>
      obtain ⟨job, hjob⟩ := Option.isSome_iff_exists.mp (hl a List.mem_cons_self)
      have hrest := ih fun jobId hmem => hl jobId (List.mem_cons_of_mem _ hmem)
      unfold jobsOf at hrest ⊢
      rw [List.filterMap_cons_some (by rw [hjob]; rfl), List.length_cons, List.length_cons, hrest]
  have hsplit : jobsOf value order = jobsOf value (order.take (order.length - n)) ++
      jobsOf value (order.rtake n) := by
    unfold jobsOf List.rtake
    rw [← List.filterMap_append, List.take_append_drop]
  unfold List.rtake at hsplit ⊢
  rw [hlen order h]
  conv_lhs => rw [hsplit]
  apply List.drop_left'
  rw [hlen _ fun jobId hmem => h jobId (List.mem_of_mem_take hmem), List.length_take]
  omega

theorem find?_jobsOf (value : K → Option T) (order : List K) (jobId : K) :
    ((jobsOf value order).find? fun e => e.1 = jobId).map Prod.snd =
      if jobId ∈ order then value jobId else none := by
  induction order with
  | nil => rfl
  | cons j order ih =>
    unfold jobsOf at ih ⊢
    cases hj : value j with
    | none =>
      rw [List.filterMap_cons_none (by rw [hj]; rfl), ih]
      by_cases heq : jobId = j
      · subst heq
        simp [hj]
      · simp [heq]
    | some job =>
      rw [List.filterMap_cons_some (by rw [hj]; rfl), List.find?_cons]
      by_cases heq : jobId = j
      · subst heq
        simp [hj]
      · simp only [decide_eq_false (Ne.symm heq), ih, List.mem_cons, heq, false_or]

section Lists

variable {T : Type}

/-- The list of past jobs after the activations of a log. -/
structure Lists (log : List (Activation Sv1JobId T)) (l : Translator.Sv1JobStore T) : Prop where
  active : l.activeJob = log.getLast?.map fun a => (a.jobId, a.job)
  past : l.pastJobs = jobsOf (latest log) ((otherIds log).rtake l.maxPastJobs)

theorem Lists.activate {log : List (Activation Sv1JobId T)} {l : Translator.Sv1JobStore T}
    (h : Lists log l) (b : Activation Sv1JobId T) :
    Lists (if b.cleanJobs then [b] else log ++ [b]) (l.activate b.jobId b.job b.cleanJobs) := by
  constructor
  · unfold Translator.Sv1JobStore.activate
    split <;> simp
  · unfold Translator.Sv1JobStore.activate
    by_cases hclean : b.cleanJobs
    · rw [if_pos hclean, if_pos hclean, otherIds_singleton, List.rtake_nil]
      exact List.drop_nil
    · rw [if_neg hclean, if_neg hclean]
      change (l.retire b.jobId).rtake l.maxPastJobs = _
      cases ha : log.getLast? with
      | none =>
        have hlog : log = [] := List.getLast?_eq_none_iff.mp ha
        subst hlog
        have hactive : l.activeJob = none := h.active
        have hpast : l.pastJobs = [] := by
          rw [h.past]
          exact congrArg (jobsOf _) (List.rtake_nil _)
        unfold Translator.Sv1JobStore.retire
        rw [hactive, hpast]
        exact (List.rtake_nil _).trans (congrArg (jobsOf _) (List.rtake_nil _)).symm
      | some a =>
        have hnot : a.jobId ∉ (otherIds log).rtake l.maxPastJobs :=
          fun hmem => not_mem_otherIds ha ((rtake_suffix _ _).subset hmem)
        have hretire : l.retire b.jobId = jobsOf (latest (log ++ [b]))
            (((otherIds log).rtake l.maxPastJobs).filter (· ≠ b.jobId) ++
              if a.jobId = b.jobId then [] else [a.jobId]) := by
          have hkeep : jobsOf (latest log)
              (((otherIds log).rtake l.maxPastJobs).filter (· ≠ b.jobId)) =
              jobsOf (latest (log ++ [b]))
              (((otherIds log).rtake l.maxPastJobs).filter (· ≠ b.jobId)) := by
            apply jobsOf_congr
            intro jobId hmem
            have hne : jobId ≠ b.jobId := by simpa using (List.mem_filter.mp hmem).2
            rw [latest_concat, if_neg (Ne.symm hne)]
          have hactive : l.activeJob = some (a.jobId, a.job) := by
            rw [h.active, ha]
            rfl
          unfold Translator.Sv1JobStore.retire
          rw [hactive, h.past, filter_jobsOf, hkeep]
          dsimp only
          by_cases hid : a.jobId = b.jobId
          · rw [if_neg (not_not.mpr hid), if_pos hid, List.append_nil]
          · have hlast : latest (log ++ [b]) a.jobId = some a.job := by
              rw [latest_concat, if_neg (Ne.symm hid), latest_getLast ha]
            rw [if_pos hid, if_neg hid, filter_jobsOf, List.filter_eq_self.mpr]
            · unfold jobsOf
              rw [List.filterMap_append]
              simp [hlast]
            · intro jobId hmem
              exact decide_eq_true fun heq => hnot (heq ▸ (List.mem_filter.mp hmem).1)
        rw [hretire, rtake_jobsOf, rtake_otherIds_concat ha]
        exact latest_queue_isSome ha b fun jobId hmem => (rtake_suffix _ _).subset hmem

theorem Lists.get_eq {log : List (Activation Sv1JobId T)} {l : Translator.Sv1JobStore T}
    (h : Lists log l) (jobId : Sv1JobId) :
    l.get jobId = referenceGet l.maxPastJobs log jobId := by
  unfold Translator.Sv1JobStore.get referenceGet
  rw [h.active, h.past, find?_jobsOf]
  cases ha : log.getLast? with
  | none => simp
  | some a =>
    by_cases hid : a.jobId = jobId
    · subst hid
      simp [Option.filter, latest_getLast ha]
    · simp [Option.filter, hid]

theorem lists_new (maxPastJobs : Option Nat) :
    Lists [] (Translator.Sv1JobStore.new maxPastJobs : Translator.Sv1JobStore T) :=
  ⟨rfl, (congrArg (jobsOf _) (List.rtake_nil _)).symm⟩

end Lists

/-! ## Ids in another form -/

section Renaming

variable {K' T' : Type} [DecidableEq K'] {f : K → K'}

def Activation.map (f : K → K') (g : T → T') (a : Activation K T) : Activation K' T' :=
  ⟨f a.jobId, g a.job, a.cleanJobs⟩

omit [DecidableEq K] [DecidableEq K'] in
theorem sinceClean_map (f : K → K') (g : T → T') (log : List (Activation K T)) :
    sinceClean (log.map (Activation.map f g)) = (sinceClean log).map (Activation.map f g) := by
  induction log with
  | nil => rfl
  | cons a log ih =>
    have hany : (log.map (Activation.map f g)).any Activation.cleanJobs =
        log.any Activation.cleanJobs := List.any_map
    rw [List.map_cons, sinceClean, sinceClean, hany, ih]
    split
    · rfl
    · rfl

theorem displacedIds_map (hf : Function.Injective f) (g : T → T') (log : List (Activation K T)) :
    displacedIds (log.map (Activation.map f g)) = (displacedIds log).map f := by
  induction log with
  | nil => rfl
  | cons a log ih =>
    cases log with
    | nil => rfl
    | cons b log =>
      have hids : (a.map f g).jobId = (b.map f g).jobId ↔ a.jobId = b.jobId := hf.eq_iff
      simp only [List.map_cons] at ih ⊢
      simp only [displacedIds, ih, hids]
      split
      · rfl
      · rfl

theorem otherIds_map (hf : Function.Injective f) (g : T → T') (log : List (Activation K T)) :
    otherIds (log.map (Activation.map f g)) = (otherIds log).map f := by
  unfold otherIds
  rw [List.getLast?_map, displacedIds_map hf]
  cases log.getLast? with
  | none => rfl
  | some a =>
    have hfilter : ((displacedIds log).map f).filter (· ≠ f a.jobId) =
        ((displacedIds log).filter (· ≠ a.jobId)).map f := by
      rw [List.filter_map]
      congr 2
      funext jobId
      simp [hf.eq_iff]
    rw [Option.map_some]
    dsimp only [Activation.map]
    rw [hfilter, List.dedup_map_of_injective hf]

theorem latest_map (hf : Function.Injective f) (g : T → T') (log : List (Activation K T))
    (jobId : K) :
    latest (log.map (Activation.map f g)) (f jobId) = (latest log jobId).map g := by
  unfold latest
  rw [← List.map_reverse, List.find?_map, Option.map_map, Option.map_map]
  have hsame : (fun a : Activation K' T' => decide (a.jobId = f jobId)) ∘ Activation.map f g =
      fun a => decide (a.jobId = jobId) := by
    funext a
    simp [Activation.map, hf.eq_iff]
  rw [hsame]
  rfl

/-- Jobs whose ids are told apart are remembered alike. -/
theorem referenceGet_map (hf : Function.Injective f) (g : T → T') (max : Nat)
    (log : List (Activation K T)) (jobId : K) :
    referenceGet max (log.map (Activation.map f g)) (f jobId) =
      (referenceGet max log jobId).map g := by
  have hlast : ((log.map (Activation.map f g)).getLast?.map Activation.jobId = some (f jobId)) ↔
      log.getLast?.map Activation.jobId = some jobId := by
    rw [List.getLast?_map]
    cases log.getLast? with
    | none => simp
    | some a => simp [Activation.map, hf.eq_iff]
  have hmem : f jobId ∈ (otherIds (log.map (Activation.map f g))).rtake max ↔
      jobId ∈ (otherIds log).rtake max := by
    rw [otherIds_map hf, List.rtake, List.rtake, List.length_map, ← List.map_drop,
      List.mem_map_of_injective hf]
  unfold referenceGet
  rw [latest_map hf, apply_ite (Option.map g)]
  simp only [hlast, hmem, Option.map_none]

end Renaming

end Sv2Apps.Translator.JobStore
