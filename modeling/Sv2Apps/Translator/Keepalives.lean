/-
  Translator/Keepalives.lean
  ==========================
  **Keepalive jobs of one history** — `create_keepalive_job` and the ids of keepalives in
  `translator/src/lib/sv1/sv1_server/mod.rs`, with the texts of the ids as the miners see them.

  A keepalive is the active job at a later time, under the id of the upstream job with `#` and a
  counter.  It is made of whatever is active, so of earlier keepalives as well; the time that it may
  reach is fixed by the upstream job.  Here a history takes jobs of the upstream and keepalives in
  any order, while keepalives of other histories use up values of the counter, and each job is
  recorded with the upstream job that it comes from (`keepalives_translatable_and_bounded`).

  `Sv1Jobs` has the ids as pairs and the past jobs in a list, as the state of the server does in the
  other modules.  A history there and one here go together (`pairs_agree_with_texts`).
-/
import Sv2Apps.Lib.Runs
import Sv2Apps.Translator.JobStore
import Mathlib.Data.UInt

namespace Sv2Apps.Translator.Keepalives

open Bitcoin JobStore

/-! ## The texts of the ids -/

/-- A text, character by character. -/
abbrev Text := List Char

/-- `KEEPALIVE_JOB_ID_DELIMITER`. -/
def keepaliveJobIdDelimiter : Char := '#'

/-- `u32::to_string`. -/
def decimal (n : UInt32) : Text := Nat.toDigits 10 n.toNat

/-- `str::split_once`: what is before the first delimiter, and what is after it. -/
def splitOnce (delimiter : Char) : Text → Option (Text × Text)
  | [] => none
  | c :: text =>
    if c = delimiter then some ([], text)
    else (splitOnce delimiter text).map fun (before, after) => (c :: before, after)

/-- `extract_original_job_id`. -/
def extractOriginalJobId (jobId : Text) : Option Text :=
  (splitOnce keepaliveJobIdDelimiter jobId).map Prod.fst

/-- `is_keepalive_job_id`. -/
def isKeepaliveJobId (jobId : Text) : Bool := jobId.contains keepaliveJobIdDelimiter

/-- The format of `next_keepalive_job_id`. -/
def keepaliveJobId (originalJobId : Text) (counter : UInt32) : Text :=
  originalJobId ++ keepaliveJobIdDelimiter :: decimal counter

/-- The job id that `handle_submit_shares` forwards; `none`: the share is rejected. -/
def forwardedJobId (jobId : Text) : Option Text :=
  if isKeepaliveJobId jobId then extractOriginalJobId jobId else some jobId

/-! ## A history -/

/-- `mining.notify` with the text of its id. -/
structure Notify where
  jobId : Text
  prevHash : Hash256
  time : UInt32
  cleanJobs : Bool
  job : NewExtendedMiningJob

structure StoredSv1Job where
  notify : Notify
  keepaliveBaseTime : UInt32

/-- `StoredSv1Job::upstream`. -/
def StoredSv1Job.upstream (notify : Notify) : StoredSv1Job := ⟨notify, notify.time⟩

/-- The notification of `create_keepalive_job`; `none` when the time cannot be moved. -/
def keepaliveNotify (intervalSecs : UInt16) (last : StoredSv1Job) (counter : UInt32) :
    Option Notify :=
  let originalJobId := (extractOriginalJobId last.notify.jobId).getD last.notify.jobId
  let newTime := min (saturatingAdd last.notify.time intervalSecs.toUInt32)
    (saturatingAdd last.keepaliveBaseTime maxFutureBlockTime)
  if newTime = last.notify.time then none
  else some { last.notify with
    jobId := keepaliveJobId originalJobId counter, time := newTime, cleanJobs := false }

/-- The entry of `valid_sv1_jobs` and the counter, which all histories share. -/
structure History where
  jobs : JobStore.Sv1JobStore Text StoredSv1Job
  keepaliveJobIdCounter : UInt32

/-- `create_keepalive_job`: the history, and the notification if there is one.  There is no result
    if the store never returns. -/
def createKeepaliveJob (intervalSecs : UInt16) (h : History) : Option (History × Option Notify) :=
  match active h.jobs with
  | none => some (h, none)
  | some last =>
    match keepaliveNotify intervalSecs last h.keepaliveJobIdCounter with
    | none => some (h, none)
    | some notify =>
      (activate h.jobs notify.jobId ⟨notify, last.keepaliveBaseTime⟩ false).map fun jobs =>
        (⟨jobs, h.keepaliveJobIdCounter + 1⟩, some notify)

/-- `build_sv1_notify_from_sv2`, with the text of the id. -/
abbrev NotifyBuilder := SetNewPrevHash → NewExtendedMiningJob → Bool → Notify

/-- A job of the upstream is stored; `resets`: the history starts again with it. -/
def storeUpstream (build : NotifyBuilder) (h : History) (prevhash : SetNewPrevHash)
    (m : NewExtendedMiningJob) (resets : Bool) : Option History :=
  let notify := build prevhash m (m.jobId = prevhash.jobId)
  (activate h.jobs notify.jobId (.upstream notify) resets).map fun jobs =>
    { h with jobs := jobs }

/-! ## Its jobs, with where they come from -/

/-- A job that was activated: the upstream job that it was made of, by that many keepalives. -/
structure Entry where
  job : StoredSv1Job
  upstream : NewExtendedMiningJob
  upstreamNotify : Notify
  generation : Nat
  resets : Bool

def Entry.activation (e : Entry) : Activation Text StoredSv1Job :=
  ⟨e.job.notify.jobId, e.job, e.resets⟩

/-- A history with all that was activated in it, and how many values of the counter were taken. -/
structure Recording where
  history : History
  entries : List Entry
  taken : Nat

inductive Step where
  | upstream (prevhash : SetNewPrevHash) (m : NewExtendedMiningJob) (resets : Bool)
  | keepalive
  /-- A keepalive of another history. -/
  | elsewhere

/-- The entry of a keepalive that was made of the last one. -/
def Entry.keepalive (last : Entry) (notify : Notify) : Entry :=
  { last with
    job := ⟨notify, last.job.keepaliveBaseTime⟩
    generation := last.generation + 1
    resets := false }

def Recording.step (build : NotifyBuilder) (intervalSecs : UInt16) (r : Recording) :
    Step → Option Recording
  | .upstream prevhash m resets =>
    let notify := build prevhash m (m.jobId = prevhash.jobId)
    (storeUpstream build r.history prevhash m resets).map fun h =>
      { r with
        history := h
        entries := r.entries ++ [⟨.upstream notify, m, notify, 0, resets⟩] }
  | .keepalive =>
    (createKeepaliveJob intervalSecs r.history).map fun
      | (h, some notify) =>
        { history := h
          entries := r.entries ++ (r.entries.getLast?.map fun last => last.keepalive notify).toList
          taken := r.taken + 1 }
      | (h, none) => { r with history := h }
  | .elsewhere =>
    some { r with
      history := ⟨r.history.jobs, r.history.keepaliveJobIdCounter + 1⟩
      taken := r.taken + 1 }

def Recording.new (maxPastJobs : Option Nat) : Recording := ⟨⟨JobStore.new maxPastJobs, 0⟩, [], 0⟩

def Recording.run (build : NotifyBuilder) (intervalSecs : UInt16) (r : Recording)
    (steps : List Step) : Option Recording :=
  steps.foldlM (Recording.step build intervalSecs) r

/-! ## What the texts say -/

theorem splitOnce_append {delimiter : Char} {before : Text} (h : delimiter ∉ before)
    (after : Text) : splitOnce delimiter (before ++ delimiter :: after) = some (before, after) := by
  induction before with
  | nil => simp [splitOnce]
  | cons c before ih =>
    have hc : c ≠ delimiter := fun heq => h (heq ▸ List.mem_cons_self)
    have hrest := ih fun hmem => h (List.mem_cons_of_mem _ hmem)
    simp only [List.cons_append, splitOnce, hc, if_false, hrest, Option.map_some]

theorem splitOnce_eq_none {delimiter : Char} {text : Text} (h : delimiter ∉ text) :
    splitOnce delimiter text = none := by
  induction text with
  | nil => rfl
  | cons c text ih =>
    have hc : c ≠ delimiter := fun heq => h (heq ▸ List.mem_cons_self)
    have hrest := ih fun hmem => h (List.mem_cons_of_mem _ hmem)
    simp only [splitOnce, hc, if_false, hrest, Option.map_none]

theorem delimiter_not_mem_decimal (n : UInt32) : keepaliveJobIdDelimiter ∉ decimal n := by
  intro hmem
  have hdigit := Nat.isDigit_of_mem_toDigits (by decide) (by decide) hmem
  exact absurd hdigit (by decide)

theorem decimal_injective {n m : UInt32} (h : decimal n = decimal m) : n = m := by
  apply UInt32.toNat_inj.mp
  have hparsed := congrArg (fun digits => Nat.ofDigitChars 10 digits 0) h
  simpa [decimal] using hparsed

theorem extractOriginalJobId_decimal (n : UInt32) : extractOriginalJobId (decimal n) = none := by
  unfold extractOriginalJobId
  rw [splitOnce_eq_none (delimiter_not_mem_decimal n)]
  rfl

theorem extractOriginalJobId_keepaliveJobId (n counter : UInt32) :
    extractOriginalJobId (keepaliveJobId (decimal n) counter) = some (decimal n) := by
  unfold extractOriginalJobId keepaliveJobId
  rw [splitOnce_append (delimiter_not_mem_decimal n)]
  rfl

theorem forwardedJobId_decimal (n : UInt32) : forwardedJobId (decimal n) = some (decimal n) := by
  have hnot : isKeepaliveJobId (decimal n) = false := by
    unfold isKeepaliveJobId
    rw [List.contains_eq_mem, decide_eq_false (delimiter_not_mem_decimal n)]
  unfold forwardedJobId
  rw [hnot]
  rfl

theorem forwardedJobId_keepaliveJobId (n counter : UInt32) :
    forwardedJobId (keepaliveJobId (decimal n) counter) = some (decimal n) := by
  have hkeepalive : isKeepaliveJobId (keepaliveJobId (decimal n) counter) = true := by
    simp [isKeepaliveJobId, keepaliveJobId]
  unfold forwardedJobId
  rw [hkeepalive, if_pos rfl, extractOriginalJobId_keepaliveJobId]

theorem keepaliveJobId_ne_decimal (n m counter : UInt32) :
    keepaliveJobId (decimal n) counter ≠ decimal m := by
  intro heq
  have hextract := extractOriginalJobId_keepaliveJobId n counter
  rw [heq, extractOriginalJobId_decimal] at hextract
  cases hextract

theorem keepaliveJobId_counter {n m c c' : UInt32}
    (h : keepaliveJobId (decimal n) c = keepaliveJobId (decimal m) c') : c = c' := by
  have hsplit := congrArg (splitOnce keepaliveJobIdDelimiter) h
  unfold keepaliveJobId at hsplit
  rw [splitOnce_append (delimiter_not_mem_decimal n),
    splitOnce_append (delimiter_not_mem_decimal m)] at hsplit
  simp only [Option.some.injEq, Prod.mk.injEq] at hsplit
  exact decimal_injective hsplit.2

/-! ## The time of a keepalive -/

theorem toNat_saturatingAdd (a b : UInt32) :
    (saturatingAdd a b).toNat = min (a.toNat + b.toNat) (2 ^ 32 - 1) := by
  unfold saturatingAdd
  split
  next h =>
    rw [UInt32.toNat_add, Nat.mod_eq_of_lt h]
    omega
  next h =>
    have hmax : (0xffffffff : UInt32).toNat = 2 ^ 32 - 1 := by decide
    rw [hmax]
    omega

theorem toNat_min (a b : UInt32) : (min a b).toNat = min a.toNat b.toNat := by
  change (if a ≤ b then a else b).toNat = _
  by_cases h : a ≤ b
  · rw [if_pos h]
    have hle := UInt32.le_iff_toNat_le.mp h
    omega
  · rw [if_neg h]
    have hnot : ¬ a.toNat ≤ b.toNat := fun hle => h (UInt32.le_iff_toNat_le.mpr hle)
    omega

/-- The latest time that the keepalives of an upstream job may have. -/
def latestTime (baseTime : UInt32) : Nat := (saturatingAdd baseTime maxFutureBlockTime).toNat

theorem latestTime_eq (baseTime : UInt32) :
    latestTime baseTime = min (baseTime.toNat + 7200) (2 ^ 32 - 1) := by
  unfold latestTime
  rw [toNat_saturatingAdd]
  rfl

/-- The most keepalives that are made of one upstream job, the ceiling of a quotient. -/
def maxKeepalives (intervalSecs : UInt16) : Nat :=
  (maxFutureBlockTime.toNat + intervalSecs.toNat - 1) / intervalSecs.toNat

/-- A keepalive of a job whose time is not above the latest one. -/
theorem keepaliveNotify_some {intervalSecs : UInt16} {last : StoredSv1Job} {counter : UInt32}
    {notify : Notify} (h : keepaliveNotify intervalSecs last counter = some notify)
    (hlast : last.notify.time.toNat ≤ latestTime last.keepaliveBaseTime) :
    notify.jobId = keepaliveJobId
      ((extractOriginalJobId last.notify.jobId).getD last.notify.jobId) counter ∧
    notify.time.toNat =
      min (last.notify.time.toNat + intervalSecs.toNat) (latestTime last.keepaliveBaseTime) ∧
    last.notify.time.toNat < notify.time.toNat := by
  unfold keepaliveNotify at h
  dsimp only at h
  have hbase := latestTime_eq last.keepaliveBaseTime
  have htime : (min (saturatingAdd last.notify.time intervalSecs.toUInt32)
      (saturatingAdd last.keepaliveBaseTime maxFutureBlockTime)).toNat =
      min (last.notify.time.toNat + intervalSecs.toNat) (latestTime last.keepaliveBaseTime) := by
    rw [toNat_min, toNat_saturatingAdd, UInt16.toNat_toUInt32]
    change min _ (latestTime last.keepaliveBaseTime) = _
    omega
  split at h
  · cases h
  next hmoved =>
    cases h
    have hne : last.notify.time.toNat ≠
        min (last.notify.time.toNat + intervalSecs.toNat) (latestTime last.keepaliveBaseTime) := by
      intro heq
      apply hmoved
      apply UInt32.toNat_inj.mp
      rw [htime, ← heq]
    refine ⟨rfl, htime, ?_⟩
    dsimp only
    rw [htime]
    omega

/-! ## What holds of every entry -/

/-- A job of the history against the upstream job that it comes from; `taken` values of the counter
    were used up. -/
structure EntryOk (intervalSecs : UInt16) (taken : Nat) (e : Entry) : Prop where
  jobId : e.job.notify.jobId = decimal e.upstream.jobId ∨
    ∃ k < taken, e.job.notify.jobId = keepaliveJobId (decimal e.upstream.jobId) (UInt32.ofNat k)
  baseTime : e.job.keepaliveBaseTime = e.upstreamNotify.time
  time_le : e.job.notify.time.toNat ≤ latestTime e.job.keepaliveBaseTime
  /-- Each keepalive moved the time by the whole interval, or as far as it goes. -/
  time_ge : min (e.job.keepaliveBaseTime.toNat + e.generation * intervalSecs.toNat)
    (latestTime e.job.keepaliveBaseTime) ≤ e.job.notify.time.toNat
  generation : e.generation ≤ maxKeepalives intervalSecs
  resets : e.generation ≠ 0 → e.resets = false

theorem EntryOk.mono {intervalSecs : UInt16} {taken taken' : Nat} {e : Entry}
    (h : EntryOk intervalSecs taken e) (hle : taken ≤ taken') : EntryOk intervalSecs taken' e := by
  refine ⟨?_, h.baseTime, h.time_le, h.time_ge, h.generation, h.resets⟩
  rcases h.jobId with hid | ⟨k, hk, hid⟩
  · exact Or.inl hid
  · exact Or.inr ⟨k, hk.trans_le hle, hid⟩

theorem EntryOk.originalJobId {intervalSecs : UInt16} {taken : Nat} {e : Entry}
    (h : EntryOk intervalSecs taken e) :
    (extractOriginalJobId e.job.notify.jobId).getD e.job.notify.jobId =
      decimal e.upstream.jobId := by
  rcases h.jobId with hid | ⟨k, -, hid⟩
  · rw [hid, extractOriginalJobId_decimal]
    rfl
  · rw [hid, extractOriginalJobId_keepaliveJobId]
    rfl

theorem EntryOk.forwarded {intervalSecs : UInt16} {taken : Nat} {e : Entry}
    (h : EntryOk intervalSecs taken e) :
    forwardedJobId e.job.notify.jobId = some (decimal e.upstream.jobId) := by
  rcases h.jobId with hid | ⟨k, -, hid⟩
  · rw [hid, forwardedJobId_decimal]
  · rw [hid, forwardedJobId_keepaliveJobId]

/-- An id with a new value of the counter. -/
theorem EntryOk.jobId_ne {intervalSecs : UInt16} {taken : Nat} {e : Entry}
    (h : EntryOk intervalSecs taken e) (htaken : taken < 2 ^ 32) (n : UInt32) :
    keepaliveJobId (decimal n) (UInt32.ofNat taken) ≠ e.job.notify.jobId := by
  rcases h.jobId with hid | ⟨k, hk, hid⟩
  · rw [hid]
    exact keepaliveJobId_ne_decimal n _ _
  · rw [hid]
    intro heq
    have hcounter := congrArg UInt32.toNat (keepaliveJobId_counter heq)
    rw [UInt32.toNat_ofNat_of_lt' htaken, UInt32.toNat_ofNat_of_lt' (hk.trans htaken)] at hcounter
    omega

theorem entryOk_upstream (intervalSecs : UInt16) (taken : Nat) (notify : Notify)
    (m : NewExtendedMiningJob) (resets : Bool) (hid : notify.jobId = decimal m.jobId) :
    EntryOk intervalSecs taken ⟨.upstream notify, m, notify, 0, resets⟩ := by
  have hlatest := latestTime_eq notify.time
  have hlt := notify.time.toNat_lt
  constructor
  · exact Or.inl hid
  · rfl
  · dsimp only [StoredSv1Job.upstream]
    omega
  · dsimp only [StoredSv1Job.upstream]
    omega
  · exact Nat.zero_le _
  · exact fun hne => absurd rfl hne

/-- A further keepalive of an upstream job. -/
theorem EntryOk.keepalive {intervalSecs : UInt16} {taken : Nat} {e : Entry}
    (h : EntryOk intervalSecs taken e) {notify : Notify}
    (hnotify : keepaliveNotify intervalSecs e.job (UInt32.ofNat taken) = some notify) :
    EntryOk intervalSecs (taken + 1) (e.keepalive notify) := by
  obtain ⟨hid, htime, hmoved⟩ := keepaliveNotify_some hnotify h.time_le
  rw [h.originalJobId] at hid
  have hlatest := latestTime_eq e.job.keepaliveBaseTime
  have hge := h.time_ge
  have hsucc : (e.generation + 1) * intervalSecs.toNat =
      e.generation * intervalSecs.toNat + intervalSecs.toNat := Nat.succ_mul _ _
  constructor
  · exact Or.inr ⟨taken, Nat.lt_succ_self _, hid⟩
  · exact h.baseTime
  · dsimp only [Entry.keepalive]
    omega
  · dsimp only [Entry.keepalive]
    omega
  · dsimp only [Entry.keepalive, maxKeepalives]
    have hmax : maxFutureBlockTime.toNat = 7200 := rfl
    rw [Nat.le_div_iff_mul_le (by omega), hsucc, hmax]
    omega
  · exact fun _ => rfl

/-- The recording of a history: its store has the entries, and its counter stands at the number of
    values that were taken. -/
structure RecordingOk (intervalSecs : UInt16) (r : Recording) : Prop where
  stored : Recorded (sinceClean (r.entries.map Entry.activation)) r.history.jobs
  counter : r.history.keepaliveJobIdCounter = UInt32.ofNat r.taken
  entries : ∀ e ∈ r.entries, EntryOk intervalSecs r.taken e

variable {build : NotifyBuilder} {intervalSecs : UInt16}

theorem RecordingOk.active {r : Recording} (h : RecordingOk intervalSecs r) :
    active r.history.jobs = r.entries.getLast?.map Entry.job := by
  rw [h.stored.active_eq, getLast?_sinceClean, List.getLast?_map, Option.map_map]
  rfl

/-- A stored job is one that was activated. -/
theorem RecordingOk.exists_of_get {r : Recording} (h : RecordingOk intervalSecs r) {jobId : Text}
    {job : StoredSv1Job} (hget : get r.history.jobs jobId = some job) :
    ∃ e ∈ r.entries, e.job.notify.jobId = jobId ∧ e.job = job := by
  obtain ⟨a, ha, hid, hjob⟩ := h.stored.exists_of_get hget
  obtain ⟨e, he, rfl⟩ := List.mem_map.mp ((sinceClean_suffix _).subset ha)
  exact ⟨e, he, hid, hjob⟩

/-- The store with one more entry. -/
theorem RecordingOk.activate {r : Recording} (h : RecordingOk intervalSecs r) (e : Entry) :
    ∃ jobs, activate r.history.jobs e.job.notify.jobId e.job e.resets = some jobs ∧
      jobs.maxPastJobs = r.history.jobs.maxPastJobs ∧
      Recorded (sinceClean ((r.entries ++ [e]).map Entry.activation)) jobs := by
  obtain ⟨jobs, hjobs, hmax, hstored⟩ := h.stored.activate e.activation
  rw [← sinceClean_concat] at hstored
  refine ⟨jobs, hjobs, hmax, ?_⟩
  rwa [List.map_append]

theorem RecordingOk.entries_concat {r : Recording} (h : RecordingOk intervalSecs r) {e : Entry}
    {taken : Nat} (hle : r.taken ≤ taken) (he : EntryOk intervalSecs taken e) :
    ∀ e' ∈ r.entries ++ [e], EntryOk intervalSecs taken e' := by
  intro e' hmem
  rcases List.mem_append.mp hmem with hold | hnew
  · exact (h.entries e' hold).mono hle
  · rw [List.mem_singleton.mp hnew]
    exact he

/-- What a keepalive does: nothing, or a new entry that is made of the last one. -/
theorem RecordingOk.createKeepaliveJob {r : Recording} (h : RecordingOk intervalSecs r) :
    ((∀ last, r.entries.getLast? = some last →
        keepaliveNotify intervalSecs last.job (UInt32.ofNat r.taken) = none) ∧
      createKeepaliveJob intervalSecs r.history = some (r.history, none)) ∨
    ∃ last notify jobs, r.entries.getLast? = some last ∧
      keepaliveNotify intervalSecs last.job (UInt32.ofNat r.taken) = some notify ∧
      createKeepaliveJob intervalSecs r.history =
        some (⟨jobs, UInt32.ofNat (r.taken + 1)⟩, some notify) ∧
      jobs.maxPastJobs = r.history.jobs.maxPastJobs ∧
      Recorded (sinceClean ((r.entries ++ [last.keepalive notify]).map Entry.activation)) jobs := by
  unfold Keepalives.createKeepaliveJob
  rw [h.active, h.counter]
  cases hlast : r.entries.getLast? with
  | none => exact Or.inl ⟨fun _ hsome => (Option.some_ne_none _ hsome.symm).elim, rfl⟩
  | some last =>
    rw [Option.map_some]
    dsimp only
    cases hnotify : keepaliveNotify intervalSecs last.job (UInt32.ofNat r.taken) with
    | none =>
      left
      refine ⟨?_, rfl⟩
      rintro last' ⟨⟩
      exact hnotify
    | some notify =>
      right
      obtain ⟨jobs, hjobs, hmax, hstored⟩ := h.activate (last.keepalive notify)
      refine ⟨last, notify, jobs, rfl, hnotify, ?_, hmax, hstored⟩
      have hcall : JobStore.activate r.history.jobs notify.jobId
          ⟨notify, last.job.keepaliveBaseTime⟩ false = some jobs := hjobs
      dsimp only
      rw [hcall, UInt32.ofNat_add]
      rfl

theorem RecordingOk.step (hbuild : ∀ p m clean, (build p m clean).jobId = decimal m.jobId)
    {r : Recording} (h : RecordingOk intervalSecs r) (st : Step) :
    ∃ r', r.step build intervalSecs st = some r' ∧
      r'.history.jobs.maxPastJobs = r.history.jobs.maxPastJobs ∧ RecordingOk intervalSecs r' := by
  cases st with
  | upstream prevhash m resets =>
    have he := entryOk_upstream intervalSecs r.taken (build prevhash m (m.jobId = prevhash.jobId))
      m resets (hbuild _ _ _)
    obtain ⟨jobs, hjobs, hmax, hstored⟩ := h.activate
      ⟨.upstream (build prevhash m (m.jobId = prevhash.jobId)), m,
        build prevhash m (m.jobId = prevhash.jobId), 0, resets⟩
    have hcall : storeUpstream build r.history prevhash m resets =
        some { r.history with jobs := jobs } := by
      unfold storeUpstream
      exact congrArg (Option.map _) hjobs
    unfold Recording.step
    dsimp only
    rw [hcall]
    exact ⟨_, rfl, hmax, hstored, h.counter, h.entries_concat le_rfl he⟩
  | keepalive =>
    unfold Recording.step
    rcases h.createKeepaliveJob with ⟨-, hnone⟩ | ⟨last, notify, jobs, hlast, hnotify, hcreate, hmax,
      hstored⟩
    · rw [hnone]
      exact ⟨r, rfl, rfl, h⟩
    · rw [hcreate]
      refine ⟨_, rfl, hmax, ?_⟩
      have hmem : last ∈ r.entries := List.mem_of_getLast? hlast
      dsimp only
      rw [hlast]
      exact ⟨hstored, rfl,
        h.entries_concat (Nat.le_succ _) ((h.entries last hmem).keepalive hnotify)⟩
  | elsewhere =>
    refine ⟨_, rfl, rfl, ⟨h.stored, ?_, fun e he => (h.entries e he).mono (Nat.le_succ _)⟩⟩
    dsimp only
    rw [h.counter, UInt32.ofNat_add]
    rfl

theorem recordingOk_new (maxPastJobs : Option Nat) :
    RecordingOk intervalSecs (Recording.new maxPastJobs) := by
  constructor
  · exact recorded_new maxPastJobs
  · rfl
  · intro e he
    cases he

theorem RecordingOk.run (hbuild : ∀ p m clean, (build p m clean).jobId = decimal m.jobId)
    {r : Recording} (h : RecordingOk intervalSecs r) (steps : List Step) :
    ∃ r', r.run build intervalSecs steps = some r' ∧
      r'.history.jobs.maxPastJobs = r.history.jobs.maxPastJobs ∧ RecordingOk intervalSecs r' := by
  induction steps generalizing r with
  | nil => exact ⟨r, rfl, rfl, h⟩
  | cons st steps ih =>
    obtain ⟨r₁, hstep, hmax₁, h₁⟩ := h.step hbuild st
    obtain ⟨r₂, hrun, hmax₂, h₂⟩ := ih h₁
    refine ⟨r₂, ?_, hmax₂.trans hmax₁, h₂⟩
    unfold Recording.run at hrun ⊢
    rw [List.foldlM_cons, hstep]
    exact hrun

/-- In every run of a history: the store returns, and it answers as the jobs since the last clean one
    say, where a keepalive is never a clean one.  A share on a job goes to the upstream under the id
    of the upstream job that the job comes from, and there are no more keepalives of an upstream job
    than the interval fits into the time that Bitcoin Core allows.  While the counter has not come
    round, a keepalive has an id that no stored job has, and a time that is later than that of the
    job it replaces and within bounds of the upstream job. -/
theorem keepalives_translatable_and_bounded
    (hbuild : ∀ p m clean, (build p m clean).jobId = decimal m.jobId) (intervalSecs : UInt16)
    (maxPastJobs : Option Nat) (steps : List Step) :
    ∃ r, (Recording.new maxPastJobs).run build intervalSecs steps = some r ∧
      (∀ jobId, get r.history.jobs jobId = referenceGet
        ((maxPastJobs.filter (0 < ·)).getD defaultMaxPastJobs)
        (sinceClean (r.entries.map Entry.activation)) jobId) ∧
      (∀ e ∈ r.entries, e.generation ≤ maxKeepalives intervalSecs ∧
        (e.generation ≠ 0 → e.resets = false)) ∧
      (∀ jobId job, get r.history.jobs jobId = some job → ∃ e ∈ r.entries, e.job = job ∧
        forwardedJobId jobId = some (decimal e.upstream.jobId)) ∧
      (r.taken < 2 ^ 32 → ∀ h notify,
        createKeepaliveJob intervalSecs r.history = some (h, some notify) →
        ∃ last, r.entries.getLast? = some last ∧ active r.history.jobs = some last.job ∧
          (∀ jobId, (get r.history.jobs jobId).isSome → notify.jobId ≠ jobId) ∧
          forwardedJobId notify.jobId = some (decimal last.upstream.jobId) ∧
          last.job.notify.time < notify.time ∧
          notify.time.toNat ≤ last.upstreamNotify.time.toNat + maxFutureBlockTime.toNat) := by
  have hnew : RecordingOk intervalSecs (Recording.new maxPastJobs) := recordingOk_new maxPastJobs
  obtain ⟨r, hrun, hmax, hr⟩ := hnew.run hbuild steps
  refine ⟨r, hrun, ?_, ?_, ?_, ?_⟩
  · intro jobId
    rw [hr.stored.get_eq, hmax]
    rfl
  · intro e he
    exact ⟨(hr.entries e he).generation, (hr.entries e he).resets⟩
  · intro jobId job hget
    obtain ⟨e, he, rfl, hjob⟩ := hr.exists_of_get hget
    exact ⟨e, he, hjob, (hr.entries e he).forwarded⟩
  · intro htaken h notify hcreate
    rcases hr.createKeepaliveJob with ⟨-, hnone⟩ | ⟨last, n, jobs, hlast, hnotify, hsome, -, -⟩
    · rw [hnone] at hcreate
      cases hcreate
    · rw [hsome] at hcreate
      cases hcreate
      have hok := hr.entries last (List.mem_of_getLast? hlast)
      obtain ⟨hid, htime, hmoved⟩ := keepaliveNotify_some hnotify hok.time_le
      rw [hok.originalJobId] at hid
      refine ⟨last, hlast, by rw [hr.active, hlast]; rfl, ?_, ?_, ?_, ?_⟩
      · intro jobId hstored
        obtain ⟨job, hjob⟩ := Option.isSome_iff_exists.mp hstored
        obtain ⟨e, he, rfl, -⟩ := hr.exists_of_get hjob
        rw [hid]
        exact (hr.entries e he).jobId_ne htaken _
      · rw [hid, forwardedJobId_keepaliveJobId]
      · exact UInt32.lt_iff_toNat_lt.mpr hmoved
      · have hlatest := latestTime_eq last.job.keepaliveBaseTime
        have hallowed : maxFutureBlockTime.toNat = 7200 := rfl
        rw [htime, ← hok.baseTime, hallowed]
        omega

/-- A builder that takes the time of the job, or that of the prev-hash. -/
def plainNotify : NotifyBuilder := fun prevhash m cleanJobs =>
  ⟨decimal m.jobId, prevhash.prevHash, m.minNtime.getD prevhash.minNtime, cleanJobs, m⟩

/-- Two keepalives, with one of another history between them. -/
theorem keepalives_translatable_and_bounded_twice :
    let m : NewExtendedMiningJob := ⟨0, 5, some 1000, true, [], [], 0⟩
    let prevhash : SetNewPrevHash := ⟨0, 5, Hash256.allZeros, 900, 0⟩
    ∃ r, (Recording.new none).run plainNotify 60
        [.upstream prevhash m true, .keepalive, .elsewhere, .keepalive] = some r ∧
      r.entries.map (fun e => (e.job.notify.jobId, e.job.notify.time)) =
        [("5".toList, 1000), ("5#0".toList, 1060), ("5#2".toList, 1120)] ∧
      (∀ e ∈ r.entries, e.generation ≤ 120) ∧
      ∀ job, get r.history.jobs "5#0".toList = some job → ∃ e ∈ r.entries, e.job = job ∧
        forwardedJobId "5#0".toList = some (decimal e.upstream.jobId) := by
  intro m prevhash
  obtain ⟨r, hrun, -, hgeneration, hforwarded, -⟩ := keepalives_translatable_and_bounded
    (fun _ _ _ => rfl : ∀ p m clean, (plainNotify p m clean).jobId = decimal m.jobId) 60 none
    [.upstream prevhash m true, .keepalive, .elsewhere, .keepalive]
  refine ⟨r, hrun, ?_, ?_, hforwarded "5#0".toList⟩
  · have hentries : ((Recording.new none).run plainNotify 60
        [.upstream prevhash m true, .keepalive, .elsewhere, .keepalive]).map
          (fun r => r.entries.map fun e => (e.job.notify.jobId, e.job.notify.time)) =
        some [("5".toList, 1000), ("5#0".toList, 1060), ("5#2".toList, 1120)] := by
      decide +kernel
    rw [hrun] at hentries
    exact Option.some.inj hentries
  · intro e he
    exact (hgeneration e he).1.trans (by decide)

/-! ## Ids as pairs -/

/-- The text of an id. -/
def text (jobId : Sv1JobId) : Text :=
  match jobId.keepalive with
  | some counter => keepaliveJobId (decimal jobId.original) counter
  | none => decimal jobId.original

def textNotify (notify : Translator.Notify) : Notify :=
  ⟨text notify.jobId, notify.prevHash, notify.time, notify.cleanJobs, notify.job⟩

def textJob (job : Translator.StoredSv1Job) : StoredSv1Job :=
  ⟨textNotify job.notify, job.keepaliveBaseTime⟩

theorem text_injective {i j : Sv1JobId} (h : text i = text j) : i = j := by
  obtain ⟨n, c⟩ := i
  obtain ⟨m, c'⟩ := j
  have hextract := congrArg extractOriginalJobId h
  cases c with
  | none =>
    cases c' with
    | none =>
      have horiginal : n = m := decimal_injective h
      rw [horiginal]
    | some c' => exact absurd h.symm (keepaliveJobId_ne_decimal m n c')
  | some c =>
    cases c' with
    | none => exact absurd h (keepaliveJobId_ne_decimal n m c)
    | some c' =>
      simp only [text, extractOriginalJobId_keepaliveJobId, Option.some.injEq] at hextract
      rw [decimal_injective hextract, keepaliveJobId_counter h]

/-- The keepalive of a job whose id is a pair. -/
theorem keepaliveNotify_text (intervalSecs : UInt16) (last : Translator.StoredSv1Job)
    (counter : UInt32) :
    keepaliveNotify intervalSecs (textJob last) counter =
      (keepaliveJob last intervalSecs counter).map fun job => textNotify job.notify := by
  have horiginal : (extractOriginalJobId (textJob last).notify.jobId).getD
      (textJob last).notify.jobId = decimal last.notify.jobId.original := by
    unfold textJob textNotify text
    dsimp only
    split
    · rw [extractOriginalJobId_keepaliveJobId]
      rfl
    · rw [extractOriginalJobId_decimal]
      rfl
  unfold keepaliveNotify keepaliveJob
  dsimp only
  rw [horiginal, apply_ite (Option.map _)]
  rfl

theorem keepaliveJob_baseTime {intervalSecs : UInt16} {last job : Translator.StoredSv1Job}
    {counter : UInt32} (h : keepaliveJob last intervalSecs counter = some job) :
    job.keepaliveBaseTime = last.keepaliveBaseTime := by
  unfold keepaliveJob at h
  dsimp only at h
  split at h
  · cases h
  · cases h
    rfl

/-! ## Lists of pairs and maps of texts -/

/-- One history in the server's state: the ids are pairs, the past jobs a list. -/
structure PairHistory where
  jobs : Translator.Sv1JobStore Translator.StoredSv1Job
  keepaliveJobIdCounter : UInt32

namespace PairHistory

def new (maxPastJobs : Option Nat) : PairHistory := ⟨.new maxPastJobs, 0⟩

def step (build : Translator.NotifyBuilder) (intervalSecs : UInt16) (h : PairHistory) :
    Step → PairHistory
  | .upstream prevhash m resets =>
    let notify := build prevhash m (m.jobId = prevhash.jobId)
    { h with jobs := h.jobs.activate notify.jobId (.upstream notify) resets }
  | .keepalive =>
    match h.jobs.active.bind fun last =>
        keepaliveJob last intervalSecs h.keepaliveJobIdCounter with
    | none => h
    | some job => ⟨h.jobs.activate job.notify.jobId job false, h.keepaliveJobIdCounter + 1⟩
  | .elsewhere => { h with keepaliveJobIdCounter := h.keepaliveJobIdCounter + 1 }

def run (build : Translator.NotifyBuilder) (intervalSecs : UInt16) (h : PairHistory)
    (steps : List Step) : PairHistory :=
  Runs.run (step build intervalSecs) h steps

end PairHistory

/-- The builder with the texts of the ids. -/
def textBuilder (build : Translator.NotifyBuilder) : NotifyBuilder :=
  fun prevhash m cleanJobs => textNotify (build prevhash m cleanJobs)

/-- Both have had the same activations. -/
structure Agrees (r : Recording) (h : PairHistory) : Prop where
  counter : h.keepaliveJobIdCounter = UInt32.ofNat r.taken
  maxPastJobs : h.jobs.maxPastJobs = r.history.jobs.maxPastJobs
  log : ∃ log : List (Activation Sv1JobId Translator.StoredSv1Job), Lists (sinceClean log) h.jobs ∧
    r.entries.map Entry.activation = log.map (Activation.map text textJob)

variable {r : Recording} {h : PairHistory}

theorem Agrees.getLast? (ha : Agrees r h) :
    r.entries.getLast?.map Entry.job = h.jobs.active.map textJob := by
  obtain ⟨log, hlists, hlog⟩ := ha.log
  have hlast := congrArg List.getLast? hlog
  rw [List.getLast?_map, List.getLast?_map] at hlast
  have hjobs := congrArg (Option.map Activation.job) hlast
  rw [Option.map_map, Option.map_map] at hjobs
  unfold Translator.Sv1JobStore.active
  rw [hlists.active, getLast?_sinceClean, Option.map_map, Option.map_map]
  exact hjobs

/-- The same activation in both. -/
theorem Agrees.activate (ha : Agrees r h) (job : Translator.StoredSv1Job) (resets : Bool)
    {r' : Recording} {e : Entry}
    (he : e.activation = (⟨text job.notify.jobId, textJob job, resets⟩ : Activation _ _))
    (hentries : r'.entries = r.entries ++ [e])
    (hmax : r'.history.jobs.maxPastJobs = r.history.jobs.maxPastJobs) {counter : UInt32}
    (hcounter : counter = UInt32.ofNat r'.taken) :
    Agrees r' ⟨h.jobs.activate job.notify.jobId job resets, counter⟩ := by
  obtain ⟨log, hlists, hlog⟩ := ha.log
  have hkept : (h.jobs.activate job.notify.jobId job resets).maxPastJobs = h.jobs.maxPastJobs := rfl
  refine ⟨hcounter, hkept.trans (ha.maxPastJobs.trans hmax.symm),
    log ++ [⟨job.notify.jobId, job, resets⟩], ?_, ?_⟩
  · rw [sinceClean_concat]
    exact hlists.activate ⟨job.notify.jobId, job, resets⟩
  · rw [hentries, List.map_append, List.map_append, hlog, List.map_singleton, he]
    rfl

theorem Agrees.step {build : Translator.NotifyBuilder} (hr : RecordingOk intervalSecs r)
    (ha : Agrees r h) (st : Step) {r' : Recording}
    (hstep : r.step (textBuilder build) intervalSecs st = some r') :
    Agrees r' (h.step build intervalSecs st) := by
  cases st with
  | upstream prevhash m resets =>
    obtain ⟨history, hstore, rfl⟩ := Option.map_eq_some_iff.mp hstep
    obtain ⟨jobs, hjobs, rfl⟩ := Option.map_eq_some_iff.mp hstore
    obtain ⟨jobs', hjobs', hmax, -⟩ := hr.activate
      ⟨.upstream (textBuilder build prevhash m (m.jobId = prevhash.jobId)), m,
        textBuilder build prevhash m (m.jobId = prevhash.jobId), 0, resets⟩
    have hsame : jobs' = jobs := Option.some.inj (hjobs'.symm.trans hjobs)
    subst hsame
    exact ha.activate (.upstream (build prevhash m (m.jobId = prevhash.jobId))) resets rfl rfl hmax
      ha.counter
  | keepalive =>
    have hlast := ha.getLast?
    unfold PairHistory.step
    rw [ha.counter]
    rcases hr.createKeepaliveJob with ⟨hnone, hcreate⟩ | ⟨last, notify, jobs, hsome, hnotify, hcreate,
      hmax, -⟩
    · -- nothing is active, or its time cannot be moved
      unfold Recording.step at hstep
      rw [hcreate] at hstep
      cases hstep
      cases hactive : h.jobs.active with
      | none => exact ha
      | some job =>
        rw [hactive] at hlast
        obtain ⟨last, hsome, hjob⟩ := Option.map_eq_some_iff.mp hlast
        have hunmoved := hnone last hsome
        rw [hjob, keepaliveNotify_text, Option.map_eq_none_iff] at hunmoved
        rw [Option.bind_some, hunmoved]
        exact ha
    · unfold Recording.step at hstep
      rw [hcreate, hsome] at hstep
      cases hstep
      rw [hsome, Option.map_some] at hlast
      obtain ⟨job, hactive, hjob⟩ := Option.map_eq_some_iff.mp hlast.symm
      rw [← hjob, keepaliveNotify_text] at hnotify
      obtain ⟨moved, hmoved, rfl⟩ := Option.map_eq_some_iff.mp hnotify
      rw [hactive, Option.bind_some, hmoved]
      have hbase : moved.keepaliveBaseTime = last.job.keepaliveBaseTime := by
        rw [← hjob]
        exact keepaliveJob_baseTime hmoved
      have hactivation : (last.keepalive (textNotify moved.notify)).activation =
          (⟨text moved.notify.jobId, textJob moved, false⟩ : Activation _ _) := by
        unfold Entry.activation Entry.keepalive textJob
        rw [hbase]
        rfl
      refine ha.activate moved false hactivation rfl hmax ?_
      rw [UInt32.ofNat_add]
      rfl
  | elsewhere =>
    cases hstep
    refine ⟨?_, ha.maxPastJobs, ha.log⟩
    rw [UInt32.ofNat_add, ← ha.counter]
    rfl

theorem Agrees.run {build : Translator.NotifyBuilder}
    (hbuild : ∀ p m clean, (build p m clean).jobId = ⟨m.jobId, none⟩)
    (hr : RecordingOk intervalSecs r) (ha : Agrees r h) (steps : List Step) :
    ∃ r', r.run (textBuilder build) intervalSecs steps = some r' ∧ RecordingOk intervalSecs r' ∧
      Agrees r' (h.run build intervalSecs steps) := by
  have htexts : ∀ p m clean, (textBuilder build p m clean).jobId = decimal m.jobId := by
    intro p m clean
    unfold textBuilder textNotify
    rw [hbuild]
    rfl
  induction steps generalizing r h with
  | nil => exact ⟨r, rfl, hr, ha⟩
  | cons st steps ih =>
    obtain ⟨r₁, hstep, -, hr₁⟩ := hr.step htexts st
    obtain ⟨r₂, hrun, hr₂, ha₂⟩ := ih hr₁ (ha.step hr st hstep)
    refine ⟨r₂, ?_, hr₂, ha₂⟩
    unfold Recording.run at hrun ⊢
    rw [List.foldlM_cons, hstep]
    exact hrun

theorem agrees_new (maxPastJobs : Option Nat) :
    Agrees (Recording.new maxPastJobs) (PairHistory.new maxPastJobs) :=
  ⟨rfl, rfl, [], lists_new maxPastJobs, rfl⟩

/-- **The server's state answers as the source does**: in every run of a history, the list of past
    jobs with ids that are pairs has the jobs that the map and its queue have under the texts of the
    ids, and no text that is none of an id is in the map. -/
theorem pairs_agree_with_texts (build : Translator.NotifyBuilder)
    (hbuild : ∀ p m clean, (build p m clean).jobId = ⟨m.jobId, none⟩) (intervalSecs : UInt16)
    (maxPastJobs : Option Nat) (steps : List Step) :
    let h := (PairHistory.new maxPastJobs).run build intervalSecs steps
    ∃ r, (Recording.new maxPastJobs).run (textBuilder build) intervalSecs steps = some r ∧
      r.history.keepaliveJobIdCounter = h.keepaliveJobIdCounter ∧
      active r.history.jobs = h.jobs.active.map textJob ∧
      (∀ jobId, get r.history.jobs (text jobId) = (h.jobs.get jobId).map textJob) ∧
      ∀ t job, get r.history.jobs t = some job → ∃ jobId, t = text jobId := by
  intro h
  obtain ⟨r, hrun, hr, ha⟩ := (agrees_new maxPastJobs).run hbuild (recordingOk_new maxPastJobs) steps
  refine ⟨r, hrun, hr.counter.trans ha.counter.symm, hr.active.trans ha.getLast?, ?_, ?_⟩
  · intro jobId
    obtain ⟨log, hlists, hlog⟩ := ha.log
    rw [hr.stored.get_eq, hlists.get_eq, hlog, sinceClean_map,
      referenceGet_map fun _ _ => text_injective, ha.maxPastJobs]
  · intro t job hget
    obtain ⟨e, he, rfl, -⟩ := hr.exists_of_get hget
    obtain ⟨log, -, hlog⟩ := ha.log
    obtain ⟨a, -, ha⟩ := List.mem_map.mp (hlog ▸ List.mem_map_of_mem he)
    exact ⟨a.jobId, (congrArg Activation.jobId ha).symm⟩

/-- A builder as `plainNotify` is. -/
def plainPairNotify : Translator.NotifyBuilder := fun prevhash m cleanJobs =>
  ⟨⟨m.jobId, none⟩, prevhash.prevHash, m.minNtime.getD prevhash.minNtime, cleanJobs, m⟩

theorem pairs_agree_with_texts_twice :
    let m : NewExtendedMiningJob := ⟨0, 5, some 1000, true, [], [], 0⟩
    let prevhash : SetNewPrevHash := ⟨0, 5, Hash256.allZeros, 900, 0⟩
    let steps : List Step := [.upstream prevhash m true, .keepalive, .elsewhere, .keepalive]
    ∃ r, (Recording.new none).run (textBuilder plainPairNotify) 60 steps = some r ∧
      (get r.history.jobs "5#0".toList).isSome ∧
      ∀ jobId, get r.history.jobs (text jobId) =
        (((PairHistory.new none).run plainPairNotify 60 steps).jobs.get jobId).map textJob := by
  intro m prevhash steps
  obtain ⟨r, hrun, -, -, hget, -⟩ :=
    pairs_agree_with_texts plainPairNotify (fun _ _ _ => rfl) 60 none steps
  refine ⟨r, hrun, ?_, hget⟩
  have hkept := hget ⟨5, some 0⟩
  rw [show ("5#0".toList : Text) = text ⟨5, some 0⟩ by decide, hkept, Option.isSome_map]
  decide +kernel

end Sv2Apps.Translator.Keepalives
