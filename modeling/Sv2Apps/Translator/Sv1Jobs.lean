/-
  Translator/Sv1Jobs.lean
  =======================
  **Jobs on the SV1 side** — `translator/src/lib/sv1/job_store.rs`, and the jobs that
  `sv1/sv1_server/mod.rs` makes of those of the upstream.

  A job store keeps one active job and the jobs that it displaced under the same chain tip, the
  oldest being dropped first.  The source keeps past jobs in a map with a queue of their ids; here
  they are one list, oldest first.

  Of a notification there is what the translator reads of it and, for the hash of a share, the
  messages that it was built from.  `build_sv1_notify_from_sv2` is not part of this repository and
  stays a parameter (`NotifyBuilder`).
-/
import Sv2Apps.Translator.Channels

namespace Sv2Apps.Translator

open Bitcoin

/-- The id of an SV1 job: the text of the upstream's id and, for a keepalive, `#` and a counter. -/
structure Sv1JobId where
  original : JobId
  keepalive : Option UInt32
deriving DecidableEq

/-- `is_keepalive_job_id`. -/
def Sv1JobId.isKeepalive (i : Sv1JobId) : Bool := i.keepalive.isSome

/-- `mining.notify`. -/
structure Notify where
  jobId : Sv1JobId
  prevHash : Hash256
  time : UInt32
  cleanJobs : Bool
  /-- Everything else that goes into the header: the job that it was built from. -/
  job : NewExtendedMiningJob
deriving DecidableEq

/-- `build_sv1_notify_from_sv2`: prev-hash, job and the flag for clean jobs. -/
abbrev NotifyBuilder := SetNewPrevHash → NewExtendedMiningJob → Bool → Notify

/-- A job with the time that its keepalives start from. -/
structure StoredSv1Job where
  notify : Notify
  keepaliveBaseTime : UInt32
deriving DecidableEq

/-- `StoredSv1Job::upstream`. -/
def StoredSv1Job.upstream (notify : Notify) : StoredSv1Job := ⟨notify, notify.time⟩

/-! ## The job store -/

/-- `MAX_PAST_JOBS` of `channels_sv2`. -/
def defaultMaxPastJobs : Nat := 16

structure Sv1JobStore (T : Type) where
  activeJob : Option (Sv1JobId × T)
  pastJobs : List (Sv1JobId × T)
  maxPastJobs : Nat

namespace Sv1JobStore

variable {T : Type}

/-- Zero counts as unset. -/
def new (maxPastJobs : Option Nat) : Sv1JobStore T :=
  ⟨none, [], (maxPastJobs.filter (0 < ·)).getD defaultMaxPastJobs⟩

/-- The past jobs once the active one is displaced by a job with the given id. -/
def retire (store : Sv1JobStore T) (jobId : Sv1JobId) : List (Sv1JobId × T) :=
  let past := store.pastJobs.filter fun e => e.1 ≠ jobId
  match store.activeJob with
  | some e => if e.1 ≠ jobId then past.filter (fun p => p.1 ≠ e.1) ++ [e] else past
  | none => past

def activate (store : Sv1JobStore T) (jobId : Sv1JobId) (job : T) (cleanJobs : Bool) :
    Sv1JobStore T :=
  let past := if cleanJobs then [] else store.retire jobId
  { store with
    activeJob := some (jobId, job)
    pastJobs := past.drop (past.length - store.maxPastJobs) }

def get (store : Sv1JobStore T) (jobId : Sv1JobId) : Option T :=
  match store.activeJob.filter fun e => e.1 = jobId with
  | some e => some e.2
  | none => (store.pastJobs.find? fun e => e.1 = jobId).map Prod.snd

def active (store : Sv1JobStore T) : Option T := store.activeJob.map Prod.snd

end Sv1JobStore

/-! ## Keepalives -/

/-- `MAX_FUTURE_BLOCK_TIME` of Bitcoin Core, in seconds. -/
def maxFutureBlockTime : UInt32 := 7200

/-- `u32::saturating_add`. -/
def saturatingAdd (a b : UInt32) : UInt32 :=
  if a.toNat + b.toNat < 2 ^ 32 then a + b else 0xffffffff

/-- The job of `create_keepalive_job`: the active job at a later time; `none` when its time cannot
    be moved any further. -/
def keepaliveJob (last : StoredSv1Job) (intervalSecs : UInt16) (counter : UInt32) :
    Option StoredSv1Job :=
  let time := min (saturatingAdd last.notify.time intervalSecs.toUInt32)
    (saturatingAdd last.keepaliveBaseTime maxFutureBlockTime)
  if time = last.notify.time then none
  else some { last with notify :=
    { last.notify with
      jobId := ⟨last.notify.jobId.original, some counter⟩
      time := time
      cleanJobs := false } }

end Sv2Apps.Translator
