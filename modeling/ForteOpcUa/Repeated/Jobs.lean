import ForteOpcUa.Channels.State
import ForteOpcUa.Encoding.Values
import ForteOpcUa.Timetable.Recurring

/-!
# Jobs — the repeated jobs of the main loop

Jobs with the same interval are one entry of a list.  The list is in the order of the times at which
its entries are to be executed next.  What a job does is left open, except that it leaves the list
alone; the clock is read once per call.

- `RepeatedJobs`                        : an entry of the list,
- `addRepeatedJob`, `removeRepeatedJob` : a job comes, a job goes,
- `processRepeatedJobs`                 : the due entries are executed.
-/

namespace ForteOpcUa

namespace Repeated

open Channels (DateTime)
open Encoding (Guid)

variable {J : Type}

/-- `UA_Guid_init`. -/
def noGuid : Guid :=
  ⟨0, 0, 0, Vector.replicate 8 0⟩

/-- `struct IdentifiedJob`. -/
structure IdentifiedJob (J : Type) where
  job : J
  id : Guid
  deriving DecidableEq

/-- `struct RepeatedJobs`. -/
structure RepeatedJobs (J : Type) where
  nextTime : DateTime
  interval : UInt32
  jobs : List (IdentifiedJob J)
  deriving DecidableEq

namespace RepeatedJobs

/-- The jobs are executed an interval later. -/
def reschedule (tw : RepeatedJobs J) : RepeatedJobs J :=
  { tw with nextTime := tw.nextTime + tw.interval.toNat }

/-- One more job. -/
def append (tw : RepeatedJobs J) (job : IdentifiedJob J) : RepeatedJobs J :=
  { tw with jobs := tw.jobs ++ [job] }

/-- The last job overwrites another one. -/
def overwrite (tw : RepeatedJobs J) (i : ℕ) (last : IdentifiedJob J) : RepeatedJobs J :=
  { tw with jobs := tw.jobs.dropLast.set i last }

end RepeatedJobs

/-! ## Jobs come and go -/

/-- `addRepeatedJob`, from the search on.  Without memory the list stays. -/
def addRepeatedJob (firstTime : DateTime) (memory : Bool) (job : IdentifiedJob J)
    (interval : UInt32) : List (RepeatedJobs J) → StatusCode × List (RepeatedJobs J)
  | [] =>
      if memory then (.good, [⟨firstTime, interval, [job]⟩]) else (.badOutOfMemory, [])
  | tw :: tws =>
      if interval = tw.interval then
        if memory then (.good, tw.append job :: tws) else (.badOutOfMemory, tw :: tws)
      else if firstTime < tw.nextTime then
        if memory then (.good, ⟨firstTime, interval, [job]⟩ :: tw :: tws)
        else (.badOutOfMemory, tw :: tws)
      else
        let r := addRepeatedJob firstTime memory job interval tws
        (r.1, tw :: r.2)

/-- From ms to 100 ns resolution. -/
def scaled (interval : UInt32) : UInt32 :=
  interval * 10000

/-- `UA_Server_addRepeatedJob`.  A job that nobody wants to identify has no id, and what
`addRepeatedJob` returns is lost. -/
def serverAddRepeatedJob (now : DateTime) (memory : Bool) (job : J) (interval : UInt32)
    (jobId : Option Guid) (tws : List (RepeatedJobs J)) : StatusCode × List (RepeatedJobs J) :=
  if interval < 5 then
    (.badInternalError, tws)
  else
    (.good, (addRepeatedJob (now + (scaled interval).toNat) memory ⟨job, jobId.getD noGuid⟩
      (scaled interval) tws).2)

/-- `removeRepeatedJob`: the first job with the id goes, and its entry with it if it was alone. -/
def removeRepeatedJob (jobId : Guid) : List (RepeatedJobs J) → List (RepeatedJobs J)
  | [] => []
  | tw :: tws =>
      match tw.jobs.findIdx? fun job => job.id = jobId, tw.jobs.getLast? with
      | some i, some last => if tw.jobs.length = 1 then tws else tw.overwrite i last :: tws
      | _, _ => tw :: removeRepeatedJob jobId tws

/-! ## The due entries -/

/-- `MAXTIMEOUT`, in microseconds. -/
def maxTimeout : ℕ :=
  50000

/-- How long the main loop may wait, in microseconds.  The difference is cast to 32 bits. -/
def timeoutOf (current : DateTime) : List (RepeatedJobs J) → ℕ
  | [] => maxTimeout
  | first :: _ =>
      let timeout := ((first.nextTime - current).tdiv 10 % 2 ^ 32).toNat
      if maxTimeout < timeout then maxTimeout else timeout

/-- What a call executes and leaves. -/
structure Processed (J : Type) where
  timeout : ℕ
  executed : List (RepeatedJobs J)
  repeatedJobs : List (RepeatedJobs J)
  deriving DecidableEq

/-- `processRepeatedJobs`, with a bound on the rounds of its loop.  The entries are listed as they
are executed. -/
def processRepeatedJobs (current : DateTime) (rounds : ℕ) (tws : List (RepeatedJobs J)) :
    Option (Processed J) :=
  (Timetable.fire RepeatedJobs.nextTime RepeatedJobs.reschedule current rounds tws).map fun r =>
    ⟨timeoutOf current r.2, r.1, r.2⟩

/-! ## Runs -/

/-- The clock as it was read last, and the list. -/
structure Scheduler (J : Type) where
  clock : DateTime
  repeatedJobs : List (RepeatedJobs J)

/-- The calls of the main loop. -/
inductive Call (J : Type)
  | add (now : DateTime) (memory : Bool) (job : J) (interval : UInt32) (jobId : Option Guid)
  | remove (jobId : Guid)
  | process (now : DateTime)

/-- One call with the entries that it executes.  The clock does not go back. -/
def Scheduler.Step (s : Scheduler J) (l : Call J × List (RepeatedJobs J)) (s' : Scheduler J) :
    Prop :=
  match l.1 with
  | .add now memory job interval jobId =>
      s.clock ≤ now ∧ l.2 = [] ∧
        s' = ⟨now, (serverAddRepeatedJob now memory job interval jobId s.repeatedJobs).2⟩
  | .remove jobId => l.2 = [] ∧ s' = ⟨s.clock, removeRepeatedJob jobId s.repeatedJobs⟩
  | .process now =>
      s.clock ≤ now ∧ ∃ rounds r, processRepeatedJobs now rounds s.repeatedJobs = some r ∧
        l.2 = r.executed ∧ s' = ⟨now, r.repeatedJobs⟩

/-- The server starts without repeated jobs. -/
def Scheduler.init (start : DateTime) : Scheduler J :=
  ⟨start, []⟩

end Repeated

end ForteOpcUa
