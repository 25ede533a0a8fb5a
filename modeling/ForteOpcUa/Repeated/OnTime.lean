import Mathlib.Data.List.Nodup
import ForteOpcUa.Repeated.Wrapping

/-!
# OnTime — one job over a whole run

- `timesOf`, `history`  : the times for which a job is executed,
- `OnTime`              : it has been executed at an interval, and its entry says when it goes on,
- `executed_on_time`    : so it is, from when it is added, whatever other jobs come and go, as long
  as none of them has an interval that wraps to zero.
-/

namespace ForteOpcUa

namespace Repeated

open Channels (DateTime)
open Encoding (Guid)
open Interaction Timetable

variable {J : Type} {clock now : DateTime} {tws : List (RepeatedJobs J)} {id jobId : Guid}

/-- How many jobs of the entry have the id. -/
def countOf (id : Guid) (tw : RepeatedJobs J) : ℕ :=
  tw.jobs.countP fun job => job.id = id

/-- The times of the executed entries, once for each job with the id. -/
def timesOf (id : Guid) (executed : List (RepeatedJobs J)) : List DateTime :=
  executed.flatMap fun tw => List.replicate (countOf id tw) tw.nextTime

/-- The times for which the calls execute the jobs with the id. -/
def history (id : Guid) (ls : List (Call J × List (RepeatedJobs J))) : List DateTime :=
  ls.flatMap fun l => timesOf id l.2

/-- The call is not about the job. -/
def Leaves (id : Guid) : Call J → Prop
  | .add _ _ _ _ jobId => jobId.getD noGuid ≠ id
  | .remove jobId => jobId ≠ id
  | .process _ => True

/-- The entries of the interval have the job, the others do not. -/
def Located (id : Guid) (n : ℕ) (interval : UInt32) (tws : List (RepeatedJobs J)) : Prop :=
  ∀ tw ∈ tws, countOf id tw = if tw.interval = interval then n else 0

/-! ## Adding another job -/

theorem countOf_append (tw : RepeatedJobs J) {job : IdentifiedJob J} (hne : job.id ≠ id) :
    countOf id (tw.append job) = countOf id tw := by
  simp [countOf, RepeatedJobs.append, hne]

/-- An entry stays where it is, perhaps with one more job. -/
theorem kept_addRepeatedJob (firstTime : DateTime) (memory : Bool) (job : IdentifiedJob J)
    (interval : UInt32) {tw : RepeatedJobs J} (htw : tw ∈ tws) :
    ∃ tw' ∈ (addRepeatedJob firstTime memory job interval tws).2,
      tw'.interval = tw.interval ∧ tw'.nextTime = tw.nextTime := by
  induction tws with
  | nil => cases htw
  | cons x xs ih =>
      unfold addRepeatedJob
      split
      · split
        · rcases List.mem_cons.1 htw with rfl | htw
          · exact ⟨tw.append job, List.mem_cons_self, rfl, rfl⟩
          · exact ⟨tw, List.mem_cons_of_mem _ htw, rfl, rfl⟩
        · exact ⟨tw, htw, rfl, rfl⟩
      · split
        · split
          · exact ⟨tw, List.mem_cons_of_mem _ htw, rfl, rfl⟩
          · exact ⟨tw, htw, rfl, rfl⟩
        · rcases List.mem_cons.1 htw with rfl | htw
          · exact ⟨tw, List.mem_cons_self, rfl, rfl⟩
          · rcases ih htw with ⟨tw', htw', hsame⟩
            exact ⟨tw', List.mem_cons_of_mem _ htw', hsame⟩

/-- With memory the job is in the list, no later than an interval from now. -/
theorem added_addRepeatedJob (h : Ordered now tws) (job : IdentifiedJob J) (interval : UInt32) :
    ∃ tw ∈ (addRepeatedJob (now + interval.toNat) true job interval tws).2,
      tw.interval = interval ∧ tw.nextTime ≤ now + interval.toNat ∧ job ∈ tw.jobs := by
  induction tws with
  | nil => exact ⟨_, List.mem_cons_self, rfl, le_rfl, List.mem_cons_self⟩
  | cons x xs ih =>
      unfold addRepeatedJob
      split
      · rename_i hsame
        refine ⟨x.append job, List.mem_cons_self, hsame.symm, ?_, ?_⟩
        · have hsoon := h.soon x List.mem_cons_self
          rwa [← hsame] at hsoon
        · exact List.mem_append_right _ List.mem_cons_self
      · split
        · exact ⟨_, List.mem_cons_self, rfl, le_rfl, List.mem_cons_self⟩
        · rcases ih h.tail with ⟨tw, htw, hadded⟩
          exact ⟨tw, List.mem_cons_of_mem _ htw, hadded⟩

/-! ## Removing another job -/

/-- The last job takes the place of another one. -/
theorem countOf_overwrite {tw : RepeatedJobs J} {i : ℕ} {last : IdentifiedJob J}
    (hi : tw.jobs.findIdx? (fun job => job.id = jobId) = some i)
    (hlast : tw.jobs.getLast? = some last) (hne : jobId ≠ id) :
    countOf id (tw.overwrite i last) = countOf id tw := by
  rcases List.getLast?_eq_some_iff.1 hlast with ⟨front, hfront⟩
  unfold countOf RepeatedJobs.overwrite
  rw [hfront] at hi ⊢
  rcases List.findIdx?_eq_some_iff_getElem.1 hi with ⟨hlength, hfound, _⟩
  rw [List.dropLast_concat, List.countP_append]
  by_cases hfirst : i < front.length
  · rw [List.getElem_append_left hfirst, decide_eq_true_iff] at hfound
    have hother : ¬ front[i].id = id := fun heq => hne (hfound.symm.trans heq)
    rw [List.countP_set hfirst]
    simp [hother, List.countP_cons]
  · -- The job that goes is the last one itself.
    have hlength' : i = front.length := by
      rw [List.length_append, List.length_singleton] at hlength
      omega
    subst hlength'
    rw [List.getElem_concat_length rfl, decide_eq_true_iff] at hfound
    have hother : ¬ last.id = id := fun heq => hne (hfound.symm.trans heq)
    rw [List.set_eq_of_length_le le_rfl]
    simp [hother]

theorem kept_removeRepeatedJob {tw : RepeatedJobs J} (htw : tw ∈ tws) (hone : countOf id tw ≠ 0)
    (hne : jobId ≠ id) :
    ∃ tw' ∈ removeRepeatedJob jobId tws,
      tw'.interval = tw.interval ∧ tw'.nextTime = tw.nextTime := by
  induction tws with
  | nil => cases htw
  | cons x xs ih =>
      unfold removeRepeatedJob
      split
      · rename_i i last hi hlast
        split
        · rename_i hlength
          rcases List.mem_cons.1 htw with rfl | htw
          · -- The only job of the entry is another one.
            rcases List.length_eq_one_iff.1 hlength with ⟨job, hjob⟩
            rw [hjob] at hi
            rcases List.findIdx?_eq_some_iff_getElem.1 hi with ⟨hi', hfound, _⟩
            have hzero : i = 0 := Nat.lt_one_iff.1 hi'
            subst hzero
            have hother : ¬ job.id = id := by
              intro heq
              exact hne ((of_decide_eq_true hfound).symm.trans heq)
            exact absurd (by simp [countOf, hjob, hother]) hone
          · exact ⟨tw, htw, rfl, rfl⟩
        · rcases List.mem_cons.1 htw with rfl | htw
          · exact ⟨tw.overwrite i last, List.mem_cons_self, rfl, rfl⟩
          · exact ⟨tw, List.mem_cons_of_mem _ htw, rfl, rfl⟩
      · rcases List.mem_cons.1 htw with rfl | htw
        · exact ⟨tw, List.mem_cons_self, rfl, rfl⟩
        · rcases ih htw with ⟨tw', htw', hsame⟩
          exact ⟨tw', List.mem_cons_of_mem _ htw', hsame⟩

theorem Located.remove {n : ℕ} {interval : UInt32} (h : Located id n interval tws)
    (hne : jobId ≠ id) : Located id n interval (removeRepeatedJob jobId tws) := by
  induction tws with
  | nil => exact h
  | cons x xs ih =>
      have hrest : Located id n interval xs := fun tw htw => h tw (List.mem_cons_of_mem x htw)
      intro tw htw
      unfold removeRepeatedJob at htw
      split at htw
      · rename_i i last hi hlast
        split at htw
        · exact hrest tw htw
        · rcases List.mem_cons.1 htw with rfl | htw
          · rw [countOf_overwrite hi hlast hne]
            exact h x List.mem_cons_self
          · exact hrest tw htw
      · rcases List.mem_cons.1 htw with rfl | htw
        · exact h tw List.mem_cons_self
        · exact ih hrest tw htw

/-! ## Processing -/

theorem timesOf_located {interval : UInt32} {executed : List (RepeatedJobs J)}
    (h : Located id 1 interval executed) :
    timesOf id executed =
      (executed.filter fun x => x.interval = interval).map RepeatedJobs.nextTime := by
  induction executed with
  | nil => rfl
  | cons x xs ih =>
      have hx := h x List.mem_cons_self
      have hxs := ih fun tw htw => h tw (List.mem_cons_of_mem x htw)
      unfold timesOf at hxs ⊢
      rw [List.flatMap_cons, hxs, hx]
      by_cases hsame : x.interval = interval
      · simp [hsame]
      · simp [hsame]

theorem timesOf_absent {interval : UInt32} {executed : List (RepeatedJobs J)}
    (h : Located id 0 interval executed) : timesOf id executed = [] := by
  refine List.flatMap_eq_nil_iff.2 fun x hx => ?_
  rw [h x hx]
  simp

theorem Located.processed {n : ℕ} {interval : UInt32} (h : Located id n interval tws) {rounds : ℕ}
    {r : Processed J} (hr : processRepeatedJobs now rounds tws = some r) :
    Located id n interval r.executed ∧ Located id n interval r.repeatedJobs := by
  have hkeeps : ∀ tw : RepeatedJobs J, tw.nextTime ≤ now →
      (countOf id tw = if tw.interval = interval then n else 0) →
        countOf id tw.reschedule = if tw.reschedule.interval = interval then n else 0 :=
    fun _ _ h => h
  exact fire_keeps hkeeps (processed_iff.1 hr).1 h

/-! ## The job along a run -/

theorem Located.step {s s' : Scheduler J} {l : Call J × List (RepeatedJobs J)} {n : ℕ}
    {interval : UInt32} (hordered : Ordered s.clock s.repeatedJobs)
    (hpresent : n = 0 ∨ ∃ tw ∈ s.repeatedJobs, tw.interval = interval)
    (h : Located id n interval s.repeatedJobs) (hl : Leaves id l.1)
    (hstep : Scheduler.Step s l s') : Located id n interval s'.repeatedJobs := by
  rcases l with ⟨call, executed⟩
  cases call with
  | add now memory job interval' jobId =>
      rcases hstep with ⟨hnow, _, rfl⟩
      have hother : jobId.getD noGuid ≠ id := hl
      unfold serverAddRepeatedJob
      dsimp only
      split
      · exact h
      · intro x hx
        rcases mem_addRepeatedJob (hordered.mono hnow) hx with hx | ⟨tw, htw, _, rfl⟩ | ⟨rfl, hnone⟩
        · exact h x hx
        · rw [countOf_append tw hother]
          exact h tw htw
        · -- A new entry is not the one of the job.
          have hzero : countOf id (⟨now + (scaled interval').toNat, scaled interval',
              [⟨job, jobId.getD noGuid⟩]⟩ : RepeatedJobs J) = 0 := by
            simpa [countOf] using hother
          rw [hzero]
          rcases hpresent with rfl | ⟨tw, htw, hsame⟩
          · simp
          · rw [if_neg]
            rintro rfl
            exact hnone tw htw hsame
  | remove jobId =>
      rcases hstep with ⟨_, rfl⟩
      exact h.remove hl
  | process now =>
      rcases hstep with ⟨_, rounds, r, hr, _, rfl⟩
      exact (h.processed hr).2

/-- The job is nowhere, and nobody adds it. -/
theorem absent_run {s s' : Scheduler J} {ls : List (Call J × List (RepeatedJobs J))}
    (hrun : Trace Scheduler.Step s ls s') (hordered : Ordered s.clock s.repeatedJobs)
    (h : Located id 0 0 s.repeatedJobs) (hls : ∀ l ∈ ls, Leaves id l.1) :
    Located id 0 0 s'.repeatedJobs ∧ history id ls = [] := by
  induction hrun with
  | nil s => exact ⟨h, rfl⟩
  | @cons s t s' l ls hstep _ ih =>
      have hl := hls l List.mem_cons_self
      rcases ih (ordered_step hstep hordered) (h.step hordered (.inl rfl) hl hstep)
        (fun l' hl' => hls l' (List.mem_cons_of_mem l hl')) with ⟨hrest, hhistory⟩
      refine ⟨hrest, ?_⟩
      have htimes : timesOf id l.2 = [] := by
        rcases l with ⟨call, executed⟩
        cases call with
        | add => rcases hstep with ⟨_, rfl, _⟩; rfl
        | remove => rcases hstep with ⟨rfl, _⟩; rfl
        | process now =>
            rcases hstep with ⟨_, rounds, r, hr, rfl, _⟩
            exact timesOf_absent (h.processed hr).1
      unfold history at hhistory ⊢
      rw [List.flatMap_cons, htimes, hhistory]
      rfl

/-- The job was executed at an interval, and its entry says when it goes on. -/
structure OnTime (id : Guid) (interval : UInt32) (first : DateTime) (s : Scheduler J)
    (times : List DateTime) : Prop where
  located : Located id 1 interval s.repeatedJobs
  progress : ∃ count : ℕ, times = (List.range count).map (fun k : ℕ => first + k * interval.toNat) ∧
    ∃ tw ∈ s.repeatedJobs, tw.interval = interval ∧
      tw.nextTime = first + count * interval.toNat

theorem timesOf_nil : timesOf id ([] : List (RepeatedJobs J)) = [] := rfl

theorem OnTime.step {s s' : Scheduler J} {l : Call J × List (RepeatedJobs J)} {interval : UInt32}
    {first : DateTime} {times : List DateTime} (hordered : Ordered s.clock s.repeatedJobs)
    (h : OnTime id interval first s times) (hl : Leaves id l.1) (hstep : Scheduler.Step s l s') :
    OnTime id interval first s' (times ++ timesOf id l.2) := by
  rcases h.progress with ⟨count, htimes, tw, htw, hsame, hnext⟩
  refine ⟨h.located.step hordered (.inr ⟨tw, htw, hsame⟩) hl hstep, ?_⟩
  rcases l with ⟨call, executed⟩
  cases call with
  | add now memory job interval' jobId =>
      rcases hstep with ⟨_, rfl, rfl⟩
      refine ⟨count, by rw [htimes, timesOf_nil, List.append_nil], ?_⟩
      unfold serverAddRepeatedJob
      dsimp only
      split
      · exact ⟨tw, htw, hsame, hnext⟩
      · rcases kept_addRepeatedJob (now + (scaled interval').toNat) memory
          ⟨job, jobId.getD noGuid⟩ (scaled interval') htw with ⟨tw', htw', hsame', hnext'⟩
        exact ⟨tw', htw', hsame'.trans hsame, hnext'.trans hnext⟩
  | remove jobId =>
      rcases hstep with ⟨rfl, rfl⟩
      refine ⟨count, by rw [htimes, timesOf_nil, List.append_nil], ?_⟩
      have hone : countOf id tw ≠ 0 := by
        rw [h.located tw htw, if_pos hsame]
        exact one_ne_zero
      rcases kept_removeRepeatedJob htw hone hl with ⟨tw', htw', hsame', hnext'⟩
      exact ⟨tw', htw', hsame'.trans hsame, hnext'.trans hnext⟩
  | process now =>
      rcases hstep with ⟨_, rounds, r, hr, rfl, rfl⟩
      have hfired := hordered.fired (processed_iff.1 hr).1
      refine ⟨count + tw.dueCount now, ?_, _,
        hfired.rest_perm.mem_iff.2 (List.mem_map_of_mem htw), ?_, ?_⟩
      · have hexecuted := hfired.occurrences tw htw
        rw [hsame] at hexecuted
        rw [timesOf_located (h.located.processed hr).1, hexecuted, htimes, List.range_add,
          List.map_append, List.map_map, List.map_map]
        congr 1
        refine List.map_congr_left fun k _ => ?_
        simp only [Function.comp_apply, reschedule_iterate, hnext, hsame]
        push_cast
        ring
      · rw [reschedule_iterate]
        exact hsame
      · simp only [reschedule_iterate, hnext, hsame, RepeatedJobs.dueCount]
        push_cast
        ring

theorem OnTime.run {s s' : Scheduler J} {ls : List (Call J × List (RepeatedJobs J))}
    {interval : UInt32} {first : DateTime} {times : List DateTime}
    (hrun : Trace Scheduler.Step s ls s') (hordered : Ordered s.clock s.repeatedJobs)
    (h : OnTime id interval first s times) (hls : ∀ l ∈ ls, Leaves id l.1) :
    OnTime id interval first s' (times ++ history id ls) := by
  induction hrun generalizing times with
  | nil s => simpa [history] using h
  | @cons s t s' l ls hstep _ ih =>
      have hrest := ih (ordered_step hstep hordered)
        (h.step hordered (hls l List.mem_cons_self) hstep)
        (fun l' hl' => hls l' (List.mem_cons_of_mem l hl'))
      unfold history at hrest ⊢
      rwa [List.flatMap_cons, ← List.append_assoc]

/-- Entries with the same interval are the same. -/
theorem Ordered.eq_of_interval (h : Ordered clock tws) {a b : RepeatedJobs J} (ha : a ∈ tws)
    (hb : b ∈ tws) (hsame : a.interval = b.interval) : a = b := by
  have hnodup : (tws.map RepeatedJobs.interval).Nodup := List.pairwise_map.2 h.distinct
  exact List.inj_on_of_nodup_map hnodup ha hb hsame

/-- Where a new job is added, it waits for an interval at most. -/
theorem onTime_added (h : Ordered clock tws) (hnow : clock ≤ now)
    (habsent : Located id 0 0 tws) (job : J) {interval : UInt32} (hfive : ¬ interval < 5) :
    ∃ first, first ≤ now + (scaled interval).toNat ∧
      OnTime id (scaled interval) first
        ⟨now, (serverAddRepeatedJob now true job interval (some id) tws).2⟩ [] := by
  have hnew := ordered_serverAdd h hnow true job interval (some id)
  unfold serverAddRepeatedJob at hnew ⊢
  rw [if_neg hfive] at hnew ⊢
  rcases added_addRepeatedJob (h.mono hnow) ⟨job, id⟩ (scaled interval) with
    ⟨tw, htw, hsame, hsoon, hjob⟩
  have hold : ∀ x ∈ tws, countOf id x = 0 := by
    intro x hx
    rw [habsent x hx]
    simp
  have hone : countOf id tw = 1 := by
    rcases mem_addRepeatedJob (h.mono hnow) htw with hmem | ⟨x, hx, _, rfl⟩ | ⟨rfl, _⟩
    · have hzero := hold tw hmem
      unfold countOf at hzero
      exact absurd hjob (by simpa using List.countP_eq_zero.1 hzero ⟨job, id⟩)
    · have hzero := hold x hx
      unfold countOf at hzero ⊢
      simp [RepeatedJobs.append, hzero]
    · simp [countOf]
  refine ⟨tw.nextTime, hsoon, ?_, 0, rfl, tw, htw, hsame, by simp⟩
  intro x hx
  by_cases hx' : x.interval = scaled interval
  · rw [hnew.eq_of_interval hx htw (hx'.trans hsame.symm), hone, if_pos hsame]
  · rw [if_neg hx']
    rcases mem_addRepeatedJob (h.mono hnow) hx with hmem | ⟨y, _, hy, rfl⟩ | ⟨rfl, _⟩
    · exact hold x hmem
    · exact absurd hy hx'
    · exact absurd rfl hx'

/-- Behind a run that ends with the processing of the list nothing is due. -/
theorem later_of_getLast {start : DateTime} {s : Scheduler J}
    {ls : List (Call J × List (RepeatedJobs J))} (hrun : Trace Scheduler.Step (.init start) ls s)
    {executed : List (RepeatedJobs J)} (hlast : ls.getLast? = some (.process now, executed)) :
    ∀ tw ∈ s.repeatedJobs, now < tw.nextTime := by
  rcases List.getLast?_eq_some_iff.1 hlast with ⟨front, rfl⟩
  rcases hrun.split with ⟨t, hfront, hback⟩
  have hordered := ordered_run hfront .nil
  rcases hback with _ | ⟨⟨_, rounds, r, hr, _, rfl⟩, hnil⟩
  cases hnil
  exact (hordered.fired (processed_iff.1 hr).1).rest_later

/-- What was executed of a job that was added in a run. -/
theorem onTime_run {start : DateTime} {s : Scheduler J} {job : J} {interval : UInt32}
    {executed : List (RepeatedJobs J)} {before after : List (Call J × List (RepeatedJobs J))}
    (hfive : ¬ interval < 5) (hbefore : ∀ l ∈ before, Leaves id l.1)
    (hafter : ∀ l ∈ after, Leaves id l.1)
    (hrun : Trace Scheduler.Step (.init start)
      (before ++ (.add now true job interval (some id), executed) :: after) s) :
    ∃ first, ∃ count : ℕ, first ≤ now + (scaled interval).toNat ∧ history id before = [] ∧
      history id after =
        (List.range count).map (fun k : ℕ => first + k * (scaled interval).toNat) ∧
      ∀ last executed', after.getLast? = some (.process last, executed') →
        last < first + count * (scaled interval).toNat := by
  rcases hrun.split with ⟨t, hfront, hback⟩
  have hordered := ordered_run hfront .nil
  rcases absent_run hfront .nil (by simp [Located, Scheduler.init]) hbefore with ⟨habsent, hnone⟩
  rcases hback with _ | ⟨⟨hnow, _, rfl⟩, hback⟩
  rcases onTime_added hordered hnow habsent job hfive with ⟨first, hfirst, honTime⟩
  have hadded := ordered_serverAdd hordered hnow true job interval (some id)
  have hall := honTime.run hback hadded hafter
  rcases hall.progress with ⟨count, htimes, tw, htw, _, hnext⟩
  refine ⟨first, count, hfirst, hnone, htimes, ?_⟩
  intro last executed' hlast
  have hend : (before ++ (.add now true job interval (some id), executed) :: after).getLast? =
      some (.process last, executed') := by
    simp [List.getLast?_append, List.getLast?_cons, hlast]
  rw [← hnext]
  exact later_of_getLast hrun hend tw htw

/-- **A repeated job is executed on time.**  Jobs come and go, and the clock does not go back.  If no
interval that is asked for wraps to zero, every call returns.  A job that is added with an id of its
own is then executed for a first time no later than an interval from then, and from there on once for
each interval, without a gap; nothing that is due is left out when the list is processed. -/
theorem executed_on_time {start : DateTime} {job : J} {interval : UInt32}
    {before after : List (Call J)} (hfive : ¬ interval < 5)
    (hclock : Clocked start (before ++ .add now true job interval (some id) :: after))
    (hzero : ∀ call ∈ before ++ .add now true job interval (some id) :: after,
      Allowed NeverZero call)
    (hbefore : ∀ call ∈ before, Leaves id call) (hafter : ∀ call ∈ after, Leaves id call) :
    ∃ past executed future, ∃ s : Scheduler J,
      past.map Prod.fst = before ∧ future.map Prod.fst = after ∧
      Trace Scheduler.Step (.init start)
        (past ++ (.add now true job interval (some id), executed) :: future) s ∧
      ∃ first, ∃ count : ℕ, first ≤ now + (scaled interval).toNat ∧ history id past = [] ∧
        history id future =
          (List.range count).map (fun k : ℕ => first + k * (scaled interval).toNat) ∧
        ∀ last executed', future.getLast? = some (.process last, executed') →
          last < first + count * (scaled interval).toNat := by
  rcases trace_exists (s := .init start) .nil (by simp [Known, Scheduler.init]) hclock hzero with
    ⟨ls, s, hls, hrun⟩
  rcases List.map_eq_append_iff.1 hls with ⟨past, rest, rfl, hpast, hrest⟩
  rcases List.map_eq_cons_iff.1 hrest with ⟨⟨call, executed⟩, future, rfl, hcall, hfuture⟩
  have hcall : call = .add now true job interval (some id) := hcall
  subst hcall
  refine ⟨past, executed, future, s, hpast, hfuture, hrun, onTime_run hfive ?_ ?_ hrun⟩
  · intro l hl
    exact hbefore l.1 (by rw [← hpast]; exact List.mem_map_of_mem hl)
  · intro l hl
    exact hafter l.1 (by rw [← hfuture]; exact List.mem_map_of_mem hl)

/-! ### Two jobs -/

def secondId : Guid :=
  ⟨1, 2, 3, Vector.replicate 8 4⟩

theorem executed_on_time_twoJobs :
    ∃ past executed future, ∃ s : Scheduler ℕ,
      past.map Prod.fst = [.add 0 true 1 5 none] ∧ future.map Prod.fst = [.process 120000] ∧
      Trace Scheduler.Step (.init 0)
        (past ++ (.add 10 true 2 7 (some secondId), executed) :: future) s ∧
      ∃ first, ∃ count : ℕ, first ≤ 10 + ((scaled 7).toNat : ℤ) ∧ history secondId past = [] ∧
        history secondId future =
          (List.range count).map (fun k : ℕ => first + k * (scaled 7).toNat) ∧
        ∀ last executed', future.getLast? = some (.process last, executed') →
          last < first + count * (scaled 7).toNat :=
  executed_on_time (by decide)
    (by
      refine ⟨?_, ?_, ?_, trivial⟩
      all_goals decide)
    (by
      intro call hcall
      simp only [List.cons_append, List.nil_append, List.mem_cons, List.not_mem_nil,
        or_false] at hcall
      rcases hcall with rfl | rfl | rfl
      · intro _
        decide
      · intro _
        decide
      · trivial)
    (by
      simp only [List.mem_singleton, forall_eq, Leaves]
      decide)
    (by simp [Leaves])

/-- Until 12 ms the first job is executed twice, the second one once. -/
example : history secondId [((.process 120000 : Call ℕ),
    [⟨50000, 50000, [⟨1, noGuid⟩]⟩, ⟨70010, 70000, [⟨2, secondId⟩]⟩,
      ⟨100000, 50000, [⟨1, noGuid⟩]⟩])] = [70010] := by
  decide

end Repeated

end ForteOpcUa
