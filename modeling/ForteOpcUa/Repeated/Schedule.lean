import ForteOpcUa.Interaction.Labelled
import ForteOpcUa.Repeated.Jobs

/-!
# Schedule — the list of the repeated jobs stays in order

- `Ordered`                   : one entry for each interval, in the order of the times, none of them
  further away than its interval,
- `ordered_run`               : whatever comes and goes, the list is ordered,
- `processRepeatedJobs_exact` : each entry is executed once for each of its times, in their order.
-/

namespace ForteOpcUa

namespace Repeated

open Channels (DateTime)
open Encoding (Guid)
open Interaction Timetable

variable {J : Type} {clock now : DateTime} {tws : List (RepeatedJobs J)}

/-- One entry for each interval, in the order of the times, none further away than its interval. -/
structure Ordered (clock : DateTime) (tws : List (RepeatedJobs J)) : Prop where
  sorted : Sorted RepeatedJobs.nextTime tws
  distinct : tws.Pairwise fun a b => a.interval ≠ b.interval
  soon : ∀ tw ∈ tws, tw.nextTime ≤ clock + tw.interval.toNat

/-- The interval as a period. -/
def RepeatedJobs.period (tw : RepeatedJobs J) : ℕ :=
  tw.interval.toNat

theorem periodic :
    Periodic (RepeatedJobs.nextTime (J := J)) RepeatedJobs.reschedule RepeatedJobs.period where
  time_next _ := rfl
  period_next _ := rfl

namespace Ordered

theorem nil : Ordered clock ([] : List (RepeatedJobs J)) :=
  ⟨List.Pairwise.nil, List.Pairwise.nil, by simp⟩

theorem tail {tw : RepeatedJobs J} (h : Ordered clock (tw :: tws)) : Ordered clock tws :=
  ⟨(List.pairwise_cons.1 h.sorted).2, (List.pairwise_cons.1 h.distinct).2,
    fun x hx => h.soon x (List.mem_cons_of_mem tw hx)⟩

theorem mono (h : Ordered clock tws) (hnow : clock ≤ now) : Ordered now tws :=
  ⟨h.sorted, h.distinct, fun tw htw => (h.soon tw htw).trans (Int.add_le_add_right hnow _)⟩

theorem cons (h : Ordered clock tws) {tw : RepeatedJobs J}
    (hle : ∀ x ∈ tws, tw.nextTime ≤ x.nextTime) (hne : ∀ x ∈ tws, tw.interval ≠ x.interval)
    (hsoon : tw.nextTime ≤ clock + tw.interval.toNat) : Ordered clock (tw :: tws) where
  sorted := List.pairwise_cons.2 ⟨hle, h.sorted⟩
  distinct := List.pairwise_cons.2 ⟨hne, h.distinct⟩
  soon := by
    intro x hx
    rcases List.mem_cons.1 hx with rfl | hx
    · exact hsoon
    · exact h.soon x hx

theorem head {tw : RepeatedJobs J} (h : Ordered clock (tw :: tws)) :
    (∀ x ∈ tws, tw.nextTime ≤ x.nextTime) ∧ (∀ x ∈ tws, tw.interval ≠ x.interval) ∧
      tw.nextTime ≤ clock + tw.interval.toNat :=
  ⟨(List.pairwise_cons.1 h.sorted).1, (List.pairwise_cons.1 h.distinct).1,
    h.soon tw List.mem_cons_self⟩

theorem fired (h : Ordered clock tws) {rounds : ℕ} {vs rest : List (RepeatedJobs J)}
    (hfire : fire RepeatedJobs.nextTime RepeatedJobs.reschedule now rounds tws = some (vs, rest)) :
    Fired RepeatedJobs.nextTime RepeatedJobs.reschedule RepeatedJobs.period RepeatedJobs.interval
      now tws vs rest :=
  fire_exact periodic (fun _ => rfl) h.sorted h.distinct hfire

end Ordered

/-! ## Adding -/

/-- An entry of the list behind `addRepeatedJob`: an old one, an old one with one more job, or a new
one with an interval that no other entry has. -/
theorem mem_addRepeatedJob {memory : Bool} {job : IdentifiedJob J} {interval : UInt32}
    (h : Ordered now tws) {x : RepeatedJobs J}
    (hx : x ∈ (addRepeatedJob (now + interval.toNat) memory job interval tws).2) :
    x ∈ tws ∨ (∃ tw ∈ tws, tw.interval = interval ∧ x = tw.append job) ∨
      x = ⟨now + interval.toNat, interval, [job]⟩ ∧ ∀ tw ∈ tws, tw.interval ≠ interval := by
  induction tws with
  | nil =>
      unfold addRepeatedJob at hx
      split at hx
      · refine .inr (.inr ⟨List.mem_singleton.1 hx, by simp⟩)
      · cases hx
  | cons tw tws ih =>
      unfold addRepeatedJob at hx
      split at hx
      · rename_i hsame
        split at hx
        · rcases List.mem_cons.1 hx with rfl | hx
          · exact .inr (.inl ⟨tw, List.mem_cons_self, hsame.symm, rfl⟩)
          · exact .inl (List.mem_cons_of_mem tw hx)
        · exact .inl hx
      · rename_i hne
        split at hx
        · rename_i hlt
          split at hx
          · rcases List.mem_cons.1 hx with rfl | hx
            · refine .inr (.inr ⟨rfl, ?_⟩)
              -- An entry with the interval would not be that far away.
              intro y hy hsame
              have hfar := lt_of_sorted h.sorted hlt y hy
              have hsoon := h.soon y hy
              rw [hsame] at hsoon
              exact absurd hsoon (not_le.2 hfar)
            · exact .inl hx
          · exact .inl hx
        · rcases List.mem_cons.1 hx with rfl | hx
          · exact .inl List.mem_cons_self
          · rcases ih h.tail hx with hx | ⟨y, hy, hsame, rfl⟩ | ⟨rfl, hnone⟩
            · exact .inl (List.mem_cons_of_mem tw hx)
            · exact .inr (.inl ⟨y, List.mem_cons_of_mem tw hy, hsame, rfl⟩)
            · refine .inr (.inr ⟨rfl, ?_⟩)
              intro y hy
              rcases List.mem_cons.1 hy with rfl | hy
              · exact fun heq => hne heq.symm
              · exact hnone y hy

theorem ordered_addRepeatedJob (h : Ordered now tws) (memory : Bool) (job : IdentifiedJob J)
    (interval : UInt32) :
    Ordered now (addRepeatedJob (now + interval.toNat) memory job interval tws).2 := by
  induction tws with
  | nil =>
      unfold addRepeatedJob
      split
      · exact h.cons (by simp) (by simp) le_rfl
      · exact h
  | cons tw tws ih =>
      have hhead := h.head
      unfold addRepeatedJob
      split
      · split
        · exact h.tail.cons hhead.1 hhead.2.1 hhead.2.2
        · exact h
      · rename_i hne
        split
        · rename_i hlt
          split
          · refine h.cons ?_ ?_ le_rfl
            · intro x hx
              exact (lt_of_sorted h.sorted hlt x hx).le
            · intro x hx hsame
              have hfar := lt_of_sorted h.sorted hlt x hx
              have hsoon := h.soon x hx
              rw [← hsame] at hsoon
              exact absurd hsoon (not_le.2 hfar)
          · exact h
        · rename_i hle
          refine (ih h.tail).cons ?_ ?_ hhead.2.2
          · intro x hx
            rcases mem_addRepeatedJob h.tail hx with hx | ⟨y, hy, _, rfl⟩ | ⟨rfl, _⟩
            · exact hhead.1 x hx
            · exact hhead.1 y hy
            · exact not_lt.1 hle
          · intro x hx
            rcases mem_addRepeatedJob h.tail hx with hx | ⟨y, hy, _, rfl⟩ | ⟨rfl, _⟩
            · exact hhead.2.1 x hx
            · exact hhead.2.1 y hy
            · exact fun heq => hne heq.symm

theorem ordered_serverAdd (h : Ordered clock tws) (hnow : clock ≤ now) (memory : Bool) (job : J)
    (interval : UInt32) (jobId : Option Guid) :
    Ordered now (serverAddRepeatedJob now memory job interval jobId tws).2 := by
  unfold serverAddRepeatedJob
  split
  · exact h.mono hnow
  · exact ordered_addRepeatedJob (h.mono hnow) memory _ _

/-! ## Removing -/

/-- An entry of the list behind `removeRepeatedJob` is an old one, with a job less. -/
theorem mem_removeRepeatedJob {jobId : Guid} {x : RepeatedJobs J}
    (hx : x ∈ removeRepeatedJob jobId tws) :
    ∃ tw ∈ tws, x.interval = tw.interval ∧ x.nextTime = tw.nextTime := by
  induction tws with
  | nil => cases hx
  | cons tw tws ih =>
      unfold removeRepeatedJob at hx
      split at hx
      · split at hx
        · exact ⟨x, List.mem_cons_of_mem tw hx, rfl, rfl⟩
        · rcases List.mem_cons.1 hx with rfl | hx
          · exact ⟨tw, List.mem_cons_self, rfl, rfl⟩
          · exact ⟨x, List.mem_cons_of_mem tw hx, rfl, rfl⟩
      · rcases List.mem_cons.1 hx with rfl | hx
        · exact ⟨x, List.mem_cons_self, rfl, rfl⟩
        · rcases ih hx with ⟨y, hy, hsame⟩
          exact ⟨y, List.mem_cons_of_mem tw hy, hsame⟩

theorem ordered_remove (h : Ordered clock tws) (jobId : Guid) :
    Ordered clock (removeRepeatedJob jobId tws) := by
  induction tws with
  | nil => exact h
  | cons tw tws ih =>
      have hhead := h.head
      unfold removeRepeatedJob
      split
      · split
        · exact h.tail
        · exact h.tail.cons hhead.1 hhead.2.1 hhead.2.2
      · refine (ih h.tail).cons ?_ ?_ hhead.2.2
        · intro x hx
          rcases mem_removeRepeatedJob hx with ⟨y, hy, _, htime⟩
          rw [htime]
          exact hhead.1 y hy
        · intro x hx
          rcases mem_removeRepeatedJob hx with ⟨y, hy, hsame, _⟩
          rw [hsame]
          exact hhead.2.1 y hy

/-! ## Processing -/

theorem processed_iff {rounds : ℕ} {r : Processed J} :
    processRepeatedJobs now rounds tws = some r ↔
      fire RepeatedJobs.nextTime RepeatedJobs.reschedule now rounds tws =
        some (r.executed, r.repeatedJobs) ∧ r.timeout = timeoutOf now r.repeatedJobs := by
  unfold processRepeatedJobs
  constructor
  · intro h
    rcases Option.map_eq_some_iff.1 h with ⟨⟨vs, rest⟩, hfire, rfl⟩
    exact ⟨hfire, rfl⟩
  · rintro ⟨hfire, htimeout⟩
    rw [hfire, Option.map_some, ← htimeout]

/-- It ends unless an entry without an interval is due. -/
theorem Ordered.returns_iff (h : Ordered clock tws) (now : DateTime) :
    (∃ rounds, processRepeatedJobs now rounds tws ≠ none) ↔
      ∀ tw ∈ tws, tw.nextTime ≤ now → tw.interval ≠ 0 := by
  have hperiod : ∀ tw : RepeatedJobs J, tw.period ≠ 0 ↔ tw.interval ≠ 0 :=
    fun tw => not_congr (UInt32.toNat_inj (b := 0))
  have hfire : (∃ rounds, fire RepeatedJobs.nextTime RepeatedJobs.reschedule now rounds tws ≠ none) ↔
      ∀ tw ∈ tws, tw.nextTime ≤ now → tw.period ≠ 0 := fire_returns_iff periodic h.sorted
  simp only [hperiod] at hfire
  rw [← hfire]
  simp only [processRepeatedJobs, Ne, Option.map_eq_none_iff]

/-- The entry a number of intervals later. -/
theorem reschedule_iterate (k : ℕ) (tw : RepeatedJobs J) :
    RepeatedJobs.reschedule^[k] tw =
      { tw with nextTime := tw.nextTime + k * tw.interval.toNat } := by
  induction k generalizing tw with
  | zero => simp
  | succ k ih =>
      rw [Function.iterate_succ_apply, ih]
      simp only [RepeatedJobs.reschedule, RepeatedJobs.mk.injEq, and_self, and_true]
      push_cast
      ring

theorem ordered_process (h : Ordered clock tws) (hnow : clock ≤ now) {rounds : ℕ} {r : Processed J}
    (hr : processRepeatedJobs now rounds tws = some r) : Ordered now r.repeatedJobs := by
  have hfire := (processed_iff.1 hr).1
  have hfired := h.fired hfire
  refine ⟨hfired.rest_sorted, ?_, ?_⟩
  · refine hfired.rest_perm.symm.pairwise ?_ fun h => h.symm
    refine List.pairwise_map.2 (h.distinct.imp ?_)
    intro a b hne
    rw [reschedule_iterate, reschedule_iterate]
    exact hne
  · refine (fire_keeps ?_ hfire (h.mono hnow).soon).2
    intro tw hdue _
    have hnext : tw.reschedule.nextTime = tw.nextTime + tw.interval.toNat := rfl
    have hsame : tw.reschedule.interval = tw.interval := rfl
    rw [hnext, hsame]
    exact Int.add_le_add_right hdue _

/-! ## Runs -/

theorem ordered_step {s s' : Scheduler J} {l : Call J × List (RepeatedJobs J)}
    (hstep : Scheduler.Step s l s') (h : Ordered s.clock s.repeatedJobs) :
    Ordered s'.clock s'.repeatedJobs := by
  rcases l with ⟨call, executed⟩
  cases call with
  | add now memory job interval jobId =>
      rcases hstep with ⟨hnow, _, rfl⟩
      exact ordered_serverAdd h hnow memory job interval jobId
  | remove jobId =>
      rcases hstep with ⟨_, rfl⟩
      exact ordered_remove h jobId
  | process now =>
      rcases hstep with ⟨hnow, rounds, r, hr, _, rfl⟩
      exact ordered_process h hnow hr

/-- **Whatever comes and goes, the list is ordered.** -/
theorem ordered_run {s s' : Scheduler J} {ls : List (Call J × List (RepeatedJobs J))}
    (hrun : Trace Scheduler.Step s ls s') (h : Ordered s.clock s.repeatedJobs) :
    Ordered s'.clock s'.repeatedJobs := by
  induction hrun with
  | nil s => exact h
  | cons hstep _ ih => exact ih (ordered_step hstep h)

/-! ## One call -/

/-- How often an entry is executed. -/
def RepeatedJobs.dueCount (tw : RepeatedJobs J) (now : DateTime) : ℕ :=
  Timetable.dueCount RepeatedJobs.nextTime RepeatedJobs.period now tw

/-- The entry a number of intervals later. -/
def RepeatedJobs.later (tw : RepeatedJobs J) (k : ℕ) : RepeatedJobs J :=
  { tw with nextTime := tw.nextTime + k * tw.interval.toNat }

theorem timeoutOf_le (tws : List (RepeatedJobs J)) : timeoutOf now tws ≤ maxTimeout := by
  unfold timeoutOf
  split
  · exact le_rfl
  · dsimp only
    split
    · exact le_rfl
    · omega

/-- A cast that loses bits makes the wait shorter. -/
theorem timeout_le {d : ℤ} (hd : 0 ≤ d) :
    10 * ((if maxTimeout < (d.tdiv 10 % 2 ^ 32).toNat then maxTimeout
      else (d.tdiv 10 % 2 ^ 32).toNat : ℕ) : ℤ) ≤ d := by
  rw [Int.tdiv_eq_ediv_of_nonneg hd]
  split
  · omega
  · omega

/-- The main loop does not wait longer than to the next time in the list. -/
theorem timeoutOf_before {tw : RepeatedJobs J} (hlater : ∀ x ∈ tws, now < x.nextTime)
    (hsorted : Sorted RepeatedJobs.nextTime tws) (htw : tw ∈ tws) :
    now + 10 * timeoutOf now tws ≤ tw.nextTime := by
  cases tws with
  | nil => cases htw
  | cons first rest =>
      have hfirst : first.nextTime ≤ tw.nextTime := by
        rcases List.mem_cons.1 htw with rfl | htw
        · exact le_rfl
        · exact (List.pairwise_cons.1 hsorted).1 tw htw
      have hpos : (0 : ℤ) ≤ first.nextTime - now :=
        Int.sub_nonneg_of_le (hlater first List.mem_cons_self).le
      have hwait := Int.add_le_add_left (timeout_le hpos) now
      rw [add_sub_cancel] at hwait
      exact hwait.trans hfirst

/-- **Each entry is executed once for each of its times.**  Whatever jobs came and went before,
`processRepeatedJobs` ends unless an entry without an interval is due.  If it ends, it has executed the
entries in the order of their times, each one for each of its times that was due; the list has each
entry at its first time that is not due, and the main loop does not wait longer than to any of them. -/
theorem processRepeatedJobs_exact {start : DateTime}
    {ls : List (Call J × List (RepeatedJobs J))} {s : Scheduler J}
    (hrun : Trace Scheduler.Step (.init start) ls s) (now : DateTime) :
    ((∃ rounds, processRepeatedJobs now rounds s.repeatedJobs ≠ none) ↔
      ∀ tw ∈ s.repeatedJobs, tw.nextTime ≤ now → tw.interval ≠ 0) ∧
    ∀ rounds r, processRepeatedJobs now rounds s.repeatedJobs = some r →
      r.executed.Pairwise (fun a b => a.nextTime ≤ b.nextTime) ∧
      (∀ x ∈ r.executed, ∃ tw ∈ s.repeatedJobs, x.interval = tw.interval) ∧
      (∀ tw ∈ s.repeatedJobs, (r.executed.filter fun x => x.interval = tw.interval) =
        (List.range (tw.dueCount now)).map tw.later) ∧
      r.repeatedJobs.Perm (s.repeatedJobs.map fun tw => tw.later (tw.dueCount now)) ∧
      r.timeout ≤ maxTimeout ∧
      ∀ tw ∈ r.repeatedJobs, now < tw.nextTime ∧ now + 10 * r.timeout ≤ tw.nextTime := by
  have hordered := ordered_run hrun .nil
  refine ⟨hordered.returns_iff now, ?_⟩
  intro rounds r hr
  rcases processed_iff.1 hr with ⟨hfire, htimeout⟩
  have hfired := hordered.fired hfire
  refine ⟨hfired.sorted, hfired.known, ?_, ?_, ?_, ?_⟩
  · intro tw htw
    rw [hfired.occurrences tw htw]
    exact List.map_congr_left fun k _ => reschedule_iterate k tw
  · refine hfired.rest_perm.trans (.of_eq (List.map_congr_left fun tw _ => ?_))
    exact reschedule_iterate _ tw
  · rw [htimeout]
    exact timeoutOf_le _
  · intro tw htw
    refine ⟨hfired.rest_later tw htw, ?_⟩
    rw [htimeout]
    exact timeoutOf_before hfired.rest_later hfired.rest_sorted htw

/-! ### Two jobs -/

/-- Every 5 ms and every 7 ms. -/
def twoAdds : List (Call ℕ × List (RepeatedJobs ℕ)) :=
  [(.add 0 true 1 5 none, []), (.add 10 true 2 7 none, [])]

def twoJobs : Scheduler ℕ :=
  ⟨10, [⟨50000, 50000, [⟨1, noGuid⟩]⟩, ⟨70010, 70000, [⟨2, noGuid⟩]⟩]⟩

theorem twoAdds_trace : Trace Scheduler.Step (.init 0) twoAdds twoJobs :=
  .cons ⟨by decide, rfl, rfl⟩ (.cons ⟨by decide, rfl, rfl⟩ (.nil _))

theorem processRepeatedJobs_exact_twoJobs :
    ∃ rounds, processRepeatedJobs 120000 rounds twoJobs.repeatedJobs ≠ none :=
  (processRepeatedJobs_exact twoAdds_trace 120000).1.2 (by decide)

example : (processRepeatedJobs 120000 4 twoJobs.repeatedJobs).map
    (fun r => (r.executed.map RepeatedJobs.nextTime, r.timeout)) =
      some ([50000, 70010, 100000], 2001) := by
  decide

end Repeated

end ForteOpcUa
