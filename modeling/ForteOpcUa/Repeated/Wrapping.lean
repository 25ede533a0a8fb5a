import ForteOpcUa.Repeated.Schedule

/-!
# Wrapping — intervals that are zero in 100 ns resolution

`UA_Server_addRepeatedJob` asks for 5 ms and then multiplies by 10000 in 32 bits.

- `scaled_eq_zero_iff` : which intervals become zero,
- `trace_exists`       : if none of them comes, every call of every sequence returns,
- `returns_always_iff` : and only then.
-/

namespace ForteOpcUa

namespace Repeated

open Channels (DateTime)
open Interaction

variable {J : Type}

theorem toNat_scaled (interval : UInt32) :
    (scaled interval).toNat = interval.toNat * 10000 % 2 ^ 32 := by
  rw [scaled, UInt32.toNat_mul]
  rfl

theorem scaled_eq_zero_iff (interval : UInt32) :
    scaled interval = 0 ↔ 2 ^ 28 ∣ interval.toNat := by
  rw [← UInt32.toNat_inj, toNat_scaled]
  have hzero : (0 : UInt32).toNat = 0 := rfl
  rw [hzero, Nat.dvd_iff_mod_eq_zero]
  omega

/-- The intervals of the calls are allowed. -/
def Allowed (allowed : UInt32 → Prop) : Call J → Prop
  | .add _ _ _ interval _ => allowed interval
  | .remove _ => True
  | .process _ => True

/-- The intervals of the entries come from allowed ones. -/
def Known (allowed : UInt32 → Prop) (tws : List (RepeatedJobs J)) : Prop :=
  ∀ tw ∈ tws, ∃ interval, allowed interval ∧ ¬ interval < 5 ∧ tw.interval = scaled interval

theorem known_step {allowed : UInt32 → Prop} {s s' : Scheduler J}
    {l : Call J × List (RepeatedJobs J)} (hordered : Ordered s.clock s.repeatedJobs)
    (h : Known allowed s.repeatedJobs) (hl : Allowed allowed l.1) (hstep : Scheduler.Step s l s') :
    Known allowed s'.repeatedJobs := by
  rcases l with ⟨call, executed⟩
  cases call with
  | add now memory job interval jobId =>
      rcases hstep with ⟨hnow, _, rfl⟩
      unfold serverAddRepeatedJob
      dsimp only
      split
      · exact h
      · rename_i hfive
        intro x hx
        rcases mem_addRepeatedJob (hordered.mono hnow) hx with hx | ⟨tw, _, hsame, rfl⟩ | ⟨rfl, _⟩
        · exact h x hx
        · exact ⟨interval, hl, hfive, hsame⟩
        · exact ⟨interval, hl, hfive, rfl⟩
  | remove jobId =>
      rcases hstep with ⟨_, rfl⟩
      intro x hx
      rcases mem_removeRepeatedJob hx with ⟨tw, htw, hsame, _⟩
      rw [hsame]
      exact h tw htw
  | process now =>
      rcases hstep with ⟨_, rounds, r, hr, _, rfl⟩
      intro x hx
      rcases List.mem_map.1 ((hordered.fired (processed_iff.1 hr).1).rest_perm.mem_iff.1 hx) with
        ⟨tw, htw, rfl⟩
      rw [reschedule_iterate]
      exact h tw htw

theorem known_run {allowed : UInt32 → Prop} {s s' : Scheduler J}
    {ls : List (Call J × List (RepeatedJobs J))} (hrun : Trace Scheduler.Step s ls s')
    (hordered : Ordered s.clock s.repeatedJobs) (h : Known allowed s.repeatedJobs)
    (hls : ∀ l ∈ ls, Allowed allowed l.1) : Known allowed s'.repeatedJobs := by
  induction hrun with
  | nil s => exact h
  | @cons s t s' l ls hstep _ ih =>
      exact ih (ordered_step hstep hordered)
        (known_step hordered h (hls l List.mem_cons_self) hstep)
        (fun l' hl' => hls l' (List.mem_cons_of_mem l hl'))

/-- The interval does not wrap to zero, or is refused. -/
def NeverZero (interval : UInt32) : Prop :=
  ¬ interval < 5 → ¬ 2 ^ 28 ∣ interval.toNat

theorem Known.interval_ne_zero {tws : List (RepeatedJobs J)} (h : Known NeverZero tws)
    {tw : RepeatedJobs J} (htw : tw ∈ tws) : tw.interval ≠ 0 := by
  intro hzero
  rcases h tw htw with ⟨interval, hallowed, hfive, hsame⟩
  refine hallowed hfive ((scaled_eq_zero_iff interval).1 ?_)
  rw [← hsame]
  exact hzero

/-- The clock does not go back from call to call. -/
def Clocked : DateTime → List (Call J) → Prop
  | _, [] => True
  | clock, .add now _ _ _ _ :: calls => clock ≤ now ∧ Clocked now calls
  | clock, .remove _ :: calls => Clocked clock calls
  | clock, .process now :: calls => clock ≤ now ∧ Clocked now calls

/-- Every call returns. -/
theorem trace_exists {s : Scheduler J} (hordered : Ordered s.clock s.repeatedJobs)
    (h : Known NeverZero s.repeatedJobs) {calls : List (Call J)}
    (hclock : Clocked s.clock calls) (hcalls : ∀ call ∈ calls, Allowed NeverZero call) :
    ∃ ls s', ls.map Prod.fst = calls ∧ Trace Scheduler.Step s ls s' := by
  induction calls generalizing s with
  | nil => exact ⟨[], s, rfl, .nil s⟩
  | cons call calls ih =>
      have hrest := fun call' hcall' => hcalls call' (List.mem_cons_of_mem call hcall')
      -- The call itself, with what it executes and leaves.
      have hcall : ∃ executed s', Scheduler.Step s (call, executed) s' ∧ Clocked s'.clock calls := by
        cases call with
        | add now memory job interval jobId => exact ⟨_, _, ⟨hclock.1, rfl, rfl⟩, hclock.2⟩
        | remove jobId => exact ⟨_, _, ⟨rfl, rfl⟩, hclock⟩
        | process now =>
            have hreturns := (hordered.returns_iff now).2 fun tw htw _ => h.interval_ne_zero htw
            rcases hreturns with ⟨rounds, hsome⟩
            rcases Option.ne_none_iff_exists'.1 hsome with ⟨r, hr⟩
            exact ⟨_, _, ⟨hclock.1, rounds, r, hr, rfl, rfl⟩, hclock.2⟩
      rcases hcall with ⟨executed, s', hstep, hclock'⟩
      rcases ih (ordered_step hstep hordered)
        (known_step hordered h (hcalls call List.mem_cons_self) hstep) hclock' hrest with
        ⟨ls, s'', hls, htrace⟩
      exact ⟨(call, executed) :: ls, s'', by simp [hls], .cons hstep htrace⟩

/-- A single job whose interval has become zero. -/
theorem wrapped_trace (job : J) {interval : UInt32} (hfive : ¬ interval < 5)
    (hzero : scaled interval = 0) :
    Trace Scheduler.Step (.init 0) [(.add 0 true job interval none, [])]
      ⟨0, [⟨0, 0, [⟨job, noGuid⟩]⟩]⟩ := by
  refine .cons ⟨le_rfl, rfl, ?_⟩ (.nil _)
  rw [serverAddRepeatedJob, if_neg hfive, hzero]
  rfl

/-- **The processing of the repeated jobs always returns exactly if no interval wraps to zero.**  The
intervals that do are the multiples of 2^28 ms; a single job of such an interval keeps the loop
running for ever. -/
theorem returns_always_iff (job : J) (allowed : UInt32 → Prop) :
    (∀ start ls, ∀ s : Scheduler J, Trace Scheduler.Step (.init start) ls s →
      (∀ l ∈ ls, Allowed allowed l.1) →
        ∀ now, ∃ rounds, processRepeatedJobs now rounds s.repeatedJobs ≠ none) ↔
      ∀ interval, allowed interval → ¬ interval < 5 → ¬ 2 ^ 28 ∣ interval.toNat := by
  constructor
  · intro h interval hallowed hfive hwraps
    have hzero := (scaled_eq_zero_iff interval).2 hwraps
    have hrun := wrapped_trace job hfive hzero
    have hreturns := h 0 _ _ hrun (by simpa [Allowed] using hallowed) 0
    exact ((ordered_run hrun .nil).returns_iff 0).1 hreturns _ List.mem_cons_self le_rfl rfl
  · intro h start ls s hrun hls now
    have hknown := known_run hrun .nil (by simp [Known, Scheduler.init]) hls
    refine ((ordered_run hrun .nil).returns_iff now).2 ?_
    intro tw htw _ hzero
    rcases hknown tw htw with ⟨interval, hallowed, hfive, hsame⟩
    refine h interval hallowed hfive ((scaled_eq_zero_iff interval).1 ?_)
    rw [← hsame]
    exact hzero

end Repeated

end ForteOpcUa
