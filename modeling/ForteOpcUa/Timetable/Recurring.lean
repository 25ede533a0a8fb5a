import Mathlib.Algebra.BigOperators.Group.List.Basic
import Mathlib.Algebra.Order.Ring.Int
import Mathlib.Logic.Function.Iterate

/-!
# Recurring — a row of recurring entries in the order of their times

The first entry of the row fires as long as it is due; its next occurrence goes behind those that
are not later.

- `insertBehind`     : an entry goes behind those that are not later,
- `fire`             : the row is fired up to a time, with a bound on the number of firings,
- `fire_returns_iff` : it ends unless an entry without a period is due,
- `fire_exact`       : each entry fires once for each of its times, and all fire in their order.
-/

namespace Timetable

variable {ε : Type} {time : ε → ℤ} {next : ε → ε} {period : ε → ℕ} {now : ℤ}

/-- The entry goes behind those that are not later. -/
def insertBehind (time : ε → ℤ) (e : ε) : List ε → List ε
  | [] => [e]
  | x :: xs => if time e < time x then e :: x :: xs else x :: insertBehind time e xs

/-- The entries that fire up to a time, and the row behind them. -/
def fire (time : ε → ℤ) (next : ε → ε) (now : ℤ) : ℕ → List ε → Option (List ε × List ε)
  | 0, _ => none
  | _ + 1, [] => some ([], [])
  | n + 1, e :: es =>
      if now < time e then
        some ([], e :: es)
      else
        (fire time next now n (insertBehind time (next e) es)).map fun r => (e :: r.1, r.2)

/-- In the order of their times. -/
def Sorted (time : ε → ℤ) (es : List ε) : Prop :=
  es.Pairwise fun a b => time a ≤ time b

/-- The next occurrence of an entry is its period later. -/
structure Periodic (time : ε → ℤ) (next : ε → ε) (period : ε → ℕ) : Prop where
  time_next : ∀ e, time (next e) = time e + period e
  period_next : ∀ e, period (next e) = period e

/-- How often an entry is due up to a time. -/
def dueCount (time : ε → ℤ) (period : ε → ℕ) (now : ℤ) (e : ε) : ℕ :=
  if time e ≤ now then ((now - time e) / period e).toNat + 1 else 0

/-! ## Insertion -/

theorem perm_insertBehind (e : ε) (es : List ε) : (insertBehind time e es).Perm (e :: es) := by
  induction es with
  | nil => exact .refl _
  | cons x xs ih =>
      unfold insertBehind
      split
      · exact .refl _
      · exact (ih.cons x).trans (.swap e x xs)

theorem mem_insertBehind {e x : ε} {es : List ε} : x ∈ insertBehind time e es ↔ x = e ∨ x ∈ es := by
  rw [(perm_insertBehind e es).mem_iff, List.mem_cons]

theorem sorted_insertBehind {es : List ε} (h : Sorted time es) (e : ε) :
    Sorted time (insertBehind time e es) := by
  induction es with
  | nil => exact List.pairwise_singleton _ _
  | cons x xs ih =>
      have hx := List.pairwise_cons.1 h
      unfold insertBehind
      by_cases hlt : time e < time x
      · rw [if_pos hlt]
        refine List.pairwise_cons.2 ⟨?_, h⟩
        intro y hy
        rcases List.mem_cons.1 hy with rfl | hy
        · exact hlt.le
        · exact hlt.le.trans (hx.1 y hy)
      · rw [if_neg hlt]
        refine List.pairwise_cons.2 ⟨?_, ih hx.2⟩
        intro y hy
        rcases mem_insertBehind.1 hy with rfl | hy
        · exact not_lt.1 hlt
        · exact hx.1 y hy

/-! ## Firing -/

theorem dueCount_next (hp : Periodic time next period) {e : ε} (hdue : time e ≤ now)
    (hpos : period e ≠ 0) :
    dueCount time period now e = dueCount time period now (next e) + 1 := by
  have hperiod : (0 : ℤ) < period e := by
    have := Nat.pos_of_ne_zero hpos
    omega
  unfold dueCount
  rw [if_pos hdue, hp.time_next, hp.period_next]
  have hsplit : (now - time e) / period e = (now - (time e + period e)) / period e + 1 := by
    rw [← Int.add_mul_ediv_right _ _ (ne_of_gt hperiod)]
    congr 1
    omega
  by_cases hagain : time e + period e ≤ now
  · rw [if_pos hagain, hsplit]
    have hnonneg : 0 ≤ (now - (time e + period e)) / (period e : ℤ) :=
      Int.ediv_nonneg (by omega) hperiod.le
    omega
  · rw [if_neg hagain]
    have hzero : (now - time e) / (period e : ℤ) = 0 :=
      Int.ediv_eq_zero_of_lt (by omega) (by omega)
    rw [hzero]
    rfl

theorem dueCount_of_lt {e : ε} (h : now < time e) : dueCount time period now e = 0 :=
  if_neg (not_le.2 h)

/-- Nothing is due where the first entry is not. -/
theorem lt_of_sorted {e : ε} {es : List ε} (h : Sorted time (e :: es)) (hlt : now < time e) :
    ∀ x ∈ e :: es, now < time x := by
  intro x hx
  rcases List.mem_cons.1 hx with rfl | hx
  · exact hlt
  · exact hlt.trans_le ((List.pairwise_cons.1 h).1 x hx)

/-- What firing keeps of the entries. -/
theorem fire_keeps {P : ε → Prop} (hP : ∀ e, time e ≤ now → P e → P (next e)) {n : ℕ}
    {es vs rest : List ε} (h : fire time next now n es = some (vs, rest)) (hes : ∀ e ∈ es, P e) :
    (∀ v ∈ vs, P v) ∧ ∀ e ∈ rest, P e := by
  induction n generalizing es vs with
  | zero => cases h
  | succ n ih =>
      cases es with
      | nil =>
          cases h
          simp
      | cons e es =>
          unfold fire at h
          split at h
          · cases h
            exact ⟨by simp, hes⟩
          · rename_i hdue
            rcases Option.map_eq_some_iff.1 h with ⟨⟨vs', rest'⟩, hfire, heq⟩
            cases heq
            have he := hes e List.mem_cons_self
            have hnext : ∀ x ∈ insertBehind time (next e) es, P x := by
              intro x hx
              rcases mem_insertBehind.1 hx with rfl | hx
              · exact hP e (not_lt.1 hdue) he
              · exact hes x (List.mem_cons_of_mem e hx)
            rcases ih hfire hnext with ⟨hvs, hrest⟩
            refine ⟨?_, hrest⟩
            intro v hv
            rcases List.mem_cons.1 hv with rfl | hv
            · exact he
            · exact hvs v hv

/-- Where firing ends, every due entry has a period. -/
theorem period_of_fire (hp : Periodic time next period) {n : ℕ} {es : List ε}
    (hsorted : Sorted time es) (h : fire time next now n es ≠ none) :
    ∀ e ∈ es, time e ≤ now → period e ≠ 0 := by
  induction n generalizing es with
  | zero => exact absurd rfl h
  | succ n ih =>
      cases es with
      | nil => simp
      | cons e es =>
          by_cases hlt : now < time e
          · intro x hx hdue
            exact absurd hdue (not_le.2 (lt_of_sorted hsorted hlt x hx))
          · unfold fire at h
            rw [if_neg hlt] at h
            have hfire : fire time next now n (insertBehind time (next e) es) ≠ none := by
              intro hnone
              rw [hnone] at h
              exact h rfl
            have hrest := ih (sorted_insertBehind (List.pairwise_cons.1 hsorted).2 _) hfire
            intro x hx hdue
            rcases List.mem_cons.1 hx with rfl | hx
            · -- Without a period it would be due again at once.
              intro hzero
              refine hrest (next x) (mem_insertBehind.2 (.inl rfl)) ?_ ?_
              · rw [hp.time_next, hzero]
                simpa using hdue
              · rw [hp.period_next, hzero]
            · exact hrest x (mem_insertBehind.2 (.inr hx)) hdue

/-- One firing for each time that is due. -/
theorem fire_returns (hp : Periodic time next period) {n : ℕ} {es : List ε}
    (hperiod : ∀ e ∈ es, time e ≤ now → period e ≠ 0)
    (hn : (es.map (dueCount time period now)).sum < n) : fire time next now n es ≠ none := by
  induction n generalizing es with
  | zero => exact absurd hn (Nat.not_lt_zero _)
  | succ n ih =>
      cases es with
      | nil => simp [fire]
      | cons e es =>
          unfold fire
          by_cases hlt : now < time e
          · simp [hlt]
          · have hdue := not_lt.1 hlt
            have hpos := hperiod e List.mem_cons_self hdue
            rw [if_neg hlt, Ne, Option.map_eq_none_iff]
            refine ih ?_ ?_
            · intro x hx hx'
              rcases mem_insertBehind.1 hx with rfl | hx
              · rw [hp.period_next]
                exact hpos
              · exact hperiod x (List.mem_cons_of_mem e hx) hx'
            · rw [((perm_insertBehind (next e) es).map _).sum_eq]
              rw [List.map_cons, List.sum_cons] at hn ⊢
              rw [dueCount_next hp hdue hpos] at hn
              omega

/-- **Firing ends unless an entry without a period is due.** -/
theorem fire_returns_iff (hp : Periodic time next period) {es : List ε} (hsorted : Sorted time es) :
    (∃ n, fire time next now n es ≠ none) ↔ ∀ e ∈ es, time e ≤ now → period e ≠ 0 := by
  constructor
  · rintro ⟨n, hn⟩
    exact period_of_fire hp hsorted hn
  · intro hperiod
    exact ⟨_, fire_returns hp hperiod (Nat.lt_succ_self _)⟩

section Exact

variable {κ : Type} [DecidableEq κ] {key : ε → κ}

/-- All that fire do so in their order, each entry once for each of its times; the row behind them is
in order too and has each entry at its first time that is not due. -/
structure Fired (time : ε → ℤ) (next : ε → ε) (period : ε → ℕ) (key : ε → κ) (now : ℤ)
    (es vs rest : List ε) : Prop where
  sorted : Sorted time vs
  occurrences : ∀ e ∈ es, (vs.filter fun v => key v = key e) =
    (List.range (dueCount time period now e)).map fun k => next^[k] e
  known : ∀ v ∈ vs, ∃ e ∈ es, key v = key e
  rest_sorted : Sorted time rest
  rest_perm : rest.Perm (es.map fun e => next^[dueCount time period now e] e)
  rest_later : ∀ e ∈ rest, now < time e

theorem fired_of_lt {es : List ε} (hsorted : Sorted time es) (hlt : ∀ e ∈ es, now < time e) :
    Fired time next period key now es [] es where
  sorted := List.Pairwise.nil
  occurrences := by
    intro e he
    rw [dueCount_of_lt (hlt e he)]
    rfl
  known := by simp
  rest_sorted := hsorted
  rest_perm := by
    have hsame : (es.map fun e => next^[dueCount time period now e] e) = es.map id := by
      refine List.map_congr_left fun e he => ?_
      rw [dueCount_of_lt (hlt e he)]
      rfl
    rw [hsame, List.map_id]
  rest_later := hlt

theorem Fired.cons (hp : Periodic time next period) (hkey : ∀ e, key (next e) = key e) {e : ε}
    {es vs rest : List ε} (hdistinct : (e :: es).Pairwise fun a b => key a ≠ key b)
    (hdue : time e ≤ now) (hpos : period e ≠ 0) (hvs : ∀ v ∈ vs, time e ≤ time v)
    (h : Fired time next period key now (insertBehind time (next e) es) vs rest) :
    Fired time next period key now (e :: es) (e :: vs) rest where
  sorted := List.pairwise_cons.2 ⟨hvs, h.sorted⟩
  occurrences := by
    have hne := (List.pairwise_cons.1 hdistinct).1
    intro x hx
    rcases List.mem_cons.1 hx with rfl | hx
    · have hrest := h.occurrences (next x) (mem_insertBehind.2 (.inl rfl))
      rw [hkey] at hrest
      rw [List.filter_cons_of_pos (by simp), hrest, dueCount_next hp hdue hpos,
        List.range_succ_eq_map, List.map_cons, List.map_map]
      rfl
    · rw [List.filter_cons_of_neg (by simpa using hne x hx)]
      exact h.occurrences x (mem_insertBehind.2 (.inr hx))
  known := by
    intro v hv
    rcases List.mem_cons.1 hv with rfl | hv
    · exact ⟨v, List.mem_cons_self, rfl⟩
    · rcases h.known v hv with ⟨x, hx, hvx⟩
      rcases mem_insertBehind.1 hx with rfl | hx
      · exact ⟨e, List.mem_cons_self, by rw [hvx, hkey]⟩
      · exact ⟨x, List.mem_cons_of_mem e hx, hvx⟩
  rest_sorted := h.rest_sorted
  rest_perm := by
    refine h.rest_perm.trans (((perm_insertBehind (next e) es).map _).trans ?_)
    rw [List.map_cons, List.map_cons, dueCount_next hp hdue hpos, Function.iterate_succ_apply]
  rest_later := h.rest_later

/-- **Each entry fires once for each of its times, and all fire in their order.** -/
theorem fire_exact (hp : Periodic time next period) (hkey : ∀ e, key (next e) = key e) {n : ℕ}
    {es vs rest : List ε} (hsorted : Sorted time es)
    (hdistinct : es.Pairwise fun a b => key a ≠ key b)
    (h : fire time next now n es = some (vs, rest)) :
    Fired time next period key now es vs rest := by
  induction n generalizing es vs with
  | zero => cases h
  | succ n ih =>
      cases es with
      | nil =>
          cases h
          exact fired_of_lt hsorted (by simp)
      | cons e es =>
          have hperiod := period_of_fire hp hsorted (by rw [h]; simp)
          unfold fire at h
          split at h
          · rename_i hlt
            cases h
            exact fired_of_lt hsorted (lt_of_sorted hsorted hlt)
          · rename_i hlt
            rcases Option.map_eq_some_iff.1 h with ⟨⟨vs', rest'⟩, hfire, heq⟩
            cases heq
            have hdue := not_lt.1 hlt
            have hes := List.pairwise_cons.1 hsorted
            have hnext : time e ≤ time (next e) := by
              rw [hp.time_next]
              omega
            -- What comes next is not earlier than what fires now.
            have hlater : ∀ x ∈ insertBehind time (next e) es, time e ≤ time x := by
              intro x hx
              rcases mem_insertBehind.1 hx with rfl | hx
              · exact hnext
              · exact hes.1 x hx
            have hvs : ∀ v ∈ vs', time e ≤ time v := by
              refine (fire_keeps ?_ hfire hlater).1
              intro x _ hx
              rw [hp.time_next]
              omega
            have hdistinct' : (insertBehind time (next e) es).Pairwise fun a b => key a ≠ key b := by
              refine (perm_insertBehind (next e) es).symm.pairwise ?_ fun h => h.symm
              have hne := List.pairwise_cons.1 hdistinct
              refine List.pairwise_cons.2 ⟨?_, hne.2⟩
              rw [hkey]
              exact hne.1
            exact (ih (sorted_insertBehind hes.2 _) hdistinct' hfire).cons hp hkey hdistinct hdue
              (hperiod e List.mem_cons_self hdue) hvs

end Exact

end Timetable
