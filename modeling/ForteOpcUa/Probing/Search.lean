import Mathlib.Logic.Function.Iterate
import Mathlib.Tactic.Push

/-!
# Search — the first place where a test succeeds

A probe visits `i`, `next i`, `next (next i)`, … until `stop` holds.

- `search stop next fuel i` : the place where it stops, within `fuel` places,
- `StopsAt stop next i n`   : it stops after exactly `n` steps,
- `search_eq_some_iff`      : the two agree,
- `bisect below fuel lo hi` : the first number of `lo … hi` that is not `below`, by halving.
-/

namespace Probing

variable {ι : Type}

/-- Walk along `next` from `i`, over at most `fuel` places, to the first one where `stop` holds. -/
def search (stop : ι → Bool) (next : ι → ι) : ℕ → ι → Option ι
  | 0, _ => none
  | fuel + 1, i => if stop i then some i else search stop next fuel (next i)

/-- From `i` the first place where `stop` holds is `n` steps away. -/
structure StopsAt (stop : ι → Bool) (next : ι → ι) (i : ι) (n : ℕ) : Prop where
  stops : stop (next^[n] i) = true
  before : ∀ m < n, stop (next^[m] i) = false

variable {stop : ι → Bool} {next : ι → ι}

/-- Two distances to the first stop are the same. -/
theorem StopsAt.unique {i : ι} {m n : ℕ} (hm : StopsAt stop next i m)
    (hn : StopsAt stop next i n) : m = n := by
  rcases Nat.lt_trichotomy m n with hlt | heq | hgt
  · have hfalse := hn.before m hlt
    rw [hm.stops] at hfalse
    cases hfalse
  · exact heq
  · have hfalse := hm.before n hgt
    rw [hn.stops] at hfalse
    cases hfalse

/-- One step further from the place before. -/
theorem StopsAt.succ {i : ι} {n : ℕ} (hi : stop i = false) (h : StopsAt stop next (next i) n) :
    StopsAt stop next i (n + 1) where
  stops := h.stops
  before := by
    intro m hm
    cases m with
    | zero => exact hi
    | succ m => exact h.before m (Nat.lt_of_succ_lt_succ hm)

/-- Any place of the orbit where `stop` holds bounds the distance to the first one. -/
theorem exists_stopsAt {i : ι} {n : ℕ} (h : stop (next^[n] i) = true) :
    ∃ m ≤ n, StopsAt stop next i m := by
  induction n generalizing i with
  | zero =>
      exact ⟨0, Nat.le_refl 0, h, fun m hm => absurd hm (Nat.not_lt_zero m)⟩
  | succ n ih =>
      by_cases hi : stop i = true
      · exact ⟨0, Nat.zero_le _, hi, fun m hm => absurd hm (Nat.not_lt_zero m)⟩
      · rcases ih h with ⟨m, hm, hstop⟩
        exact ⟨m + 1, Nat.succ_le_succ hm, hstop.succ (by simpa using hi)⟩

/-- The search finds the first stop when the fuel reaches it, and nothing otherwise. -/
theorem search_eq_some_iff {fuel : ℕ} {i j : ι} :
    search stop next fuel i = some j ↔ ∃ n < fuel, StopsAt stop next i n ∧ next^[n] i = j := by
  induction fuel generalizing i with
  | zero =>
      simp [search]
  | succ fuel ih =>
      by_cases hi : stop i = true
      · constructor
        · intro h
          have hij : i = j := by simpa [search, hi] using h
          exact ⟨0, Nat.succ_pos fuel, ⟨hi, fun m hm => absurd hm (Nat.not_lt_zero m)⟩, hij⟩
        · rintro ⟨n, _, hstop, rfl⟩
          -- The walk stops where it starts, so `n` is zero.
          have hzero : StopsAt stop next i 0 := ⟨hi, fun m hm => absurd hm (Nat.not_lt_zero m)⟩
          have hn : n = 0 := hstop.unique hzero
          subst hn
          simp [search, hi]
      · have hfalse : stop i = false := by simpa using hi
        have hstep : search stop next (fuel + 1) i = search stop next fuel (next i) := by
          simp [search, hfalse]
        rw [hstep, ih]
        constructor
        · rintro ⟨n, hn, hstop, hj⟩
          exact ⟨n + 1, Nat.succ_lt_succ hn, hstop.succ hfalse, hj⟩
        · rintro ⟨n, hn, hstop, hj⟩
          cases n with
          | zero =>
              have htrue : stop i = true := hstop.stops
              rw [hfalse] at htrue
              cases htrue
          | succ n =>
              refine ⟨n, Nat.lt_of_succ_lt_succ hn, ⟨hstop.stops, ?_⟩, hj⟩
              intro m hm
              exact hstop.before (m + 1) (Nat.succ_lt_succ hm)

/-- With a stop among the first `fuel` places the search succeeds. -/
theorem search_isSome {fuel n : ℕ} {i : ι} (hn : n < fuel) (h : stop (next^[n] i) = true) :
    ∃ m < fuel, StopsAt stop next i m ∧ search stop next fuel i = some (next^[m] i) := by
  rcases exists_stopsAt h with ⟨m, hm, hstop⟩
  have hlt : m < fuel := Nat.lt_of_le_of_lt hm hn
  exact ⟨m, hlt, hstop, search_eq_some_iff.2 ⟨m, hlt, hstop, rfl⟩⟩

/-! ## Bisection -/

/-- Halve `lo … hi` towards the first number for which `below` fails. -/
def bisect (below : ℕ → Bool) : ℕ → ℕ → ℕ → ℕ
  | 0, lo, _ => lo
  | fuel + 1, lo, hi =>
      if lo = hi then
        lo
      else
        let mid := lo + (hi - lo) / 2
        if below mid then bisect below fuel (mid + 1) hi else bisect below fuel lo mid

/-- Where `below` is closed downwards, bisection finds its boundary. -/
theorem bisect_boundary {below : ℕ → Bool} {fuel lo hi : ℕ}
    (hclosed : ∀ i j, i ≤ j → j < hi → below j = true → below i = true)
    (hle : lo ≤ hi) (hfuel : hi - lo ≤ fuel) :
    bisect below fuel lo hi ≤ hi ∧
      (∀ i, lo ≤ i → i < bisect below fuel lo hi → below i = true) ∧
        ∀ i, bisect below fuel lo hi ≤ i → i < hi → below i = false := by
  induction fuel generalizing lo hi with
  | zero =>
      have heq : lo = hi := by omega
      subst heq
      refine ⟨Nat.le_refl _, ?_, ?_⟩
      · intro i h1 h2
        exact absurd h2 (Nat.not_lt.2 h1)
      · intro i h1 h2
        exact absurd h2 (Nat.not_lt.2 h1)
  | succ fuel ih =>
      by_cases heq : lo = hi
      · subst heq
        simp only [bisect, if_true]
        refine ⟨Nat.le_refl _, ?_, ?_⟩
        · intro i h1 h2
          exact absurd h2 (Nat.not_lt.2 h1)
        · intro i h1 h2
          exact absurd h2 (Nat.not_lt.2 h1)
      · have hmid : lo + (hi - lo) / 2 < hi := by omega
        by_cases hbelow : below (lo + (hi - lo) / 2) = true
        · have hstep : bisect below (fuel + 1) lo hi =
              bisect below fuel (lo + (hi - lo) / 2 + 1) hi := by
            simp [bisect, heq, hbelow]
          rw [hstep]
          have hle' : lo + (hi - lo) / 2 + 1 ≤ hi := hmid
          rcases ih hclosed hle' (by omega) with ⟨hhi, hlow, hhigh⟩
          refine ⟨hhi, ?_, hhigh⟩
          intro i hi1 hi2
          by_cases hpast : lo + (hi - lo) / 2 + 1 ≤ i
          · exact hlow i hpast hi2
          · exact hclosed i _ (by omega) hmid hbelow
        · have hfalse : below (lo + (hi - lo) / 2) = false := by simpa using hbelow
          have hstep : bisect below (fuel + 1) lo hi =
              bisect below fuel lo (lo + (hi - lo) / 2) := by
            simp [bisect, heq, hfalse]
          rw [hstep]
          have hle' : lo ≤ lo + (hi - lo) / 2 := Nat.le_add_right _ _
          have hclosed' : ∀ i j, i ≤ j → j < lo + (hi - lo) / 2 → below j = true →
              below i = true := by
            intro i j hij hj
            exact hclosed i j hij (by omega)
          rcases ih hclosed' hle' (by omega) with ⟨hhi, hlow, hhigh⟩
          refine ⟨by omega, hlow, ?_⟩
          intro i hi1 hi2
          by_cases hpast : i < lo + (hi - lo) / 2
          · exact hhigh i hi1 hpast
          · cases hi' : below i with
            | false => rfl
            | true =>
                rw [hclosed _ i (by omega) hi2 hi'] at hfalse
                cases hfalse

end Probing
