import Mathlib.Data.Nat.Find
import Mathlib.Logic.Function.Basic
import ForteOpcUa.Probing.Search

/-!
# Table — keyed entries found by probing

A table holds at most one entry per place.  The scheme gives each key an orbit of places; a search
for the key stops at the first place that is empty or holds the key.

- `Scheme`             : where the search for a key starts and how it goes on,
- `Chained`            : keys are distinct, and every entry is reached over occupied places,
- `finds_of_reached`   : of distinct keys, a search finds those reached over occupied places,
- `Chained.store`      : storing a new key where its search stopped keeps the table chained,
- `Chained.replace`    : so does a new entry for a stored key,
- `reached_erase_iff`  : emptying a place cuts off the entries whose walk crosses it,
- `passes_iff`         : whether a walk crosses a place, decided by following it.
-/

namespace Probing

variable {ι κ ε : Type}

/-- For each key the place its search starts at and the step it goes on by. -/
structure Scheme (κ ι : Type) where
  start : κ → ι
  next : κ → ι → ι

/-- The place after `n` steps of the search for `k`. -/
def Scheme.place (s : Scheme κ ι) (k : κ) (n : ℕ) : ι :=
  (s.next k)^[n] (s.start k)

/-- Place `i` is reached for `k` over occupied places only. -/
def Scheme.Reached (s : Scheme κ ι) (t : ι → Option ε) (k : κ) (i : ι) : Prop :=
  ∃ n, s.place k n = i ∧ ∀ m < n, t (s.place k m) ≠ none

/-- The walk for `k` visits `i` before it comes to `j`. -/
def Scheme.Crosses (s : Scheme κ ι) (k : κ) (j i : ι) : Prop :=
  ∃ n, s.place k n = i ∧ ∀ m ≤ n, s.place k m ≠ j

/-- No two places hold the same key. -/
def Distinct (key : ε → κ) (t : ι → Option ε) : Prop :=
  ∀ i j e f, t i = some e → t j = some f → key e = key f → i = j

/-- Distinct keys, each entry reached over occupied places. -/
structure Chained (s : Scheme κ ι) (key : ε → κ) (t : ι → Option ε) : Prop where
  reached : ∀ i e, t i = some e → s.Reached t (key e) i
  distinct : Distinct key t

variable {s : Scheme κ ι} {key : ε → κ} {t : ι → Option ε}

/-- The empty table. -/
theorem Chained.empty : Chained s key fun _ : ι => none where
  reached := by
    intro i e h
    cases h
  distinct := by
    intro i j e f h
    cases h

/-! ## Searches -/

section Searches

variable [DecidableEq κ]

/-- The search for `k` stops at an empty place and at one that holds `k`. -/
def stopsFor (key : ε → κ) (t : ι → Option ε) (k : κ) (i : ι) : Bool :=
  match t i with
  | none => true
  | some e => key e = k

theorem stopsFor_eq_false_iff {key : ε → κ} {t : ι → Option ε} {k : κ} {i : ι} :
    stopsFor key t k i = false ↔ ∃ e, t i = some e ∧ key e ≠ k := by
  unfold stopsFor
  cases t i with
  | none => simp
  | some e => simp

/-- A place that stops the search and is not empty holds the key. -/
theorem key_of_stopsFor {key : ε → κ} {t : ι → Option ε} {k : κ} {i : ι} {e : ε}
    (hstop : stopsFor key t k i = true) (he : t i = some e) : key e = k := by
  simpa [stopsFor, he] using hstop

/-- The search for `k` stops after `n` steps. -/
def Scheme.Stops (s : Scheme κ ι) (key : ε → κ) (t : ι → Option ε) (k : κ) (n : ℕ) : Prop :=
  StopsAt (stopsFor key t k) (s.next k) (s.start k) n

/-- The search for `k` finds the entry `e`. -/
def Scheme.Finds (s : Scheme κ ι) (key : ε → κ) (t : ι → Option ε) (k : κ) (e : ε) : Prop :=
  ∃ n, s.Stops key t k n ∧ t (s.place k n) = some e

/-- Before it stops a search passes over occupied places only. -/
theorem Scheme.Stops.passed {k : κ} {n m : ℕ} (h : s.Stops key t k n) (hm : m < n) :
    t (s.place k m) ≠ none := by
  rcases stopsFor_eq_false_iff.1 (h.before m hm) with ⟨e, he, _⟩
  intro hnone
  rw [Scheme.place] at hnone
  rw [he] at hnone
  cases hnone

/-- An entry that is reached over occupied places is found. -/
theorem finds_of_reached (hdist : Distinct key t) {i : ι} {e : ε} (he : t i = some e)
    (hr : s.Reached t (key e) i) : s.Finds key t (key e) e := by
  rcases hr with ⟨r, hplace, hocc⟩
  -- At `i` the search stops at the latest.
  have hi : stopsFor key t (key e) ((s.next (key e))^[r] (s.start (key e))) = true := by
    have hat : (s.next (key e))^[r] (s.start (key e)) = i := hplace
    simp [stopsFor, hat, he]
  rcases exists_stopsAt hi with ⟨m, hmr, hm⟩
  refine ⟨m, hm, ?_⟩
  rcases Nat.lt_or_eq_of_le hmr with hlt | heq
  · -- Before `i` every place is occupied, so the search stopped at the key itself.
    rcases Option.ne_none_iff_exists'.1 (hocc m hlt) with ⟨f, hf⟩
    have hkey : key f = key e := key_of_stopsFor hm.stops hf
    rw [hdist _ _ f e hf he hkey]
    exact he
  · rw [heq, hplace]
    exact he

namespace Chained

/-- In a chained table a search finds exactly the stored entries. -/
theorem find (h : Chained s key t) {k : κ} {n : ℕ} (hstop : s.Stops key t k n) (e : ε) :
    t (s.place k n) = some e ↔ key e = k ∧ ∃ i, t i = some e := by
  constructor
  · intro he
    exact ⟨key_of_stopsFor hstop.stops he, _, he⟩
  · rintro ⟨rfl, i, he⟩
    rcases finds_of_reached h.distinct he (h.reached i e he) with ⟨m, hm, hplace⟩
    rw [hstop.unique hm]
    exact hplace

/-- Where the search for an absent key stops, the table is empty. -/
theorem none_of_absent (h : Chained s key t) {k : κ} {n : ℕ} (hstop : s.Stops key t k n)
    (habsent : ∀ i e, t i = some e → key e ≠ k) : t (s.place k n) = none := by
  cases hplace : t (s.place k n) with
  | none => rfl
  | some e => exact absurd ((h.find hstop e).1 hplace).1 (habsent _ e hplace)

end Chained

end Searches

/-! ## Updates -/

namespace Chained

variable [DecidableEq ι]

/-- A new entry at the empty place where the search for its key stopped. -/
theorem store [DecidableEq κ] (h : Chained s key t) {e : ε} {n : ℕ} (hstop : s.Stops key t (key e) n)
    (hfree : t (s.place (key e) n) = none) :
    Chained s key (Function.update t (s.place (key e) n) (some e)) := by
  -- No stored entry has the key: its search would end at its place, which is occupied.
  have habsent : ∀ i f, t i = some f → key f ≠ key e := by
    intro i f hf hkey
    rw [(h.find hstop f).2 ⟨hkey, i, hf⟩] at hfree
    cases hfree
  have hkept : ∀ i, t i ≠ none → Function.update t (s.place (key e) n) (some e) i ≠ none := by
    intro i hi
    by_cases heq : i = s.place (key e) n
    · simp [heq]
    · rwa [Function.update_of_ne heq]
  refine ⟨?_, ?_⟩
  · intro i f hf
    by_cases heq : i = s.place (key e) n
    · subst heq
      have hfe : e = f := by simpa using hf
      subst hfe
      exact ⟨n, rfl, fun m hm => hkept _ (hstop.passed hm)⟩
    · rw [Function.update_of_ne heq] at hf
      rcases h.reached i f hf with ⟨r, hr, hocc⟩
      exact ⟨r, hr, fun m hm => hkept _ (hocc m hm)⟩
  · intro i j f g hf hg hkey
    by_cases hi : i = s.place (key e) n
    · by_cases hj : j = s.place (key e) n
      · rw [hi, hj]
      · subst hi
        rw [Function.update_of_ne hj] at hg
        have hfe : e = f := by simpa using hf
        subst hfe
        exact absurd hkey.symm (habsent j g hg)
    · rw [Function.update_of_ne hi] at hf
      by_cases hj : j = s.place (key e) n
      · subst hj
        have hge : e = g := by simpa using hg
        subst hge
        exact absurd hkey (habsent i f hf)
      · rw [Function.update_of_ne hj] at hg
        exact h.distinct i j f g hf hg hkey

/-- Another entry with the same key in the same place. -/
theorem replace (h : Chained s key t) {i : ι} {e e' : ε} (he : t i = some e)
    (hkey : key e' = key e) : Chained s key (Function.update t i (some e')) := by
  have hkept : ∀ j, t j ≠ none → Function.update t i (some e') j ≠ none := by
    intro j hj
    by_cases heq : j = i
    · simp [heq]
    · rwa [Function.update_of_ne heq]
  -- Every entry of the new table stands for one of the old table with its key.
  have hold : ∀ j f, Function.update t i (some e') j = some f →
      ∃ g, t j = some g ∧ key g = key f := by
    intro j f hf
    by_cases heq : j = i
    · subst heq
      have hfe : e' = f := by simpa using hf
      subst hfe
      exact ⟨e, he, hkey.symm⟩
    · rw [Function.update_of_ne heq] at hf
      exact ⟨f, hf, rfl⟩
  refine ⟨?_, ?_⟩
  · intro j f hf
    rcases hold j f hf with ⟨g, hg, hgf⟩
    rcases h.reached j g hg with ⟨r, hr, hocc⟩
    rw [hgf] at hr hocc
    exact ⟨r, hr, fun m hm => hkept _ (hocc m hm)⟩
  · intro j l f g hf hg hfg
    rcases hold j f hf with ⟨f', hf', hkf⟩
    rcases hold l g hg with ⟨g', hg', hkg⟩
    exact h.distinct j l f' g' hf' hg' (by rw [hkf, hkg, hfg])

end Chained

/-- Emptying place `i` cuts off the entries whose walk crosses it. -/
theorem reached_erase_iff [DecidableEq ι] {k : κ} {i j : ι} (hr : s.Reached t k j) :
    s.Reached (Function.update t i none) k j ↔ ¬ s.Crosses k j i := by
  classical
  constructor
  · rintro ⟨n, hn, hocc⟩ ⟨m, hm, hbefore⟩
    -- `j` comes after `i` on the walk, but the place `i` is empty now.
    have hlt : m < n := by
      by_contra hge
      exact hbefore n (Nat.not_lt.1 hge) hn
    refine hocc m hlt ?_
    rw [hm]
    exact Function.update_self ..
  · intro hcross
    rcases hr with ⟨n, hn, hocc⟩
    have hvisit : ∃ n, s.place k n = j := ⟨n, hn⟩
    -- The first visit to `j`.
    refine ⟨Nat.find hvisit, Nat.find_spec hvisit, ?_⟩
    intro m hm
    have hne : s.place k m ≠ i := by
      intro heq
      refine hcross ⟨m, heq, ?_⟩
      intro l hl
      exact Nat.find_min hvisit (Nat.lt_of_le_of_lt hl hm)
    rw [Function.update_of_ne hne]
    exact hocc m (Nat.lt_of_lt_of_le hm (Nat.find_min' hvisit hn))

/-- Emptying a place keeps the keys distinct. -/
theorem Distinct.erase [DecidableEq ι] (h : Distinct key t) (i : ι) :
    Distinct key (Function.update t i none) := by
  intro j l f g hf hg hkey
  have hold : ∀ j f, Function.update t i none j = some f → t j = some f := by
    intro j f hf
    by_cases hj : j = i
    · subst hj
      simp at hf
    · rwa [Function.update_of_ne hj] at hf
  exact h j l f g (hold j f hf) (hold l g hg) hkey

/-- Follow the walk for `k` from `p` over at most `fuel` places: it visits `i` before it comes to
`j`. -/
def Scheme.passes [DecidableEq ι] (s : Scheme κ ι) (k : κ) (j i : ι) : ℕ → ι → Bool
  | 0, _ => false
  | fuel + 1, p => decide (p ≠ j) && (decide (p = i) || s.passes k j i fuel (s.next k p))

theorem passes_iff [DecidableEq ι] {k : κ} {i j : ι} {fuel : ℕ} {p : ι} :
    s.passes k j i fuel p = true ↔
      ∃ n < fuel, (s.next k)^[n] p = i ∧ ∀ m ≤ n, (s.next k)^[m] p ≠ j := by
  induction fuel generalizing p with
  | zero => simp [Scheme.passes]
  | succ fuel ih =>
      simp only [Scheme.passes, Bool.and_eq_true, Bool.or_eq_true, decide_eq_true_eq, ih]
      constructor
      · rintro ⟨hpj, rfl | ⟨n, hn, hat, hbefore⟩⟩
        · refine ⟨0, Nat.succ_pos fuel, rfl, fun m hm => ?_⟩
          rw [Nat.le_zero.1 hm]
          exact hpj
        · refine ⟨n + 1, Nat.succ_lt_succ hn, hat, fun m hm => ?_⟩
          cases m with
          | zero => exact hpj
          | succ m => exact hbefore m (Nat.le_of_succ_le_succ hm)
      · rintro ⟨n, hn, hat, hbefore⟩
        refine ⟨hbefore 0 (Nat.zero_le n), ?_⟩
        cases n with
        | zero => exact Or.inl hat
        | succ n =>
            exact Or.inr ⟨n, Nat.lt_of_succ_lt_succ hn, hat,
              fun m hm => hbefore (m + 1) (Nat.succ_le_succ hm)⟩

end Probing
