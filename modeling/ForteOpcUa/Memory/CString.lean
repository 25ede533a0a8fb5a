import Mathlib.Data.List.TakeWhile

/-!
# CString — terminated texts

A text in memory ends before its first terminator.  `upTo stop s` is the text that the stored
sequence `s` shows to a reader who stops there.

- `upTo_eq_iff`        : the sequences that show a given text are the text itself, and the text
  followed by a terminator and anything,
- `length_upTo_lt_iff` : a text is short when its sequence ends or is terminated early.
-/

namespace Memory

variable {α : Type} [DecidableEq α] {stop : α} {s w rest : List α}

/-- The elements before the first `stop`. -/
def upTo (stop : α) (s : List α) : List α :=
  s.takeWhile (· ≠ stop)

/-- Without a terminator the whole sequence is the text. -/
theorem upTo_of_notMem (h : stop ∉ s) : upTo stop s = s := by
  refine List.takeWhile_eq_self_iff.2 fun a ha => ?_
  simpa using ne_of_mem_of_not_mem ha h

/-- What follows a terminator is not read. -/
theorem upTo_append_stop (h : stop ∉ w) : upTo stop (w ++ stop :: rest) = w := by
  have hall : ∀ a ∈ w, decide (a ≠ stop) = true := by
    intro a ha
    simpa using ne_of_mem_of_not_mem ha h
  calc
    upTo stop (w ++ stop :: rest)
        = w ++ (stop :: rest).takeWhile (· ≠ stop) := List.takeWhile_append_of_pos hall
    _ = w ++ [] := by simp
    _ = w := List.append_nil w

/-- A sequence is its text, or its text before a terminator and the rest. -/
theorem eq_upTo_or (stop : α) (s : List α) :
    s = upTo stop s ∨ ∃ rest, s = upTo stop s ++ stop :: rest := by
  -- Induction on the sequence: it stops at its head, or its tail decides.
  induction s with
  | nil =>
      exact Or.inl rfl
  | cons a s ih =>
      by_cases ha : a = stop
      · subst ha
        exact Or.inr ⟨s, by simp [upTo]⟩
      · have hcons : upTo stop (a :: s) = a :: upTo stop s := by simp [upTo, ha]
        rw [hcons]
        rcases ih with h | ⟨rest, h⟩
        · exact Or.inl (congrArg (a :: ·) h)
        · exact Or.inr ⟨rest, congrArg (a :: ·) h⟩

/-- The sequences that show the text `w`. -/
theorem upTo_eq_iff (h : stop ∉ w) :
    upTo stop s = w ↔ s = w ∨ ∃ rest, s = w ++ stop :: rest := by
  constructor
  · rintro rfl
    exact eq_upTo_or stop s
  · rintro (rfl | ⟨rest, rfl⟩)
    · exact upTo_of_notMem h
    · exact upTo_append_stop h

/-- The text is shorter than `n` when the sequence is, or when a terminator is among its first `n`
elements. -/
theorem length_upTo_lt_iff (stop : α) (s : List α) (n : ℕ) :
    (upTo stop s).length < n ↔ s.length < n ∨ stop ∈ s.take n := by
  induction s generalizing n with
  | nil =>
      simp [upTo]
  | cons a s ih =>
      cases n with
      | zero =>
          simp
      | succ n =>
          -- A terminator at the head makes both sides true.
          by_cases ha : a = stop
          · simp [upTo, ha]
          · have hcons : upTo stop (a :: s) = a :: upTo stop s := by simp [upTo, ha]
            rw [hcons, List.take_succ_cons, List.mem_cons, or_iff_right (Ne.symm ha)]
            simpa using ih n

end Memory
