import ForteOpcUa.View.Histories

/-!
# Releasing — what becomes of continuation points that are released

`Service_BrowseNext` compares the identifiers the wrong way when it releases.  The points are counted
right all the same.
-/

namespace ForteOpcUa

namespace View

/-- No continuation point is lost or made. -/
theorem answers_counted {ns : NodeStore} {fuel : ℕ} {calls : List Call} {s s' : Session}
    {h : List (Call × BrowseResult)} (hrun : answers ns fuel s calls = some (h, s'))
    (hs : s.availableContinuationPoints + s.continuationPoints.length = 5) :
    s'.availableContinuationPoints + s'.continuationPoints.length = 5 := by
  induction calls generalizing h s with
  | nil =>
      cases hrun
      exact hs
  | cons call calls ih =>
      unfold answers at hrun
      cases hanswer : answer ns fuel s call with
      | none =>
          rw [hanswer] at hrun
          cases hrun
      | some r =>
          rw [hanswer] at hrun
          rcases Option.map_eq_some_iff.1 hrun with ⟨⟨h₁, s₂⟩, hrest, heq⟩
          cases heq
          refine ih hrest ?_
          cases call with
          | browse m descr maxrefs identifier =>
              simp only [answer, browse] at hanswer
              split at hanswer
              · cases hanswer
              · cases hanswer
                exact hs
              · split at hanswer
                · split at hanswer
                  · cases hanswer
                    exact hs
                  · rename_i havailable
                    cases hanswer
                    have hpos : s.availableContinuationPoints ≠ 0 := fun heq =>
                      havailable (Or.inl heq)
                    simp only [List.length_cons]
                    omega
                · cases hanswer
                  exact hs
          | next m identifier =>
              simp only [answer, browseNext] at hanswer
              split at hanswer
              · cases hanswer
                exact hs
              · rename_i cp hfind
                have hid : decide (cp.identifier = identifier) = true := by
                  simpa using List.find?_some hfind
                have hlen := length_erase (p := fun cp => decide (cp.identifier = identifier))
                  (List.mem_of_find?_eq_some hfind) hid
                split at hanswer
                · cases hanswer
                · cases hanswer
                  exact hs
                · cases hanswer
                  dsimp only
                  omega
                · rename_i page _
                  cases hanswer
                  have hsame : (advance identifier page.length s.continuationPoints).length =
                      s.continuationPoints.length := by
                    simpa using congrArg List.length (map_advance page.length)
                  dsimp only
                  rw [hsame]
                  exact hs
          | release identifier =>
              cases hanswer
              unfold release
              split
              · rename_i hany
                rcases List.any_eq_true.1 hany with ⟨cp, hcp, hne⟩
                have hlen := length_erase (p := fun cp => decide (cp.identifier ≠ identifier)) hcp hne
                dsimp only
                omega
              · exact hs

/-- The first one that is taken out is the first of its kind. -/
theorem filter_erase {α : Type} (p : α → Bool) (xs : List α) :
    (xs.eraseP p).filter p = (xs.filter p).drop 1 ∧
      (xs.eraseP p).filter (fun x => !p x) = xs.filter fun x => !p x := by
  induction xs with
  | nil => exact ⟨rfl, rfl⟩
  | cons x xs ih =>
      cases hx : p x with
      | true => simp [List.eraseP_cons_of_pos hx, hx]
      | false => simp [List.eraseP_cons_of_neg, hx, ih.1, ih.2]

/-- The continuation points that a release does not name. -/
def others (s : Session) (id : ByteString) : List ContinuationPoint :=
  s.continuationPoints.filter fun cp => cp.identifier ≠ id

/-- The continuation points that a release names. -/
def named (s : Session) (id : ByteString) : List ContinuationPoint :=
  s.continuationPoints.filter fun cp => cp.identifier = id

/-- A release takes out the first continuation point that it does not name. -/
theorem release_cases (s : Session) (id : ByteString) :
    named (release s id).2 id = named s id ∧ others (release s id).2 id = (others s id).drop 1 ∧
      (release s id).1.statusCode =
        if others s id = [] then .badContinuationPointInvalid else .good := by
  have hany : (s.continuationPoints.any fun cp => cp.identifier ≠ id) = true ↔
      others s id ≠ [] := by
    rw [others, ne_eq, List.filter_eq_nil_iff, List.any_eq_true]
    push Not
    rfl
  have hfilter := filter_erase (fun cp : ContinuationPoint => decide (cp.identifier ≠ id))
    s.continuationPoints
  have hnot : (fun cp : ContinuationPoint => !decide (cp.identifier ≠ id)) =
      fun cp => decide (cp.identifier = id) := by
    funext cp
    simp
  rw [hnot] at hfilter
  unfold release
  by_cases hother : others s id = []
  · rw [if_neg fun h => hany.1 h hother, if_pos hother]
    exact ⟨rfl, by simp [hother], rfl⟩
  · rw [if_pos (hany.2 hother), if_neg hother]
    exact ⟨hfilter.2, hfilter.1, rfl⟩

theorem answers_release (ns : NodeStore) (fuel : ℕ) (s : Session) (id : ByteString) (n : ℕ) :
    ∃ h s', answers ns fuel s (List.replicate n (.release id)) = some (h, s') ∧
      named s' id = named s id ∧ others s' id = (others s id).drop n ∧
        h.map (fun e => e.2.statusCode) = List.replicate (min n (others s id).length) .good ++
          List.replicate (n - (others s id).length) .badContinuationPointInvalid := by
  induction n generalizing s with
  | zero => exact ⟨[], s, rfl, rfl, rfl, by simp⟩
  | succ n ih =>
      rcases release_cases s id with ⟨hnamed, hothers, hstatus⟩
      rcases ih (release s id).2 with ⟨h, s', hrun, hnamed', hothers', hstatus'⟩
      refine ⟨(.release id, (release s id).1) :: h, s', ?_, hnamed'.trans hnamed, ?_, ?_⟩
      · have hfirst : answers ns fuel s (List.replicate (n + 1) (.release id)) =
            (answers ns fuel (release s id).2 (List.replicate n (.release id))).map fun r =>
              ((.release id, (release s id).1) :: r.1, r.2) := rfl
        rw [hfirst, hrun]
        rfl
      · rw [hothers', hothers, List.drop_drop, Nat.add_comm]
      · rw [List.map_cons, hstatus', hothers, hstatus, List.length_drop]
        cases hother : others s id with
        | nil => simp [List.replicate_succ]
        | cons cp cps =>
            have hmin : min (n + 1) (cps.length + 1) = min n cps.length + 1 := by omega
            have hsub : n + 1 - (cps.length + 1) = n - cps.length := by omega
            simp [hmin, hsub, List.replicate_succ]

/-- **Releasing frees the wrong points.**  However often a client releases a continuation point, that
point stays; the other points of the session go, one with each release, which is answered as good,
until no other is left and the release is answered as invalid. -/
theorem releases_exact (ns : NodeStore) (fuel : ℕ) (calls : List Call)
    {h : List (Call × BrowseResult)} {s : Session}
    (hrun : answers ns fuel Session.init calls = some (h, s)) (id : ByteString) (n : ℕ) :
    ∃ h' s', answers ns fuel s (List.replicate n (.release id)) = some (h', s') ∧
      named s' id = named s id ∧ others s' id = (others s id).drop n ∧
        h'.map (fun e => e.2.statusCode) = List.replicate (min n (others s id).length) .good ++
          List.replicate (n - (others s id).length) .badContinuationPointInvalid ∧
            s'.availableContinuationPoints + s'.continuationPoints.length = 5 := by
  rcases answers_release ns fuel s id n with ⟨h', s', hrun', hnamed, hothers, hstatus⟩
  exact ⟨h', s', hrun', hnamed, hothers, hstatus,
    answers_counted hrun' (answers_counted hrun rfl)⟩

theorem releases_exact_folder : ∃ h s, answers folder 1 Session.init pagedCalls = some (h, s) ∧
    ∃ h' s', answers folder 1 s (List.replicate 2 (.release [2])) = some (h', s') ∧
      named s' [2] = named s [2] ∧ others s' [2] = (others s [2]).drop 2 ∧
        h'.map (fun e => e.2.statusCode) = List.replicate (min 2 (others s [2]).length) .good ++
          List.replicate (2 - (others s [2]).length) .badContinuationPointInvalid ∧
            s'.availableContinuationPoints + s'.continuationPoints.length = 5 := by
  have hrun : (answers folder 1 Session.init pagedCalls).isSome = true := by
    decide +kernel
  rcases Option.isSome_iff_exists.1 hrun with ⟨⟨h, s⟩, hrun⟩
  exact ⟨h, s, hrun, releases_exact folder 1 pagedCalls hrun [2] 2⟩

end View

end ForteOpcUa
