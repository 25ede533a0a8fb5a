import Mathlib.Data.List.Basic

/-!
# Framing — streams that are cut into messages

A framer looks at the beginning of a stream: a message stands there, or no message can, or more of
the stream has to be known.

- `Cuts F bs fs rest`        : the stream `bs` starts with the messages `fs`; what is left waits
  for more, or is garbage and `rest` is none,
- `Receives F p chunks fss q` : chunks that arrive one after the other are cut into the messages
  `fss`, where what waits is kept for the next chunk and garbage is thrown away.

The messages do not depend on where the chunks end (`Receives.exact`).
-/

namespace Serial

variable {α : Type}

/-- What stands at the beginning of a stream. -/
inductive Verdict
  | wait
  | garbage
  | frame (n : ℕ)
  deriving DecidableEq

/-- A framer, which keeps to its verdict on a message when more is known. -/
structure Framer (α : Type) where
  verdict : List α → Verdict
  frame_le : ∀ {bs : List α} {n : ℕ}, verdict bs = .frame n → 0 < n ∧ n ≤ bs.length
  frame_take : ∀ {bs : List α} {n : ℕ}, verdict bs = .frame n → verdict (bs.take n) = .frame n
  frame_stable : ∀ {bs : List α} {n : ℕ} (cs : List α),
    verdict bs = .frame n → verdict (bs ++ cs) = .frame n
  garbage_stable : ∀ {bs : List α} (cs : List α),
    verdict bs = .garbage → verdict (bs ++ cs) = .garbage

/-- The stream is a message and nothing else. -/
def Framer.IsFrame (F : Framer α) (bs : List α) : Prop :=
  F.verdict bs = .frame bs.length

/-- A stream and its messages. -/
inductive Cuts (F : Framer α) : List α → List (List α) → Option (List α) → Prop
  | wait {bs : List α} : F.verdict bs = .wait → Cuts F bs [] (some bs)
  | garbage {bs : List α} : F.verdict bs = .garbage → Cuts F bs [] none
  | frame {f bs : List α} {fs : List (List α)} {rest : Option (List α)} :
      F.verdict (f ++ bs) = .frame f.length → Cuts F bs fs rest → Cuts F (f ++ bs) (f :: fs) rest

namespace Cuts

variable {F : Framer α} {bs cs : List α} {fs fs' : List (List α)} {rest rest' : Option (List α)}

/-- Every stream is cut. -/
theorem total (F : Framer α) (bs : List α) : ∃ fs rest, Cuts F bs fs rest := by
  -- Induction on a bound of the length, since a message takes something of it.
  have hall : ∀ n, ∀ bs : List α, bs.length ≤ n → ∃ fs rest, Cuts F bs fs rest := by
    intro n
    induction n with
    | zero =>
        intro bs hle
        cases hv : F.verdict bs with
        | wait => exact ⟨_, _, .wait hv⟩
        | garbage => exact ⟨_, _, .garbage hv⟩
        | frame k =>
            rcases F.frame_le hv with ⟨hpos, hk⟩
            omega
    | succ n ih =>
        intro bs hle
        cases hv : F.verdict bs with
        | wait => exact ⟨_, _, .wait hv⟩
        | garbage => exact ⟨_, _, .garbage hv⟩
        | frame k =>
            rcases F.frame_le hv with ⟨hpos, hk⟩
            rcases ih (bs.drop k) (by rw [List.length_drop]; omega) with ⟨fs, rest, hcut⟩
            have hlen : (bs.take k).length = k := List.length_take_of_le hk
            have hsplit : bs.take k ++ bs.drop k = bs := List.take_append_drop k bs
            have h := Cuts.frame (f := bs.take k) (by rw [hsplit, hlen]; exact hv) hcut
            rw [hsplit] at h
            exact ⟨_, _, h⟩
  exact hall bs.length bs (Nat.le_refl _)

/-- In one way only. -/
theorem unique (h : Cuts F bs fs rest) (h' : Cuts F bs fs' rest') : fs = fs' ∧ rest = rest' := by
  induction h generalizing fs' rest' with
  | wait hv =>
      cases h' with
      | wait => exact ⟨rfl, rfl⟩
      | garbage hv' => rw [hv] at hv'; cases hv'
      | frame hv' => rw [hv] at hv'; cases hv'
  | garbage hv =>
      cases h' with
      | wait hv' => rw [hv] at hv'; cases hv'
      | garbage => exact ⟨rfl, rfl⟩
      | frame hv' => rw [hv] at hv'; cases hv'
  | @frame f bs fs rest hv hcut ih =>
      generalize hwhole : f ++ bs = whole at h' hv
      cases h' with
      | wait hv' => rw [hv] at hv'; cases hv'
      | garbage hv' => rw [hv] at hv'; cases hv'
      | @frame f' bs' fs' _ hv' hcut' =>
          rw [hv] at hv'
          rcases List.append_inj hwhole (Verdict.frame.inj hv') with ⟨hf, hbs⟩
          subst hf hbs
          rcases ih hcut' with ⟨rfl, rfl⟩
          exact ⟨rfl, rfl⟩

/-- What is left waits. -/
theorem verdict_rest {r : List α} (h : Cuts F bs fs (some r)) : F.verdict r = .wait := by
  generalize hrest : some r = rest at h
  induction h with
  | wait hv => cases hrest; exact hv
  | garbage => cases hrest
  | frame _ _ ih => exact ih hrest

/-- Nothing of the stream is lost, but garbage. -/
theorem flatten {r : List α} (h : Cuts F bs fs (some r)) : fs.flatten ++ r = bs := by
  generalize hrest : some r = rest at h
  induction h with
  | wait => cases hrest; rfl
  | garbage => cases hrest
  | frame _ _ ih => rw [List.flatten_cons, List.append_assoc, ih hrest]

/-- What is cut out are messages. -/
theorem isFrame (h : Cuts F bs fs rest) : ∀ f ∈ fs, F.IsFrame f := by
  induction h with
  | wait => simp
  | garbage => simp
  | @frame f bs fs rest hv _ ih =>
      intro f' hf'
      rcases List.mem_cons.1 hf' with rfl | hmem
      · have hown := F.frame_take hv
        rwa [List.take_left] at hown
      · exact ih f' hmem

/-- The messages stand at the beginning. -/
theorem prefix_flatten (h : Cuts F bs fs rest) : ∃ r, fs.flatten ++ r = bs := by
  induction h with
  | @wait bs => exact ⟨bs, rfl⟩
  | @garbage bs => exact ⟨bs, rfl⟩
  | frame _ _ ih =>
      rcases ih with ⟨r, hr⟩
      exact ⟨r, by rw [List.flatten_cons, List.append_assoc, hr]⟩

/-- When more is known, the messages stay and what waited goes on. -/
theorem append {r : List α} (h : Cuts F bs fs (some r)) (h' : Cuts F (r ++ cs) fs' rest') :
    Cuts F (bs ++ cs) (fs ++ fs') rest' := by
  generalize hrest : some r = rest at h
  induction h with
  | wait => cases hrest; exact h'
  | garbage => cases hrest
  | frame hv _ ih =>
      rw [List.append_assoc, List.cons_append]
      refine .frame ?_ (ih hrest)
      rw [← List.append_assoc]
      exact F.frame_stable cs hv

/-- Behind garbage nothing is found. -/
theorem append_garbage (h : Cuts F bs fs none) (cs : List α) : Cuts F (bs ++ cs) fs none := by
  generalize hrest : (none : Option (List α)) = rest at h
  induction h with
  | wait => cases hrest
  | garbage hv => exact .garbage (F.garbage_stable cs hv)
  | frame hv _ ih =>
      rw [List.append_assoc]
      refine .frame ?_ (ih hrest)
      rw [← List.append_assoc]
      exact F.frame_stable cs hv

/-- A row of messages is cut into them. -/
theorem of_frames {ms : List (List α)} {r : List α} (hms : ∀ m ∈ ms, F.IsFrame m)
    (hr : F.verdict r = .wait) : Cuts F (ms.flatten ++ r) ms (some r) := by
  induction ms with
  | nil => exact .wait hr
  | cons m ms ih =>
      rw [List.flatten_cons, List.append_assoc]
      refine .frame (F.frame_stable _ (hms m List.mem_cons_self)) ?_
      exact ih fun m' hm' => hms m' (List.mem_cons_of_mem m hm')

end Cuts

/-- Chunks that arrive one after the other. -/
inductive Receives (F : Framer α) :
    List α → List (List α) → List (List (List α)) → List α → Prop
  | nil {p : List α} : Receives F p [] [] p
  | cons {p c q : List α} {cs : List (List α)} {fs : List (List α)} {rest : Option (List α)}
      {fss : List (List (List α))} :
      Cuts F (p ++ c) fs rest → Receives F (rest.getD []) cs fss q →
        Receives F p (c :: cs) (fs :: fss) q

namespace Receives

variable {F : Framer α} {p q : List α} {cs : List (List α)} {fss : List (List (List α))}
  {fs : List (List α)}

/-- **Independence of chunks.**  Wherever the chunks of a stream without garbage end, they are cut
into the messages of the stream, and what waits in the end is what waits in the stream. -/
theorem exact {r : List α} (h : Receives F p cs fss q) (hp : F.verdict p = .wait)
    (hcut : Cuts F (p ++ cs.flatten) fs (some r)) : fss.flatten = fs ∧ q = r := by
  induction h generalizing fs with
  | nil =>
      rw [List.flatten_nil, List.append_nil] at hcut
      rcases hcut.unique (.wait hp) with ⟨rfl, hr⟩
      exact ⟨rfl, (Option.some.inj hr).symm⟩
  | @cons p c q cs gs rest fss hfirst _ ih =>
      rw [List.flatten_cons, ← List.append_assoc] at hcut
      cases rest with
      | none =>
          -- Garbage in the chunk would be garbage in the stream.
          have h := (hcut.unique (hfirst.append_garbage cs.flatten)).2
          cases h
      | some s =>
          rcases Cuts.total F (s ++ cs.flatten) with ⟨gs', rest', hsecond⟩
          rcases hcut.unique (hfirst.append hsecond) with ⟨rfl, hrest⟩
          subst hrest
          rcases ih hfirst.verdict_rest hsecond with ⟨hfss, hq⟩
          rw [List.flatten_cons, hfss]
          exact ⟨rfl, hq⟩

end Receives

end Serial
