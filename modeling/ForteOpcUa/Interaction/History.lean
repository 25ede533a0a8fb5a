import Mathlib.Data.List.Basic

/-!
# History — statements about logs that grow at the end

- `Latest Q R l`   : some entry satisfies `Q` and none after it satisfies `R`,
- `Preceded P l`   : every entry stands in the relation `P` to the log before it.

Both are kept up when one entry is appended.
-/

namespace Interaction

variable {α : Type}

/-- Some entry of the log satisfies `Q` and no later entry satisfies `R`. -/
def Latest (Q R : α → Prop) (l : List α) : Prop :=
  ∃ pre a post, l = pre ++ a :: post ∧ Q a ∧ ∀ a' ∈ post, ¬ R a'

section Latest

variable {Q R : α → Prop} {l : List α}

theorem latest_append_self {a : α} (h : Q a) : Latest Q R (l ++ [a]) :=
  ⟨l, a, [], rfl, h, by simp⟩

theorem Latest.append {as : List α} (h : Latest Q R l) (has : ∀ a ∈ as, ¬ R a) :
    Latest Q R (l ++ as) := by
  rcases h with ⟨pre, a, post, rfl, ha, hpost⟩
  refine ⟨pre, a, post ++ as, by simp, ha, ?_⟩
  intro a' ha'
  rcases List.mem_append.1 ha' with hmem | hmem
  · exact hpost a' hmem
  · exact has a' hmem

/-- Views of the entries do not change which entry is the latest. -/
theorem latest_map {β : Type} {f : β → α} {l : List β} :
    Latest Q R (l.map f) ↔ Latest (fun b => Q (f b)) (fun b => R (f b)) l := by
  constructor
  · rintro ⟨pre, a, post, hl, ha, hpost⟩
    rcases List.map_eq_append_iff.1 hl with ⟨pre', rest, rfl, rfl, hrest⟩
    rcases List.map_eq_cons_iff.1 hrest with ⟨b, post', rfl, rfl, rfl⟩
    exact ⟨pre', b, post', rfl, ha, fun b' hb' => hpost _ (List.mem_map_of_mem hb')⟩
  · rintro ⟨pre, b, post, rfl, hb, hpost⟩
    refine ⟨pre.map f, f b, post.map f, by simp, hb, ?_⟩
    intro a ha
    rcases List.mem_map.1 ha with ⟨b', hb', rfl⟩
    exact hpost b' hb'

theorem Latest.congr {Q' R' : α → Prop} (h : Latest Q R l)
    (hQ : ∀ a ∈ l, Q a → Q' a) (hR : ∀ a ∈ l, R' a → R a) : Latest Q' R' l := by
  rcases h with ⟨pre, a, post, rfl, ha, hpost⟩
  refine ⟨pre, a, post, rfl, hQ a (by simp) ha, ?_⟩
  exact fun a' ha' hR' => hpost a' ha' (hR a' (by simp [ha']) hR')

end Latest

/-- Every entry stands in the relation `P` to the log before it. -/
def Preceded (P : List α → α → Prop) (l : List α) : Prop :=
  ∀ pre a post, l = pre ++ a :: post → P pre a

section Preceded

variable {P : List α → α → Prop} {l : List α}

theorem preceded_nil : Preceded P [] := by
  intro pre a post h
  cases pre <;> cases h

theorem Preceded.append {a : α} (h : Preceded P l) (ha : P l a) : Preceded P (l ++ [a]) := by
  intro pre a' post hsplit
  -- The entry is the appended one, with all of `l` before it, or it lies in `l`.
  rcases List.append_eq_append_iff.1 hsplit with ⟨rest, hpre, hrest⟩ | ⟨rest, hl, hrest⟩
  · rcases List.cons_eq_append_iff.1 hrest with ⟨rfl, hlast⟩ | ⟨tail, rfl, hnil⟩
    · cases hlast
      rw [hpre, List.append_nil]
      exact ha
    · cases tail <;> cases hnil
  · rcases List.cons_eq_append_iff.1 hrest with ⟨rfl, hlast⟩ | ⟨tail, rfl, -⟩
    · cases hlast
      rw [List.append_nil] at hl
      rw [← hl]
      exact ha
    · exact h pre a' tail hl

end Preceded

end Interaction
