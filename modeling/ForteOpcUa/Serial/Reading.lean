import Mathlib.Data.List.Basic

/-!
# Reading — decoders that walk through a buffer

A reader starts at an offset of a buffer.  It yields a value and the offset behind it, or refuses
with a status, or reads where there is no buffer.

- `Reader.andThen`  : the second reader runs only when the first one yielded,
- `Reader.also`     : the second one runs anyway, and the statuses are or'ed,
- `Reads r bs x`    : wherever the bytes `bs` stand in a buffer, `r` reads `x` from them,
- `Contained room r` : whatever the buffer holds, `r` stays inside.

Buffers are shorter than a limit, below which the offsets do not wrap.
-/

namespace Serial

variable {σ α β γ : Type}

/-- The result of reading. -/
inductive Outcome (σ α : Type)
  | fault
  | bad (status : σ) (offset : ℕ)
  | good (value : α) (offset : ℕ)
  deriving DecidableEq

/-- What is done with a buffer from an offset on. -/
abbrev Reader (σ α : Type) : Type :=
  List UInt8 → ℕ → Outcome σ α

/-- The `k` bytes at an offset, if the buffer has them. -/
def slice (src : List UInt8) (offset k : ℕ) : Option (List UInt8) :=
  if offset + k ≤ src.length then some ((src.drop offset).take k) else none

theorem slice_eq_some {src : List UInt8} {offset k : ℕ} (h : offset + k ≤ src.length) :
    slice src offset k = some ((src.drop offset).take k) :=
  if_pos h

theorem slice_append (pre bs post : List UInt8) :
    slice (pre ++ (bs ++ post)) pre.length bs.length = some bs := by
  simp [slice]

theorem length_slice {src bs : List UInt8} {offset k : ℕ} (h : slice src offset k = some bs) :
    bs.length = k ∧ offset + k ≤ src.length := by
  unfold slice at h
  by_cases hle : offset + k ≤ src.length
  · rw [if_pos hle] at h
    cases h
    simp
    omega
  · rw [if_neg hle] at h
    cases h

namespace Reader

/-- The value without reading anything. -/
def yield (x : α) : Reader σ α :=
  fun _ offset => .good x offset

/-- A refusal without reading anything. -/
def refuse (status : σ) : Reader σ α :=
  fun _ offset => .bad status offset

/-- Use the value that is read. -/
def map (f : α → β) (r : Reader σ α) : Reader σ β := fun src offset =>
  match r src offset with
  | .fault => .fault
  | .bad status offset' => .bad status offset'
  | .good x offset' => .good (f x) offset'

/-- Refuse with this status, whatever the refusal. -/
def orRefuse (r : Reader σ α) (status : σ) : Reader σ α := fun src offset =>
  match r src offset with
  | .fault => .fault
  | .bad _ offset' => .bad status offset'
  | .good x offset' => .good x offset'

/-- Go on with the value that is read; after a refusal, stop. -/
def andThen (r : Reader σ α) (f : α → Reader σ β) : Reader σ β := fun src offset =>
  match r src offset with
  | .fault => .fault
  | .bad status offset' => .bad status offset'
  | .good x offset' => f x src offset'

/-- Read both, the second one also after a refusal of the first. -/
def also [OrOp σ] (r : Reader σ α) (r' : Reader σ β) : Reader σ (α × β) := fun src offset =>
  match r src offset with
  | .fault => .fault
  | .bad status offset' =>
      match r' src offset' with
      | .fault => .fault
      | .bad status' offset'' => .bad (status ||| status') offset''
      | .good _ offset'' => .bad status offset''
  | .good x offset' =>
      match r' src offset' with
      | .fault => .fault
      | .bad status' offset'' => .bad status' offset''
      | .good y offset'' => .good (x, y) offset''

/-- Read only if the flag is set. -/
def when (flag : Bool) (r : Reader σ α) : Reader σ (Option α) :=
  if flag then r.map some else yield none

section Steps

variable {r : Reader σ α} {src : List UInt8} {offset offset' : ℕ} {x : α} {status : σ}

theorem andThen_good {f : α → Reader σ β} (h : r src offset = .good x offset') :
    r.andThen f src offset = f x src offset' := by
  rw [andThen, h]

theorem andThen_bad {f : α → Reader σ β} (h : r src offset = .bad status offset') :
    r.andThen f src offset = .bad status offset' := by
  rw [andThen, h]

theorem map_good {f : α → β} (h : r src offset = .good x offset') :
    r.map f src offset = .good (f x) offset' := by
  rw [map, h]

theorem map_bad {f : α → β} (h : r src offset = .bad status offset') :
    r.map f src offset = .bad status offset' := by
  rw [map, h]

theorem orRefuse_good {status' : σ} (h : r src offset = .good x offset') :
    r.orRefuse status' src offset = .good x offset' := by
  rw [orRefuse, h]

theorem orRefuse_bad {status' : σ} (h : r src offset = .bad status offset') :
    r.orRefuse status' src offset = .bad status' offset' := by
  rw [orRefuse, h]

end Steps

end Reader

/-! ## Reading what is there -/

/-- Wherever the bytes stand in a buffer, the value is read from them. -/
def Reads (limit : ℕ) (r : Reader σ α) (bs : List UInt8) (x : α) : Prop :=
  ∀ pre post, (pre ++ (bs ++ post)).length < limit →
    r (pre ++ (bs ++ post)) pre.length = .good x (pre.length + bs.length)

namespace Reads

variable {limit : ℕ} {r : Reader σ α} {r' : Reader σ β} {bs cs : List UInt8} {x : α} {y : β}

theorem yield (x : α) : Reads limit (Reader.yield x : Reader σ α) [] x := by
  intro pre post _
  rfl

theorem map (f : α → β) (h : Reads limit r bs x) : Reads limit (r.map f) bs (f x) := by
  intro pre post hlim
  simp only [Reader.map, h pre post hlim]

theorem orRefuse (h : Reads limit r bs x) (status : σ) : Reads limit (r.orRefuse status) bs x := by
  intro pre post hlim
  simp only [Reader.orRefuse, h pre post hlim]

theorem andThen {f : α → Reader σ β} (h : Reads limit r bs x) (h' : Reads limit (f x) cs y) :
    Reads limit (r.andThen f) (bs ++ cs) y := by
  intro pre post hlim
  rw [List.append_assoc bs] at hlim ⊢
  -- The second reader starts behind the bytes of the first one.
  have hshift : pre ++ (bs ++ (cs ++ post)) = (pre ++ bs) ++ (cs ++ post) := by simp
  have hsecond := h' (pre ++ bs) post (by rwa [← hshift])
  rw [← hshift] at hsecond
  simp only [Reader.andThen, h pre (cs ++ post) hlim]
  rw [List.length_append] at hsecond
  rw [hsecond, List.length_append, Nat.add_assoc]

theorem also [OrOp σ] (h : Reads limit r bs x) (h' : Reads limit r' cs y) :
    Reads limit (r.also r') (bs ++ cs) (x, y) := by
  intro pre post hlim
  have hboth := andThen (f := fun x => r'.map fun y => (x, y)) h (h'.map fun y => (x, y)) pre post
    hlim
  rw [List.append_assoc bs] at hlim hboth ⊢
  simp only [Reader.andThen, h pre (cs ++ post) hlim, Reader.map] at hboth
  simp only [Reader.also, h pre (cs ++ post) hlim]
  cases hr : r' (pre ++ (bs ++ (cs ++ post))) (pre.length + bs.length) with
  | fault => simp [hr] at hboth
  | bad status offset => simp [hr] at hboth
  | good z offset =>
      simp only [hr] at hboth ⊢
      exact hboth

theorem when (flag : Bool) (h : Reads limit r bs x) :
    Reads limit (Reader.when flag r) (if flag then bs else []) (if flag then some x else none) := by
  cases flag with
  | true => exact h.map some
  | false => exact yield none

theorem skipped {flag : Bool} (hflag : flag = false) (r : Reader σ α) :
    Reads limit (Reader.when flag r) [] none := by
  subst hflag
  exact yield none

theorem taken {flag : Bool} (hflag : flag = true) (h : Reads limit r bs x) :
    Reads limit (Reader.when flag r) bs (some x) := by
  subst hflag
  exact h.map some

end Reads

/-! ## Reading anything -/

/-- The result lies inside a buffer of length `n`, not before the offset. -/
inductive Outcome.Within (offset n : ℕ) : Outcome σ α → Prop
  | bad {status : σ} {offset' : ℕ} (hle : offset ≤ offset') (hin : offset' ≤ n) :
      Within offset n (.bad status offset')
  | good {x : α} {offset' : ℕ} (hle : offset ≤ offset') (hin : offset' ≤ n) :
      Within offset n (.good x offset')

theorem Outcome.Within.mono {o : Outcome σ α} {offset offset' n : ℕ} (h : o.Within offset' n)
    (hle : offset ≤ offset') : o.Within offset n := by
  cases h with
  | bad hle' hin => exact .bad (Nat.le_trans hle hle') hin
  | good hle' hin => exact .good (Nat.le_trans hle hle') hin

theorem Outcome.Within.andThen {r : Reader σ α} {f : α → Reader σ β} {src : List UInt8}
    {start offset n : ℕ} (h : (r src start).Within offset n)
    (h' : ∀ x offset', r src start = .good x offset' → offset ≤ offset' → offset' ≤ n →
      (f x src offset').Within offset n) : (r.andThen f src start).Within offset n := by
  unfold Reader.andThen
  cases hr : r src start with
  | fault =>
      rw [hr] at h
      cases h
  | bad status offset' =>
      rw [hr] at h
      cases h with
      | bad hmono hin => exact .bad hmono hin
  | good x offset' =>
      rw [hr] at h
      cases h with
      | good hmono hin => exact h' x offset' hr hmono hin

/-- Whatever the buffer holds, the reader stays inside, when less than `room` bytes are left. -/
def Contained (limit room : ℕ) (r : Reader σ α) : Prop :=
  ∀ src offset, src.length < limit → offset ≤ src.length → src.length - offset < room →
    (r src offset).Within offset src.length

/-- A value is only read from some byte. -/
def Advances (r : Reader σ α) : Prop :=
  ∀ src offset x offset', r src offset = .good x offset' → offset < offset'

theorem Advances.map {r : Reader σ α} (f : α → β) (h : Advances r) : Advances (r.map f) := by
  intro src offset x offset' hread
  unfold Reader.map at hread
  cases hr : r src offset with
  | fault => simp [hr] at hread
  | bad status offset'' => simp [hr] at hread
  | good y offset'' =>
      have hlt := h src offset y offset'' hr
      simp only [hr, Outcome.good.injEq] at hread
      omega

namespace Contained

variable {limit room : ℕ} {r : Reader σ α} {r' : Reader σ β}

theorem yield (x : α) : Contained limit room (Reader.yield x : Reader σ α) := by
  intro src offset _ hle _
  exact .good (Nat.le_refl _) hle

theorem refuse (status : σ) : Contained limit room (Reader.refuse status : Reader σ α) := by
  intro src offset _ hle _
  exact .bad (Nat.le_refl _) hle

theorem andThen {f : α → Reader σ β} (h : Contained limit room r)
    (h' : ∀ x, Contained limit room (f x)) : Contained limit room (r.andThen f) := by
  intro src offset hlim hle hroom
  refine (h src offset hlim hle hroom).andThen ?_
  intro x offset' _ hmono hin
  have hroom' : src.length - offset' < room :=
    Nat.lt_of_le_of_lt (Nat.sub_le_sub_left hmono _) hroom
  exact (h' x src offset' hlim hin hroom').mono hmono

/-- Behind a reader that advances, less room is enough. -/
theorem andThen_deeper {f : α → Reader σ β} (h : Contained limit (room + 1) r) (hr : Advances r)
    (h' : ∀ x, Contained limit room (f x)) : Contained limit (room + 1) (r.andThen f) := by
  intro src offset hlim hle hroom
  refine (h src offset hlim hle hroom).andThen ?_
  intro x offset' hread hmono hin
  have hlt := hr src offset x offset' hread
  exact (h' x src offset' hlim hin (by omega)).mono hmono

theorem map (f : α → β) (h : Contained limit room r) : Contained limit room (r.map f) := by
  intro src offset hlim hle hroom
  have hfirst := h src offset hlim hle hroom
  unfold Reader.map
  generalize r src offset = o at hfirst
  cases hfirst with
  | bad hmono hin => exact .bad hmono hin
  | good hmono hin => exact .good hmono hin

theorem orRefuse (h : Contained limit room r) (status : σ) :
    Contained limit room (r.orRefuse status) := by
  intro src offset hlim hle hroom
  have hfirst := h src offset hlim hle hroom
  unfold Reader.orRefuse
  generalize r src offset = o at hfirst
  cases hfirst with
  | bad hmono hin => exact .bad hmono hin
  | good hmono hin => exact .good hmono hin

theorem also [OrOp σ] (h : Contained limit room r) (h' : Contained limit room r') :
    Contained limit room (r.also r') := by
  intro src offset hlim hle hroom
  have hfirst := h src offset hlim hle hroom
  -- The second reader starts where the first one stopped, whatever that one said.
  have hsecond : ∀ offset', offset ≤ offset' → offset' ≤ src.length →
      (r' src offset').Within offset src.length := by
    intro offset' hmono hin
    have hroom' : src.length - offset' < room :=
      Nat.lt_of_le_of_lt (Nat.sub_le_sub_left hmono _) hroom
    exact (h' src offset' hlim hin hroom').mono hmono
  unfold Reader.also
  generalize r src offset = o at hfirst
  cases hfirst with
  | @bad status offset' hmono hin =>
      have hrest := hsecond offset' hmono hin
      dsimp only
      generalize r' src offset' = o' at hrest
      cases hrest with
      | bad hmono' hin' => exact .bad hmono' hin'
      | good hmono' hin' => exact .bad hmono' hin'
  | @good x offset' hmono hin =>
      have hrest := hsecond offset' hmono hin
      dsimp only
      generalize r' src offset' = o' at hrest
      cases hrest with
      | bad hmono' hin' => exact .bad hmono' hin'
      | good hmono' hin' => exact .good hmono' hin'

theorem when (flag : Bool) (h : Contained limit room r) :
    Contained limit room (Reader.when flag r) := by
  cases flag with
  | true => exact h.map some
  | false => exact yield none

end Contained

end Serial
