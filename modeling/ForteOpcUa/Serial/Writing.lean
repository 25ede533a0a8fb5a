import Mathlib.Algebra.Order.Group.Nat
import Mathlib.Data.List.Basic

/-!
# Writing — encoders that fill a buffer

A writer starts at an offset of a buffer of fixed length.  It fills some bytes and yields the
offset behind them, or refuses with a status, or writes where there is no buffer.

- `Writer.andThen`  : the second writer runs only when the first one succeeded,
- `Writer.also`     : the second one runs anyway, and the statuses are or'ed,
- `Writes w bs`     : where there is room, `w` writes just the bytes `bs`,
- `Refuses w bs`    : where there is none, it refuses, and what stands before the offset stays,
- `Writer.framed`   : a body behind its length, which is written last.

Lengths stay below a limit, below which the offsets do not wrap.
-/

namespace Serial

variable {σ : Type}

/-- The result of writing. -/
inductive Written (σ : Type)
  | fault
  | bad (status : σ) (buffer : List UInt8) (offset : ℕ)
  | good (buffer : List UInt8) (offset : ℕ)
  deriving DecidableEq

/-- What is done to a buffer from an offset on. -/
abbrev Writer (σ : Type) : Type :=
  List UInt8 → ℕ → Written σ

/-- Bytes stored at an offset, if the buffer has room for them. -/
def store (buf : List UInt8) (offset : ℕ) (bs : List UInt8) : Option (List UInt8) :=
  if offset + bs.length ≤ buf.length then
    some (buf.take offset ++ (bs ++ buf.drop (offset + bs.length)))
  else
    none

theorem store_append (pre mid post bs : List UInt8) (hlen : mid.length = bs.length) :
    store (pre ++ (mid ++ post)) pre.length bs = some (pre ++ (bs ++ post)) := by
  have hle : pre.length + bs.length ≤ (pre ++ (mid ++ post)).length := by
    simp only [List.length_append]
    omega
  have hdrop : (pre ++ (mid ++ post)).drop (pre.length + bs.length) = post := by
    rw [List.drop_length_add_append, ← hlen, List.drop_left]
  rw [store, if_pos hle, hdrop, List.take_left]

namespace Writer

/-- Nothing is written. -/
def nothing : Writer σ :=
  fun buf offset => .good buf offset

/-- Write both, the second only if the first succeeded. -/
def andThen (w w' : Writer σ) : Writer σ := fun buf offset =>
  match w buf offset with
  | .fault => .fault
  | .bad status buf' offset' => .bad status buf' offset'
  | .good buf' offset' => w' buf' offset'

/-- Write both, the second also after a refusal of the first. -/
def also [OrOp σ] (w w' : Writer σ) : Writer σ := fun buf offset =>
  match w buf offset with
  | .fault => .fault
  | .bad status buf' offset' =>
      match w' buf' offset' with
      | .fault => .fault
      | .bad status' buf'' offset'' => .bad (status ||| status') buf'' offset''
      | .good buf'' offset'' => .bad status buf'' offset''
  | .good buf' offset' => w' buf' offset'

/-- Write only if the flag is set. -/
def when (flag : Bool) (w : Writer σ) : Writer σ :=
  if flag then w else nothing

end Writer

/-! ## Room enough -/

/-- Where there is room, just these bytes are written. -/
def Writes (limit : ℕ) (w : Writer σ) (bs : List UInt8) : Prop :=
  ∀ pre mid post, mid.length = bs.length →
    (pre ++ (mid ++ post)).length + bs.length < limit →
      w (pre ++ (mid ++ post)) pre.length = .good (pre ++ (bs ++ post)) (pre.length + bs.length)

namespace Writes

variable {limit : ℕ} {w w' : Writer σ} {bs cs : List UInt8}

theorem nothing : Writes limit (Writer.nothing : Writer σ) [] := by
  intro pre mid post hlen _
  have hnil : mid = [] := List.length_eq_zero_iff.1 hlen
  rw [hnil]
  rfl

/-- Both parts find their room. -/
theorem parts (h : Writes limit w bs) (h' : Writes limit w' cs) {pre mid post : List UInt8}
    (hlen : mid.length = (bs ++ cs).length)
    (hlim : (pre ++ (mid ++ post)).length + (bs ++ cs).length < limit) :
    ∃ buf, w (pre ++ (mid ++ post)) pre.length = .good buf (pre.length + bs.length) ∧
      w' buf (pre.length + bs.length) =
        .good (pre ++ ((bs ++ cs) ++ post)) (pre.length + (bs ++ cs).length) := by
  rw [List.length_append] at hlen hlim
  -- The room is split where the first bytes end.
  have hsplit : mid = mid.take bs.length ++ mid.drop bs.length :=
    (List.take_append_drop _ _).symm
  have hfirst : (mid.take bs.length).length = bs.length := by
    rw [List.length_take]
    omega
  have hsecond : (mid.drop bs.length).length = cs.length := by
    rw [List.length_drop]
    omega
  generalize mid.take bs.length = m at hsplit hfirst
  generalize mid.drop bs.length = m' at hsplit hsecond
  subst hsplit
  rw [List.append_assoc m]
  simp only [List.length_append] at hlim
  have hw := h pre m (m' ++ post) hfirst (by simp only [List.length_append]; omega)
  have hw' := h' (pre ++ bs) m' post hsecond (by simp only [List.length_append]; omega)
  refine ⟨_, hw, ?_⟩
  simp only [List.append_assoc, List.length_append] at hw' ⊢
  rw [hw', Nat.add_assoc]

theorem andThen (h : Writes limit w bs) (h' : Writes limit w' cs) :
    Writes limit (w.andThen w') (bs ++ cs) := by
  intro pre mid post hlen hlim
  rcases h.parts h' hlen hlim with ⟨buf, hw, hw'⟩
  simp only [Writer.andThen, hw, hw']

theorem also [OrOp σ] (h : Writes limit w bs) (h' : Writes limit w' cs) :
    Writes limit (w.also w') (bs ++ cs) := by
  intro pre mid post hlen hlim
  rcases h.parts h' hlen hlim with ⟨buf, hw, hw'⟩
  simp only [Writer.also, hw, hw']

/-- The same by offset and length: other bytes stay. -/
theorem of_le (h : Writes limit w bs) {buf : List UInt8} {offset : ℕ}
    (hroom : offset + bs.length ≤ buf.length) (hlim : buf.length + bs.length < limit) :
    ∃ buf', w buf offset = .good buf' (offset + bs.length) ∧ buf'.length = buf.length ∧
      buf'.take offset = buf.take offset := by
  have hoff : (buf.take offset).length = offset := by
    rw [List.length_take]
    omega
  have hmid : ((buf.drop offset).take bs.length).length = bs.length := by
    rw [List.length_take, List.length_drop]
    omega
  have hbuf : buf = buf.take offset ++
      ((buf.drop offset).take bs.length ++ (buf.drop offset).drop bs.length) := by
    rw [List.take_append_drop, List.take_append_drop]
  have hw := h (buf.take offset) _ ((buf.drop offset).drop bs.length) hmid (by rwa [← hbuf])
  rw [← hbuf, hoff] at hw
  refine ⟨_, hw, ?_, ?_⟩
  · rw [List.length_append, List.length_append, hoff, List.length_drop, List.length_drop]
    omega
  · rw [List.take_append_of_le_length (by omega), List.take_of_length_le (by omega)]

end Writes

/-! ## No room -/

/-- Where there is no room, the writer refuses and stays behind the offset. -/
def Refuses (limit : ℕ) (w : Writer σ) (bs : List UInt8) : Prop :=
  ∀ buf offset, buf.length < offset + bs.length → max offset buf.length + bs.length < limit →
    ∃ status buf' offset', w buf offset = .bad status buf' offset' ∧ buf'.length = buf.length ∧
      buf'.take offset = buf.take offset ∧ offset ≤ offset' ∧
        offset' ≤ max offset buf.length + bs.length

/-- A writer that is right with room and, under the condition `p`, without.  One that writes nothing
does so anywhere. -/
structure Encodes (limit : ℕ) (p : Prop) (w : Writer σ) (bs : List UInt8) : Prop where
  writes : Writes limit w bs
  refuses : p → bs ≠ [] → Refuses limit w bs
  idle : p → bs = [] → ∀ buf offset, w buf offset = .good buf offset

/-- Bytes that stay up to an offset stay up to a smaller one. -/
theorem take_eq_of_le {l l' : List UInt8} {m n : ℕ} (hle : m ≤ n) (h : l.take n = l'.take n) :
    l.take m = l'.take m := by
  have hmin : min m n = m := Nat.min_eq_left hle
  rw [← hmin, ← List.take_take, ← List.take_take, h]

namespace Encodes

variable {limit : ℕ} {p q : Prop} {w w' : Writer σ} {bs cs : List UInt8}

theorem mono (h : Encodes limit p w bs) (hqp : q → p) : Encodes limit q w bs where
  writes := h.writes
  refuses := fun hq => h.refuses (hqp hq)
  idle := fun hq => h.idle (hqp hq)

/-- It succeeds where there is room or nothing to write, else it refuses. -/
theorem cases (h : Encodes limit p w bs) (hp : p) {buf : List UInt8} {offset : ℕ}
    (hlim : max offset buf.length + bs.length < limit) :
    (∃ buf', w buf offset = .good buf' (offset + bs.length) ∧ buf'.length = buf.length ∧
        buf'.take offset = buf.take offset ∧ (bs = [] ∨ offset + bs.length ≤ buf.length)) ∨
      ∃ status buf' offset', w buf offset = .bad status buf' offset' ∧
        buf'.length = buf.length ∧ buf'.take offset = buf.take offset ∧ offset ≤ offset' ∧
          offset' ≤ max offset buf.length + bs.length := by
  by_cases hnil : bs = []
  · left
    refine ⟨buf, ?_, rfl, rfl, Or.inl hnil⟩
    rw [h.idle hp hnil, hnil]
    rfl
  · by_cases hroom : offset + bs.length ≤ buf.length
    · rcases h.writes.of_le hroom (by omega) with ⟨buf', hw, hlen, htake⟩
      exact Or.inl ⟨buf', hw, hlen, htake, Or.inr hroom⟩
    · exact Or.inr (h.refuses hp hnil buf offset (Nat.not_le.1 hroom) hlim)

theorem nothing : Encodes limit p (Writer.nothing : Writer σ) [] where
  writes := Writes.nothing
  refuses := fun _ hne => absurd rfl hne
  idle := fun _ _ _ _ => rfl

theorem when (flag : Bool) (h : Encodes limit p w bs) :
    Encodes limit p (Writer.when flag w) (if flag then bs else []) := by
  cases flag with
  | true => exact h
  | false => exact nothing

/-- The first part is written, so it is the second one that has no room. -/
theorem refuses_second (h' : Encodes limit p w' cs) (hp : p) {buf buf' : List UInt8} {offset : ℕ}
    (hne : bs ++ cs ≠ []) (hno : buf.length < offset + (bs.length + cs.length))
    (hlim : max offset buf.length + (bs.length + cs.length) < limit)
    (hlen : buf'.length = buf.length) (htake : buf'.take offset = buf.take offset)
    (hroom : bs = [] ∨ offset + bs.length ≤ buf.length) :
    ∃ status buf'' offset', w' buf' (offset + bs.length) = .bad status buf'' offset' ∧
      buf''.length = buf.length ∧ buf''.take offset = buf.take offset ∧ offset ≤ offset' ∧
        offset' ≤ max offset buf.length + (bs.length + cs.length) := by
  have hcs : cs ≠ [] := by
    rintro rfl
    rw [List.append_nil] at hne
    rcases hroom with hnil | hle
    · exact hne hnil
    · rw [List.length_nil] at hno
      omega
  have hbound : offset + bs.length ≤ max offset buf.length := by
    rcases hroom with rfl | hle
    · exact Nat.le_max_left _ _
    · exact Nat.le_trans hle (Nat.le_max_right _ _)
  rcases h'.refuses hp hcs buf' (offset + bs.length) (by omega) (by omega) with
    ⟨status, buf'', offset', hw', hlen', htake', hle, hend⟩
  refine ⟨status, buf'', offset', hw', by omega, ?_, by omega, by omega⟩
  rw [take_eq_of_le (Nat.le_add_right _ _) htake', htake]

theorem andThen (h : Encodes limit p w bs) (h' : Encodes limit p w' cs) :
    Encodes limit p (w.andThen w') (bs ++ cs) where
  writes := h.writes.andThen h'.writes
  refuses := by
    intro hp hne buf offset hno hlim
    rw [List.length_append] at hno hlim ⊢
    rcases h.cases hp (by omega : max offset buf.length + bs.length < limit) with
      ⟨buf', hw, hlen, htake, hroom⟩ | ⟨status, buf', offset', hw, hlen, htake, hle, hend⟩
    · rcases h'.refuses_second hp hne hno hlim hlen htake hroom with
        ⟨status, buf'', offset', hw', hrest⟩
      exact ⟨status, buf'', offset', by simp only [Writer.andThen, hw, hw'], hrest⟩
    · refine ⟨status, buf', offset', ?_, hlen, htake, hle, by omega⟩
      simp only [Writer.andThen, hw]
  idle := by
    intro hp hnil buf offset
    rcases List.append_eq_nil_iff.1 hnil with ⟨hbs, hcs⟩
    simp only [Writer.andThen, h.idle hp hbs, h'.idle hp hcs]

theorem also [OrOp σ] (h : Encodes limit p w bs) (h' : Encodes limit p w' cs) :
    Encodes limit p (w.also w') (bs ++ cs) where
  writes := h.writes.also h'.writes
  refuses := by
    intro hp hne buf offset hno hlim
    rw [List.length_append] at hno hlim ⊢
    rcases h.cases hp (by omega : max offset buf.length + bs.length < limit) with
      ⟨buf', hw, hlen, htake, hroom⟩ | ⟨status, buf', offset', hw, hlen, htake, hle, hend⟩
    · rcases h'.refuses_second hp hne hno hlim hlen htake hroom with
        ⟨status, buf'', offset', hw', hrest⟩
      exact ⟨status, buf'', offset', by simp only [Writer.also, hw, hw'], hrest⟩
    · -- After a refusal the second part stays behind, whatever it does.
      rcases h'.cases hp (by omega : max offset' buf'.length + cs.length < limit) with
        ⟨buf'', hw', hlen', htake', _⟩ |
        ⟨status', buf'', offset'', hw', hlen', htake', hle', hend'⟩
      · refine ⟨status, buf'', offset' + cs.length, ?_, by omega, ?_, by omega, by omega⟩
        · simp only [Writer.also, hw, hw']
        · rw [take_eq_of_le hle htake', htake]
      · refine ⟨status ||| status', buf'', offset'', ?_, by omega, ?_, by omega, by omega⟩
        · simp only [Writer.also, hw, hw']
        · rw [take_eq_of_le hle htake', htake]
  idle := by
    intro hp hnil buf offset
    rcases List.append_eq_nil_iff.1 hnil with ⟨hbs, hcs⟩
    simp only [Writer.also, h.idle hp hbs, h'.idle hp hcs]

end Encodes

/-! ## Bodies behind their lengths -/

/-- Skip `k` bytes, write the body and go back to write its length into the bytes skipped. -/
def Writer.framed [OrOp σ] (k : ℕ) (body : Writer σ) (length : ℕ → Writer σ) : Writer σ :=
  fun buf offset =>
    match body buf (offset + k) with
    | .fault => .fault
    | .bad status buf' offset' =>
        match length (offset' - (offset + k)) buf' offset with
        | .fault => .fault
        | .bad status' buf'' _ => .bad (status ||| status') buf'' offset'
        | .good buf'' _ => .bad status buf'' offset'
    | .good buf' offset' =>
        match length (offset' - (offset + k)) buf' offset with
        | .fault => .fault
        | .bad status buf'' _ => .bad status buf'' offset'
        | .good buf'' _ => .good buf'' offset'

theorem Encodes.framed [OrOp σ] {limit k : ℕ} {p : Prop} {body : Writer σ}
    {length : ℕ → Writer σ} {bs : List UInt8} {header : ℕ → List UInt8} (hk : 0 < k)
    (h : Encodes limit p body bs) (hlength : ∀ n, Encodes limit True (length n) (header n))
    (hheader : ∀ n, (header n).length = k) :
    Encodes limit p (Writer.framed k body length) (header bs.length ++ bs) where
  writes := by
    intro pre mid post hlen hlim
    simp only [List.length_append, hheader] at hlen hlim
    have hsplit : mid = mid.take k ++ mid.drop k := (List.take_append_drop _ _).symm
    have hfirst : (mid.take k).length = k := by
      rw [List.length_take]
      omega
    have hsecond : (mid.drop k).length = bs.length := by
      rw [List.length_drop]
      omega
    generalize mid.take k = m at hsplit hfirst
    generalize mid.drop k = m' at hsplit hsecond
    subst hsplit
    simp only [List.length_append] at hlim
    have hbody := h.writes (pre ++ m) m' post hsecond
      (by simp only [List.length_append]; omega)
    have hback := (hlength bs.length).writes pre m (bs ++ post) (by rw [hfirst, hheader])
      (by simp only [List.length_append, hheader]; omega)
    simp only [List.length_append, List.append_assoc, hfirst] at hbody hback
    have hn : pre.length + k + bs.length - (pre.length + k) = bs.length := by omega
    simp only [Writer.framed, List.append_assoc, hbody, hn, hback]
    rw [List.length_append, hheader, Nat.add_assoc]
  refuses := by
    intro hp _ buf offset hno hlim
    rw [List.length_append, hheader] at hno hlim ⊢
    rcases h.cases hp (by omega : max (offset + k) buf.length + bs.length < limit) with
      ⟨buf', hw, hlen, htake, hroom⟩ | ⟨status, buf', offset', hw, hlen, htake, hle, hend⟩
    · -- Only an empty body is written where there is no room, and then none is left for its length.
      have hnil : bs = [] := by
        rcases hroom with hnil | hle
        · exact hnil
        · omega
      subst hnil
      rw [List.length_nil] at hno hlim hw ⊢
      have hne : header 0 ≠ [] := by
        intro hnil
        have hk' := hheader 0
        rw [hnil] at hk'
        exact absurd hk' (Nat.ne_of_lt hk)
      have hn : offset + k + 0 - (offset + k) = 0 := by omega
      rcases (hlength 0).refuses trivial hne buf' offset (by rw [hheader]; omega)
        (by rw [hheader]; omega) with ⟨status, buf'', offset', hw', hlen', htake', _, _⟩
      refine ⟨status, buf'', offset + k + 0, ?_, by omega, ?_, by omega, by omega⟩
      · simp only [Writer.framed, hw, hn, hw']
      · rw [htake', take_eq_of_le (Nat.le_add_right _ _) htake]
    · rcases (hlength (offset' - (offset + k))).cases trivial
        (by rw [hheader]; omega : max offset buf'.length +
          (header (offset' - (offset + k))).length < limit) with
        ⟨buf'', hw', hlen', htake', _⟩ | ⟨status', buf'', offset'', hw', hlen', htake', _, _⟩
      · refine ⟨status, buf'', offset', ?_, by omega, ?_, by omega, by omega⟩
        · simp only [Writer.framed, hw, hw']
        · rw [htake', take_eq_of_le (Nat.le_add_right _ _) htake]
      · refine ⟨status ||| status', buf'', offset', ?_, by omega, ?_, by omega, by omega⟩
        · simp only [Writer.framed, hw, hw']
        · rw [htake', take_eq_of_le (Nat.le_add_right _ _) htake]
  idle := by
    intro _ hnil
    have hlen := congrArg List.length hnil
    rw [List.length_append, hheader, List.length_nil] at hlen
    omega

end Serial
