import Mathlib.Logic.Function.Basic
import Mathlib.Logic.Relation
import ForteOpcUa.Interaction.Prog

/-!
# Interleaving — threads that share a state and issue atomic requests

Every thread runs programs over one signature, one after the other.  A thread has a local state,
all threads share one state, and each request is answered atomically.  The environment chooses
who moves and, for each request, whether it is answered normally or fails; a failed request may
or may not have reached the shared state and may leave the local state severed.

- `System.step` is the executable step function, `System.run` its iteration over a schedule,
- `step_cases` says once what a step can do,
- `run_induct` is the invariant rule and `run_simulates` the simulation rule,
- `Pending` and `Issues` record that a thread only ever does what its programs allow.
-/

namespace Interaction

/-- One request of the history: who issued it in which round, the reply the thread got, and the
reply that was produced at the shared state when the request reached it. -/
structure Entry (S : Signature) (ι : Type) where
  thread : ι
  round : ℕ
  op : S.Op
  reply : S.Reply op
  served : Option (S.Reply op)

/-- A thread: the rest of the program of its current round, its local state and how many rounds
it has finished. -/
structure Thread (S : Signature) (L : Type) where
  code : Option (Prog S Unit)
  loc : L
  round : ℕ

/-- All threads, the shared state and the history, oldest request first. -/
structure Config (S : Signature) (ι L σ : Type) where
  thread : ι → Thread S L
  shared : σ
  log : List (Entry S ι)

/-- How the environment treats one request. -/
inductive Choice (Φ : Type)
  | ok
  | fail (fault : Φ) (reached severed : Bool)

/-- One move: a thread starts its next round, or its pending request is answered. -/
inductive Action (ι Φ : Type)
  | start (i : ι)
  | call (i : ι) (choice : Choice Φ)

/-- What a request leaves behind. -/
structure Answer (S : Signature) (L σ : Type) (o : S.Op) where
  reply : S.Reply o
  served : Option (S.Reply o)
  loc : L
  shared : σ

/-- A system of threads: the program of each round, the atomic service of requests, the replies
of a failed request (none where a request cannot fail) and what a lost link does locally. -/
structure System (S : Signature) (ι L σ Φ : Type) where
  request : ι → ℕ → Prog S Unit
  serve : (o : S.Op) → L → σ → S.Reply o × L × σ
  failed : Φ → (o : S.Op) → Option (S.Reply o)
  sever : S.Op → L → L

namespace Thread

variable {S : Signature} {L : Type}

/-- Continue with `p`; a program that has returned finishes the round. -/
def settle (t : Thread S L) : Prog S Unit → Thread S L
  -- A program without requests starts and finishes its round in one move.
  | .ret _ => { t with code := none, round := t.round + 1 }
  | .call o next => { t with code := some (.call o next) }

@[simp]
theorem settle_ret (t : Thread S L) (u : Unit) :
    t.settle (.ret u) = { t with code := none, round := t.round + 1 } :=
  rfl

@[simp]
theorem settle_call (t : Thread S L) (o : S.Op) (next : S.Reply o → Prog S Unit) :
    t.settle (.call o next) = { t with code := some (.call o next) } :=
  rfl

@[simp]
theorem settle_loc (t : Thread S L) (p : Prog S Unit) : (t.settle p).loc = t.loc := by
  cases p <;> rfl

end Thread

namespace Config

variable {S : Signature} {ι L σ : Type} [DecidableEq ι]

/-- Thread `i` gets the answer `a` to its pending request and continues with `next`. -/
def replied (c : Config S ι L σ) (i : ι) {o : S.Op} (next : S.Reply o → Prog S Unit)
    (a : Answer S L σ o) : Config S ι L σ :=
  { thread := Function.update c.thread i
      ({ c.thread i with loc := a.loc }.settle (next a.reply))
    shared := a.shared
    log := c.log ++ [⟨i, (c.thread i).round, o, a.reply, a.served⟩] }

section Replied

variable (c : Config S ι L σ) (i : ι) {o : S.Op} (next : S.Reply o → Prog S Unit)
variable (a : Answer S L σ o)

@[simp]
theorem replied_self :
    (c.replied i next a).thread i = { c.thread i with loc := a.loc }.settle (next a.reply) :=
  Function.update_self ..

theorem replied_of_ne {j : ι} (h : j ≠ i) : (c.replied i next a).thread j = c.thread j :=
  Function.update_of_ne h ..

@[simp]
theorem replied_shared : (c.replied i next a).shared = a.shared :=
  rfl

@[simp]
theorem replied_log :
    (c.replied i next a).log =
      c.log ++ [⟨i, (c.thread i).round, o, a.reply, a.served⟩] :=
  rfl

end Replied

end Config

namespace Action

variable {ι Φ : Type}

/-- The move is no failure. -/
def faultFree : Action ι Φ → Prop
  | start _ => True
  | call _ .ok => True
  | call _ (.fail _ _ _) => False

instance : DecidablePred (faultFree : Action ι Φ → Prop) := fun a =>
  match a with
  | start _ => .isTrue trivial
  | call _ .ok => .isTrue trivial
  | call _ (.fail _ _ _) => .isFalse id

end Action

namespace System

variable {S : Signature} {ι L σ Φ : Type} [DecidableEq ι]
variable (M : System S ι L σ Φ)

/-- The answer to request `o` under the environment's choice. -/
def answer (o : S.Op) (l : L) (s : σ) : Choice Φ → Option (Answer S L σ o)
  | .ok =>
      some {
        reply := (M.serve o l s).1
        served := some (M.serve o l s).1
        loc := (M.serve o l s).2.1
        shared := (M.serve o l s).2.2 }
  | .fail fault reached severed =>
      -- Whether the request took effect is hidden from the thread.
      (M.failed fault o).map fun r => {
        reply := r
        served := if reached then some (M.serve o l s).1 else none
        loc := if severed then M.sever o l else l
        shared := if reached then (M.serve o l s).2.2 else s }

/-- Thread `i` starts its next round. -/
def started (c : Config S ι L σ) (i : ι) : Config S ι L σ :=
  { c with
    thread := Function.update c.thread i
      ((c.thread i).settle (M.request i (c.thread i).round)) }

/-- One move of the system, if it is possible. -/
def step (c : Config S ι L σ) : Action ι Φ → Option (Config S ι L σ)
  | .start i =>
      match (c.thread i).code with
      -- A round in flight is finished before the next one starts.
      | some _ => none
      | none => some (M.started c i)
  | .call i choice =>
      match (c.thread i).code with
      | some (.call o next) =>
          (M.answer o (c.thread i).loc c.shared choice).map fun a => c.replied i next a
      | _ => none

/-- The moves of a schedule, one after the other. -/
def run (c : Config S ι L σ) (as : List (Action ι Φ)) : Option (Config S ι L σ) :=
  as.foldlM M.step c

/-- All threads idle, no round finished, nothing logged. -/
def init (l : ι → L) (s : σ) : Config S ι L σ :=
  { thread := fun i => { code := none, loc := l i, round := 0 }
    shared := s
    log := [] }

/-- No round is in flight. -/
def Quiescent (c : Config S ι L σ) : Prop :=
  ∀ i, (c.thread i).code = none

variable {M}

section Started

variable (c : Config S ι L σ) (i : ι)

@[simp]
theorem started_self :
    (M.started c i).thread i = (c.thread i).settle (M.request i (c.thread i).round) :=
  Function.update_self ..

theorem started_of_ne {j : ι} (h : j ≠ i) : (M.started c i).thread j = c.thread j :=
  Function.update_of_ne h ..

@[simp]
theorem started_shared : (M.started c i).shared = c.shared :=
  rfl

@[simp]
theorem started_log : (M.started c i).log = c.log :=
  rfl

end Started

/-! ## What a step can do -/

omit [DecidableEq ι] in
/-- Inversion of `answer`: the request was served, or it never reached the shared state. -/
theorem answer_cases {o : S.Op} {l : L} {s : σ} {ch : Choice Φ} {a : Answer S L σ o}
    (h : M.answer o l s ch = some a) :
    (a.shared = s ∧ a.served = none) ∨
      (a.shared = (M.serve o l s).2.2 ∧ a.served = some (M.serve o l s).1) := by
  cases ch with
  | ok =>
      simp only [answer, Option.some.injEq] at h
      subst h
      exact Or.inr ⟨rfl, rfl⟩
  | fail fault reached severed =>
      simp only [answer, Option.map_eq_some_iff] at h
      rcases h with ⟨r, -, rfl⟩
      -- Lost on the way there, or only the answer lost on the way back.
      cases reached with
      | true => exact Or.inr ⟨rfl, rfl⟩
      | false => exact Or.inl ⟨rfl, rfl⟩

omit [DecidableEq ι] in
/-- The local state after an answer is the served one, or the old one with or without its link. -/
theorem answer_loc_cases {o : S.Op} {l : L} {s : σ} {ch : Choice Φ} {a : Answer S L σ o}
    (h : M.answer o l s ch = some a) :
    a.loc = (M.serve o l s).2.1 ∨ a.loc = M.sever o l ∨ a.loc = l := by
  cases ch with
  | ok =>
      simp only [answer, Option.some.injEq] at h
      subst h
      exact Or.inl rfl
  | fail fault reached severed =>
      simp only [answer, Option.map_eq_some_iff] at h
      rcases h with ⟨r, -, rfl⟩
      cases severed with
      | true => exact Or.inr (Or.inl rfl)
      | false => exact Or.inr (Or.inr rfl)

/-- A step starts a round of one thread or answers one request of one thread. -/
theorem step_cases {c c' : Config S ι L σ} {act : Action ι Φ} (h : M.step c act = some c') :
    (∃ i, act = .start i ∧ (c.thread i).code = none ∧ c' = M.started c i) ∨
    (∃ i ch o next, ∃ a : Answer S L σ o, act = .call i ch ∧
      (c.thread i).code = some (.call o next) ∧
      M.answer o (c.thread i).loc c.shared ch = some a ∧ c' = c.replied i next a) := by
  cases act with
  | start i =>
      left
      simp only [step] at h
      split at h
      · cases h
      · rename_i hcode
        exact ⟨i, rfl, hcode, (Option.some.inj h).symm⟩
  | call i ch =>
      right
      simp only [step] at h
      split at h
      · rename_i o next hcode
        rcases Option.map_eq_some_iff.1 h with ⟨a, ha, rfl⟩
        exact ⟨i, ch, o, next, a, rfl, hcode, ha, rfl⟩
      · cases h

/-! ## Rules for whole runs -/

@[simp]
theorem run_nil (c : Config S ι L σ) : M.run c [] = some c :=
  rfl

theorem run_cons (c : Config S ι L σ) (act : Action ι Φ) (as : List (Action ι Φ)) :
    M.run c (act :: as) = (M.step c act).bind fun c' => M.run c' as :=
  rfl

/-- The invariant rule: what every admitted step preserves, every run of admitted steps
preserves. -/
theorem run_induct {P : Action ι Φ → Prop} {I : Config S ι L σ → Prop}
    (hstep : ∀ c act c', P act → I c → M.step c act = some c' → I c') :
    ∀ (as : List (Action ι Φ)) (c c' : Config S ι L σ),
      (∀ act ∈ as, P act) → I c → M.run c as = some c' → I c' := by
  intro as
  -- Induction on the schedule, the configuration it starts from being arbitrary.
  induction as with
  | nil =>
      intro c c' _ hI hrun
      cases hrun
      exact hI
  | cons act as ih =>
      intro c c' hP hI hrun
      rw [run_cons, Option.bind_eq_some_iff] at hrun
      rcases hrun with ⟨c₁, h₁, hrest⟩
      have hI₁ : I c₁ := hstep c act c₁ (hP act (by simp)) hI h₁
      exact ih c₁ c' (fun act' hact => hP act' (by simp [hact])) hI₁ hrest

/-- The simulation rule: if every admitted step is matched by a step of another machine, every run
of admitted steps is matched by a run of it. -/
theorem run_simulates {T : Type} {P : Action ι Φ → Prop} {R : Config S ι L σ → T → Prop}
    {Step : T → T → Prop}
    (hstep : ∀ c act c' t, P act → R c t → M.step c act = some c' → ∃ t', Step t t' ∧ R c' t')
    {as : List (Action ι Φ)} {c c' : Config S ι L σ} {t : T} (hP : ∀ act ∈ as, P act)
    (hR : R c t) (hrun : M.run c as = some c') :
    ∃ t', Relation.ReflTransGen Step t t' ∧ R c' t' := by
  -- The matching run is carried along as the invariant, one step longer each time.
  refine run_induct (P := P) (I := fun d => ∃ t', Relation.ReflTransGen Step t t' ∧ R d t')
    ?_ as c c' hP ⟨t, Relation.ReflTransGen.refl, hR⟩ hrun
  rintro d act d' hact ⟨t₁, hsteps, hR₁⟩ hd
  rcases hstep d act d' t₁ hact hR₁ hd with ⟨t₂, hlast, hR₂⟩
  exact ⟨t₂, hsteps.tail hlast, hR₂⟩

/-! ## What a thread can do -/

/-- Whatever a thread can still do in its round satisfies the bound for that round. -/
def Pending (P : ι → ℕ → (o : S.Op) → (S.Reply o → Prog S Unit) → Prop)
    (c : Config S ι L σ) : Prop :=
  ∀ i p, (c.thread i).code = some p → p.Throughout (P i (c.thread i).round)

theorem settle_pending {P : (o : S.Op) → (S.Reply o → Prog S Unit) → Prop} {t : Thread S L}
    {p q : Prog S Unit} (hp : p.Throughout P) (h : (t.settle p).code = some q) :
    q.Throughout P := by
  cases p with
  | ret a => cases h
  | call o next =>
      cases h
      exact hp

theorem settle_round {t : Thread S L} {p q : Prog S Unit} (h : (t.settle p).code = some q) :
    (t.settle p).round = t.round := by
  cases p with
  | ret a => cases h
  | call o next => rfl

omit [DecidableEq ι] in
theorem pending_init (P : ι → ℕ → (o : S.Op) → (S.Reply o → Prog S Unit) → Prop) (l : ι → L)
    (s : σ) : Pending P (init (S := S) l s) := by
  intro i p hp
  cases hp

/-- Threads whose programs keep to a bound never leave it. -/
theorem pending_step {P : ι → ℕ → (o : S.Op) → (S.Reply o → Prog S Unit) → Prop}
    (hreq : ∀ i r, (M.request i r).Throughout (P i r)) {c c' : Config S ι L σ}
    {act : Action ι Φ} (hP : Pending P c) (h : M.step c act = some c') : Pending P c' := by
  intro j p hj
  rcases step_cases h with ⟨i, -, -, rfl⟩ | ⟨i, ch, o, next, a, -, hcode, -, rfl⟩
  -- A new round begins with its whole program.
  · by_cases hij : j = i
    · subst hij
      rw [started_self] at hj ⊢
      rw [settle_round hj]
      exact settle_pending (hreq j _) hj
    · rw [started_of_ne c i hij] at hj ⊢
      exact hP j p hj
  -- A round in flight goes on with the rest of its program.
  · by_cases hij : j = i
    · subst hij
      rw [Config.replied_self] at hj ⊢
      rw [settle_round hj]
      exact settle_pending ((hP j _ hcode).2 a.reply) hj
    · rw [Config.replied_of_ne c i next a hij] at hj ⊢
      exact hP j p hj

/-- Every logged request of thread `i` satisfies `P i`, and so does every request its current
program can still issue. -/
structure Issues (P : ι → S.Op → Prop) (c : Config S ι L σ) : Prop where
  logged : ∀ e ∈ c.log, P e.thread e.op
  pending : Pending (fun i _ o _ => P i o) c

/-- Threads whose programs only issue allowed requests never issue others. -/
theorem issues_step {P : ι → S.Op → Prop} (hreq : ∀ i r, (M.request i r).Always (P i))
    {c c' : Config S ι L σ} {act : Action ι Φ} (hI : Issues P c)
    (h : M.step c act = some c') : Issues P c' := by
  refine ⟨?_, pending_step hreq hI.pending h⟩
  rcases step_cases h with ⟨i, -, -, rfl⟩ | ⟨i, ch, o, next, a, -, hcode, -, rfl⟩
  · exact hI.logged
  · intro e he
    rcases List.mem_append.1 he with he | he
    · exact hI.logged e he
    · rw [List.mem_singleton.1 he]
      exact (hI.pending i _ hcode).1

omit [DecidableEq ι] in
theorem issues_init (P : ι → S.Op → Prop) (l : ι → L) (s : σ) :
    Issues P (init (S := S) l s) := by
  refine ⟨?_, pending_init _ l s⟩
  intro e he
  cases he

/-- The run form of `issues_step`. -/
theorem issues_run {P : ι → S.Op → Prop} (hreq : ∀ i r, (M.request i r).Always (P i))
    {as : List (Action ι Φ)} {c c' : Config S ι L σ} (hI : Issues P c)
    (h : M.run c as = some c') : Issues P c' := by
  refine run_induct (P := fun _ => True) (I := Issues P) ?_ as c c' (by simp) hI h
  intro d act d' _ hd hstep
  exact issues_step hreq hd hstep

end System

end Interaction
