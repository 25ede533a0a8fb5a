import Mathlib.Data.List.Basic

/-!
# Prog — programs that talk to an environment by requests and replies

A *signature* lists the requests a program can issue, each with its own type of replies.  A
*program* over it either returns or issues one request and goes on with the reply.  The module
gives two readings of a program:

- `Run p tr a`  : the environment answers as it likes, `tr` is the trace of requests and replies,
- `exec h p s`  : a handler `h` answers each request from a state, one after the other,

and `Throughout P p`, which bounds what a program can do under any environment, with `Always P p`
for the requests alone.
-/

namespace Interaction

/-- The requests of an interface, each with the type of its replies. -/
structure Signature where
  Op : Type
  Reply : Op → Type

/-- A program over a signature: return, or issue one request and continue with the reply. -/
inductive Prog (S : Signature) (α : Type) : Type
  | ret (value : α) : Prog S α
  | call (o : S.Op) (next : S.Reply o → Prog S α) : Prog S α

/-- One request together with the reply it got. -/
structure Event (S : Signature) where
  op : S.Op
  reply : S.Reply op

namespace Prog

variable {S : Signature} {α β : Type}

/-! ## Sequencing -/

/-- Run `p`, then `f` on its result. -/
def bind : Prog S α → (α → Prog S β) → Prog S β
  | ret a, f => f a
  | call o next, f => call o (fun r => (next r).bind f)

instance : Monad (Prog S) where
  pure := ret
  bind := bind

/-- Issue one request and return its reply. -/
def perform (o : S.Op) : Prog S (S.Reply o) :=
  call o ret

@[simp]
theorem pure_def (a : α) : (pure a : Prog S α) = ret a :=
  rfl

@[simp]
theorem ret_bind (a : α) (f : α → Prog S β) : (ret a >>= f) = f a :=
  rfl

@[simp]
theorem call_bind (o : S.Op) (next : S.Reply o → Prog S α) (f : α → Prog S β) :
    (call o next >>= f) = call o (fun r => next r >>= f) :=
  rfl

@[simp]
theorem perform_bind (o : S.Op) (f : S.Reply o → Prog S β) :
    (perform o >>= f) = call o f :=
  rfl

@[simp]
theorem ite_bind (c : Prop) [Decidable c] (p q : Prog S α) (f : α → Prog S β) :
    ((if c then p else q) >>= f) = if c then p >>= f else q >>= f := by
  split <;> rfl

/-- Going on with the value of a program that may have none, or else with `last`. -/
@[simp]
theorem elimM_ret (a : Option α) (last : Prog S β) (next : α → Prog S β) :
    Option.elimM (ret a) last next = a.elim last next :=
  rfl

@[simp]
theorem elimM_call (o : S.Op) (p : S.Reply o → Prog S (Option α)) (last : Prog S β)
    (next : α → Prog S β) :
    Option.elimM (call o p) last next = call o fun r => Option.elimM (p r) last next :=
  rfl

/-! ## Traces under any environment -/

/-- `Run p tr a`: some environment answers the requests of `p` as recorded in `tr`, and `p`
returns `a`. -/
inductive Run : Prog S α → List (Event S) → α → Prop
  | ret (a : α) : Run (.ret a) [] a
  | call (o : S.Op) (next : S.Reply o → Prog S α) (r : S.Reply o) (tr : List (Event S)) (a : α) :
      Run (next r) tr a → Run (.call o next) (⟨o, r⟩ :: tr) a

@[simp]
theorem run_ret_iff {a b : α} {tr : List (Event S)} :
    Run (ret a) tr b ↔ tr = [] ∧ b = a := by
  constructor
  · intro h
    cases h
    exact ⟨rfl, rfl⟩
  · rintro ⟨rfl, rfl⟩
    exact Run.ret _

@[simp]
theorem run_call_iff {o : S.Op} {next : S.Reply o → Prog S α} {tr : List (Event S)} {a : α} :
    Run (call o next) tr a ↔ ∃ r tr', tr = ⟨o, r⟩ :: tr' ∧ Run (next r) tr' a := by
  constructor
  · intro h
    cases h with
    | call _ _ r tr' _ h =>
        exact ⟨r, tr', rfl, h⟩
  · rintro ⟨r, tr', rfl, h⟩
    exact Run.call o next r tr' a h

/-- A run of two programs in sequence is a run of the first and then one of the second. -/
theorem run_bind_iff {p : Prog S α} {f : α → Prog S β} {tr : List (Event S)} {b : β} :
    Run (p >>= f) tr b ↔
      ∃ first second a, tr = first ++ second ∧ Run p first a ∧ Run (f a) second b := by
  induction p generalizing tr with
  | ret a =>
      simp
  | call o next ih =>
      simp only [call_bind, run_call_iff, ih]
      constructor
      · rintro ⟨r, _, rfl, first, second, a, rfl, hfirst, hsecond⟩
        exact ⟨⟨o, r⟩ :: first, second, a, rfl, ⟨r, first, rfl, hfirst⟩, hsecond⟩
      · rintro ⟨_, second, a, rfl, ⟨r, first, rfl, hfirst⟩, hsecond⟩
        exact ⟨r, first ++ second, rfl, first, second, a, rfl, hfirst, hsecond⟩

/-! ## Requests a program can issue -/

/-- Every request that `p` can come to, whatever the replies, satisfies `P` together with what `p`
does after it. -/
def Throughout (P : (o : S.Op) → (S.Reply o → Prog S α) → Prop) : Prog S α → Prop
  | ret _ => True
  | call o next => P o next ∧ ∀ r, (next r).Throughout P

section Throughout

variable {P : (o : S.Op) → (S.Reply o → Prog S α) → Prop}

@[simp]
theorem throughout_ret (a : α) : (ret a : Prog S α).Throughout P :=
  trivial

@[simp]
theorem throughout_call {o : S.Op} {next : S.Reply o → Prog S α} :
    (call o next).Throughout P ↔ P o next ∧ ∀ r, (next r).Throughout P :=
  Iff.rfl

@[simp]
theorem throughout_ite {c : Prop} [Decidable c] {p q : Prog S α} :
    (if c then p else q).Throughout P ↔ (c → p.Throughout P) ∧ (¬ c → q.Throughout P) := by
  by_cases hc : c <;> simp [hc]

end Throughout

/-- Every request that `p` can issue, whatever the replies, satisfies `P`. -/
def Always (P : S.Op → Prop) (p : Prog S α) : Prop :=
  p.Throughout fun o _ => P o

@[simp]
theorem always_ret (P : S.Op → Prop) (a : α) : (ret a : Prog S α).Always P :=
  trivial

@[simp]
theorem always_call {P : S.Op → Prop} {o : S.Op} {next : S.Reply o → Prog S α} :
    (call o next).Always P ↔ P o ∧ ∀ r, (next r).Always P :=
  Iff.rfl

@[simp]
theorem always_ite {P : S.Op → Prop} {c : Prop} [Decidable c] {p q : Prog S α} :
    (if c then p else q).Always P ↔ (c → p.Always P) ∧ (¬ c → q.Always P) :=
  throughout_ite

theorem always_of_forall {P : S.Op → Prop} (h : ∀ o, P o) (p : Prog S α) : p.Always P := by
  induction p with
  | ret a => exact always_ret P a
  | call o next ih => exact ⟨h o, ih⟩

theorem Always.bind {P : S.Op → Prop} {p : Prog S α} {f : α → Prog S β} (hp : p.Always P)
    (hf : ∀ a, (f a).Always P) : (p >>= f).Always P := by
  induction p with
  | ret a => exact hf a
  | call o next ih => exact ⟨hp.1, fun r => ih r (hp.2 r)⟩

/-- A bound on the requests of a program is a bound on every event of its traces. -/
theorem Run.always {P : S.Op → Prop} {p : Prog S α} {tr : List (Event S)} {a : α}
    (h : Run p tr a) (hp : p.Always P) : ∀ e ∈ tr, P e.op := by
  induction h with
  | ret a =>
      intro e he
      cases he
  | call o next r tr a _ ih =>
      intro e he
      rcases List.mem_cons.1 he with rfl | he
      · exact hp.1
      · exact ih (hp.2 r) e he

/-! ## Execution against a state -/

/-- Answers one request from a state and moves the state. -/
abbrev Handler (S : Signature) (σ : Type) : Type :=
  (o : S.Op) → σ → S.Reply o × σ

/-- What an execution leaves: the result, the trace and the last state. -/
structure Outcome (S : Signature) (σ α : Type) where
  value : α
  trace : List (Event S)
  state : σ

variable {σ : Type}

/-- Execute a program alone, every request answered by `h`. -/
def exec (h : Handler S σ) : Prog S α → σ → Outcome S σ α
  | ret a, s => { value := a, trace := [], state := s }
  | call o next, s =>
      let rest := exec h (next (h o s).1) (h o s).2
      { rest with trace := ⟨o, (h o s).1⟩ :: rest.trace }

@[simp]
theorem exec_ret (h : Handler S σ) (a : α) (s : σ) :
    exec h (ret a) s = { value := a, trace := [], state := s } :=
  rfl

@[simp]
theorem exec_call_state (h : Handler S σ) (o : S.Op) (next : S.Reply o → Prog S α) (s : σ) :
    (exec h (call o next) s).state = (exec h (next (h o s).1) (h o s).2).state :=
  rfl

@[simp]
theorem exec_call_trace (h : Handler S σ) (o : S.Op) (next : S.Reply o → Prog S α) (s : σ) :
    (exec h (call o next) s).trace =
      ⟨o, (h o s).1⟩ :: (exec h (next (h o s).1) (h o s).2).trace :=
  rfl

/-- An execution is one of the runs of the program. -/
theorem exec_run (h : Handler S σ) (p : Prog S α) (s : σ) :
    Run p (exec h p s).trace (exec h p s).value := by
  induction p generalizing s with
  | ret a =>
      exact Run.ret a
  | call o next ih =>
      exact Run.call o next _ _ _ (ih (h o s).1 (h o s).2)

/-- Execute programs one after the other and keep the last state. -/
def execAll (h : Handler S σ) (ps : List (Prog S Unit)) (s : σ) : σ :=
  ps.foldl (fun s p => (exec h p s).state) s

@[simp]
theorem execAll_nil (h : Handler S σ) (s : σ) : execAll h [] s = s :=
  rfl

@[simp]
theorem execAll_cons (h : Handler S σ) (p : Prog S Unit) (ps : List (Prog S Unit)) (s : σ) :
    execAll h (p :: ps) s = execAll h ps (exec h p s).state :=
  rfl

@[simp]
theorem execAll_append (h : Handler S σ) (ps qs : List (Prog S Unit)) (s : σ) :
    execAll h (ps ++ qs) s = execAll h qs (execAll h ps s) := by
  simp [execAll]

end Prog

end Interaction
