import ForteOpcUa.Interaction.Interleaving

/-!
# Agreement — the same programs over two states

One program is answered from two states that correspond.  As long as every request is one on which
the two agree, the replies are the same and the states go on corresponding:

- `Prog.Along`     : each request of an execution is admitted in the state that answers it,
- `result_agrees`  : an execution along admitted requests has the same result at both states,
- `System.Along`   : each request of a schedule is admitted where it is answered,
- `Agree.run`      : a run along admitted requests is a run of the other system, with the same
  threads and the same history.
-/

namespace Interaction

/-! ## Executions -/

namespace Prog

variable {S : Signature} {σ τ α β : Type}

/-- The value and the last state of an execution. -/
def result (h : Handler S σ) (p : Prog S α) (s : σ) : α × σ :=
  ((exec h p s).value, (exec h p s).state)

@[simp]
theorem result_ret (h : Handler S σ) (a : α) (s : σ) : result h (ret a) s = (a, s) :=
  rfl

@[simp]
theorem result_call (h : Handler S σ) (o : S.Op) (next : S.Reply o → Prog S α) (s : σ) :
    result h (call o next) s = result h (next (h o s).1) (h o s).2 :=
  rfl

@[simp]
theorem result_bind (h : Handler S σ) (p : Prog S α) (f : α → Prog S β) (s : σ) :
    result h (p >>= f) s = result h (f (result h p s).1) (result h p s).2 := by
  induction p generalizing s with
  | ret a => rfl
  | call o next ih => exact ih _ _

/-- Every request of the execution is admitted in the state that answers it. -/
def Along (h : Handler S σ) (P : S.Op → σ → Prop) : Prog S α → σ → Prop
  | ret _, _ => True
  | call o next, s => P o s ∧ (next (h o s).1).Along h P (h o s).2

@[simp]
theorem along_ret (h : Handler S σ) (P : S.Op → σ → Prop) (a : α) (s : σ) :
    (ret a : Prog S α).Along h P s :=
  trivial

@[simp]
theorem along_call {h : Handler S σ} {P : S.Op → σ → Prop} {o : S.Op}
    {next : S.Reply o → Prog S α} {s : σ} :
    (call o next).Along h P s ↔ P o s ∧ (next (h o s).1).Along h P (h o s).2 :=
  Iff.rfl

instance decidableAlong (h : Handler S σ) {P : S.Op → σ → Prop} [∀ o s, Decidable (P o s)] :
    (p : Prog S α) → (s : σ) → Decidable (p.Along h P s)
  | ret _, _ => .isTrue trivial
  | call o next, s =>
      have := decidableAlong h (P := P) (next (h o s).1) (h o s).2
      inferInstanceAs (Decidable (P o s ∧ (next (h o s).1).Along h P (h o s).2))

/-- A program all of whose requests are admitted in every state. -/
theorem Always.along {Q : S.Op → Prop} {p : Prog S α} (hp : p.Always Q) (h : Handler S σ)
    {P : S.Op → σ → Prop} (hP : ∀ o s, Q o → P o s) (s : σ) : p.Along h P s := by
  induction p generalizing s with
  | ret a => trivial
  | call o next ih => exact ⟨hP o s hp.1, ih _ (hp.2 _) _⟩

/-- The two handlers answer an admitted request alike and leave corresponding states. -/
def Agree (h : Handler S σ) (g : Handler S τ) (P : S.Op → σ → Prop) (R : σ → τ → Prop) : Prop :=
  ∀ o s t, R s t → P o s → (g o t).1 = (h o s).1 ∧ R (h o s).2 (g o t).2

/-- Along admitted requests an execution gives the same value and leaves corresponding states. -/
theorem result_agrees {h : Handler S σ} {g : Handler S τ} {P : S.Op → σ → Prop}
    {R : σ → τ → Prop} (hagree : Agree h g P R) {p : Prog S α} {s : σ} {t : τ} (hR : R s t)
    (hP : p.Along h P s) :
    (result g p t).1 = (result h p s).1 ∧ R (result h p s).2 (result g p t).2 := by
  induction p generalizing s t with
  | ret a => exact ⟨rfl, hR⟩
  | call o next ih =>
      rcases hagree o s t hR hP.1 with ⟨hreply, hR'⟩
      rw [result_call, result_call, hreply]
      exact ih (h o s).1 hR' hP.2

end Prog

/-! ## Runs -/

namespace System

variable {S : Signature} {ι L σ τ Φ : Type} [DecidableEq ι]

/-- The request that the move answers, if any, is admitted where it is answered. -/
def Admits (P : S.Op → L → σ → Prop) (c : Config S ι L σ) : Action ι Φ → Prop
  | .start _ => True
  | .call i _ =>
      match (c.thread i).code with
      | some (.call o _) => P o (c.thread i).loc c.shared
      | _ => True

/-- Every request of the schedule is admitted where it is answered. -/
def Along (M : System S ι L σ Φ) (P : S.Op → L → σ → Prop) :
    Config S ι L σ → List (Action ι Φ) → Prop
  | _, [] => True
  | c, act :: as =>
      Admits P c act ∧
        match M.step c act with
        | some c' => M.Along P c' as
        | none => True

section Decidable

variable {P : S.Op → L → σ → Prop} [∀ o l s, Decidable (P o l s)]

instance (c : Config S ι L σ) (act : Action ι Φ) : Decidable (Admits P c act) :=
  match act with
  | .start _ => .isTrue trivial
  | .call i _ =>
      match h : (c.thread i).code with
      | some (.call o _) => decidable_of_iff (P o (c.thread i).loc c.shared) (by simp [Admits, h])
      | some (.ret _) => .isTrue (by simp [Admits, h])
      | none => .isTrue (by simp [Admits, h])

instance decidableAlong (M : System S ι L σ Φ) :
    (c : Config S ι L σ) → (as : List (Action ι Φ)) → Decidable (M.Along P c as)
  | _, [] => .isTrue trivial
  | c, act :: as =>
      match h : M.step c act with
      | some c' =>
          have := decidableAlong M c' as
          decidable_of_iff (Admits P c act ∧ M.Along P c' as) (by simp [Along, h])
      | none => decidable_of_iff (Admits P c act) (by simp [Along, h])

end Decidable

/-- Two systems that run the same programs and answer an admitted request alike. -/
structure Agree (M : System S ι L σ Φ) (N : System S ι L τ Φ) (P : S.Op → L → σ → Prop)
    (R : σ → τ → Prop) : Prop where
  request : N.request = M.request
  failed : N.failed = M.failed
  sever : N.sever = M.sever
  reply : ∀ o l s t, R s t → P o l s → (N.serve o l t).1 = (M.serve o l s).1
  loc : ∀ o l s t, R s t → P o l s → (N.serve o l t).2.1 = (M.serve o l s).2.1
  shared : ∀ o l s t, R s t → P o l s → R (M.serve o l s).2.2 (N.serve o l t).2.2

/-- The same threads and the same history, over corresponding shared states. -/
structure Corresponds (R : σ → τ → Prop) (c : Config S ι L σ) (d : Config S ι L τ) : Prop where
  thread : d.thread = c.thread
  shared : R c.shared d.shared
  log : d.log = c.log

omit [DecidableEq ι] in
theorem corresponds_init {R : σ → τ → Prop} (l : ι → L) {s : σ} {t : τ} (h : R s t) :
    Corresponds R (init (S := S) l s) (init l t) where
  thread := rfl
  shared := h
  log := rfl

variable {M : System S ι L σ Φ} {N : System S ι L τ Φ} {P : S.Op → L → σ → Prop}
variable {R : σ → τ → Prop}

omit [DecidableEq ι] in
/-- The two answers to an admitted request, whatever the environment chooses. -/
theorem Agree.answer (h : Agree M N P R) {o : S.Op} {l : L} {s : σ} {t : τ} {ch : Choice Φ}
    {a : Answer S L σ o} (hR : R s t) (hP : P o l s) (ha : M.answer o l s ch = some a) :
    ∃ b, N.answer o l t ch = some b ∧ b.reply = a.reply ∧ b.served = a.served ∧ b.loc = a.loc ∧
      R a.shared b.shared := by
  have hreply := h.reply o l s t hR hP
  cases ch with
  | ok =>
      cases ha
      exact ⟨_, rfl, hreply, congrArg some hreply, h.loc o l s t hR hP, h.shared o l s t hR hP⟩
  | fail fault reached severed =>
      simp only [System.answer, Option.map_eq_some_iff] at ha
      rcases ha with ⟨r, hr, rfl⟩
      rw [← h.failed] at hr
      refine ⟨_, by rw [System.answer, hr, Option.map_some], rfl, ?_, ?_, ?_⟩
      · dsimp only
        rw [hreply]
      · dsimp only
        rw [h.sever]
      -- A request that was lost on its way left both states alone.
      · cases reached with
        | true => exact h.shared o l s t hR hP
        | false => exact hR

/-- One admitted move of one system is the same move of the other. -/
theorem Agree.step (h : Agree M N P R) {c c' : Config S ι L σ} {d : Config S ι L τ}
    {act : Action ι Φ} (hcd : Corresponds R c d) (hadm : Admits P c act)
    (hstep : M.step c act = some c') :
    ∃ d', N.step d act = some d' ∧ Corresponds R c' d' := by
  rcases step_cases hstep with ⟨i, rfl, hcode, rfl⟩ | ⟨i, ch, o, next, a, rfl, hcode, ha, rfl⟩
  · rw [← hcd.thread] at hcode
    refine ⟨N.started d i, by simp [System.step, hcode], ?_, hcd.shared, hcd.log⟩
    simp only [started, hcd.thread, h.request]
  · have hP : P o (c.thread i).loc c.shared := by
      simpa [Admits, hcode] using hadm
    rcases h.answer hcd.shared hP ha with ⟨b, hb, hreply, hserved, hloc, hshared⟩
    rw [← hcd.thread] at hcode hb
    refine ⟨d.replied i next b, by simp [System.step, hcode, hb], ?_, hshared, ?_⟩
    · simp only [Config.replied, hcd.thread, hreply, hloc]
    · simp only [Config.replied, hcd.thread, hcd.log, hreply, hserved]

/-- A run along admitted requests is a run of the other system, with the same threads and the same
history. -/
theorem Agree.run (h : Agree M N P R) {as : List (Action ι Φ)} {c c' : Config S ι L σ}
    {d : Config S ι L τ} (hcd : Corresponds R c d) (halong : M.Along P c as)
    (hrun : M.run c as = some c') :
    ∃ d', N.run d as = some d' ∧ Corresponds R c' d' := by
  induction as generalizing c d with
  | nil =>
      cases hrun
      exact ⟨d, rfl, hcd⟩
  | cons act as ih =>
      rw [run_cons, Option.bind_eq_some_iff] at hrun
      rcases hrun with ⟨c₁, h₁, hrest⟩
      simp only [Along, h₁] at halong
      rcases h.step hcd halong.1 h₁ with ⟨d₁, hd₁, hcd₁⟩
      rcases ih hcd₁ halong.2 hrest with ⟨d', hd', hcd'⟩
      exact ⟨d', by rw [run_cons, hd₁, Option.bind_some, hd'], hcd'⟩

end System

end Interaction
