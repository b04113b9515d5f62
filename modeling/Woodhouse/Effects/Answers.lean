import Woodhouse.Effects.Prog

namespace Woodhouse.Effects

variable {Op : Type} {Ret : Op → Type} {ε α β : Type}

/-- What answers every call, given the calls that were answered before it. -/
abbrev Answers (Op : Type) (Ret : Op → Type) (ε : Type) :=
  List (Event Op Ret ε) → (op : Op) → Except ε (Ret op)

/-- The run of a program from a history: the history it leaves, and its outcome. -/
def Prog.run (answers : Answers Op Ret ε) :
    Prog Op Ret ε α → List (Event Op Ret ε) → List (Event Op Ret ε) × Except ε α
  | .ret a, h => (h, .ok a)
  | .raise e, h => (h, .error e)
  | .call op k, h => (k (answers h op)).run answers (h ++ [⟨op,answers h op⟩])

section Run
variable {answers : Answers Op Ret ε} {h h' : List (Event Op Ret ε)} {p : Prog Op Ret ε α}

@[simp] theorem run_ret (a : α) : (Prog.ret a : Prog Op Ret ε α).run answers h = (h, .ok a) := rfl

@[simp] theorem run_raise (e : ε) :
    (Prog.raise e : Prog Op Ret ε α).run answers h = (h, .error e) := rfl

@[simp] theorem run_ofExcept (r : Except ε α) :
    (Prog.ofExcept r : Prog Op Ret ε α).run answers h = (h, r) := by
  cases r <;> rfl

@[simp] theorem run_perform (op : Op) :
    (Prog.perform op : Prog Op Ret ε (Ret op)).run answers h =
      (h ++ [⟨op,answers h op⟩], answers h op) := by
  unfold Prog.perform Prog.run
  exact run_ofExcept _

theorem run_bind (f : α → Prog Op Ret ε β) :
    (p >>= f).run answers h =
      match p.run answers h with
      | (h', .ok a) => (f a).run answers h'
      | (h', .error e) => (h', .error e) := by
  induction p generalizing h with
  | ret a => rfl
  | raise e => rfl
  | call op k ih => exact ih (answers h op)

theorem run_bind_ok {f : α → Prog Op Ret ε β} {a : α} (hp : p.run answers h = (h', .ok a)) :
    (p >>= f).run answers h = (f a).run answers h' := by
  rw [run_bind, hp]

theorem run_bind_error {f : α → Prog Op Ret ε β} {e : ε} (hp : p.run answers h = (h', .error e)) :
    (p >>= f).run answers h = (h', .error e) := by
  rw [run_bind, hp]

theorem run_tryCatch (handler : ε → Prog Op Ret ε α) :
    (tryCatch p handler : Prog Op Ret ε α).run answers h =
      match p.run answers h with
      | (h', .ok a) => (h', .ok a)
      | (h', .error e) => (handler e).run answers h' := by
  induction p generalizing h with
  | ret a => rfl
  | raise e => rfl
  | call op k ih => exact ih (answers h op)

/-- A run is a trace of the program. -/
theorem run_trace : ∃ es, (p.run answers h).1 = h ++ es ∧
    Trace p es (Prog.ofExcept (p.run answers h).2) := by
  induction p generalizing h with
  | ret a => exact ⟨[], by simp, .refl _⟩
  | raise e => exact ⟨[], by simp, .refl _⟩
  | call op k ih =>
    obtain ⟨es, he, ht⟩ := ih (answers h op) (h := h ++ [⟨op,answers h op⟩])
    refine ⟨⟨op,answers h op⟩ :: es, ?_, .call ht⟩
    rw [Prog.run, he]
    simp

/-- The run of a program that starts with a call. -/
theorem run_trace_call {op : Op} {k : Except ε (Ret op) → Prog Op Ret ε α} :
    ∃ es, ((Prog.call op k).run answers h).1 = h ++ ⟨op,answers h op⟩ :: es ∧
      Trace (.call op k) (⟨op,answers h op⟩ :: es)
        (Prog.ofExcept ((Prog.call op k).run answers h).2) := by
  have hrun : ∃ es, ((k (answers h op)).run answers (h ++ [⟨op,answers h op⟩])).1 =
      h ++ [⟨op,answers h op⟩] ++ es ∧ Trace (k (answers h op)) es
        (Prog.ofExcept ((k (answers h op)).run answers (h ++ [⟨op,answers h op⟩])).2) := run_trace
  obtain ⟨es, he, ht⟩ := hrun
  refine ⟨es, ?_, .call ht⟩
  rw [Prog.run, he]
  simp

/-- A run ends in an outcome that the program's condition describes. -/
theorem Obeys.run {A : List (Event Op Ret ε) → Op → Prop}
    {Q : List (Event Op Ret ε) → Except ε α → Prop} (ho : Obeys A Q p h) :
    Q (p.run answers h).1 (p.run answers h).2 := by
  induction p generalizing h with
  | ret a => exact ho
  | raise e => exact ho
  | call op k ih => exact ih (answers h op) (ho.2 (answers h op))

end Run

end Woodhouse.Effects
