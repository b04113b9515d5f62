import Woodhouse.Effects.Prog

namespace Woodhouse.Effects

/-- What a process does in a state: it ends, or it makes a call whose answer leads to its
next state. -/
inductive Act (Op : Type) (Ret : Op → Type) (ε σ : Type) where
  | done (result : Except ε Unit)
  | call (op : Op) (k : Except ε (Ret op) → σ)

/-- A process, which may go on calling forever, is given by what it does in each state. -/
abbrev Process (Op : Type) (Ret : Op → Type) (ε σ : Type) := σ → Act Op Ret ε σ

variable {Op : Type} {Ret : Op → Type} {ε σ τ : Type}

def Act.map (f : σ → τ) : Act Op Ret ε σ → Act Op Ret ε τ
  | .done result => .done result
  | .call op k => .call op (fun r => f (k r))

/-- From `s`, the answered calls `es` lead the process to `s'`. -/
inductive Steps (next : Process Op Ret ε σ) : σ → List (Event Op Ret ε) → σ → Prop
  | refl (s : σ) : Steps next s [] s
  | call {s s' : σ} {op : Op} {k : Except ε (Ret op) → σ} {r : Except ε (Ret op)}
      {es : List (Event Op Ret ε)} (here : next s = .call op k) (tail : Steps next (k r) es s') :
      Steps next s (⟨op, r⟩ :: es) s'

section Steps
variable {next : Process Op Ret ε σ} {s s' : σ} {es : List (Event Op Ret ε)}

theorem Steps.nil (h : Steps next s [] s') : s' = s := by
  cases h
  rfl

theorem Steps.cons {e : Event Op Ret ε} (h : Steps next s (e :: es) s') :
    ∃ k, next s = .call e.op k ∧ Steps next (k e.ret) es s' := by
  cases h with
  | call here tail => exact ⟨_, here, tail⟩

theorem Steps.append {es' : List (Event Op Ret ε)} {s'' : σ} (h : Steps next s es s')
    (h' : Steps next s' es' s'') : Steps next s (es ++ es') s'' := by
  induction h with
  | refl s => exact h'
  | call here tail ih => exact .call here (ih h')

theorem Steps.split {es' : List (Event Op Ret ε)} {s'' : σ} (h : Steps next s (es ++ es') s'') :
    ∃ s', Steps next s es s' ∧ Steps next s' es' s'' := by
  induction es generalizing s with
  | nil => exact ⟨s, .refl s, h⟩
  | cons e es ih =>
    obtain ⟨k, here, tail⟩ := h.cons
    obtain ⟨s', before, after⟩ := ih tail
    exact ⟨s', .call here before, after⟩

/-- A process that has ended makes no more calls. -/
theorem Steps.of_done {result : Except ε Unit} (h : Steps next s es s') (hd : next s = .done result) :
    es = [] ∧ s' = s := by
  cases h with
  | refl s => exact ⟨rfl, rfl⟩
  | call here tail =>
    rw [hd] at here
    cases here

end Steps

section Map
variable {next : Process Op Ret ε σ} {wide : Process Op Ret ε τ} {f : σ → τ} {s s' : σ}
  {es : List (Event Op Ret ε)}

/-- A process inside a wider one that does what it does. -/
theorem steps_map_iff (same : ∀ s, wide (f s) = (next s).map f) {t : τ} :
    Steps wide (f s) es t ↔ ∃ s', t = f s' ∧ Steps next s es s' := by
  constructor
  · intro h
    induction es generalizing s with
    | nil => exact ⟨s, h.nil, .refl s⟩
    | cons e es ih =>
      obtain ⟨k, here, tail⟩ := h.cons
      rw [same] at here
      cases hact : next s with
      | done result =>
        rw [hact] at here
        cases here
      | call op k' =>
        rw [hact] at here
        cases here
        obtain ⟨s', ht, hsteps⟩ := ih tail
        exact ⟨s', ht, .call hact hsteps⟩
  · rintro ⟨s', rfl, h⟩
    induction h with
    | refl s => exact .refl (f s)
    | @call s s' op k r es here tail ih =>
      have hwide : wide (f s) = .call op (fun r => f (k r)) := by
        rw [same, here]
        rfl
      exact .call hwide ih

end Map

end Woodhouse.Effects
