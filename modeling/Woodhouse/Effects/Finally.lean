import Woodhouse.Effects.Prog

namespace Woodhouse.Effects

variable {Op : Type} {Ret : Op → Type} {ε α : Type}

namespace Prog

/-- The program that returns how `p` ends. -/
def outcome : Prog Op Ret ε α → Prog Op Ret ε (Except ε α)
  | .ret a => .ret (.ok a)
  | .raise e => .ret (.error e)
  | .call op k => .call op (fun r => (k r).outcome)

/-- `try: body finally: final`. An exception of the final block replaces the body's. -/
def withFinally (body : Prog Op Ret ε α) (final : Prog Op Ret ε Unit) : Prog Op Ret ε α := do
  let result ← body.outcome
  final
  ofExcept result

end Prog

section Rules
variable {A : List (Event Op Ret ε) → Op → Prop} {h : List (Event Op Ret ε)}
  {body : Prog Op Ret ε α} {final : Prog Op Ret ε Unit}

theorem Obeys.outcome {Q : List (Event Op Ret ε) → Except ε α → Prop} (ho : Obeys A Q body h) :
    Obeys A (fun h' r => ∃ result, r = .ok result ∧ Q h' result) body.outcome h := by
  induction body generalizing h with
  | ret a => exact ⟨_, rfl, ho⟩
  | raise e => exact ⟨_, rfl, ho⟩
  | call op k ih => exact ⟨ho.1, fun r => ih r (ho.2 r)⟩

/-- The final block runs after any history the body can end with. -/
theorem Obeys.withFinally {B Q : List (Event Op Ret ε) → Prop}
    (hbody : Obeys A (fun h' _ => B h') body h)
    (hfinal : ∀ h', B h' → Obeys A (fun h'' _ => Q h'') final h') :
    Obeys A (fun h' _ => Q h') (body.withFinally final) h := by
  refine hbody.outcome.bind ?_ ?_
  · intro h' result hb
    obtain ⟨_, _, hb⟩ := hb
    refine (hfinal h' hb).bind ?_ (fun _ _ hq => hq)
    intro h'' _ hq
    rw [obeys_ofExcept]
    exact hq
  · intro h' e hb
    obtain ⟨_, hr, _⟩ := hb
    cases hr

end Rules

end Woodhouse.Effects
