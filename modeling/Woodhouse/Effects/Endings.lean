import Woodhouse.Effects.Finally
import Woodhouse.Effects.Paths

namespace Woodhouse.Effects

variable {Op : Type} {Ret : Op → Type} {ε α β σ χ : Type}

/-- Alone on the machine from `s`, after the answered calls `h`, every way `p` can end
satisfies `Q`. -/
def Ends (machine : Machine Op Ret ε σ χ) (Q : List (Event Op Ret ε) → Except ε α → σ → Prop) :
    Prog Op Ret ε α → List (Event Op Ret ε) → σ → Prop
  | .ret a, h, s => Q h (.ok a) s
  | .raise e, h, s => Q h (.error e) s
  | .call op k, h, s => ∀ c r s', machine s op c = some (r,s') →
      Ends machine Q (k r) (h ++ [⟨op,r⟩]) s'

section Ends
variable {machine : Machine Op Ret ε σ χ} {Q : List (Event Op Ret ε) → Except ε α → σ → Prop}
  {p : Prog Op Ret ε α} {h : List (Event Op Ret ε)} {s : σ}

@[simp] theorem ends_ret (a : α) : Ends machine Q (.ret a) h s ↔ Q h (.ok a) s := Iff.rfl

@[simp] theorem ends_raise (e : ε) : Ends machine Q (.raise e) h s ↔ Q h (.error e) s := Iff.rfl

theorem ends_call {op : Op} {k : Except ε (Ret op) → Prog Op Ret ε α} :
    Ends machine Q (.call op k) h s ↔ ∀ c r s', machine s op c = some (r,s') →
      Ends machine Q (k r) (h ++ [⟨op,r⟩]) s' := Iff.rfl

@[simp] theorem ends_ofExcept (r : Except ε α) :
    Ends machine Q (Prog.ofExcept r) h s ↔ Q h r s := by
  cases r <;> exact Iff.rfl

theorem ends_perform {op : Op} {Q : List (Event Op Ret ε) → Except ε (Ret op) → σ → Prop} :
    Ends machine Q (Prog.perform op) h s ↔
      ∀ c r s', machine s op c = some (r,s') → Q (h ++ [⟨op,r⟩]) r s' := by
  simp only [Prog.perform, ends_call, ends_ofExcept]

theorem Ends.mono {R : List (Event Op Ret ε) → Except ε α → σ → Prop} (he : Ends machine Q p h s)
    (hq : ∀ h r s, Q h r s → R h r s) : Ends machine R p h s := by
  induction p generalizing h s with
  | ret a => exact hq _ _ _ he
  | raise e => exact hq _ _ _ he
  | call op k ih => exact fun c r s' does => ih r (he c r s' does)

theorem ends_true (p : Prog Op Ret ε α) (h : List (Event Op Ret ε)) (s : σ) :
    Ends machine (fun _ _ _ => True) p h s := by
  induction p generalizing h s with
  | ret a => trivial
  | raise e => trivial
  | call op k ih => exact fun c r s' _ => ih r _ s'

theorem Ends.and {R : List (Event Op Ret ε) → Except ε α → σ → Prop} (he : Ends machine Q p h s)
    (he' : Ends machine R p h s) : Ends machine (fun h r s => Q h r s ∧ R h r s) p h s := by
  induction p generalizing h s with
  | ret a => exact ⟨he, he'⟩
  | raise e => exact ⟨he, he'⟩
  | call op k ih => exact fun c r s' does => ih r (he c r s' does) (he' c r s' does)

theorem Ends.bind {R : List (Event Op Ret ε) → Except ε β → σ → Prop} {f : α → Prog Op Ret ε β}
    (he : Ends machine Q p h s) (hok : ∀ h a s, Q h (.ok a) s → Ends machine R (f a) h s)
    (herr : ∀ h e s, Q h (.error e) s → R h (.error e) s) : Ends machine R (p >>= f) h s := by
  induction p generalizing h s with
  | ret a => exact hok _ _ _ he
  | raise e => exact herr _ _ _ he
  | call op k ih => exact fun c r s' does => ih r (he c r s' does)

theorem Ends.tryCatch {R : List (Event Op Ret ε) → Except ε α → σ → Prop}
    {handler : ε → Prog Op Ret ε α} (he : Ends machine Q p h s)
    (hok : ∀ h a s, Q h (.ok a) s → R h (.ok a) s)
    (herr : ∀ h e s, Q h (.error e) s → Ends machine R (handler e) h s) :
    Ends machine R (MonadExcept.tryCatch p handler) h s := by
  induction p generalizing h s with
  | ret a => exact hok _ _ _ he
  | raise e => exact herr _ _ _ he
  | call op k ih => exact fun c r s' does => ih r (he c r s' does)

theorem Ends.outcome (he : Ends machine Q p h s) :
    Ends machine (fun h' r s' => ∃ result, r = .ok result ∧ Q h' result s') p.outcome h s := by
  induction p generalizing h s with
  | ret a => exact ⟨_, rfl, he⟩
  | raise e => exact ⟨_, rfl, he⟩
  | call op k ih => exact fun c r s' does => ih r (he c r s' does)

/-- The final block runs after every end of the body, and its exception replaces the body's. -/
theorem Ends.withFinally {B : List (Event Op Ret ε) → Except ε α → σ → Prop}
    {final : Prog Op Ret ε Unit} (hbody : Ends machine B p h s)
    (hfinal : ∀ h' r s', B h' r s' → Ends machine
      (fun h'' u s'' => Q h'' (u.bind (fun _ => r)) s'') final h' s') :
    Ends machine Q (p.withFinally final) h s := by
  refine hbody.outcome.bind ?_ ?_
  · intro h' result s' hb
    obtain ⟨r, hr, hb⟩ := hb
    cases hr
    refine (hfinal h' result s' hb).bind ?_ (fun _ _ _ hq => hq)
    intro h'' u s'' hq
    rw [ends_ofExcept]
    exact hq
  · intro h' e s' hb
    obtain ⟨r, hr, _⟩ := hb
    cases hr

theorem Ends.path {q : Prog Op Ret ε α} {es : List (Event Op Ret ε)} {t : σ}
    (he : Ends machine Q p h s) (hp : Path machine p s es q t) : Ends machine Q q (h ++ es) t := by
  induction hp generalizing h with
  | refl => simpa using he
  | call does _ ih => simpa using ih (he _ _ _ does)

/-- What holds at every end holds where a path returns. -/
theorem Ends.returned {es : List (Event Op Ret ε)} {t : σ} {r : Except ε α}
    (he : Ends machine Q p [] s) (hp : Path machine p s es (Prog.ofExcept r) t) : Q es r t := by
  have hend := he.path hp
  rwa [ends_ofExcept, List.nil_append] at hend

end Ends

end Woodhouse.Effects
