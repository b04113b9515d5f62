import Woodhouse.Effects.Interleaving

namespace Woodhouse.Effects

variable {Op : Type} {Ret : Op → Type} {ε α β σ χ : Type}

/-- `Path machine p s es q s'`: alone on the machine, `p` goes from `s` by the answered calls
`es` to the remaining program `q` at `s'`. -/
inductive Path (machine : Machine Op Ret ε σ χ) :
    Prog Op Ret ε α → σ → List (Event Op Ret ε) → Prog Op Ret ε α → σ → Prop
  | refl (p s) : Path machine p s [] p s
  | call {op k s c r s' es q t} (does : machine s op c = some (r,s'))
      (tail : Path machine (k r) s' es q t) : Path machine (.call op k) s (⟨op,r⟩ :: es) q t

namespace Path
variable {machine : Machine Op Ret ε σ χ} {p q : Prog Op Ret ε α} {s t : σ}
  {es : List (Event Op Ret ε)}

/-- A path from a call is at its start, or makes the call first. -/
theorem of_call {op : Op} {k : Except ε (Ret op) → Prog Op Ret ε α}
    (h : Path machine (.call op k) s es q t) :
    (es = [] ∧ q = .call op k ∧ t = s) ∨
      ∃ c r s' rest, machine s op c = some (r,s') ∧ es = ⟨op,r⟩ :: rest ∧
        Path machine (k r) s' rest q t := by
  cases h with
  | refl => exact Or.inl ⟨rfl, rfl, rfl⟩
  | call does tail => exact Or.inr ⟨_, _, _, _, does, rfl, tail⟩

theorem of_raise {e : ε} (h : Path machine (.raise e) s es q t) : q = .raise e ∧ t = s := by
  cases h with
  | refl => exact ⟨rfl, rfl⟩

theorem trans {q' : Prog Op Ret ε α} {t' : σ} {es' : List (Event Op Ret ε)}
    (h : Path machine p s es q t) (h' : Path machine q t es' q' t') :
    Path machine p s (es ++ es') q' t' := by
  induction h with
  | refl => exact h'
  | call does _ ih => exact .call does (ih h')

end Path

/-- The path of a program alone on the machine, by the environment's choices. -/
def follow (machine : Machine Op Ret ε σ χ) :
    List χ → Prog Op Ret ε α → σ → Option (List (Event Op Ret ε) × Prog Op Ret ε α × σ)
  | [], p, s => some ([],p,s)
  | c :: choices, .call op k, s =>
    match machine s op c with
    | some (r,s') =>
      (follow machine choices (k r) s').map (fun taken => (⟨op,r⟩ :: taken.1,taken.2))
    | none => none
  | _ :: _, _, _ => none

theorem path_of_follow {machine : Machine Op Ret ε σ χ} {choices : List χ} {p q : Prog Op Ret ε α}
    {s t : σ} {es : List (Event Op Ret ε)} (h : follow machine choices p s = some (es,q,t)) :
    Path machine p s es q t := by
  induction choices generalizing p s es with
  | nil =>
    cases h
    exact .refl _ _
  | cons c choices ih =>
    cases p with
    | ret a => cases h
    | raise e => cases h
    | call op k =>
      unfold follow at h
      split at h
      · rename_i r s' does
        obtain ⟨⟨es', q', t'⟩, hrest, htaken⟩ := Option.map_eq_some_iff.mp h
        cases htaken
        exact .call does (ih hrest)
      · cases h

theorem path_of_choices (machine : Machine Op Ret ε σ χ) (p : Prog Op Ret ε α) (s : σ)
    (choices : List χ) (P : List (Event Op Ret ε) × Prog Op Ret ε α × σ → Bool)
    (h : (follow machine choices p s).any P = true) :
    ∃ es q t, Path machine p s es q t ∧ P (es,q,t) = true := by
  obtain ⟨⟨es, q, t⟩, hfollow, hP⟩ := (Option.any_eq_true ..).mp h
  exact ⟨es, q, t, path_of_follow hfollow, hP⟩

/-- Alone on the machine, `p` goes from `s` to `q` at `t`, and on the way the call `op` raises
`e` between the states `s₁` and `s₂`. -/
def Fails (machine : Machine Op Ret ε σ χ) (p : Prog Op Ret ε α) (s : σ) (op : Op) (e : ε)
    (s₁ s₂ : σ) (q : Prog Op Ret ε α) (t : σ) : Prop :=
  ∃ before k c after, Path machine p s before (.call op k) s₁ ∧
    machine s₁ op c = some (.error e,s₂) ∧ Path machine (k (.error e)) s₂ after q t

namespace Fails
variable {machine : Machine Op Ret ε σ χ} {p q : Prog Op Ret ε α} {s s₁ s₂ t : σ} {op : Op} {e : ε}

theorem of_call {op₀ : Op} {k : Except ε (Ret op₀) → Prog Op Ret ε α}
    (h : Fails machine (.call op₀ k) s op e s₁ s₂ q t) :
    (op = op₀ ∧ s₁ = s ∧ ∃ c after, machine s op₀ c = some (.error e,s₂) ∧
      Path machine (k (.error e)) s₂ after q t) ∨
    ∃ c r s', machine s op₀ c = some (r,s') ∧ Fails machine (k r) s' op e s₁ s₂ q t := by
  obtain ⟨before, k', c, after, hbefore, hstep, hafter⟩ := h
  cases hbefore with
  | refl => exact Or.inl ⟨rfl, rfl, c, after, hstep, hafter⟩
  | call does tail => exact Or.inr ⟨_, _, _, does, _, k', c, after, tail, hstep, hafter⟩

theorem here {op₀ : Op} {k : Except ε (Ret op₀) → Prog Op Ret ε α} {c : χ}
    {es : List (Event Op Ret ε)} (does : machine s op₀ c = some (.error e,s₂))
    (after : Path machine (k (.error e)) s₂ es q t) :
    Fails machine (.call op₀ k) s op₀ e s s₂ q t :=
  ⟨[], k, c, es, .refl _ _, does, after⟩

theorem later {op₀ : Op} {k : Except ε (Ret op₀) → Prog Op Ret ε α} {c : χ}
    {r : Except ε (Ret op₀)} {s' : σ} (does : machine s op₀ c = some (r,s'))
    (h : Fails machine (k r) s' op e s₁ s₂ q t) : Fails machine (.call op₀ k) s op e s₁ s₂ q t := by
  obtain ⟨before, k', c', after, hbefore, hrest⟩ := h
  exact ⟨_, k', c', after, .call does hbefore, hrest⟩

theorem not_ret {a : α} : ¬Fails machine (.ret a) s op e s₁ s₂ q t := by
  intro h
  obtain ⟨_, _, _, _, hbefore, _, _⟩ := h
  cases hbefore

/-- The failed call is on the path. -/
theorem path (h : Fails machine p s op e s₁ s₂ q t) :
    ∃ es, Path machine p s es q t ∧ ⟨op,.error e⟩ ∈ es := by
  obtain ⟨before, k, c, after, hbefore, hstep, hafter⟩ := h
  exact ⟨_, hbefore.trans (.call hstep hafter), by simp⟩

end Fails

end Woodhouse.Effects
