import Woodhouse.Effects.Interleaving

namespace Woodhouse.Effects

variable {ι Op σ χ κ : Type} {Ret : Op → Type} {ε α : Type}

/-- The answered calls that create an id create an unused one, and a used id stays used. -/
structure Allocates (machine : Machine Op Ret ε σ χ) (creates : Event Op Ret ε → Option κ)
    (taken : σ → κ → Prop) : Prop where
  fresh : ∀ {s op c r s' id}, machine s op c = some (r,s') → creates ⟨op,r⟩ = some id →
    ¬ taken s id ∧ taken s' id
  kept : ∀ {s op c r s' id}, machine s op c = some (r,s') → taken s id → taken s' id

section Allocation
variable [DecidableEq ι] {machine : Machine Op Ret ε σ χ} {creates : Event Op Ret ε → Option κ}
  {taken : σ → κ → Prop} {ps₀ ps : ι → Prog Op Ret ε α} {s₀ s : σ} {log : Log ι Op Ret ε} {id : κ}

/-- Two calls that create an id create different ones. -/
theorem Allocates.apart (ha : Allocates machine creates taken) {pre mid post : Log ι Op Ret ε}
    {i j : ι} {e e' : Event Op Ret ε}
    (run : Run machine ps₀ s₀ (pre ++ (i,e) :: (mid ++ (j,e') :: post)) ps s)
    (hc : creates e = some id) : creates e' ≠ some id := by
  intro hc'
  obtain ⟨qs, t, c, k, t', _, _, does, after⟩ := run.at_event
  obtain ⟨qs', u, c', k', u', between, _, does', _⟩ := after.at_event
  have hkept : taken u id :=
    between.state_invariant (I := fun s => taken s id) (ha.fresh does hc).2
      (fun _ _ _ _ _ hstep ht => ha.kept hstep ht)
  exact (ha.fresh does' hc').1 hkept

theorem Allocates.unique (ha : Allocates machine creates taken) (run : Run machine ps₀ s₀ log ps s)
    {i j : ι} {e e' : Event Op Ret ε} (h : e ∈ localEvents i log) (h' : e' ∈ localEvents j log)
    (hc : creates e = some id) (hc' : creates e' = some id) : i = j ∧ e = e' := by
  by_contra hne
  have hentries : (i,e) ≠ (j,e') := fun he => hne (Prod.mk.inj he)
  rcases ordered_of_mem (mem_local.mp h) (mem_local.mp h') hentries with ⟨a, b, c, he⟩ | ⟨a, b, c, he⟩
  · rw [he] at run
    exact ha.apart run hc hc'
  · rw [he] at run
    exact ha.apart run hc' hc

/-- The call that uses an id up: its request created the id, and has not used it since. -/
def UsesOwn (creates : Event Op Ret ε → Option κ) (completes : Op → Option κ) (id : κ)
    (h : List (Event Op Ret ε)) : Prop :=
  ∃ before e mid, h = before ++ e :: mid ∧ creates e = some id ∧ ∀ d ∈ mid, completes d.op ≠ some id

/-- Ids that only their creators use up, each once since its creation, are used up once. -/
theorem Allocates.used_once (ha : Allocates machine creates taken) (completes : Op → Option κ)
    (hdisjoint : ∀ e id id', creates e = some id → completes e.op ≠ some id')
    (rule : ∀ {pre post : Log ι Op Ret ε} {i op r id}, log = pre ++ (i,⟨op,r⟩) :: post →
      completes op = some id → UsesOwn creates completes id (localEvents i pre))
    (run : Run machine ps₀ s₀ log ps s) {pre mid post : Log ι Op Ret ε} {i j : ι}
    {op op' : Op} {r : Except ε (Ret op)} {r' : Except ε (Ret op')}
    (hlog : log = pre ++ (i,⟨op,r⟩) :: (mid ++ (j,⟨op',r'⟩) :: post))
    (hc : completes op = some id) : completes op' ≠ some id := by
  intro hc'
  have hlog' : log = (pre ++ (i,⟨op,r⟩) :: mid) ++ (j,⟨op',r'⟩) :: post := by
    rw [hlog]
    simp
  obtain ⟨before₁, e₁, mid₁, hfirst, hcreate₁, _⟩ := rule hlog hc
  obtain ⟨before₂, e₂, mid₂, hsecond, hcreate₂, hunused⟩ := rule hlog' hc'
  subst hlog
  have hcreated₁ : (i,e₁) ∈ pre := by
    rw [← mem_local, hfirst]
    simp
  have hcreated₂ : (j,e₂) ∈ pre ++ (i,⟨op,r⟩) :: mid := by
    rw [← mem_local, hsecond]
    simp
  -- the first use is before the creation that the second relies on, so that one is a second creation
  have hin₁ : e₁ ∈ localEvents i (pre ++ (i,⟨op,r⟩) :: (mid ++ (j,⟨op',r'⟩) :: post)) :=
    mem_local.mpr (List.mem_append_left _ hcreated₁)
  have hin₂ : e₂ ∈ localEvents j (pre ++ (i,⟨op,r⟩) :: (mid ++ (j,⟨op',r'⟩) :: post)) := by
    rw [mem_local, hlog']
    exact List.mem_append_left _ hcreated₂
  obtain ⟨rfl, rfl⟩ := ha.unique run hin₁ hin₂ hcreate₁ hcreate₂
  obtain ⟨a, b, hsplit, ha₂, _⟩ := local_split hsecond
  rcases List.append_eq_append_iff.mp hsplit with ⟨m, rfl, htail⟩ | ⟨m, rfl, htail⟩
  · cases m with
    | nil =>
      simp only [List.nil_append, List.cons.injEq, Prod.mk.injEq, true_and] at htail
      obtain ⟨he, _⟩ := htail
      exact hdisjoint e₁ id id hcreate₁ (by rw [← he]; exact hc)
    | cons x m =>
      simp only [List.cons_append, List.cons.injEq] at htail
      obtain ⟨p, q, rfl⟩ := List.append_of_mem hcreated₁
      rw [hlog', hsplit] at run
      simp only [List.append_assoc, List.cons_append] at run
      have hrun : Run machine ps₀ s₀ (p ++ (i,e₁) :: ((q ++ x :: m) ++ (i,e₁) ::
          (b ++ (i,⟨op',r'⟩) :: post))) ps s := by
        simpa using run
      exact ha.apart hrun hcreate₁ hcreate₁
  · cases m with
    | nil =>
      simp only [List.nil_append, List.cons.injEq, Prod.mk.injEq, true_and] at htail
      obtain ⟨he, _⟩ := htail
      exact hdisjoint e₁ id id hcreate₁ (by rw [he]; exact hc)
    | cons x m =>
      simp only [List.cons_append, List.cons.injEq] at htail
      obtain ⟨rfl, hb⟩ := htail
      have hused : (⟨op,r⟩ : Event Op Ret ε) ∈ mid₂ := by
        have hlocal := hsecond
        rw [show a ++ (i,e₁) :: m ++ (i,⟨op,r⟩) :: mid = a ++ (i,e₁) :: (m ++ (i,⟨op,r⟩) :: mid) by simp,
          local_append, local_cons_self, ha₂] at hlocal
        have htails := (List.cons.inj (List.append_cancel_left hlocal)).2
        rw [← htails, local_append, local_cons_self]
        simp
      exact hunused _ hused hc

end Allocation

end Woodhouse.Effects
