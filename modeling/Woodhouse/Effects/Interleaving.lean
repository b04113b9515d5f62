import Mathlib.Logic.Function.Basic
import Woodhouse.Effects.Prog

namespace Woodhouse.Effects

variable {Op : Type} {Ret : Op → Type} {ε α σ ι χ : Type}

/-- What one atomic call does to the shared state. The environment's part of the
answer is the choice `χ`; `none` is a choice the environment cannot make. -/
abbrev Machine (Op : Type) (Ret : Op → Type) (ε σ χ : Type) :=
  σ → (op : Op) → χ → Option (Except ε (Ret op) × σ)

/-- The machine whose environment is held to a contract. -/
def Machine.restrict (machine : Machine Op Ret ε σ χ) (contract : σ → (op : Op) → χ → Bool) :
    Machine Op Ret ε σ χ :=
  fun s op c => if contract s op c then machine s op c else none

theorem Machine.restrict_eq {machine : Machine Op Ret ε σ χ} {contract : σ → (op : Op) → χ → Bool}
    {s : σ} {op : Op} {c : χ} {r : Except ε (Ret op) × σ}
    (h : machine.restrict contract s op c = some r) :
    contract s op c = true ∧ machine s op c = some r := by
  unfold Machine.restrict at h
  split at h
  · rename_i hc
    exact ⟨hc, h⟩
  · cases h

/-- The machine whose calls may raise although they took effect: the second part of a choice is
what the caller is told instead of the answer. The state keeps every call that took effect, with
its answer. -/
def Machine.lossy (machine : Machine Op Ret ε σ χ) (raises : Op → ε → Bool) :
    Machine Op Ret ε (σ × List (Event Op Ret ε)) (χ × Option ε)
  | (s, effects), op, (c, lost) =>
    match machine s op c, lost with
    | some (.ok a, s'), none => some (.ok a, (s', effects ++ [⟨op, .ok a⟩]))
    | some (.ok a, s'), some e =>
      if raises op e then some (.error e, (s', effects ++ [⟨op, .ok a⟩])) else none
    | some (.error e, s'), none => some (.error e, (s', effects))
    | _, _ => none

theorem Machine.lossy_cases {machine : Machine Op Ret ε σ χ} {raises : Op → ε → Bool} {s s' : σ}
    {effects effects' : List (Event Op Ret ε)} {op : Op} {c : χ × Option ε}
    {r : Except ε (Ret op)}
    (h : machine.lossy raises (s, effects) op c = some (r, (s', effects'))) :
    (∃ a, machine s op c.1 = some (.ok a, s') ∧ effects' = effects ++ [⟨op, .ok a⟩] ∧
      ∀ b, r = .ok b → b = a) ∨
    (∃ e, machine s op c.1 = some (.error e, s') ∧ effects' = effects ∧ r = .error e) := by
  obtain ⟨choice, lost⟩ := c
  cases hdoes : machine s op choice with
  | none => simp [Machine.lossy, hdoes] at h
  | some x =>
    obtain ⟨answer, t⟩ := x
    cases answer with
    | ok a =>
      left
      cases lost with
      | none =>
        simp only [Machine.lossy, hdoes, Option.some.injEq, Prod.mk.injEq] at h
        obtain ⟨rfl, rfl, rfl⟩ := h
        exact ⟨a, rfl, rfl, fun b hb => (Except.ok.inj hb).symm⟩
      | some e =>
        simp only [Machine.lossy, hdoes] at h
        split at h
        · simp only [Option.some.injEq, Prod.mk.injEq] at h
          obtain ⟨rfl, rfl, rfl⟩ := h
          exact ⟨a, rfl, rfl, fun b hb => by cases hb⟩
        · cases h
    | error e =>
      right
      cases lost with
      | none =>
        simp only [Machine.lossy, hdoes, Option.some.injEq, Prod.mk.injEq] at h
        obtain ⟨rfl, rfl, rfl⟩ := h
        exact ⟨e, rfl, rfl, rfl⟩
      | some e' => simp [Machine.lossy, hdoes] at h

/-- The calls answered so far, each with the request that made it. -/
abbrev Log (ι : Type) (Op : Type) (Ret : Op → Type) (ε : Type) := List (ι × Event Op Ret ε)

def localEvents [DecidableEq ι] (i : ι) (log : Log ι Op Ret ε) : List (Event Op Ret ε) :=
  log.filterMap (fun entry => if entry.1 = i then some entry.2 else none)

section LocalEvents
variable [DecidableEq ι] (i j : ι) (e : Event Op Ret ε) (log rest : Log ι Op Ret ε)

@[simp] theorem local_nil : localEvents i ([] : Log ι Op Ret ε) = [] := rfl

@[simp] theorem local_cons_self : localEvents i ((i,e) :: log) = e :: localEvents i log := by
  simp [localEvents]

theorem local_cons_other (hij : j ≠ i) : localEvents i ((j,e) :: log) = localEvents i log := by
  simp [localEvents, hij]

@[simp] theorem local_append :
    localEvents i (log ++ rest) = localEvents i log ++ localEvents i rest := by
  simp [localEvents]

theorem mem_local {i : ι} {e : Event Op Ret ε} {log : Log ι Op Ret ε} :
    e ∈ localEvents i log ↔ (i,e) ∈ log := by
  simp only [localEvents, List.mem_filterMap, Prod.exists]
  constructor
  · rintro ⟨j, e', hm, he⟩
    split at he
    · rename_i hj
      subst hj
      simpa [← Option.some.inj he] using hm
    · cases he
  · intro hm
    exact ⟨i, e, hm, by simp⟩

/-- A local event sits somewhere in the log, with its local past and future around it. -/
theorem local_split {i : ι} {log : Log ι Op Ret ε} {before after : List (Event Op Ret ε)}
    {e : Event Op Ret ε} (h : localEvents i log = before ++ e :: after) :
    ∃ pre post, log = pre ++ (i,e) :: post ∧ localEvents i pre = before ∧
      localEvents i post = after := by
  induction log generalizing before with
  | nil => simp at h
  | cons entry log ih =>
    obtain ⟨j, d⟩ := entry
    by_cases hj : j = i
    · subst hj
      rw [local_cons_self] at h
      cases before with
      | nil =>
        simp only [List.nil_append, List.cons.injEq] at h
        obtain ⟨rfl, rfl⟩ := h
        exact ⟨[], log, rfl, rfl, rfl⟩
      | cons b before =>
        simp only [List.cons_append, List.cons.injEq] at h
        obtain ⟨rfl, ht⟩ := h
        obtain ⟨pre, post, rfl, hb, ha⟩ := ih ht
        exact ⟨(j,d) :: pre, post, rfl, by simp [hb], ha⟩
    · rw [local_cons_other i j d log hj] at h
      obtain ⟨pre, post, rfl, hb, ha⟩ := ih h
      exact ⟨(j,d) :: pre, post, rfl, by rw [local_cons_other i j d pre hj, hb], ha⟩

theorem local_split_head {i : ι} {log : Log ι Op Ret ε} {after : List (Event Op Ret ε)}
    {e : Event Op Ret ε} (h : localEvents i log = e :: after) :
    ∃ pre post, log = pre ++ (i,e) :: post ∧ localEvents i pre = [] ∧
      localEvents i post = after := by
  have hnil : localEvents i log = [] ++ e :: after := h
  exact local_split hnil

end LocalEvents

/-- Of two entries of a list, one comes first. -/
theorem ordered_of_mem {β : Type} {x y : β} {l : List β} (hx : x ∈ l) (hy : y ∈ l) (hne : x ≠ y) :
    (∃ a b c, l = a ++ x :: (b ++ y :: c)) ∨ ∃ a b c, l = a ++ y :: (b ++ x :: c) := by
  obtain ⟨a, b, rfl⟩ := List.append_of_mem hx
  rcases List.mem_append.mp hy with hy | hy
  · obtain ⟨a₁, a₂, rfl⟩ := List.append_of_mem hy
    exact .inr ⟨a₁, a₂, b, by simp⟩
  · rcases List.mem_cons.mp hy with rfl | hy
    · exact absurd rfl hne
    · obtain ⟨b₁, b₂, rfl⟩ := List.append_of_mem hy
      exact .inl ⟨a, b₁, b₂, rfl⟩

/-- `Run machine ps₀ s₀ log ps s`: the requests `ps₀`, interleaved call by call
from the shared state `s₀`, made the calls `log` and now stand at `ps` and `s`. -/
inductive Run [DecidableEq ι] (machine : Machine Op Ret ε σ χ) (ps₀ : ι → Prog Op Ret ε α) (s₀ : σ) :
    Log ι Op Ret ε → (ι → Prog Op Ret ε α) → σ → Prop
  | start : Run machine ps₀ s₀ [] ps₀ s₀
  | step {log ps s i op k c r s'} (before : Run machine ps₀ s₀ log ps s)
      (turn : ps i = .call op k) (does : machine s op c = some (r,s')) :
      Run machine ps₀ s₀ (log ++ [(i,⟨op,r⟩)]) (Function.update ps i (k r)) s'

namespace Run
variable [DecidableEq ι] {machine : Machine Op Ret ε σ χ} {ps₀ ps : ι → Prog Op Ret ε α}
  {s₀ s : σ} {log : Log ι Op Ret ε}

theorem trans {ps' : ι → Prog Op Ret ε α} {s' : σ} {log' : Log ι Op Ret ε}
    (h : Run machine ps₀ s₀ log ps s) (h' : Run machine ps s log' ps' s') :
    Run machine ps₀ s₀ (log ++ log') ps' s' := by
  induction h' with
  | start => simpa using h
  | step _ turn does ih => simpa using Run.step ih turn does

theorem single {i : ι} {op : Op} {k : Except ε (Ret op) → Prog Op Ret ε α} {c : χ}
    {r : Except ε (Ret op)} {s' : σ} (turn : ps i = .call op k)
    (does : machine s op c = some (r,s')) :
    Run machine ps s [(i,⟨op,r⟩)] (Function.update ps i (k r)) s' :=
  Run.step .start turn does

/-- A run passes through a state after each prefix of its log. -/
theorem split {pre post : Log ι Op Ret ε} (h : Run machine ps₀ s₀ (pre ++ post) ps s) :
    ∃ qs t, Run machine ps₀ s₀ pre qs t ∧ Run machine qs t post ps s := by
  generalize hl : pre ++ post = log at h
  induction h generalizing post with
  | start =>
    obtain ⟨rfl, rfl⟩ := List.append_eq_nil_iff.mp hl
    exact ⟨ps₀, s₀, .start, .start⟩
  | @step log ps s i op k c r s' before turn does ih =>
    rcases List.eq_nil_or_concat post with rfl | ⟨post, e, rfl⟩
    · rw [List.append_nil] at hl
      subst hl
      exact ⟨_, s', .step before turn does, .start⟩
    · rw [List.concat_eq_append, ← List.append_assoc] at hl
      obtain ⟨rfl, he⟩ := List.append_inj' hl rfl
      obtain rfl := List.singleton_inj.mp he
      rw [List.concat_eq_append]
      obtain ⟨qs, t, hpre, hpost⟩ := ih rfl
      exact ⟨qs, t, hpre, .step hpost turn does⟩

/-- One answered call of a run: who was about to make it, and the states around it. -/
theorem at_event {pre post : Log ι Op Ret ε} {i : ι} {op : Op} {r : Except ε (Ret op)}
    (h : Run machine ps₀ s₀ (pre ++ (i,⟨op,r⟩) :: post) ps s) :
    ∃ qs t c k t', Run machine ps₀ s₀ pre qs t ∧ qs i = .call op k ∧
      machine t op c = some (r,t') ∧
      Run machine (Function.update qs i (k r)) t' post ps s := by
  have hsplit : pre ++ (i,⟨op,r⟩) :: post = (pre ++ [(i,⟨op,r⟩)]) ++ post := by simp
  rw [hsplit] at h
  obtain ⟨qs', t', hpre, hpost⟩ := h.split
  generalize hl : pre ++ [(i,(⟨op,r⟩ : Event Op Ret ε))] = log' at hpre
  cases hpre with
  | start => simp at hl
  | @step _ qs t j op' k c r' _ before turn does =>
    obtain ⟨rfl, he⟩ := List.append_inj' hl rfl
    simp only [List.cons.injEq, Prod.mk.injEq, Event.mk.injEq, and_true] at he
    obtain ⟨rfl, rfl, he⟩ := he
    cases he
    exact ⟨qs, t, c, k, t', before, turn, does, hpost⟩

/-- The run to `ps` and `s` passes through `t` before the call `e` and `t'` after it. -/
def Around (machine : Machine Op Ret ε σ χ) (ps₀ : ι → Prog Op Ret ε α) (s₀ : σ)
    (pre : Log ι Op Ret ε) (e : Event Op Ret ε) (post : Log ι Op Ret ε)
    (ps : ι → Prog Op Ret ε α) (s t t' : σ) : Prop :=
  ∃ qs qs' c, Run machine ps₀ s₀ pre qs t ∧ machine t e.op c = some (e.ret,t') ∧
    Run machine qs' t' post ps s

theorem around {pre post : Log ι Op Ret ε} {i : ι} {e : Event Op Ret ε}
    (h : Run machine ps₀ s₀ (pre ++ (i,e) :: post) ps s) :
    ∃ t t', Around machine ps₀ s₀ pre e post ps s t t' := by
  obtain ⟨op, r⟩ := e
  obtain ⟨qs, t, c, k, t', before, _, does, after⟩ := h.at_event
  exact ⟨t, t', qs, _, c, before, does, after⟩

/-- The run to `ps` and `s` passes through the state `t` after the calls `pre`. -/
def Through (machine : Machine Op Ret ε σ χ) (ps₀ : ι → Prog Op Ret ε α) (s₀ : σ)
    (pre post : Log ι Op Ret ε) (ps : ι → Prog Op Ret ε α) (s t : σ) : Prop :=
  ∃ qs, Run machine ps₀ s₀ pre qs t ∧ Run machine qs t post ps s

/-- The run to `ps` and `s` goes from `t` to `t'` by the call `op` of request `i`. -/
def Takes (machine : Machine Op Ret ε σ χ) (ps₀ : ι → Prog Op Ret ε α) (s₀ : σ)
    (pre : Log ι Op Ret ε) (i : ι) (op : Op) (r : Except ε (Ret op)) (post : Log ι Op Ret ε)
    (ps : ι → Prog Op Ret ε α) (s t t' : σ) : Prop :=
  ∃ qs c k, Run machine ps₀ s₀ pre qs t ∧ qs i = .call op k ∧
    machine t op c = some (r,t') ∧ Run machine (Function.update qs i (k r)) t' post ps s

theorem Takes.through {pre post : Log ι Op Ret ε} {i : ι} {op : Op} {r : Except ε (Ret op)}
    {t t' : σ} (h : Takes machine ps₀ s₀ pre i op r post ps s t t') :
    Through machine ps₀ s₀ (pre ++ [(i,⟨op,r⟩)]) post ps s t' := by
  obtain ⟨qs, c, k, before, turn, does, after⟩ := h
  exact ⟨_, before.step turn does, after⟩

/-- What a longer run takes, its continuation still takes. -/
theorem Takes.trans {pre post rest : Log ι Op Ret ε} {i : ι} {op : Op} {r : Except ε (Ret op)}
    {ps' : ι → Prog Op Ret ε α} {s' t t' : σ}
    (h : Takes machine ps₀ s₀ pre i op r post ps s t t') (after : Run machine ps s rest ps' s') :
    Takes machine ps₀ s₀ pre i op r (post ++ rest) ps' s' t t' := by
  obtain ⟨qs, c, k, before, turn, does, between⟩ := h
  exact ⟨qs, c, k, before, turn, does, between.trans after⟩

/-- What a request did by itself is a trace of its program. -/
theorem trace (h : Run machine ps₀ s₀ log ps s) (i : ι) :
    Trace (ps₀ i) (localEvents i log) (ps i) := by
  induction h with
  | start => exact .refl _
  | @step log ps s j op k c r s' before turn does ih =>
    by_cases hj : j = i
    · subst hj
      simpa using ih.snoc turn r
    · rw [local_append, local_cons_other i j _ _ hj, Function.update_of_ne (Ne.symm hj)]
      simpa using ih

/-- A call condition of a request's program holds at every call of every run. -/
theorem obeys (h : Run machine ps₀ s₀ log ps s) {i : ι} {A : List (Event Op Ret ε) → Op → Prop}
    {Q : List (Event Op Ret ε) → Except ε α → Prop} (ho : Obeys A Q (ps₀ i) []) :
    Obeys A Q (ps i) (localEvents i log) := by
  simpa using ho.trace (h.trace i)

theorem allowed (h : Run machine ps₀ s₀ log ps s) {i : ι} {A : List (Event Op Ret ε) → Op → Prop}
    {Q : List (Event Op Ret ε) → Except ε α → Prop} (ho : Obeys A Q (ps₀ i) []) {op : Op}
    {k : Except ε (Ret op) → Prog Op Ret ε α} (turn : ps i = .call op k) :
    A (localEvents i log) op := by
  have hc := h.obeys ho
  rw [turn] at hc
  exact hc.1

theorem outcome (h : Run machine ps₀ s₀ log ps s) {i : ι} {A : List (Event Op Ret ε) → Op → Prop}
    {Q : List (Event Op Ret ε) → Except ε α → Prop} (ho : Obeys A Q (ps₀ i) []) {a : α}
    (done : ps i = .ret a) : Q (localEvents i log) (.ok a) := by
  have hc := h.obeys ho
  rwa [done] at hc

/-- The invariant rule: `I` holds initially and every call of every request keeps it. -/
theorem invariant {I : Log ι Op Ret ε → σ → Prop} (h : Run machine ps₀ s₀ log ps s)
    (start : I [] s₀)
    (step : ∀ log ps s i op k c r s', Run machine ps₀ s₀ log ps s → ps i = .call op k →
      machine s op c = some (r,s') → I log s → I (log ++ [(i,⟨op,r⟩)]) s') : I log s := by
  induction h with
  | start => exact start
  | step before turn does ih => exact step _ _ _ _ _ _ _ _ _ before turn does ih

/-- A contract on the environment only removes runs. -/
theorem of_restrict {contract : σ → (op : Op) → χ → Bool}
    (h : Run (machine.restrict contract) ps₀ s₀ log ps s) : Run machine ps₀ s₀ log ps s := by
  induction h with
  | start => exact .start
  | step _ turn does ih => exact .step ih turn (Machine.restrict_eq does).2

/-- An invariant of the shared state alone, whatever the requests are. -/
theorem state_invariant {I : σ → Prop} (h : Run machine ps₀ s₀ log ps s) (start : I s₀)
    (step : ∀ s op c r s', machine s op c = some (r,s') → I s → I s') : I s :=
  h.invariant (I := fun _ s => I s) start
    (fun _ _ _ _ _ _ _ _ _ _ _ does hi => step _ _ _ _ _ does hi)

/-- An answered call took effect. -/
theorem answered_effect {raises : Op → ε → Bool} {t : σ × List (Event Op Ret ε)}
    (h : Run (machine.lossy raises) ps₀ (s₀, []) log ps t) {i : ι} {op : Op} {a : Ret op}
    (hm : (i, ⟨op, .ok a⟩) ∈ log) : (⟨op, .ok a⟩ : Event Op Ret ε) ∈ t.2 := by
  revert hm
  refine h.invariant (I := fun log t => (i, ⟨op, .ok a⟩) ∈ log →
    (⟨op, .ok a⟩ : Event Op Ret ε) ∈ t.2) ?_ ?_
  · intro hm
    cases hm
  · rintro log ps ⟨s, effects⟩ j op' k c r ⟨s', effects'⟩ _ _ does ih hm
    rcases List.mem_append.mp hm with hm | hm
    · have hmem := ih hm
      rcases Machine.lossy_cases does with ⟨b, _, rfl, _⟩ | ⟨e, _, rfl, _⟩
      · exact List.mem_append_left _ hmem
      · exact hmem
    · cases List.mem_singleton.mp hm
      rcases Machine.lossy_cases does with ⟨b, _, rfl, hanswer⟩ | ⟨e, _, _, hraise⟩
      · rw [hanswer a rfl]
        exact List.mem_append_right _ (List.mem_singleton.mpr rfl)
      · cases hraise

end Run

/-- Run a fixed schedule: who moves, and the environment's choice for the call. -/
def play [DecidableEq ι] (machine : Machine Op Ret ε σ χ) :
    List (ι × χ) → Log ι Op Ret ε → (ι → Prog Op Ret ε α) → σ →
      Option (Log ι Op Ret ε × (ι → Prog Op Ret ε α) × σ)
  | [], log, ps, s => some (log,ps,s)
  | (i,c) :: schedule, log, ps, s =>
    match ps i with
    | .call op k =>
      match machine s op c with
      | some (r,s') => play machine schedule (log ++ [(i,⟨op,r⟩)]) (Function.update ps i (k r)) s'
      | none => none
    | _ => none

theorem run_of_play [DecidableEq ι] {machine : Machine Op Ret ε σ χ} {schedule : List (ι × χ)}
    {ps₀ ps ps' : ι → Prog Op Ret ε α} {s₀ s s' : σ} {log log' : Log ι Op Ret ε}
    (h : Run machine ps₀ s₀ log ps s) (hp : play machine schedule log ps s = some (log',ps',s')) :
    Run machine ps₀ s₀ log' ps' s' := by
  induction schedule generalizing log ps s with
  | nil =>
    simp only [play, Option.some.injEq, Prod.mk.injEq] at hp
    obtain ⟨rfl, rfl, rfl⟩ := hp
    exact h
  | cons entry schedule ih =>
    obtain ⟨i, c⟩ := entry
    unfold play at hp
    split at hp
    · rename_i op k turn
      split at hp
      · rename_i r t does
        exact ih (.step h turn does) hp
      · cases hp
    · cases hp

theorem run_of_schedule [DecidableEq ι] (machine : Machine Op Ret ε σ χ)
    (ps₀ : ι → Prog Op Ret ε α) (s₀ : σ) (schedule : List (ι × χ))
    (P : Log ι Op Ret ε × (ι → Prog Op Ret ε α) × σ → Bool)
    (h : (play machine schedule [] ps₀ s₀).any P = true) :
    ∃ log ps s, Run machine ps₀ s₀ log ps s ∧ P (log,ps,s) = true := by
  obtain ⟨⟨log,ps,s⟩,hp,hP⟩ := (Option.any_eq_true ..).mp h
  exact ⟨log,ps,s,run_of_play .start hp,hP⟩

end Woodhouse.Effects
