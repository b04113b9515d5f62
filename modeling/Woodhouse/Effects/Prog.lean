import Mathlib.Logic.Basic

namespace Woodhouse.Effects

/-- A sequential program as the tree of its calls. Every call is answered with
a value or an exception, and the program continues on either. -/
inductive Prog (Op : Type) (Ret : Op → Type) (ε α : Type) where
  | ret (a : α)
  | raise (e : ε)
  | call (op : Op) (k : Except ε (Ret op) → Prog Op Ret ε α)

variable {Op : Type} {Ret : Op → Type} {ε α β : Type}

namespace Prog

protected def bind : Prog Op Ret ε α → (α → Prog Op Ret ε β) → Prog Op Ret ε β
  | .ret a, f => f a
  | .raise e, _ => .raise e
  | .call op k, f => .call op (fun r => (k r).bind f)

/-- Python's `try: p except e: handler e`. -/
protected def tryCatch : Prog Op Ret ε α → (ε → Prog Op Ret ε α) → Prog Op Ret ε α
  | .ret a, _ => .ret a
  | .raise e, handler => handler e
  | .call op k, handler => .call op (fun r => (k r).tryCatch handler)

instance : Monad (Prog Op Ret ε) where
  pure := .ret
  bind := Prog.bind

instance : MonadExcept ε (Prog Op Ret ε) where
  throw := .raise
  tryCatch := Prog.tryCatch

def ofExcept : Except ε α → Prog Op Ret ε α
  | .ok a => .ret a
  | .error e => .raise e

/-- One call whose exception, if any, propagates to the caller. -/
def perform (op : Op) : Prog Op Ret ε (Ret op) := .call op ofExcept

/-- The same program over a larger set of calls and of exceptions. -/
def lift {Op' : Type} {Ret' : Op' → Type} {ε' : Type} (inj : Op → Op')
    (value : ∀ op, Ret' (inj op) → Ret op) (up : ε → ε') (down : ε' → ε) :
    Prog Op Ret ε α → Prog Op' Ret' ε' α
  | .ret a => .ret a
  | .raise e => .raise (up e)
  | .call op k => .call (inj op) (fun
    | .ok a => lift inj value up down (k (.ok (value op a)))
    | .error e => lift inj value up down (k (.error (down e))))

def finished : Prog Op Ret ε α → Bool
  | .call _ _ => false
  | _ => true

@[simp] theorem pure_eq (a : α) : (pure a : Prog Op Ret ε α) = .ret a := rfl

@[simp] theorem throw_eq (e : ε) : (throw e : Prog Op Ret ε α) = .raise e := rfl

@[simp] theorem ret_bind (a : α) (f : α → Prog Op Ret ε β) :
    (Prog.ret a >>= f) = f a := rfl

@[simp] theorem bind_ret_eq (a : α) (f : α → Prog Op Ret ε β) : (Prog.ret a).bind f = f a := rfl

@[simp] theorem raise_bind (e : ε) (f : α → Prog Op Ret ε β) :
    ((.raise e : Prog Op Ret ε α) >>= f) = .raise e := rfl

@[simp] theorem call_bind (op : Op) (k : Except ε (Ret op) → Prog Op Ret ε α)
    (f : α → Prog Op Ret ε β) : (Prog.call op k >>= f) = .call op (fun r => k r >>= f) := rfl

theorem bind_assoc {γ : Type} (p : Prog Op Ret ε α) (f : α → Prog Op Ret ε β)
    (g : β → Prog Op Ret ε γ) : (p >>= f >>= g) = p >>= fun a => f a >>= g := by
  induction p with
  | ret a => rfl
  | raise e => rfl
  | call op k ih =>
    simp only [call_bind]
    congr 1
    funext r
    exact ih r

@[simp] theorem ret_tryCatch (a : α) (h : ε → Prog Op Ret ε α) :
    tryCatch (Prog.ret a) h = .ret a := rfl

@[simp] theorem raise_tryCatch (e : ε) (h : ε → Prog Op Ret ε α) :
    tryCatch (.raise e : Prog Op Ret ε α) h = h e := rfl

@[simp] theorem call_tryCatch (op : Op) (k : Except ε (Ret op) → Prog Op Ret ε α)
    (h : ε → Prog Op Ret ε α) :
    tryCatch (Prog.call op k) h = .call op (fun r => tryCatch (k r) h) := rfl

@[simp] theorem ofExcept_ok (a : α) :
    (ofExcept (.ok a) : Prog Op Ret ε α) = .ret a := rfl

@[simp] theorem ofExcept_error (e : ε) :
    (ofExcept (.error e) : Prog Op Ret ε α) = .raise e := rfl

end Prog

/-- One answered call. -/
structure Event (Op : Type) (Ret : Op → Type) (ε : Type) where
  op : Op
  ret : Except ε (Ret op)

/-- `Trace p es q`: from `p`, the answered calls `es` lead to the remaining program `q`. -/
inductive Trace : Prog Op Ret ε α → List (Event Op Ret ε) → Prog Op Ret ε α → Prop
  | refl (p) : Trace p [] p
  | call {op k r es q} (tail : Trace (k r) es q) : Trace (.call op k) (⟨op, r⟩ :: es) q

theorem Trace.of_raise {e : ε} {es : List (Event Op Ret ε)} {q : Prog Op Ret ε α}
    (h : Trace (.raise e) es q) : es = [] ∧ q = .raise e := by
  cases h
  exact ⟨rfl, rfl⟩

theorem Trace.snoc {p q : Prog Op Ret ε α} {es : List (Event Op Ret ε)} {op : Op}
    {k : Except ε (Ret op) → Prog Op Ret ε α} (h : Trace p es q) (hq : q = .call op k)
    (r : Except ε (Ret op)) : Trace p (es ++ [⟨op, r⟩]) (k r) := by
  induction h with
  | refl p =>
    subst hq
    exact .call (.refl _)
  | call _ ih => exact .call (ih hq)

/-- The weakest condition on the history `h` of answered calls under which every
further call of `p` is one that `A` allows after the calls before it, and every
outcome of `p` satisfies `Q`. -/
def Obeys (A : List (Event Op Ret ε) → Op → Prop)
    (Q : List (Event Op Ret ε) → Except ε α → Prop) :
    Prog Op Ret ε α → List (Event Op Ret ε) → Prop
  | .ret a, h => Q h (.ok a)
  | .raise e, h => Q h (.error e)
  | .call op k, h => A h op ∧ ∀ r, Obeys A Q (k r) (h ++ [⟨op, r⟩])

section Obeys
variable {A : List (Event Op Ret ε) → Op → Prop}
  {Q : List (Event Op Ret ε) → Except ε α → Prop} {h : List (Event Op Ret ε)}

@[simp] theorem obeys_ret (a : α) : Obeys A Q (.ret a) h ↔ Q h (.ok a) := Iff.rfl

@[simp] theorem obeys_raise (e : ε) : Obeys A Q (.raise e) h ↔ Q h (.error e) := Iff.rfl

@[simp] theorem obeys_call (op : Op) (k : Except ε (Ret op) → Prog Op Ret ε α) :
    Obeys A Q (.call op k) h ↔ A h op ∧ ∀ r, Obeys A Q (k r) (h ++ [⟨op, r⟩]) := Iff.rfl

theorem obeys_ofExcept (r : Except ε α) : Obeys A Q (Prog.ofExcept r) h ↔ Q h r := by
  cases r <;> exact Iff.rfl

theorem obeys_perform (op : Op) {Q : List (Event Op Ret ε) → Except ε (Ret op) → Prop} :
    Obeys A Q (Prog.perform op) h ↔ A h op ∧ ∀ r, Q (h ++ [⟨op, r⟩]) r := by
  simp only [Prog.perform, obeys_call, obeys_ofExcept]

theorem obeys_true (p : Prog Op Ret ε α) (h : List (Event Op Ret ε)) :
    Obeys (fun _ _ => True) (fun _ _ => True) p h := by
  induction p generalizing h with
  | ret a => trivial
  | raise e => trivial
  | call op k ih => exact ⟨trivial, fun r => ih r _⟩

theorem Obeys.mono {Q' : List (Event Op Ret ε) → Except ε α → Prop} {p : Prog Op Ret ε α}
    (ho : Obeys A Q p h) (hq : ∀ h r, Q h r → Q' h r) : Obeys A Q' p h := by
  induction p generalizing h with
  | ret a => exact hq _ _ ho
  | raise e => exact hq _ _ ho
  | call op k ih => exact ⟨ho.1, fun r => ih r (ho.2 r)⟩

theorem Obeys.imp {A' : List (Event Op Ret ε) → Op → Prop} {p : Prog Op Ret ε α}
    (ho : Obeys A Q p h) (ha : ∀ h op, A h op → A' h op) : Obeys A' Q p h := by
  induction p generalizing h with
  | ret a => exact ho
  | raise e => exact ho
  | call op k ih => exact ⟨ha _ _ ho.1, fun r => ih r (ho.2 r)⟩

/-- Sequential composition: the continuation starts from any history the first
program can return with, and an exception passes through. -/
theorem Obeys.bind {Q' : List (Event Op Ret ε) → Except ε β → Prop} {p : Prog Op Ret ε α}
    {f : α → Prog Op Ret ε β} (ho : Obeys A Q p h)
    (hok : ∀ h a, Q h (.ok a) → Obeys A Q' (f a) h)
    (herr : ∀ h e, Q h (.error e) → Q' h (.error e)) : Obeys A Q' (p >>= f) h := by
  induction p generalizing h with
  | ret a => exact hok _ _ ho
  | raise e => exact herr _ _ ho
  | call op k ih => exact ⟨ho.1, fun r => ih r (ho.2 r)⟩

theorem Obeys.tryCatch {Q' : List (Event Op Ret ε) → Except ε α → Prop} {p : Prog Op Ret ε α}
    {handler : ε → Prog Op Ret ε α} (ho : Obeys A Q p h)
    (hok : ∀ h a, Q h (.ok a) → Q' h (.ok a))
    (herr : ∀ h e, Q h (.error e) → Obeys A Q' (handler e) h) :
    Obeys A Q' (MonadExcept.tryCatch p handler) h := by
  induction p generalizing h with
  | ret a => exact hok _ _ ho
  | raise e => exact herr _ _ ho
  | call op k ih => exact ⟨ho.1, fun r => ih r (ho.2 r)⟩

theorem obeys_perform_bind {op : Op} {f : Ret op → Prog Op Ret ε α} :
    Obeys A Q (Prog.perform op >>= f) h ↔ A h op ∧
      (∀ e, Q (h ++ [⟨op, .error e⟩]) (.error e)) ∧
      ∀ a, Obeys A Q (f a) (h ++ [⟨op, .ok a⟩]) := by
  constructor
  · intro ho
    exact ⟨ho.1, fun e => ho.2 (.error e), fun a => ho.2 (.ok a)⟩
  · rintro ⟨ha, herr, hok⟩
    refine ⟨ha, ?_⟩
    intro r
    cases r with
    | ok a => exact hok a
    | error e => exact herr e

theorem Obeys.trace {p q : Prog Op Ret ε α} {es : List (Event Op Ret ε)}
    (ho : Obeys A Q p h) (ht : Trace p es q) : Obeys A Q q (h ++ es) := by
  induction ht generalizing h with
  | refl p => simpa using ho
  | call tail ih => simpa using ih (ho.2 _)

/-- Every call of a trace was allowed after the calls before it. -/
theorem Obeys.allowed {p q : Prog Op Ret ε α} {pre post : List (Event Op Ret ε)}
    {e : Event Op Ret ε} (ho : Obeys A Q p h) (ht : Trace p (pre ++ e :: post) q) :
    A (h ++ pre) e.op := by
  induction pre generalizing p h with
  | nil =>
    cases ht with
    | call _ => simpa using ho.1
  | cons d pre ih =>
    cases ht with
    | call tail => simpa using ih (ho.2 _) tail

/-- The history only grows. -/
theorem Obeys.extends {p : Prog Op Ret ε α} (ho : Obeys A Q p h) :
    Obeys A (fun h' r => Q h' r ∧ h <+: h') p h := by
  induction p generalizing h with
  | ret a => exact ⟨ho, List.prefix_refl h⟩
  | raise e => exact ⟨ho, List.prefix_refl h⟩
  | call op k ih =>
    refine ⟨ho.1, ?_⟩
    intro r
    refine (ih r (ho.2 r)).mono ?_
    intro h' r' hq
    exact ⟨hq.1, (List.prefix_append h _).trans hq.2⟩

/-- A program ends after a trace of its own. -/
theorem Obeys.traced {p : Prog Op Ret ε α} (ho : Obeys A Q p h) :
    Obeys A (fun h' r => Q h' r ∧ ∃ es, h' = h ++ es ∧ Trace p es (Prog.ofExcept r)) p h := by
  induction p generalizing h with
  | ret a => exact ⟨ho, [], by simp, .refl _⟩
  | raise e => exact ⟨ho, [], by simp, .refl _⟩
  | call op k ih =>
    refine ⟨ho.1, ?_⟩
    intro r
    refine (ih r (ho.2 r)).mono ?_
    rintro h' r' ⟨hq, es, rfl, ht⟩
    exact ⟨hq, ⟨op,r⟩ :: es, by simp, .call ht⟩

/-- The calls of a program come after the history it started with. -/
theorem Obeys.since {p : Prog Op Ret ε α} (ho : Obeys A Q p h) :
    Obeys (fun h' op => h <+: h' ∧ A h' op) Q p h := by
  have hstart : ∀ (p : Prog Op Ret ε α) h', h <+: h' → Obeys A Q p h' →
      Obeys (fun h' op => h <+: h' ∧ A h' op) Q p h' := by
    intro p
    induction p with
    | ret a => exact fun _ _ hq => hq
    | raise e => exact fun _ _ hq => hq
    | call op k ih =>
      intro h' hp hc
      exact ⟨⟨hp, hc.1⟩, fun r => ih r _ (hp.trans (List.prefix_append _ _)) (hc.2 r)⟩
  exact hstart p h (List.prefix_refl h) ho

/-- The calls of a program are the ones its condition allows. -/
theorem Obeys.grown {P : Op → Prop} {p : Prog Op Ret ε α} (ho : Obeys (fun _ op => P op) Q p h) :
    Obeys (fun _ op => P op) (fun h' r => Q h' r ∧ ∃ es, h' = h ++ es ∧ ∀ e ∈ es, P e.op) p h := by
  induction p generalizing h with
  | ret a => exact ⟨ho, [], by simp, by simp⟩
  | raise e => exact ⟨ho, [], by simp, by simp⟩
  | call op k ih =>
    refine ⟨ho.1, ?_⟩
    intro r
    refine (ih r (ho.2 r)).mono ?_
    rintro h' r' ⟨hq, es, rfl, hes⟩
    refine ⟨hq, ⟨op,r⟩ :: es, by simp, ?_⟩
    intro e he
    rcases List.mem_cons.mp he with rfl | he
    · exact ho.1
    · exact hes e he

end Obeys

/-- A property of the history that the lifted calls keep holds whenever they are made. -/
theorem obeys_lift {Op' : Type} {Ret' : Op' → Type} {ε' : Type} {inj : Op → Op'}
    {value : ∀ op, Ret' (inj op) → Ret op} {up : ε → ε'} {down : ε' → ε}
    {A : List (Event Op' Ret' ε') → Op' → Prop} {I : List (Event Op' Ret' ε') → Prop}
    (allowed : ∀ h op, I h → A h (inj op)) (keeps : ∀ h op r, I h → I (h ++ [⟨inj op, r⟩]))
    (p : Prog Op Ret ε α) {h : List (Event Op' Ret' ε')} (start : I h) :
    Obeys A (fun h' _ => I h') (p.lift inj value up down) h := by
  induction p generalizing h with
  | ret a => exact start
  | raise e => exact start
  | call op k ih =>
    unfold Prog.lift
    refine ⟨allowed h op start, ?_⟩
    intro r
    cases r with
    | ok a => exact ih (.ok (value op a)) (keeps h op _ start)
    | error e => exact ih (.error (down e)) (keeps h op _ start)

/-- Every call of the program, whatever the answers, is one of `P`. -/
def Only (P : Op → Prop) : Prog Op Ret ε α → Prop
  | .ret _ => True
  | .raise _ => True
  | .call op k => P op ∧ ∀ r, Only P (k r)

/-- A run of the program whose calls are answered by a function. -/
def Prog.play (answer : (op : Op) → Except ε (Ret op)) :
    Prog Op Ret ε α → List (Event Op Ret ε) × Prog Op Ret ε α
  | .ret a => ([], .ret a)
  | .raise e => ([], .raise e)
  | .call op k =>
    let rest := (k (answer op)).play answer
    (⟨op, answer op⟩ :: rest.1, rest.2)

section Play
variable (answer : (op : Op) → Except ε (Ret op)) (p : Prog Op Ret ε α)

theorem trace_play : Trace p (p.play answer).1 (p.play answer).2 := by
  induction p with
  | ret a => exact .refl _
  | raise e => exact .refl _
  | call op k ih => exact .call (ih (answer op))

theorem play_answers : ∀ e ∈ (p.play answer).1, e.ret = answer e.op := by
  induction p with
  | ret a =>
    intro e he
    cases he
  | raise e =>
    intro e he
    cases he
  | call op k ih =>
    intro e he
    rcases List.mem_cons.mp he with rfl | he
    · rfl
    · exact ih (answer op) e he

end Play

section Only
variable {P : Op → Prop}

@[simp] theorem only_ret (a : α) : Only P (.ret a : Prog Op Ret ε α) := trivial

@[simp] theorem only_raise (e : ε) : Only P (.raise e : Prog Op Ret ε α) := trivial

@[simp] theorem only_ofExcept (r : Except ε α) : Only P (Prog.ofExcept r : Prog Op Ret ε α) := by
  cases r <;> trivial

@[simp] theorem only_perform (op : Op) :
    Only P (Prog.perform op : Prog Op Ret ε (Ret op)) ↔ P op :=
  ⟨fun h => h.1, fun h => ⟨h, fun r => only_ofExcept r⟩⟩

theorem Only.bind {p : Prog Op Ret ε α} {f : α → Prog Op Ret ε β} (hp : Only P p)
    (hf : ∀ a, Only P (f a)) : Only P (p >>= f) := by
  induction p with
  | ret a => exact hf a
  | raise e => trivial
  | call op k ih => exact ⟨hp.1, fun r => ih r (hp.2 r)⟩

theorem Only.tryCatch {p : Prog Op Ret ε α} {handler : ε → Prog Op Ret ε α} (hp : Only P p)
    (hh : ∀ e, Only P (handler e)) : Only P (MonadExcept.tryCatch p handler) := by
  induction p with
  | ret a => trivial
  | raise e => exact hh e
  | call op k ih => exact ⟨hp.1, fun r => ih r (hp.2 r)⟩

theorem Only.imp {P' : Op → Prop} {p : Prog Op Ret ε α} (hp : Only P p)
    (hi : ∀ op, P op → P' op) : Only P' p := by
  induction p with
  | ret a => trivial
  | raise e => trivial
  | call op k ih => exact ⟨hi op hp.1, fun r => ih r (hp.2 r)⟩

/-- Calls that are allowed after any history obey every condition that allows them. -/
theorem Only.obeys {A : List (Event Op Ret ε) → Op → Prop} {p : Prog Op Ret ε α}
    (hp : Only P p) (ha : ∀ h op, P op → A h op) (h : List (Event Op Ret ε)) :
    Obeys A (fun h' _ => h <+: h') p h := by
  have ho : Obeys A (fun _ _ => True) p h := by
    induction p generalizing h with
    | ret a => trivial
    | raise e => trivial
    | call op k ih => exact ⟨ha h op hp.1, fun r => ih r (hp.2 r) _⟩
  exact ho.extends.mono (fun _ _ hq => hq.2)

end Only

end Woodhouse.Effects
