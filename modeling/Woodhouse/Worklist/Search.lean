import Mathlib.Algebra.BigOperators.Group.List.Basic
import Mathlib.Algebra.GroupWithZero.Nat
import Mathlib.Data.List.Perm.Basic

namespace Woodhouse.Worklist

variable {α ε : Type}

/-- A search that looks at one item at a time. An item ends it with an error or opens
others, which are smaller together. -/
structure Search (α ε : Type) where
  examine : α → Except ε (List α)
  size : α → Nat
  smaller : ∀ {a opened}, examine a = .ok opened → (opened.map size).sum < size a

/-- Where opened items go among the pending ones; the first pending item is taken next. -/
structure Strategy (α : Type) where
  push : List α → List α → List α
  perm : ∀ rest opened, (push rest opened).Perm (rest ++ opened)

def Strategy.stack : Strategy α :=
  { push := fun rest opened => opened.reverse ++ rest
    perm := fun rest opened =>
      (List.Perm.append_right rest (List.reverse_perm opened)).trans List.perm_append_comm }

namespace Search
variable (s : Search α ε) (p : Strategy α)

def total (pending : List α) : Nat := (pending.map s.size).sum

theorem total_push {a : α} {rest opened : List α} (h : s.examine a = .ok opened) :
    s.total (p.push rest opened) < s.total (a :: rest) := by
  have hperm : s.total (p.push rest opened) = s.total (rest ++ opened) :=
    ((p.perm rest opened).map s.size).sum_eq
  have hsmaller := s.smaller h
  rw [hperm]
  simp only [total,List.map_append,List.sum_append,List.map_cons,List.sum_cons]
  omega

def run : List α → Except ε Unit
  | [] => .ok ()
  | a :: rest =>
    match _h : s.examine a with
    | .error e => .error e
    | .ok opened => run (p.push rest opened)
termination_by pending => s.total pending
decreasing_by exact s.total_push p _h

@[simp] theorem run_nil : s.run p [] = .ok () := by
  unfold run
  rfl

theorem run_refused {a : α} {rest : List α} {e : ε} (h : s.examine a = .error e) :
    s.run p (a :: rest) = .error e := by
  unfold run
  split
  · rename_i h'
    rw [h] at h'
    exact congrArg Except.error (Except.error.inj h').symm
  · rename_i h'
    rw [h] at h'
    cases h'

theorem run_opened {a : α} {rest opened : List α} (h : s.examine a = .ok opened) :
    s.run p (a :: rest) = s.run p (p.push rest opened) := by
  conv_lhs => unfold run
  split
  · rename_i h'
    rw [h] at h'
    cases h'
  · rename_i h'
    rw [h] at h'
    rw [Except.ok.inj h']

/-- The items that are looked at unless an error comes first. -/
inductive Reaches (pending : List α) : α → Prop
  | pending {a} (h : a ∈ pending) : Reaches pending a
  | opened {a b opened} (ha : Reaches pending a) (h : s.examine a = .ok opened) (hb : b ∈ opened) :
      Reaches pending b

variable {s p} {pending rest opened : List α} {a b : α} {e : ε}

theorem Reaches.mono {pending' : List α} (h : s.Reaches pending b) (hsub : ∀ a ∈ pending, s.Reaches pending' a) :
    s.Reaches pending' b := by
  induction h with
  | pending h => exact hsub _ h
  | opened _ h hb ih => exact .opened ih h hb

theorem reaches_nil : ¬ s.Reaches [] b := by
  intro h
  induction h with
  | pending h => cases h
  | opened _ _ _ ih => exact ih

/-- Taking an item loses nothing but the item. -/
theorem reaches_cons (h : s.examine a = .ok opened) :
    s.Reaches (a :: rest) b ↔ b = a ∨ s.Reaches (p.push rest opened) b := by
  have hmem : ∀ c, c ∈ p.push rest opened ↔ c ∈ rest ∨ c ∈ opened := by
    intro c
    rw [(p.perm rest opened).mem_iff,List.mem_append]
  constructor
  · intro hb
    induction hb with
    | pending hb =>
      rcases List.mem_cons.mp hb with rfl | hb
      · exact .inl rfl
      · exact .inr (.pending ((hmem _).mpr (.inl hb)))
    | opened _ hopen hc ih =>
      rcases ih with rfl | ih
      · obtain rfl := Except.ok.inj (h.symm.trans hopen)
        exact .inr (.pending ((hmem _).mpr (.inr hc)))
      · exact .inr (.opened ih hopen hc)
  · rintro (rfl | hb)
    · exact .pending List.mem_cons_self
    · apply hb.mono
      intro c hc
      rcases (hmem c).mp hc with hc | hc
      · exact .pending (List.mem_cons_of_mem _ hc)
      · exact .opened (.pending List.mem_cons_self) h hc

/-- An error of the search is the error of an item it reaches. -/
theorem run_error (h : s.run p pending = .error e) : ∃ a, s.Reaches pending a ∧ s.examine a = .error e := by
  induction pending using run.induct s p with
  | case1 =>
    rw [run_nil] at h
    cases h
  | case2 a rest e' he =>
    rw [run_refused s p he] at h
    obtain rfl := Except.error.inj h
    exact ⟨a,.pending List.mem_cons_self,he⟩
  | case3 a rest opened ho ih =>
    rw [run_opened s p ho] at h
    obtain ⟨b,hb,he⟩ := ih h
    exact ⟨b,(reaches_cons ho).mpr (.inr hb),he⟩

/-- A search that ends well has looked at everything it reaches. -/
theorem run_ok (h : s.run p pending = .ok ()) (hb : s.Reaches pending b) :
    ∃ opened, s.examine b = .ok opened := by
  induction pending using run.induct s p with
  | case1 => exact absurd hb reaches_nil
  | case2 a rest e' he =>
    rw [run_refused s p he] at h
    cases h
  | case3 a rest opened ho ih =>
    rw [run_opened s p ho] at h
    rcases (reaches_cons ho).mp hb with rfl | hb
    · exact ⟨opened,ho⟩
    · exact ih h hb

/-- Whatever the strategy, the search fails exactly where it reaches an item that fails. -/
theorem run_fails_iff : (∃ e, s.run p pending = .error e) ↔
    ∃ a e, s.Reaches pending a ∧ s.examine a = .error e := by
  constructor
  · rintro ⟨e,h⟩
    obtain ⟨a,ha,he⟩ := run_error h
    exact ⟨a,e,ha,he⟩
  · rintro ⟨a,e,ha,he⟩
    cases hrun : s.run p pending with
    | error e' => exact ⟨e',rfl⟩
    | ok u =>
      obtain ⟨opened,ho⟩ := run_ok hrun ha
      rw [he] at ho
      cases ho

end Search

end Woodhouse.Worklist
