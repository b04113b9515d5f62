import Mathlib.Data.Option.NAry
import Mathlib.Order.Lattice
import Woodhouse.Sql.Logic

namespace Woodhouse.Sql

/-- `TIMESTAMP_DIFF(s, t, unit)` of timestamps in microseconds: the whole units, cut off
towards zero. -/
def timestampDiff (unit s t : Int) : Int := (s - t).tdiv unit

/-- The microseconds of a second and of a millisecond. -/
def second : Int := 1000000

def millisecond : Int := 1000

/-- `UNIX_MILLIS` of a timestamp counted from 1970. -/
def unixMillis (t : Int) : Int := t / 1000

section Comparisons
variable {α : Type} [LinearOrder α]

/-- `a <= b`. -/
def atMost (a b : Option α) : Truth := truthNot (greater a b)

/-- `a BETWEEN low AND high`. -/
def isBetween (a low high : Option α) : Truth := truthAnd (atMost low a) (atMost a high)

/-- `GREATEST`, `NULL` where an argument is. -/
def greatest (a b : Option α) : Option α := Option.map₂ max a b

@[simp] theorem holds_greater {a b : Option α} :
    holds (greater a b) = true ↔ ∃ x y, a = some x ∧ b = some y ∧ y < x := by
  cases a with
  | none => simp [greater]
  | some x =>
    cases b with
    | none => simp [greater]
    | some y => simp [greater]

@[simp] theorem holds_atMost {a b : Option α} :
    holds (atMost a b) = true ↔ ∃ x y, a = some x ∧ b = some y ∧ x ≤ y := by
  cases a with
  | none => simp [atMost,greater]
  | some x =>
    cases b with
    | none => simp [atMost,greater]
    | some y => simp [atMost,greater]

end Comparisons

@[simp] theorem holds_truthAnd {p q : Truth} :
    holds (truthAnd p q) = true ↔ holds p = true ∧ holds q = true := by
  cases p with
  | none =>
    cases q with
    | none => simp [truthAnd]
    | some b => cases b <;> simp [truthAnd]
  | some a =>
    cases q with
    | none => cases a <;> simp [truthAnd]
    | some b => simp

@[simp] theorem holds_truthOr {p q : Truth} :
    holds (truthOr p q) = true ↔ holds p = true ∨ holds q = true := by
  cases p with
  | none =>
    cases q with
    | none => simp [truthOr,truthAnd]
    | some b => cases b <;> simp [truthOr,truthAnd]
  | some a =>
    cases q with
    | none => cases a <;> simp [truthOr,truthAnd]
    | some b => simp

theorem holds_isBetween {α : Type} [LinearOrder α] {a low high : Option α} :
    holds (isBetween a low high) = true ↔
      ∃ x l h, a = some x ∧ low = some l ∧ high = some h ∧ l ≤ x ∧ x ≤ h := by
  unfold isBetween
  rw [holds_truthAnd,holds_atMost,holds_atMost]
  constructor
  · rintro ⟨⟨l,x,hl,hx,hle⟩,y,h,hy,hh,hyh⟩
    rw [hx,Option.some.injEq] at hy
    subst hy
    exact ⟨x,l,h,hx,hl,hh,hle,hyh⟩
  · rintro ⟨x,l,h,hx,hl,hh,hle,hyh⟩
    exact ⟨⟨l,x,hl,hx,hle⟩,x,h,hx,hh,hyh⟩

end Woodhouse.Sql
