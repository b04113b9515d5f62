import Mathlib.Data.List.Basic

namespace Woodhouse.Sql

/-- A truth value of SQL; `none` is `NULL`. -/
abbrev Truth := Option Bool

def truthNot (p : Truth) : Truth := p.map not

def truthAnd : Truth → Truth → Truth
  | some false, _ => some false
  | _, some false => some false
  | some true, some true => some true
  | _, _ => none

def truthOr (p q : Truth) : Truth := truthNot (truthAnd (truthNot p) (truthNot q))

section Comparisons
variable {α : Type}

def equals [DecidableEq α] : Option α → Option α → Truth
  | some a, some b => some (decide (a = b))
  | _, _ => none

def greater [LT α] [DecidableLT α] : Option α → Option α → Truth
  | some a, some b => some (decide (b < a))
  | _, _ => none

/-- `x IN (…)` for a list of constants. -/
def isIn [DecidableEq α] (a : Option α) (values : List α) : Truth :=
  a.map (fun x => decide (x ∈ values))

end Comparisons

/-- `WHERE`, `IF` and `CASE WHEN` take a branch only on `TRUE`. -/
def holds (p : Truth) : Bool := p == some true

@[simp] theorem holds_some (b : Bool) : holds (some b) = b := by
  cases b <;> rfl

@[simp] theorem holds_none : holds none = false := rfl

@[simp] theorem truthNot_some (b : Bool) : truthNot (some b) = some (!b) := rfl

@[simp] theorem truthNot_none : truthNot none = none := rfl

@[simp] theorem truthAnd_some (a b : Bool) : truthAnd (some a) (some b) = some (a && b) := by
  cases a <;> cases b <;> rfl

@[simp] theorem truthOr_some (a b : Bool) : truthOr (some a) (some b) = some (a || b) := by
  cases a <;> cases b <;> rfl

@[simp] theorem truthOr_true (p : Truth) : truthOr (some true) p = some true := by
  cases p with
  | none => rfl
  | some b => cases b <;> rfl

end Woodhouse.Sql
