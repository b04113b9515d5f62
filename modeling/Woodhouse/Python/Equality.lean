import Woodhouse.Python.Dicts
import Woodhouse.Python.Json

namespace Woodhouse.Python

/-- The value of a number; a Boolean is one, and a NaN has none. -/
def Json.numeric : Json → Option (PyFloat ⊕ ℚ)
  | .bool b => some (.inr (if b then 1 else 0))
  | .int n => some (.inr n)
  | .float (.inf negative) => some (.inl (.inf negative))
  | .float (.finite negative q) => some (.inr (if negative then -q else q))
  | _ => none

mutual

/-- Python's `==` of two JSON values that share no objects. -/
def pyEq : Json → Json → Bool
  | .null,.null => true
  | .str s,.str t => decide (s = t)
  | .arr xs,.arr ys => pyEqItems xs ys
  | .obj d,.obj e => decide (d.length = e.length) && pyEqEntries d e
  | a,b =>
    match a.numeric,b.numeric with
    | some x,some y => decide (x = y)
    | _,_ => false

def pyEqItems : List Json → List Json → Bool
  | [],[] => true
  | x :: xs,y :: ys => pyEq x y && pyEqItems xs ys
  | _,_ => false

/-- Each entry has an equal value in the other dictionary. -/
def pyEqEntries : Dict Json → Dict Json → Bool
  | [],_ => true
  | (key,x) :: rest,e =>
    (match Dict.get e key with
      | some y => pyEq x y
      | none => false) && pyEqEntries rest e

end

@[simp] theorem pyEq_str (s t : Str) : pyEq (.str s) (.str t) = decide (s = t) := by
  rw [pyEq]

@[simp] theorem pyEq_int (m n : Int) : pyEq (.int m) (.int n) = decide (m = n) := by
  simp [pyEq,Json.numeric]

@[simp] theorem pyEq_bool (b c : Bool) : pyEq (.bool b) (.bool c) = decide (b = c) := by
  cases b <;> cases c <;> simp [pyEq,Json.numeric]

@[simp] theorem pyEq_arr (xs ys : List Json) : pyEq (.arr xs) (.arr ys) = pyEqItems xs ys := by
  rw [pyEq]

@[simp] theorem pyEq_obj (d e : Dict Json) :
    pyEq (.obj d) (.obj e) = (decide (d.length = e.length) && pyEqEntries d e) := by
  rw [pyEq]

theorem pyEqItems_strs (xs ys : List Str) :
    pyEqItems (xs.map Json.str) (ys.map Json.str) = decide (xs = ys) := by
  induction xs generalizing ys with
  | nil =>
    cases ys with
    | nil => rfl
    | cons y ys => simp [pyEqItems]
  | cons x xs ih =>
    cases ys with
    | nil => simp [pyEqItems]
    | cons y ys =>
      simp [pyEqItems,ih]

theorem pyEqEntries_cons (key : Str) (x : Json) (rest e : Dict Json) :
    pyEqEntries ((key,x) :: rest) e =
      ((match e.get key with
        | some y => pyEq x y
        | none => false) && pyEqEntries rest e) := by
  rw [pyEqEntries]

/-- Dictionaries with the same keys in one order are compared value by value. -/
theorem pyEqEntries_sameKeys {d e rest : Dict Json} (hnodup : e.keys.Nodup) (hsub : ∀ entry ∈ rest, entry ∈ e)
    (hkeys : d.keys = rest.keys) :
    pyEqEntries d e = pyEqItems (d.map Prod.snd) (rest.map Prod.snd) := by
  induction d generalizing rest with
  | nil =>
    obtain rfl : rest = [] := List.map_eq_nil_iff.mp hkeys.symm
    rfl
  | cons entry d ih =>
    cases rest with
    | nil => cases hkeys
    | cons other rest =>
      obtain ⟨key,x⟩ := entry
      obtain ⟨key',y⟩ := other
      simp only [Dict.keys,List.map_cons,List.cons.injEq] at hkeys
      obtain ⟨rfl,hrest⟩ := hkeys
      have hget : e.get key = some y := Dict.get_of_mem hnodup (hsub _ List.mem_cons_self)
      have htail := ih (fun entry h => hsub entry (List.mem_cons_of_mem _ h)) hrest
      rw [pyEqEntries_cons,hget,htail,List.map_cons,List.map_cons,pyEqItems]

theorem pyEq_sameKeys {d e : Dict Json} (hnodup : e.keys.Nodup) (hkeys : d.keys = e.keys) :
    pyEq (.obj d) (.obj e) = pyEqItems (d.map Prod.snd) (e.map Prod.snd) := by
  have hlength : d.length = e.length := by
    have h := congrArg List.length hkeys
    rwa [Dict.keys,Dict.keys,List.length_map,List.length_map] at h
  rw [pyEq_obj,pyEqEntries_sameKeys hnodup (fun _ h => h) hkeys,decide_eq_true hlength,
    Bool.true_and]

end Woodhouse.Python
