import Mathlib.Order.Basic
import Woodhouse.Python.Json

namespace Woodhouse.Python

/-- The value occurs in another, or is it. -/
inductive Json.Within (w : Json) : Json → Prop where
  | self : Json.Within w w
  | item {v : Json} {items : List Json} (hv : v ∈ items) (h : Json.Within w v) :
      Json.Within w (.arr items)
  | entry {e : Str × Json} {entries : List (Str × Json)} (he : e ∈ entries)
      (h : Json.Within w e.2) : Json.Within w (.obj entries)

/-- Induction over the values of the containers. -/
@[elab_as_elim]
theorem Json.induct {P : Json → Prop} (null : P .null) (bool : ∀ b, P (.bool b))
    (int : ∀ i, P (.int i)) (float : ∀ x, P (.float x)) (str : ∀ s, P (.str s))
    (arr : ∀ items, (∀ v ∈ items, P v) → P (.arr items))
    (obj : ∀ entries : List (Str × Json), (∀ e ∈ entries, P e.2) → P (.obj entries))
    (v : Json) : P v := by
  match v with
  | .null => exact null
  | .bool b => exact bool b
  | .int i => exact int i
  | .float x => exact float x
  | .str s => exact str s
  | .arr items =>
    exact arr items (fun w _ => Json.induct null bool int float str arr obj w)
  | .obj entries =>
    exact obj entries (fun e _ => Json.induct null bool int float str arr obj e.2)
termination_by sizeOf v
decreasing_by
  · rename_i hw
    have := List.sizeOf_lt_of_mem hw
    simp only [Json.arr.sizeOf_spec]
    omega
  · rename_i he
    have := List.sizeOf_lt_of_mem he
    obtain ⟨key,w⟩ := e
    simp only [Json.obj.sizeOf_spec,Prod.mk.sizeOf_spec] at this ⊢
    omega

section Within
variable {v w : Json} {items : List Json} {entries : List (Str × Json)}

theorem within_arr_iff : w.Within (.arr items) ↔ w = .arr items ∨ ∃ v ∈ items, w.Within v := by
  constructor
  · intro h
    cases h with
    | self => exact .inl rfl
    | item hv h => exact .inr ⟨_,hv,h⟩
  · rintro (rfl | ⟨v,hv,h⟩)
    · exact .self
    · exact .item hv h

theorem within_obj_iff : w.Within (.obj entries) ↔
    w = .obj entries ∨ ∃ e ∈ entries, w.Within e.2 := by
  constructor
  · intro h
    cases h with
    | self => exact .inl rfl
    | entry he h => exact .inr ⟨_,he,h⟩
  · rintro (rfl | ⟨e,he,h⟩)
    · exact .self
    · exact .entry he h

/-- A value that is no container has no other value in it. -/
theorem within_leaf_iff (harr : ∀ items, v ≠ .arr items) (hobj : ∀ entries, v ≠ .obj entries) :
    w.Within v ↔ w = v := by
  constructor
  · intro h
    cases h with
    | self => rfl
    | item hv h => exact absurd rfl (harr _)
    | entry he h => exact absurd rfl (hobj _)
  · rintro rfl
    exact .self

end Within

/-- `P` holds of the value and of all values in it. -/
def Json.Every (P : Json → Prop) (v : Json) : Prop := ∀ w : Json, w.Within v → P w

section Every
variable {P : Json → Prop} {v : Json} {items : List Json} {entries : List (Str × Json)}

theorem Json.Every.here (h : v.Every P) : P v := h v .self

theorem every_leaf_iff (harr : ∀ items, v ≠ .arr items) (hobj : ∀ entries, v ≠ .obj entries) :
    v.Every P ↔ P v := by
  unfold Json.Every
  simp only [within_leaf_iff harr hobj,forall_eq]

theorem every_arr_iff : (Json.arr items).Every P ↔ P (.arr items) ∧ ∀ v ∈ items, v.Every P := by
  constructor
  · intro h
    exact ⟨h.here,fun v hv w hw => h w (.item hv hw)⟩
  · rintro ⟨hhere,hitems⟩ w hw
    rcases within_arr_iff.mp hw with rfl | ⟨v,hv,hw⟩
    · exact hhere
    · exact hitems v hv w hw

theorem every_obj_iff : (Json.obj entries).Every P ↔
    P (.obj entries) ∧ ∀ e ∈ entries, e.2.Every P := by
  constructor
  · intro h
    exact ⟨h.here,fun e he w hw => h w (.entry he hw)⟩
  · rintro ⟨hhere,hentries⟩ w hw
    rcases within_obj_iff.mp hw with rfl | ⟨e,he,hw⟩
    · exact hhere
    · exact hentries e he w hw

end Every

mutual

/-- `p` is true of the value and of all values in it. -/
def Json.all (p : Json → Bool) : Json → Bool
  | .arr items => p (.arr items) && Json.allItems p items
  | .obj entries => p (.obj entries) && Json.allEntries p entries
  | .null => p .null
  | .bool b => p (.bool b)
  | .int i => p (.int i)
  | .float x => p (.float x)
  | .str s => p (.str s)

def Json.allItems (p : Json → Bool) : List Json → Bool
  | [] => true
  | v :: rest => Json.all p v && Json.allItems p rest

def Json.allEntries (p : Json → Bool) : List (Str × Json) → Bool
  | [] => true
  | (_,v) :: rest => Json.all p v && Json.allEntries p rest

end

section Decisions
variable {p : Json → Bool} {items : List Json} {entries : List (Str × Json)}

theorem allItems_eq : Json.allItems p items = items.all (Json.all p) := by
  induction items with
  | nil => rfl
  | cons v rest ih => rw [Json.allItems,ih,List.all_cons]

theorem allEntries_eq : Json.allEntries p entries = entries.all (fun e => Json.all p e.2) := by
  induction entries with
  | nil => rfl
  | cons e rest ih => rw [Json.allEntries,ih,List.all_cons]

theorem all_iff (p : Json → Bool) (v : Json) : Json.all p v = true ↔ v.Every (fun w => p w = true) := by
  induction v using Json.induct with
  | arr items ih =>
    rw [Json.all,allItems_eq,Bool.and_eq_true,List.all_eq_true,every_arr_iff]
    exact and_congr_right (fun _ => forall₂_congr ih)
  | obj entries ih =>
    rw [Json.all,allEntries_eq,Bool.and_eq_true,List.all_eq_true,every_obj_iff]
    exact and_congr_right (fun _ => forall₂_congr ih)
  | null => rw [Json.all,every_leaf_iff (by simp) (by simp)]
  | bool b => rw [Json.all,every_leaf_iff (by simp) (by simp)]
  | int i => rw [Json.all,every_leaf_iff (by simp) (by simp)]
  | float x => rw [Json.all,every_leaf_iff (by simp) (by simp)]
  | str s => rw [Json.all,every_leaf_iff (by simp) (by simp)]

instance decidableEvery (P : Json → Prop) [DecidablePred P] (v : Json) : Decidable (v.Every P) :=
  decidable_of_iff (Json.all (fun w => decide (P w)) v = true)
    ((all_iff _ v).trans (forall₂_congr (fun _ _ => decide_eq_true_iff)))

end Decisions

end Woodhouse.Python
