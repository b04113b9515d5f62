import Mathlib.Data.List.Sort
import Mathlib.Data.Set.Defs

namespace Woodhouse.Codes

/-- No word of the set is a proper prefix of another one, so that a word tells where it ends. -/
def PrefixFree {α : Type} (words : Set (List α)) : Prop :=
  ∀ u ∈ words, ∀ v ∈ words, u <+: v → u = v

section Flatten
variable {α : Type} {words : Set (List α)} {xs ys : List (List α)}

theorem PrefixFree.head_eq (h : PrefixFree words) {x y tail tail' : List α} (hx : x ∈ words)
    (hy : y ∈ words) (heq : x ++ tail = y ++ tail') : x = y := by
  rcases List.prefix_or_prefix_of_prefix (List.prefix_append x tail)
    (heq ▸ List.prefix_append y tail') with hxy | hyx
  · exact h x hx y hy hxy
  · exact (h y hy x hx hyx).symm

/-- As many words with the same concatenation are the same words. -/
theorem PrefixFree.flatten_inj (h : PrefixFree words) (hx : ∀ x ∈ xs, x ∈ words)
    (hy : ∀ y ∈ ys, y ∈ words) (hlength : xs.length = ys.length)
    (heq : xs.flatten = ys.flatten) : xs = ys := by
  induction xs generalizing ys with
  | nil => exact (List.length_eq_zero_iff.mp hlength.symm).symm
  | cons x xs ih =>
    cases ys with
    | nil => cases hlength
    | cons y ys =>
      obtain ⟨hx,hxs⟩ := List.forall_mem_cons.mp hx
      obtain ⟨hy,hys⟩ := List.forall_mem_cons.mp hy
      rw [List.flatten_cons,List.flatten_cons] at heq
      obtain rfl := h.head_eq hx hy heq
      rw [ih hxs hys (Nat.succ.inj hlength) (List.append_cancel_left heq)]

end Flatten

section Sorting
variable {α : Type} [LE α] [DecidableLE α] [Std.IsLinearOrder α] {xs ys : List α}

/-- Two lists sort to one list exactly where they are one multiset. -/
theorem mergeSort_eq_iff :
    xs.mergeSort (fun a b => decide (a ≤ b)) = ys.mergeSort (fun a b => decide (a ≤ b)) ↔
      xs.Perm ys := by
  have htrans : ∀ a b c : α, decide (a ≤ b) = true → decide (b ≤ c) = true →
      decide (a ≤ c) = true := by
    intro a b c hab hbc
    exact decide_eq_true (Std.le_trans (of_decide_eq_true hab) (of_decide_eq_true hbc))
  have htotal : ∀ a b : α, (decide (a ≤ b) || decide (b ≤ a)) = true := by
    intro a b
    rcases Std.le_total (a := a) (b := b) with h | h
    · simp [h]
    · simp [h]
  have hx := List.mergeSort_perm xs (fun a b => decide (a ≤ b))
  have hy := List.mergeSort_perm ys (fun a b => decide (a ≤ b))
  constructor
  · intro h
    rw [h] at hx
    exact hx.symm.trans hy
  · intro h
    refine List.Perm.eq_of_pairwise ?_ (List.pairwise_mergeSort htrans htotal xs)
      (List.pairwise_mergeSort htrans htotal ys) (hx.trans (h.trans hy.symm))
    intro a b _ _ hab hba
    exact Std.le_antisymm (of_decide_eq_true hab) (of_decide_eq_true hba)

end Sorting

/-- Sorted before they are concatenated, as many words are told apart as multisets. -/
theorem PrefixFree.concatenation_eq_iff {α : Type} [LE (List α)] [DecidableLE (List α)]
    [Std.IsLinearOrder (List α)] {words : Set (List α)} (h : PrefixFree words)
    {xs ys : List (List α)} (hx : ∀ x ∈ xs, x ∈ words) (hy : ∀ y ∈ ys, y ∈ words)
    (hlength : xs.length = ys.length) :
    (xs.mergeSort (fun a b => decide (a ≤ b))).flatten =
      (ys.mergeSort (fun a b => decide (a ≤ b))).flatten ↔ xs.Perm ys := by
  rw [← mergeSort_eq_iff]
  refine ⟨?_,congrArg List.flatten⟩
  intro heq
  refine h.flatten_inj ?_ ?_ ?_ heq
  · intro x hmem
    exact hx x ((List.mergeSort_perm xs _).mem_iff.mp hmem)
  · intro y hmem
    exact hy y ((List.mergeSort_perm ys _).mem_iff.mp hmem)
  · rw [List.length_mergeSort,List.length_mergeSort,hlength]

end Woodhouse.Codes
