import Mathlib.Algebra.BigOperators.Group.List.Basic
import Mathlib.Algebra.Order.BigOperators.Group.List
import Mathlib.Algebra.Order.Group.Defs
import Woodhouse.Sql.Order
import Woodhouse.Sql.Window

namespace Woodhouse.Sql

section Nulls
variable {α : Type}

/-- `SUM`, which skips `NULL` and is `NULL` of no value. -/
def sumOf [Add α] [Zero α] (values : List (Option α)) : Option α :=
  match values.filterMap id with
  | [] => none
  | known => some known.sum

/-- `MIN`, which skips `NULL` and is `NULL` of no value. -/
def minOf [Min α] (values : List (Option α)) : Option α := (values.filterMap id).min?

/-- `MAX`, which skips `NULL` and is `NULL` of no value. -/
def maxOf [Max α] (values : List (Option α)) : Option α := (values.filterMap id).max?

theorem filterMap_known (values : List α) : (values.map some).filterMap id = values := by
  rw [List.filterMap_map]
  exact List.filterMap_some

theorem sumOf_known [Add α] [Zero α] {values : List α} (h : values ≠ []) :
    sumOf (values.map some) = some values.sum := by
  unfold sumOf
  rw [filterMap_known]
  cases values with
  | nil => exact absurd rfl h
  | cons a rest => rfl

theorem sumOf_getD [AddMonoid α] (values : List (Option α)) :
    (sumOf values).getD 0 = (values.map (fun v => v.getD 0)).sum := by
  have hsum : (sumOf values).getD 0 = (values.filterMap id).sum := by
    unfold sumOf
    cases values.filterMap id <;> rfl
  rw [hsum]
  clear hsum
  induction values with
  | nil => rfl
  | cons v values ih =>
    cases v with
    | none => simpa using ih
    | some x =>
      have hcons : (some x :: values).filterMap id = x :: values.filterMap id := rfl
      rw [hcons,List.sum_cons,ih]
      rfl

theorem maxOf_known [Max α] (values : List α) : maxOf (values.map some) = values.max? := by
  unfold maxOf
  rw [filterMap_known]

end Nulls

section Groups
variable {α κ : Type} [DecidableEq κ] {k : κ} {a : α} {groups : List (κ × List α)}

theorem insertGroup_keys (k : κ) (a : α) (groups : List (κ × List α)) :
    (insertGroup k a groups).map Prod.fst =
      if k ∈ groups.map Prod.fst then groups.map Prod.fst else groups.map Prod.fst ++ [k] := by
  induction groups with
  | nil => rfl
  | cons g groups ih =>
    obtain ⟨j,rows⟩ := g
    unfold insertGroup
    by_cases hj : j = k
    · subst hj
      simp
    · rw [if_neg hj,List.map_cons,ih]
      by_cases hk : k ∈ groups.map Prod.fst
      · simp [hk]
      · simp [hk,Ne.symm hj]

/-- A group of another key stays, and the group of the key gets the row. -/
theorem mem_insertGroup (hnodup : (groups.map Prod.fst).Nodup) {p : κ × List α}
    (h : p ∈ insertGroup k a groups) : (p ∈ groups ∧ p.1 ≠ k) ∨
      (∃ rows, (k,rows) ∈ groups ∧ p = (k,rows ++ [a])) ∨
        (k ∉ groups.map Prod.fst ∧ p = (k,[a])) := by
  induction groups with
  | nil => exact Or.inr (Or.inr ⟨by simp,List.mem_singleton.mp h⟩)
  | cons g groups ih =>
    obtain ⟨j,rows⟩ := g
    rw [List.map_cons,List.nodup_cons] at hnodup
    unfold insertGroup at h
    by_cases hj : j = k
    · subst hj
      rw [if_pos rfl] at h
      rcases List.mem_cons.mp h with rfl | h
      · exact Or.inr (Or.inl ⟨rows,List.mem_cons_self,rfl⟩)
      · refine Or.inl ⟨List.mem_cons_of_mem _ h,?_⟩
        intro hp
        exact hnodup.1 (hp ▸ List.mem_map.mpr ⟨p,h,rfl⟩)
    · rw [if_neg hj] at h
      rcases List.mem_cons.mp h with rfl | h
      · exact Or.inl ⟨List.mem_cons_self,hj⟩
      · rcases ih hnodup.2 h with ⟨hmem,hne⟩ | ⟨more,hmem,hp⟩ | ⟨hnone,hp⟩
        · exact Or.inl ⟨List.mem_cons_of_mem _ hmem,hne⟩
        · exact Or.inr (Or.inl ⟨more,List.mem_cons_of_mem _ hmem,hp⟩)
        · refine Or.inr (Or.inr ⟨?_,hp⟩)
          simpa [Ne.symm hj] using hnone

variable {key : α → κ} {rows : List α}

theorem mem_groupBy_keys : k ∈ (groupBy key rows).map Prod.fst ↔ ∃ a ∈ rows, key a = k := by
  induction rows using List.reverseRecOn with
  | nil => simp
  | append_singleton rows a ih =>
    rw [groupBy_snoc,insertGroup_keys]
    by_cases ha : key a ∈ (groupBy key rows).map Prod.fst
    · rw [if_pos ha,ih]
      constructor
      · rintro ⟨b,hb,hk⟩
        exact ⟨b,List.mem_append_left _ hb,hk⟩
      · rintro ⟨b,hb,hk⟩
        rcases List.mem_append.mp hb with hb | hb
        · exact ⟨b,hb,hk⟩
        · rw [List.mem_singleton.mp hb] at hk
          exact ih.mp (hk ▸ ha)
    · rw [if_neg ha,List.mem_append,ih,List.mem_singleton]
      constructor
      · rintro (⟨b,hb,hk⟩ | hk)
        · exact ⟨b,List.mem_append_left _ hb,hk⟩
        · exact ⟨a,by simp,hk.symm⟩
      · rintro ⟨b,hb,hk⟩
        rcases List.mem_append.mp hb with hb | hb
        · exact Or.inl ⟨b,hb,hk⟩
        · rw [List.mem_singleton.mp hb] at hk
          exact Or.inr hk.symm

theorem groupBy_keys_nodup (key : α → κ) (rows : List α) :
    ((groupBy key rows).map Prod.fst).Nodup := by
  induction rows using List.reverseRecOn with
  | nil => exact List.nodup_nil
  | append_singleton rows a ih =>
    rw [groupBy_snoc,insertGroup_keys]
    split
    · exact ih
    · rename_i ha
      refine List.nodup_append.mpr ⟨ih,by simp,?_⟩
      intro k hk j hj heq
      rw [heq,List.mem_singleton.mp hj] at hk
      exact ha hk

/-- Each group holds the rows of its key. -/
theorem groupBy_rows {p : κ × List α} (h : p ∈ groupBy key rows) :
    p.2 = rows.filter (fun a => key a = p.1) := by
  induction rows using List.reverseRecOn generalizing p with
  | nil => cases h
  | append_singleton rows a ih =>
    rw [groupBy_snoc] at h
    rw [List.filter_append]
    rcases mem_insertGroup (groupBy_keys_nodup key rows) h with ⟨hmem,hne⟩ | ⟨more,hmem,rfl⟩ |
      ⟨hnone,rfl⟩
    · rw [ih hmem]
      simp [Ne.symm hne]
    · have hmore := ih hmem
      simp only at hmore ⊢
      rw [← hmore]
      simp
    · have hempty : rows.filter (fun b => key b = key a) = [] := by
        refine List.filter_eq_nil_iff.mpr ?_
        intro b hb heq
        exact hnone (mem_groupBy_keys.mpr ⟨b,hb,of_decide_eq_true heq⟩)
      simp [hempty]

theorem mem_groupBy {g : List α} : (k,g) ∈ groupBy key rows ↔
    g = rows.filter (fun a => key a = k) ∧ ∃ a ∈ rows, key a = k := by
  constructor
  · intro h
    exact ⟨groupBy_rows h,mem_groupBy_keys.mp (List.mem_map.mpr ⟨_,h,rfl⟩)⟩
  · rintro ⟨rfl,hk⟩
    obtain ⟨p,hp,rfl⟩ := List.mem_map.mp (mem_groupBy_keys.mpr hk)
    rw [← groupBy_rows hp]
    exact hp

/-- Keys that occur once and cover the rows count every row once. -/
theorem sum_by_key {M : Type} [AddCommMonoid M] {keys : List κ} (hnodup : keys.Nodup)
    (hcover : ∀ a ∈ rows, key a ∈ keys) (f : α → M) :
    (keys.map (fun k => ((rows.filter (fun a => key a = k)).map f).sum)).sum = (rows.map f).sum := by
  induction rows with
  | nil => simp
  | cons a rows ih =>
    obtain ⟨ha,hrows⟩ := List.forall_mem_cons.mp hcover
    have hsplit : ∀ k, (((a :: rows).filter (fun b => key b = k)).map f).sum =
        (if key a = k then f a else 0) + ((rows.filter (fun b => key b = k)).map f).sum := by
      intro k
      by_cases hk : key a = k
      · simp [hk]
      · simp [hk]
    have hone : (keys.map (fun k => if key a = k then f a else 0)).sum = f a := by
      rw [List.sum_map_eq_nsmul_single (key a) _ (fun k hk _ => if_neg (Ne.symm hk)),
        List.count_eq_one_of_mem hnodup ha,if_pos rfl,one_nsmul]
    rw [List.map_congr_left (fun k _ => hsplit k),List.sum_map_add,ih hrows,hone,List.map_cons,
      List.sum_cons]

/-- The only group of a key. -/
theorem find_groupBy (rows : List α) (k : κ) :
    (groupBy key rows).find? (fun g => g.1 = k) =
      if rows.filter (fun a => key a = k) = [] then none
      else some (k,rows.filter (fun a => key a = k)) := by
  cases hfound : (groupBy key rows).find? (fun g => g.1 = k) with
  | none =>
    have hempty : rows.filter (fun a => key a = k) = [] := by
      refine List.filter_eq_nil_iff.mpr ?_
      intro a ha hk
      obtain ⟨g,hg,hkey⟩ := List.mem_map.mp (mem_groupBy_keys.mpr ⟨a,ha,of_decide_eq_true hk⟩)
      exact List.find?_eq_none.mp hfound g hg (decide_eq_true hkey)
    rw [if_pos hempty]
  | some g =>
    have hkey : g.1 = k := by simpa using List.find?_some hfound
    subst hkey
    have hmem := List.mem_of_find?_eq_some hfound
    obtain ⟨a,ha,hk⟩ := mem_groupBy_keys.mp (List.mem_map_of_mem hmem)
    have hne : rows.filter (fun a => key a = g.1) ≠ [] :=
      List.ne_nil_of_mem (List.mem_filter.mpr ⟨ha,decide_eq_true hk⟩)
    rw [if_neg hne,← groupBy_rows hmem]

/-- Of rows with different keys, the ones of a key are the one that is found. -/
theorem filter_key {k : κ} {rows : List α} (hnodup : (rows.map key).Nodup) :
    rows.filter (fun a => key a = k) = (rows.find? (fun a => key a = k)).toList := by
  induction rows with
  | nil => rfl
  | cons a rows ih =>
    rw [List.map_cons,List.nodup_cons] at hnodup
    by_cases hk : key a = k
    · have hnone : rows.filter (fun b => key b = k) = [] := by
        refine List.filter_eq_nil_iff.mpr ?_
        intro b hb hkey
        exact hnodup.1 (List.mem_map.mpr ⟨b,hb,(of_decide_eq_true hkey).trans hk.symm⟩)
      have ha : decide (key a = k) = true := decide_eq_true hk
      rw [List.filter_cons,List.find?_cons,if_pos ha,hnone,ha]
      rfl
    · have ha : decide (key a = k) = false := decide_eq_false hk
      rw [List.filter_cons,List.find?_cons,ha,if_neg Bool.false_ne_true]
      exact ih hnodup.2

/-- A key that a row has joins its group alone. -/
theorem filter_groupBy {rows : List α} (h : ∃ a ∈ rows, key a = k) :
    (groupBy key rows).filter (fun g => g.1 = k) = [(k,rows.filter (fun a => key a = k))] := by
  obtain ⟨a,ha,hk⟩ := h
  have hne : rows.filter (fun a => key a = k) ≠ [] :=
    List.ne_nil_of_mem (List.mem_filter.mpr ⟨ha,decide_eq_true hk⟩)
  rw [filter_key (groupBy_keys_nodup key rows),find_groupBy,if_neg hne]
  rfl

end Groups

section Order
variable {α κ : Type} [LinearOrder κ] {key : α → κ} {rows rows' : List α}

/-- Rows of different keys are ordered alike in whatever order they come. -/
theorem orderBy_same (hkeys : (rows.map key).Nodup) (hkeys' : (rows'.map key).Nodup)
    (h : ∀ a, a ∈ rows ↔ a ∈ rows') : orderBy key rows = orderBy key rows' := by
  have hperm : rows.Perm rows' :=
    (List.perm_ext_iff_of_nodup (List.Nodup.of_map key hkeys) (List.Nodup.of_map key hkeys')).mpr h
  apply orderBy_eq (hperm.trans (orderBy_perm key rows').symm)
  exact orderBy_strict hkeys'

end Order

section Totals
variable {α R : Type} [AddCommGroup R]

/-- The running totals of a column. -/
def runningTotals (f : α → R) (rows : List α) : List R :=
  (overRows (fun frame => (frame.map f).sum) rows).map Prod.snd

@[simp] theorem runningTotals_snoc (f : α → R) (rows : List α) (a : α) :
    runningTotals f (rows ++ [a]) = runningTotals f rows ++ [(rows.map f).sum + f a] := by
  simp [runningTotals]

variable [LinearOrder R] [IsOrderedAddMonoid R] {f : α → R} {rows : List α}

theorem runningTotals_bounds (h : ∀ a ∈ rows, 0 ≤ f a) :
    ∀ x ∈ runningTotals f rows, 0 ≤ x ∧ x ≤ (rows.map f).sum := by
  induction rows using List.reverseRecOn with
  | nil => intro x hx; cases hx
  | append_singleton rows a ih =>
    have hrows : ∀ b ∈ rows, 0 ≤ f b := fun b hb => h b (List.mem_append_left _ hb)
    have ha : 0 ≤ f a := h a (by simp)
    have hsum : 0 ≤ (rows.map f).sum := by
      refine List.sum_nonneg ?_
      intro y hy
      obtain ⟨b,hb,rfl⟩ := List.mem_map.mp hy
      exact hrows b hb
    intro x hx
    rw [runningTotals_snoc] at hx
    rw [List.map_append,List.sum_append,List.map_singleton,List.sum_singleton]
    rcases List.mem_append.mp hx with hx | hx
    · obtain ⟨hlow,hhigh⟩ := ih hrows x hx
      exact ⟨hlow,hhigh.trans (le_add_of_nonneg_right ha)⟩
    · rw [List.mem_singleton.mp hx]
      exact ⟨add_nonneg hsum ha,le_refl _⟩

/-- What is never negative adds up to more and more. -/
theorem runningTotals_mono (h : ∀ a ∈ rows, 0 ≤ f a) :
    (runningTotals f rows).Pairwise (fun x y => x ≤ y) := by
  induction rows using List.reverseRecOn with
  | nil => exact List.Pairwise.nil
  | append_singleton rows a ih =>
    have hrows : ∀ b ∈ rows, 0 ≤ f b := fun b hb => h b (List.mem_append_left _ hb)
    have ha : 0 ≤ f a := h a (by simp)
    rw [runningTotals_snoc]
    refine List.pairwise_append.mpr ⟨ih hrows,List.pairwise_singleton _ _,?_⟩
    intro x hx y hy
    rw [List.mem_singleton.mp hy]
    exact (runningTotals_bounds hrows x hx).2.trans (le_add_of_nonneg_right ha)

omit [LinearOrder R] [IsOrderedAddMonoid R] in
theorem runningTotals_last (h : rows ≠ []) :
    (runningTotals f rows).getLast? = some (rows.map f).sum := by
  cases rows using List.reverseRecOn with
  | nil => exact absurd rfl h
  | append_singleton rows a => simp

theorem runningTotals_max (hrows : rows ≠ []) (h : ∀ a ∈ rows, 0 ≤ f a) :
    (runningTotals f rows).max? = some (rows.map f).sum := by
  refine List.max?_eq_some_iff.mpr ⟨List.mem_of_getLast? (runningTotals_last hrows),?_⟩
  intro x hx
  exact (runningTotals_bounds h x hx).2

end Totals

end Woodhouse.Sql
