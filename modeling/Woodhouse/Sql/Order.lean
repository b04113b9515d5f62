import Mathlib.Data.List.Pairwise
import Mathlib.Data.List.Sort
import Mathlib.Data.Prod.Lex
import Mathlib.Data.String.Basic

namespace Woodhouse.Sql

variable {α κ : Type} [LinearOrder κ] {key : α → κ} {rows sorted : List α}

/-- `ORDER BY key`; rows whose keys tie keep their order. Keys of several columns are
lexicographic products, and `DESC` is the dual order. -/
def orderBy (key : α → κ) (rows : List α) : List α :=
  rows.mergeSort (fun a b => decide (key a ≤ key b))

@[simp] theorem orderBy_nil (key : α → κ) : orderBy key [] = [] := List.mergeSort_nil

@[simp] theorem orderBy_singleton (key : α → κ) (a : α) : orderBy key [a] = [a] :=
  List.mergeSort_singleton a

theorem orderBy_perm (key : α → κ) (rows : List α) : (orderBy key rows).Perm rows :=
  List.mergeSort_perm rows _

@[simp] theorem mem_orderBy {a : α} : a ∈ orderBy key rows ↔ a ∈ rows :=
  (orderBy_perm key rows).mem_iff

theorem key_le_trans (key : α → κ) (a b c : α) (hab : decide (key a ≤ key b) = true)
    (hbc : decide (key b ≤ key c) = true) : decide (key a ≤ key c) = true :=
  decide_eq_true ((of_decide_eq_true hab).trans (of_decide_eq_true hbc))

theorem key_le_total (key : α → κ) (a b : α) :
    (decide (key a ≤ key b) || decide (key b ≤ key a)) = true := by
  simpa using le_total (key a) (key b)

theorem orderBy_pairwise (key : α → κ) (rows : List α) :
    (orderBy key rows).Pairwise (fun a b => key a ≤ key b) := by
  have h := List.pairwise_mergeSort (key_le_trans key) (key_le_total key) rows
  simpa [orderBy] using h

/-- Rows of different keys are in the strict order of their keys. -/
theorem orderBy_strict (hkeys : (rows.map key).Nodup) :
    (orderBy key rows).Pairwise (fun a b => key a < key b) := by
  have hne : (orderBy key rows).Pairwise (fun a b => key a ≠ key b) := by
    apply List.pairwise_map.mp
    exact ((orderBy_perm key rows).map key).nodup_iff.mpr hkeys
  exact ((orderBy_pairwise key rows).and hne).imp (fun h => lt_of_le_of_ne h.1 h.2)

/-- Rows in the order of their keys are not rearranged. -/
theorem orderBy_of_pairwise (h : rows.Pairwise (fun a b => key a ≤ key b)) :
    orderBy key rows = rows := by
  refine List.mergeSort_of_pairwise ?_
  simpa using h

/-- The only arrangement whose keys increase is the one `ORDER BY` gives. -/
theorem orderBy_eq (hperm : rows.Perm sorted)
    (h : sorted.Pairwise (fun a b => key a < key b)) : orderBy key rows = sorted := by
  refine List.Perm.eq_of_pairwise ?_ (orderBy_pairwise key rows)
    (h.imp le_of_lt) ((orderBy_perm key rows).trans hperm)
  intro a b ha hb hab hba
  have hmem : a ∈ sorted := hperm.mem_iff.mp (mem_orderBy.mp ha)
  by_contra hne
  have hdistinct : sorted.Pairwise (fun a b => key a ≠ key b) := h.imp ne_of_lt
  have : Std.Symm (fun a b : α => key a ≠ key b) := ⟨fun _ _ h => h.symm⟩
  exact hdistinct.forall hmem hb hne (le_antisymm hab hba)

/-- The rows of one key keep their order. -/
theorem orderBy_filter (key : α → κ) (rows : List α) (k : κ) :
    (orderBy key rows).filter (fun a => key a = k) = rows.filter (fun a => key a = k) := by
  have hkeys : ∀ a ∈ rows.filter (fun a => key a = k), key a = k :=
    fun a ha => of_decide_eq_true (List.mem_filter.mp ha).2
  have hsorted : (rows.filter (fun a => key a = k)).Pairwise
      (fun a b => decide (key a ≤ key b) = true) := by
    refine List.pairwise_of_forall_mem_list ?_
    intro a ha b hb
    rw [hkeys a ha,hkeys b hb]
    exact decide_eq_true (le_refl k)
  have hsub := (List.sublist_mergeSort (key_le_trans key) (key_le_total key) hsorted
    List.filter_sublist).filter (fun a => decide (key a = k))
  rw [List.filter_eq_self.mpr (fun a ha => decide_eq_true (hkeys a ha))] at hsub
  exact (hsub.eq_of_length ((orderBy_perm key rows).filter _).length_eq.symm).symm

theorem head?_orderBy {a : α} (h : (orderBy key rows).head? = some a) :
    a ∈ rows ∧ ∀ b ∈ rows, key a ≤ key b := by
  have hpair := orderBy_pairwise key rows
  obtain ⟨tail,hsorted⟩ := List.head?_eq_some_iff.mp h
  rw [hsorted] at hpair
  refine ⟨mem_orderBy.mp (hsorted ▸ List.mem_cons_self),?_⟩
  intro b hb
  have hmem : b ∈ a :: tail := hsorted ▸ mem_orderBy.mpr hb
  rcases List.mem_cons.mp hmem with rfl | hmem
  · exact le_refl _
  · exact (List.pairwise_cons.mp hpair).1 b hmem

/-- In the order of their keys, the rows below a key come first, then those with it. -/
theorem split_key (h : rows.Pairwise (fun a b => key a ≤ key b)) (k : κ) :
    rows = rows.filter (fun a => key a < k) ++
      (rows.filter (fun a => key a = k) ++ rows.filter (fun a => k < key a)) := by
  induction rows with
  | nil => rfl
  | cons a rows ih =>
    obtain ⟨hle,hrows⟩ := List.pairwise_cons.mp h
    have hrest := ih hrows
    rcases lt_trichotomy (key a) k with hlt | heq | hgt
    · simp only [List.filter_cons,hlt,hlt.ne,hlt.not_gt,decide_true,decide_false,if_true,
        Bool.false_eq_true,if_false,List.cons_append]
      rw [← hrest]
    · have hbelow : rows.filter (fun b => key b < k) = [] := by
        refine List.filter_eq_nil_iff.mpr ?_
        intro b hb hlt
        exact absurd (of_decide_eq_true hlt) (not_lt.mpr (heq ▸ hle b hb))
      rw [hbelow,List.nil_append] at hrest
      simp only [List.filter_cons,heq,lt_irrefl,decide_true,decide_false,if_true,
        Bool.false_eq_true,if_false,List.cons_append,hbelow,List.nil_append]
      rw [← hrest]
    · have hbelow : ∀ b ∈ rows, k < key b := fun b hb => lt_of_lt_of_le hgt (hle b hb)
      have hnone : rows.filter (fun b => key b < k) = [] ∧
          rows.filter (fun b => key b = k) = [] := by
        constructor
        · refine List.filter_eq_nil_iff.mpr ?_
          intro b hb hlt
          exact absurd (of_decide_eq_true hlt) (not_lt.mpr (hbelow b hb).le)
        · refine List.filter_eq_nil_iff.mpr ?_
          intro b hb heq
          exact absurd (of_decide_eq_true heq) (hbelow b hb).ne'
      rw [hnone.1,hnone.2] at hrest
      simp only [List.filter_cons,hgt,hgt.ne',hgt.not_gt,decide_true,decide_false,if_true,
        Bool.false_eq_true,if_false,hnone.1,hnone.2,List.nil_append] at hrest ⊢
      rw [← hrest]

/-- Rows whose keys tie may change places. -/
theorem pairwise_ties {front middle middle' back : List α} {k : κ}
    (h : (front ++ (middle ++ back)).Pairwise (fun a b => key a ≤ key b))
    (hperm : middle'.Perm middle) (hkey : ∀ a ∈ middle, key a = k) :
    (front ++ (middle' ++ back)).Pairwise (fun a b => key a ≤ key b) := by
  obtain ⟨hfront,hrest,hcross⟩ := List.pairwise_append.mp h
  obtain ⟨_,hback,hmiddle⟩ := List.pairwise_append.mp hrest
  refine List.pairwise_append.mpr ⟨hfront,List.pairwise_append.mpr ⟨?_,hback,?_⟩,?_⟩
  · refine List.pairwise_of_forall_mem_list ?_
    intro a ha b hb
    rw [hkey a (hperm.mem_iff.mp ha),hkey b (hperm.mem_iff.mp hb)]
  · intro a ha b hb
    exact hmiddle a (hperm.mem_iff.mp ha) b hb
  · intro a ha b hb
    refine hcross a ha b ?_
    rcases List.mem_append.mp hb with hb | hb
    · exact List.mem_append_left _ (hperm.mem_iff.mp hb)
    · exact List.mem_append_right _ hb

/-- A rearrangement of what a query keeps of a table is kept of a rearranged table. -/
theorem perm_filterMap {β : Type} {f : α → Option β} {table : List α} {kept : List β}
    (h : (table.filterMap f).Perm kept) :
    ∃ table' : List α, table'.Perm table ∧ table'.filterMap f = kept := by
  induction kept generalizing table with
  | nil => exact ⟨table,List.Perm.refl _,h.eq_nil⟩
  | cons b kept ih =>
    obtain ⟨a,ha,hb⟩ := List.mem_filterMap.mp (h.mem_iff.mpr List.mem_cons_self)
    obtain ⟨front,back,rfl⟩ := List.append_of_mem ha
    have hrest : ((front ++ back).filterMap f).Perm kept := by
      rw [List.filterMap_append,List.filterMap_cons_some hb] at h
      rw [List.filterMap_append]
      exact List.Perm.cons_inv (List.perm_middle.symm.trans h)
    obtain ⟨table',hperm,hkept⟩ := ih hrest
    refine ⟨a :: table',?_,?_⟩
    · exact (hperm.cons a).trans List.perm_middle.symm
    · rw [List.filterMap_cons_some hb,hkept]

end Woodhouse.Sql
