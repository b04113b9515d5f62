import Woodhouse.Sql.Order
import Woodhouse.Sql.Window

namespace Woodhouse.Sql

variable {α β κ μ : Type}

/-- `LEFT JOIN … ON on`. -/
def leftJoin (on : α → β → Bool) (left : List α) (right : List β) : List (α × Option β) :=
  left.flatMap (fun a =>
    match right.filter (on a) with
    | [] => [(a,none)]
    | found => found.map (fun b => (a,some b)))

variable {on : α → β → Bool} {left : List α} {right : List β}

theorem mem_left_of_leftJoin {p : α × Option β} (h : p ∈ leftJoin on left right) : p.1 ∈ left := by
  obtain ⟨a,ha,hp⟩ := List.mem_flatMap.mp h
  split at hp
  · rw [List.mem_singleton.mp hp]
    exact ha
  · obtain ⟨b,_,rfl⟩ := List.mem_map.mp hp
    exact ha

theorem mem_leftJoin_some {a : α} {b : β} : (a,some b) ∈ leftJoin on left right ↔
    a ∈ left ∧ b ∈ right ∧ on a b = true := by
  unfold leftJoin
  rw [List.mem_flatMap]
  constructor
  · rintro ⟨c,hc,h⟩
    split at h
    · cases List.mem_singleton.mp h
    · obtain ⟨d,hd,heq⟩ := List.mem_map.mp h
      cases heq
      obtain ⟨hd,hon⟩ := List.mem_filter.mp hd
      exact ⟨hc,hd,hon⟩
  · rintro ⟨ha,hb,hon⟩
    have hfound : b ∈ right.filter (on a) := List.mem_filter.mpr ⟨hb,hon⟩
    refine ⟨a,ha,?_⟩
    split
    · rename_i hnil
      rw [hnil] at hfound
      cases hfound
    · exact List.mem_map.mpr ⟨b,hfound,rfl⟩

theorem mem_leftJoin_none {a : α} : (a,none) ∈ leftJoin on left right ↔
    a ∈ left ∧ ∀ b ∈ right, ¬ on a b = true := by
  unfold leftJoin
  rw [List.mem_flatMap]
  constructor
  · rintro ⟨c,hc,h⟩
    split at h
    · rename_i hnil
      cases List.mem_singleton.mp h
      exact ⟨hc,List.filter_eq_nil_iff.mp hnil⟩
    · obtain ⟨d,_,heq⟩ := List.mem_map.mp h
      cases heq
  · rintro ⟨ha,hnone⟩
    refine ⟨a,ha,?_⟩
    rw [List.filter_eq_nil_iff.mpr hnone]
    exact List.mem_singleton_self _

variable (on right) in
/-- A left join keeps every row of its left side. -/
theorem leftJoin_keeps {a : α} (ha : a ∈ left) : ∃ b, (a,b) ∈ leftJoin on left right := by
  cases hfound : right.filter (on a) with
  | nil => exact ⟨none,List.mem_flatMap.mpr ⟨a,ha,by rw [hfound]; exact List.mem_singleton_self _⟩⟩
  | cons b found =>
    refine ⟨some b,List.mem_flatMap.mpr ⟨a,ha,?_⟩⟩
    rw [hfound]
    simp

/-- A left row that at most one right row matches is joined once. -/
theorem leftJoin_find (hright : right.Pairwise (fun b b' => ∀ a ∈ left, on a b → ¬ on a b')) :
    leftJoin on left right = left.map (fun a => (a,right.find? (on a))) := by
  unfold leftJoin
  rw [← List.flatMap_singleton' (left.map _),List.flatMap_map]
  refine List.flatMap_congr ?_
  intro a ha
  induction right with
  | nil => rfl
  | cons b right ih =>
    obtain ⟨hb,hrest⟩ := List.pairwise_cons.mp hright
    by_cases hon : on a b = true
    · have hnone : right.filter (on a) = [] :=
        List.filter_eq_nil_iff.mpr (fun b' hb' hon' => hb b' hb' a ha hon hon')
      rw [List.filter_cons_of_pos hon,hnone,List.find?_cons_of_pos hon]
      rfl
    · rw [List.filter_cons_of_neg hon,List.find?_cons_of_neg hon]
      exact ih hrest

/-- The row with `ROW_NUMBER() … = 1` comes first among those of its key. -/
theorem firstRows_least [DecidableEq κ] [LinearOrder μ] {key : α → κ} {rank : α → μ}
    {rows : List α} {a : α} (h : a ∈ firstRows key (orderBy rank rows)) :
    a ∈ rows ∧ ∀ b ∈ rows, key b = key a → rank a ≤ rank b := by
  refine ⟨mem_orderBy.mp (mem_of_firstRows h),?_⟩
  intro b hb hkey
  have hfirst : a ∈ (firstRows key (orderBy rank rows)).filter (fun c => key c = key a) :=
    List.mem_filter.mpr ⟨h,by simp⟩
  rw [firstRows_filter,Option.mem_toList] at hfirst
  obtain ⟨rest,hrows⟩ := List.head?_eq_some_iff.mp hfirst
  have hpairs := (orderBy_pairwise rank rows).filter (fun c => key c = key a)
  have hmem : b ∈ (orderBy rank rows).filter (fun c => key c = key a) :=
    List.mem_filter.mpr ⟨mem_orderBy.mpr hb,by simpa using hkey⟩
  rw [hrows] at hpairs hmem
  rcases List.mem_cons.mp hmem with rfl | hmem
  · exact le_refl _
  · exact (List.pairwise_cons.mp hpairs).1 b hmem

variable (on right) in
/-- Of the joined rows of each key, `ROW_NUMBER() … = 1` keeps one for the left row that
alone has the key. -/
theorem firstRows_leftJoin [DecidableEq κ] [LinearOrder μ] {key : α → κ}
    (rank : α × Option β → μ) {a : α} (ha : a ∈ left) (halone : ∀ b ∈ left, key b = key a → b = a) :
    ∃ b, (firstRows (fun p => key p.1) (orderBy rank (leftJoin on left right))).filter
      (fun p => key p.1 = key a) = [(a,b)] := by
  rw [firstRows_filter]
  obtain ⟨b,hb⟩ := leftJoin_keeps on right ha
  have hmem : (a,b) ∈ (orderBy rank (leftJoin on left right)).filter
      (fun p => key p.1 = key a) :=
    List.mem_filter.mpr ⟨mem_orderBy.mpr hb,by simp⟩
  cases hrows : (orderBy rank (leftJoin on left right)).filter (fun p => key p.1 = key a) with
  | nil =>
    rw [hrows] at hmem
    cases hmem
  | cons p rows =>
    have hp : p ∈ (orderBy rank (leftJoin on left right)).filter (fun p => key p.1 = key a) := by
      rw [hrows]
      exact List.mem_cons_self
    obtain ⟨hp,hkey⟩ := List.mem_filter.mp hp
    have hleft := mem_left_of_leftJoin (mem_orderBy.mp hp)
    obtain ⟨c,d⟩ := p
    have heq := halone c hleft (of_decide_eq_true hkey)
    subst heq
    exact ⟨d,rfl⟩

/-- A key that no left row has is kept for no row. -/
theorem firstRows_leftJoin_none [DecidableEq κ] [LinearOrder μ] {key : α → κ}
    (rank : α × Option β → μ) {k : κ} (h : ∀ a ∈ left, key a ≠ k) :
    (firstRows (fun p => key p.1) (orderBy rank (leftJoin on left right))).filter
      (fun p => key p.1 = k) = [] := by
  refine List.filter_eq_nil_iff.mpr ?_
  intro p hp hkey
  have hleft := mem_left_of_leftJoin (mem_orderBy.mp (mem_of_firstRows hp))
  exact h p.1 hleft (of_decide_eq_true hkey)

end Woodhouse.Sql
