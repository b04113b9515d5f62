import Mathlib.Algebra.BigOperators.Group.List.Basic
import Mathlib.Algebra.Order.BigOperators.Group.List
import Mathlib.Algebra.Order.Group.Defs
import Mathlib.Tactic.Abel

namespace Woodhouse.Intervals

variable {R : Type}

/-- A stretch of a line, given by its two ends. -/
abbrev Span (R : Type) := R × R

/-- What the spans leave of the line from `lo` to `hi`. -/
def gaps : R → List (Span R) → R → List (Span R)
  | lo, [], hi => [(lo,hi)]
  | lo, s :: rest, hi => (lo,s.1) :: gaps s.2 rest hi

theorem gaps_snoc (lo hi : R) (spans : List (Span R)) (s : Span R) :
    gaps lo (spans ++ [s]) hi = gaps lo spans s.1 ++ [(s.2,hi)] := by
  induction spans generalizing lo with
  | nil => rfl
  | cons t spans ih => rw [List.cons_append,gaps,ih,gaps,List.cons_append]

section Lengths
variable [AddCommGroup R]

def length (s : Span R) : R := s.2 - s.1

def total (spans : List (Span R)) : R := (spans.map length).sum

@[simp] theorem total_nil : total ([] : List (Span R)) = 0 := rfl

@[simp] theorem total_cons (s : Span R) (spans : List (Span R)) :
    total (s :: spans) = length s + total spans := by
  unfold total
  rw [List.map_cons,List.sum_cons]

@[simp] theorem total_append (spans more : List (Span R)) :
    total (spans ++ more) = total spans + total more := by
  unfold total
  rw [List.map_append,List.sum_append]

end Lengths

section Filling
variable [AddCommGroup R] [LinearOrder R] {tolerance lo hi : R}

/-- The gaps no longer than a tolerance. -/
def slivers (tolerance lo : R) (spans : List (Span R)) (hi : R) : List (Span R) :=
  (gaps lo spans hi).filter (fun g => decide (length g ≤ tolerance))

def longGap (tolerance lo hi : R) : List (Span R) :=
  if tolerance < hi - lo then [(lo,hi)] else []

/-- The spans together with every gap longer than a tolerance. -/
def filled (tolerance : R) : R → List (Span R) → R → List (Span R)
  | lo, [], hi => longGap tolerance lo hi
  | lo, s :: rest, hi => longGap tolerance lo s.1 ++ s :: filled tolerance s.2 rest hi

theorem filled_ne_nil {spans : List (Span R)} (h : spans ≠ []) :
    filled tolerance lo spans hi ≠ [] := by
  cases spans with
  | nil => exact absurd rfl h
  | cons s rest => simp [filled]

/-- A gap is filled or a sliver. -/
theorem total_longGap (tolerance lo hi : R) :
    total (longGap tolerance lo hi) +
      total ([(lo,hi)].filter (fun g => decide (length g ≤ tolerance))) = hi - lo := by
  unfold longGap
  by_cases h : tolerance < hi - lo
  · have hlong : ¬ length (lo,hi) ≤ tolerance := not_le.mpr h
    rw [if_pos h]
    simp [hlong]
    rfl
  · have hshort : length (lo,hi) ≤ tolerance := not_lt.mp h
    rw [if_neg h]
    simp [hshort]
    rfl

/-- Filling leaves out exactly the slivers. -/
theorem total_filled (tolerance lo hi : R) (spans : List (Span R)) :
    total (filled tolerance lo spans hi) + total (slivers tolerance lo spans hi) = hi - lo := by
  induction spans generalizing lo with
  | nil => exact total_longGap tolerance lo hi
  | cons s rest ih =>
    have hrest := ih s.2
    have hgap := total_longGap tolerance lo s.1
    have hslivers : slivers tolerance lo (s :: rest) hi =
        [(lo,s.1)].filter (fun g => decide (length g ≤ tolerance)) ++
          slivers tolerance s.2 rest hi := by
      unfold slivers
      rw [← List.filter_append]
      rfl
    rw [hslivers,filled,total_append,total_cons,total_append]
    calc _ = (total (longGap tolerance lo s.1) +
            total ([(lo,s.1)].filter (fun g => decide (length g ≤ tolerance)))) + length s +
          (total (filled tolerance s.2 rest hi) + total (slivers tolerance s.2 rest hi)) := by abel
      _ = (s.1 - lo) + (s.2 - s.1) + (hi - s.2) := by rw [hgap,hrest,length]
      _ = hi - lo := by abel

/-- Carrying the last span over a long rest changes no sliver of positive length. -/
theorem total_slivers_carried (lo : R) (spans : List (Span R)) {s : Span R} (htol : 0 ≤ tolerance)
    (h : tolerance < hi - s.2) :
    total (slivers tolerance lo (spans ++ [s] ++ [(s.2,hi)]) hi) =
      total (slivers tolerance lo (spans ++ [s]) hi) := by
  have hlong : ¬ length (s.2,hi) ≤ tolerance := not_le.mpr h
  have hempty : ∀ a : R, length (a,a) = 0 := fun a => sub_self a
  unfold slivers
  rw [gaps_snoc,gaps_snoc,gaps_snoc]
  simp [hlong,hempty,htol]

end Filling

section Order
variable [LinearOrder R] {spans more : List (Span R)} {lo mid hi : R}

/-- Two spans share a stretch of positive length. -/
def Overlaps (a b : Span R) : Prop := max a.1 b.1 < min a.2 b.2

instance (a b : Span R) : Decidable (Overlaps a b) := inferInstanceAs (Decidable (_ < _))

/-- Spans of positive length between `lo` and `hi`, none starting before the last one ends. -/
def InOrder : R → List (Span R) → R → Prop
  | lo, [], hi => lo ≤ hi
  | lo, s :: rest, hi => lo ≤ s.1 ∧ s.1 < s.2 ∧ InOrder s.2 rest hi

theorem InOrder.le (h : InOrder lo spans hi) : lo ≤ hi := by
  induction spans generalizing lo with
  | nil => exact h
  | cons s rest ih =>
    obtain ⟨hlo,hlt,hrest⟩ := h
    exact hlo.trans (hlt.le.trans (ih hrest))

theorem InOrder.append (h : InOrder lo spans mid) (hmore : InOrder mid more hi) :
    InOrder lo (spans ++ more) hi := by
  induction spans generalizing lo with
  | nil =>
    cases more with
    | nil => exact le_trans h hmore
    | cons s rest => exact ⟨le_trans h hmore.1,hmore.2⟩
  | cons s rest ih => exact ⟨h.1,h.2.1,ih h.2.2⟩

theorem InOrder.mono (h : InOrder lo spans mid) (hle : mid ≤ hi) : InOrder lo spans hi := by
  have happend : InOrder lo (spans ++ []) hi := h.append hle
  rwa [List.append_nil] at happend

theorem InOrder.shrink {s : Span R} (h : InOrder lo (spans ++ [s]) hi) :
    InOrder lo (spans ++ [s]) s.2 := by
  induction spans generalizing lo with
  | nil => exact ⟨h.1,h.2.1,le_refl _⟩
  | cons t spans ih => exact ⟨h.1,h.2.1,ih h.2.2⟩

theorem InOrder.bounds (h : InOrder lo spans hi) :
    ∀ t ∈ spans, lo ≤ t.1 ∧ t.1 < t.2 ∧ t.2 ≤ hi := by
  induction spans generalizing lo with
  | nil => intro t ht; cases ht
  | cons s rest ih =>
    obtain ⟨hlo,hlt,hrest⟩ := h
    intro t ht
    rcases List.mem_cons.mp ht with rfl | ht
    · exact ⟨hlo,hlt,hrest.le⟩
    · obtain ⟨h1,h2,h3⟩ := ih hrest t ht
      exact ⟨hlo.trans (hlt.le.trans h1),h2,h3⟩

theorem InOrder.pairwise (h : InOrder lo spans hi) : spans.Pairwise (fun a b => a.2 ≤ b.1) := by
  induction spans generalizing lo with
  | nil => exact List.Pairwise.nil
  | cons s rest ih =>
    obtain ⟨_,_,hrest⟩ := h
    exact List.pairwise_cons.mpr ⟨fun t ht => (hrest.bounds t ht).1,ih hrest⟩

theorem inOrder_filled [AddCommGroup R] [IsOrderedAddMonoid R] {tolerance : R} (htol : 0 ≤ tolerance) (h : InOrder lo spans hi) :
    InOrder lo (filled tolerance lo spans hi) hi := by
  have hgap : ∀ {a b : R}, a ≤ b → InOrder a (longGap tolerance a b) b := by
    intro a b hab
    unfold longGap
    split
    · rename_i hlong
      exact ⟨le_refl a,sub_pos.mp (htol.trans_lt hlong),le_refl b⟩
    · exact hab
  induction spans generalizing lo with
  | nil => exact hgap h
  | cons s rest ih =>
    obtain ⟨hlo,hlt,hrest⟩ := h
    exact (hgap hlo).append ⟨le_refl _,hlt,ih hrest⟩

theorem gaps_nonneg [AddCommGroup R] [IsOrderedAddMonoid R] (h : InOrder lo spans hi) :
    ∀ g ∈ gaps lo spans hi, 0 ≤ length g := by
  induction spans generalizing lo with
  | nil =>
    intro g hg
    rw [List.mem_singleton.mp hg]
    exact sub_nonneg.mpr h
  | cons s rest ih =>
    obtain ⟨hlo,_,hrest⟩ := h
    intro g hg
    rcases List.mem_cons.mp hg with rfl | hg
    · exact sub_nonneg.mpr hlo
    · exact ih hrest g hg

theorem total_slivers_nonneg [AddCommGroup R] [IsOrderedAddMonoid R] {tolerance : R}
    (h : InOrder lo spans hi) : 0 ≤ total (slivers tolerance lo spans hi) := by
  refine List.sum_nonneg ?_
  intro x hx
  obtain ⟨g,hg,rfl⟩ := List.mem_map.mp hx
  exact gaps_nonneg h g (List.mem_filter.mp hg).1

end Order

end Woodhouse.Intervals
