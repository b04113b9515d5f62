import Mathlib.MeasureTheory.Integral.IntervalIntegral.Basic
import Woodhouse.Intervals.Tiling

namespace Woodhouse.Intervals

section Pieces
variable {R S V W : Type}

/-- The pieces of a step function that takes the value of each mark from there to the next
mark, and from the last one to `hi`. -/
def pieces (hi : R) : List (R × V) → List (Span R × V)
  | [] => []
  | m :: rest => ((m.1,(rest.head?.map Prod.fst).getD hi),m.2) :: pieces hi rest

theorem pieces_map (f : R → S) (g : V → W) (hi : R) (marks : List (R × V)) :
    pieces (f hi) (marks.map (fun m => (f m.1,g m.2))) =
      (pieces hi marks).map (fun p => ((f p.1.1,f p.1.2),g p.2)) := by
  induction marks with
  | nil => rfl
  | cons m rest ih =>
    simp only [List.map_cons,pieces,ih]
    cases rest with
    | nil => rfl
    | cons n rest => rfl

theorem pieces_starts (hi : R) (marks : List (R × V)) :
    (pieces hi marks).map (fun p => p.1.1) = marks.map Prod.fst := by
  induction marks with
  | nil => rfl
  | cons m rest ih => rw [pieces,List.map_cons,List.map_cons,ih]

/-- A piece begins at a mark and ends before the marks that follow it. -/
theorem mem_pieces {hi : R} {marks : List (R × V)} {p : Span R × V} (h : p ∈ pieces hi marks) :
    ∃ front m back, marks = front ++ m :: back ∧ p = ((m.1,(back.head?.map Prod.fst).getD hi),m.2) := by
  induction marks with
  | nil => cases h
  | cons m rest ih =>
    rcases List.mem_cons.mp h with rfl | h
    · exact ⟨[],m,rest,rfl,rfl⟩
    · obtain ⟨front,n,back,rfl,hp⟩ := ih h
      exact ⟨m :: front,n,back,rfl,hp⟩

/-- Each mark begins a piece. -/
theorem exists_piece {hi : R} {marks : List (R × V)} {m : R × V} (h : m ∈ marks) :
    ∃ p ∈ pieces hi marks, p.1.1 = m.1 ∧ p.2 = m.2 := by
  induction marks with
  | nil => cases h
  | cons n rest ih =>
    rcases List.mem_cons.mp h with rfl | h
    · exact ⟨_,List.mem_cons_self,rfl,rfl⟩
    · obtain ⟨p,hp,hstart,hvalue⟩ := ih h
      exact ⟨p,List.mem_cons_of_mem _ hp,hstart,hvalue⟩

/-- The pieces leave no gap. -/
theorem total_pieces [AddCommGroup R] (hi : R) (m : R × V) (rest : List (R × V)) :
    total ((pieces hi (m :: rest)).map Prod.fst) = hi - m.1 := by
  induction rest generalizing m with
  | nil => simp [pieces,length]
  | cons n rest ih =>
    have hrest := ih n
    rw [pieces,List.map_cons,total_cons,hrest]
    simp [length]

end Pieces

section Order
variable {R V : Type} [LinearOrder R] {hi : R} {marks : List (R × V)} {p : Span R × V}

/-- The marks are in order and none is after `hi`. -/
structure Marked (marks : List (R × V)) (hi : R) : Prop where
  sorted : marks.Pairwise (fun a b => a.1 < b.1)
  within : ∀ m ∈ marks, m.1 ≤ hi

theorem Marked.tail {m : R × V} {rest : List (R × V)} (h : Marked (m :: rest) hi) :
    Marked rest hi :=
  ⟨(List.pairwise_cons.mp h.sorted).2,fun n hn => h.within n (List.mem_cons_of_mem _ hn)⟩

theorem Marked.map {S W : Type} [LinearOrder S] (f : R → S) (g : V → W) (hf : StrictMono f)
    (h : Marked marks hi) : Marked (marks.map (fun m => (f m.1,g m.2))) (f hi) := by
  constructor
  · exact List.pairwise_map.mpr (h.sorted.imp (fun hlt => hf hlt))
  · intro n hn
    obtain ⟨m,hm,rfl⟩ := List.mem_map.mp hn
    exact hf.monotone (h.within m hm)

theorem Marked.le_next {m : R × V} {rest : List (R × V)} (h : Marked (m :: rest) hi) :
    m.1 ≤ (rest.head?.map Prod.fst).getD hi := by
  cases rest with
  | nil => exact h.within m List.mem_cons_self
  | cons n rest => exact ((List.pairwise_cons.mp h.sorted).1 n List.mem_cons_self).le

theorem Marked.ordered (h : Marked marks hi) (hp : p ∈ pieces hi marks) : p.1.1 ≤ p.1.2 := by
  induction marks with
  | nil => cases hp
  | cons m rest ih =>
    rcases List.mem_cons.mp hp with rfl | hp
    · exact h.le_next
    · exact ih h.tail hp

/-- A mark before the end of a piece is not after its beginning. -/
theorem Marked.le_start (h : Marked marks hi) (hp : p ∈ pieces hi marks) {n : R × V}
    (hn : n ∈ marks) (hlt : n.1 < p.1.2) : n.1 ≤ p.1.1 := by
  obtain ⟨front,m,back,rfl,rfl⟩ := mem_pieces hp
  obtain ⟨_,hback,hfront⟩ := List.pairwise_append.mp h.sorted
  rcases List.mem_append.mp hn with hn | hn
  · exact (hfront n hn m List.mem_cons_self).le
  · rcases List.mem_cons.mp hn with rfl | hn
    · exact le_refl _
    · cases back with
      | nil => cases hn
      | cons b back =>
        have hb : n.1 < b.1 := hlt
        rcases List.mem_cons.mp hn with rfl | hn
        · exact absurd hb (lt_irrefl _)
        · have hrest := (List.pairwise_cons.mp hback).2
          exact absurd hb (not_lt.mpr ((List.pairwise_cons.mp hrest).1 n hn).le)

/-- A piece ends at `hi` or at the next mark. -/
theorem Marked.ends (h : Marked marks hi) (hp : p ∈ pieces hi marks) :
    p.1.2 = hi ∨ ∃ n ∈ marks, p.1.1 < n.1 ∧ n.1 = p.1.2 := by
  obtain ⟨front,m,back,rfl,rfl⟩ := mem_pieces hp
  cases back with
  | nil => exact .inl rfl
  | cons b back =>
    have hback := (List.pairwise_append.mp h.sorted).2.1
    refine .inr ⟨b,?_,(List.pairwise_cons.mp hback).1 b List.mem_cons_self,rfl⟩
    exact List.mem_append_right _ (List.mem_cons_of_mem _ List.mem_cons_self)

/-- A piece ends before neither `hi` nor a mark after its beginning. -/
theorem Marked.le_end_iff (h : Marked marks hi) (hp : p ∈ pieces hi marks) {x : R} :
    x ≤ p.1.2 ↔ x ≤ hi ∧ ∀ m ∈ marks, p.1.1 < m.1 → x ≤ m.1 := by
  constructor
  · intro hx
    refine ⟨?_,?_⟩
    · rcases h.ends hp with hend | ⟨n,hn,_,hend⟩
      · exact hend ▸ hx
      · exact (hend ▸ hx).trans (h.within n hn)
    · intro m hm hlt
      refine hx.trans (not_lt.mp ?_)
      intro hbefore
      exact absurd (h.le_start hp hm hbefore) (not_le.mpr hlt)
  · rintro ⟨hhi,hmarks⟩
    rcases h.ends hp with hend | ⟨n,hn,hlt,hend⟩
    · exact hend ▸ hhi
    · exact hend ▸ hmarks n hn hlt

end Order

section Integral
open MeasureTheory

/-- The area under the pieces. -/
def area {R : Type} [Ring R] (pieces : List (Span R × R)) : R :=
  (pieces.map (fun p => p.2 * length p.1)).sum

variable {f : ℝ → ℝ} {a b c hi : ℝ}

theorem integrable_constant (h : ∀ x ∈ Set.Ioo a b, f x = c) (hab : a ≤ b) :
    IntervalIntegrable f volume a b := by
  refine (intervalIntegrable_const (c := c)).congr_uIoo ?_
  intro x hx
  rw [Set.uIoo_of_le hab] at hx
  exact (h x hx).symm

theorem integral_constant (h : ∀ x ∈ Set.Ioo a b, f x = c) (hab : a ≤ b) :
    ∫ x in a..b, f x = c * length (a,b) := by
  have hcongr : ∫ x in a..b, f x = ∫ _ in a..b, c :=
    intervalIntegral.integral_congr_Ioo_of_le hab h
  rw [hcongr,intervalIntegral.integral_const,smul_eq_mul,length]
  exact mul_comm _ _

/-- A function with the value of each piece on it has their area as its integral. -/
theorem integral_pieces {m : ℝ × ℝ} {rest : List (ℝ × ℝ)} (hmarked : Marked (m :: rest) hi)
    (h : ∀ p ∈ pieces hi (m :: rest), ∀ x ∈ Set.Ioo p.1.1 p.1.2, f x = p.2) :
    IntervalIntegrable f volume m.1 hi ∧
      ∫ x in m.1..hi, f x = area (pieces hi (m :: rest)) := by
  induction rest generalizing m with
  | nil =>
    have hfirst := h ((m.1,hi),m.2) List.mem_cons_self
    have hle : m.1 ≤ hi := hmarked.le_next
    refine ⟨integrable_constant hfirst hle,?_⟩
    rw [integral_constant hfirst hle]
    simp [area,pieces]
  | cons n rest ih =>
    have hfirst := h ((m.1,n.1),m.2) List.mem_cons_self
    have hle : m.1 ≤ n.1 := hmarked.le_next
    obtain ⟨hint,hrest⟩ := ih hmarked.tail (fun p hp => h p (List.mem_cons_of_mem _ hp))
    have hstep := integrable_constant hfirst hle
    refine ⟨hstep.trans hint,?_⟩
    rw [← intervalIntegral.integral_add_adjacent_intervals hstep hint,hrest,
      integral_constant hfirst hle]
    simp [area,pieces]

end Integral

end Woodhouse.Intervals
