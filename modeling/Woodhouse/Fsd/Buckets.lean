import Mathlib.Tactic.Linarith
import Mathlib.Tactic.NormNum
import Woodhouse.Fsd.Points

namespace Woodhouse.Fsd
open Sql Intervals

variable {points : List MappedPoint} {previous point : MappedPoint}

/-- The mapped distances of points in time order. -/
def DistancesInOrder (points : List MappedPoint) : Prop :=
  points.Pairwise (fun p q => ∀ a b, p.distanceIntoDriveMiles = some a →
    q.distanceIntoDriveMiles = some b → a ≤ b)

theorem bucket_eq {b : Bucket} (h : bucket previous point = some b) :
    previous.distanceIntoDriveMiles = some b.previousDistanceMiles ∧
    point.distanceIntoDriveMiles = some b.distanceIntoDriveMiles ∧
    b.previousDistanceMiles < b.distanceIntoDriveMiles := by
  unfold bucket at h
  split at h
  · rename_i a c ha hc
    split at h
    · rename_i hlt
      cases h
      exact ⟨ha,hc,hlt⟩
    · cases h
  · cases h

/-- The inferred FSD distance is part of the bucket. -/
theorem Bucket.inferred_bounds (b : Bucket)
    (h : b.previousDistanceMiles < b.distanceIntoDriveMiles) :
    0 ≤ b.inferredFsdMiles ∧ b.inferredFsdMiles ≤ b.distanceMiles := by
  have hpos : 0 < b.distanceMiles := sub_pos.mpr h
  unfold Bucket.inferredFsdMiles
  split
  · generalize b.counterFsdDeltaMiles / b.counterTotalDeltaMiles = share
    have hshare : 0 ≤ min 1 (max share 0) := le_min zero_le_one (le_max_right _ _)
    have hone : min 1 (max share 0) ≤ 1 := min_le_left _ _
    exact ⟨mul_nonneg hpos.le hshare,mul_le_of_le_one_right hpos.le hone⟩
  · exact ⟨le_min hpos.le (le_max_right _ _),min_le_left _ _⟩

theorem segments_inOrder {b : Bucket} (h : b.previousDistanceMiles < b.distanceIntoDriveMiles) :
    InOrder b.previousDistanceMiles (b.segments.map Segment.span) b.distanceIntoDriveMiles := by
  obtain ⟨hzero,hle⟩ := b.inferred_bounds h
  have htol : (0 : ℚ) < tolerance := by norm_num [tolerance]
  unfold Bucket.distanceMiles at hle
  unfold Bucket.segments Bucket.distanceMiles
  have hmanual : InOrder b.previousDistanceMiles
      ((if tolerance < b.distanceIntoDriveMiles - b.previousDistanceMiles - b.inferredFsdMiles then
        [b.manualSegment] else []).map Segment.span)
      (b.distanceIntoDriveMiles - b.inferredFsdMiles) := by
    split
    · refine ⟨le_refl _,?_,le_refl _⟩
      change b.previousDistanceMiles < b.distanceIntoDriveMiles - b.inferredFsdMiles
      linarith
    · change b.previousDistanceMiles ≤ b.distanceIntoDriveMiles - b.inferredFsdMiles
      linarith
  have hfsd : InOrder (b.distanceIntoDriveMiles - b.inferredFsdMiles)
      ((if tolerance < b.inferredFsdMiles then [b.fsdSegment] else []).map Segment.span)
      b.distanceIntoDriveMiles := by
    split
    · refine ⟨le_refl _,?_,le_refl _⟩
      change b.distanceIntoDriveMiles - b.inferredFsdMiles < b.distanceIntoDriveMiles
      linarith
    · change b.distanceIntoDriveMiles - b.inferredFsdMiles ≤ b.distanceIntoDriveMiles
      linarith
  rw [List.map_append]
  exact hmanual.append hfsd

/-- Two consecutive points certify segments between their distances. -/
theorem certifiedBy_inOrder {a b : ℚ} (ha : previous.distanceIntoDriveMiles = some a)
    (hb : point.distanceIntoDriveMiles = some b) (hle : a ≤ b) :
    InOrder a ((certifiedBy previous point).map Segment.span) b := by
  unfold certifiedBy
  split
  · cases hbucket : bucket previous point with
    | none => exact hle
    | some c =>
      obtain ⟨hprev,hpoint,hlt⟩ := bucket_eq hbucket
      cases ha.symm.trans hprev
      cases hb.symm.trans hpoint
      by_cases hv : c.isValid = true
      · simpa [hv] using segments_inOrder hlt
      · have hnil : InOrder c.previousDistanceMiles [] c.distanceIntoDriveMiles := hle
        simpa [hv] using hnil
  · exact hle

theorem certifiedBy_mapped {s : Segment} (h : s ∈ certifiedBy previous point) :
    ∃ a b, previous.distanceIntoDriveMiles = some a ∧ point.distanceIntoDriveMiles = some b := by
  unfold certifiedBy at h
  split at h
  · cases hbucket : bucket previous point with
    | none => simp [hbucket] at h
    | some c =>
      obtain ⟨hprev,hpoint,_⟩ := bucket_eq hbucket
      exact ⟨_,_,hprev,hpoint⟩
  · cases h

/-- Points at distances that do not decrease certify segments in order. -/
theorem certified_inOrder (h : DistancesInOrder points) {hi : ℚ} (hhi : 0 ≤ hi)
    (hb : ∀ p ∈ points, ∀ d, p.distanceIntoDriveMiles = some d → 0 ≤ d ∧ d ≤ hi) :
    InOrder 0 ((certified points).map Segment.span) hi := by
  induction points using List.reverseRecOn generalizing hi with
  | nil => exact hhi
  | append_singleton points p ih =>
    obtain ⟨hpoints,_,hlast⟩ := List.pairwise_append.mp h
    have hbefore : ∀ q ∈ points, ∀ d, q.distanceIntoDriveMiles = some d → 0 ≤ d ∧ d ≤ hi :=
      fun q hq => hb q (List.mem_append_left _ hq)
    rw [certified_snoc,List.map_append]
    cases hq : points.getLast? with
    | none => simpa using ih hpoints hhi hbefore
    | some q =>
      obtain ⟨init,rfl⟩ := List.getLast?_eq_some_iff.mp hq
      rw [Option.toList_some,List.flatMap_singleton]
      cases hc : certifiedBy q p with
      | nil => simpa using ih hpoints hhi hbefore
      | cons s rest =>
        obtain ⟨a,b,ha,hpb⟩ := certifiedBy_mapped (hc ▸ List.mem_cons_self : s ∈ certifiedBy q p)
        have hab := hlast q (by simp) p List.mem_cons_self a b ha hpb
        obtain ⟨ha0,_⟩ := hbefore q (by simp) a ha
        have hbhi := (hb p (by simp) b hpb).2
        have hprefix : InOrder 0 ((certified (init ++ [q])).map Segment.span) a := by
          refine ih hpoints ha0 ?_
          intro r hr d hd
          refine ⟨(hbefore r hr d hd).1,?_⟩
          rcases List.mem_append.mp hr with hr | hr
          · exact (List.pairwise_append.mp hpoints).2.2 r hr q List.mem_cons_self d a hd ha
          · rw [List.mem_singleton.mp hr,ha] at hd
            cases hd
            exact le_refl _
        rw [← hc]
        exact hprefix.append ((certifiedBy_inOrder ha hpb hab).mono hbhi)

end Woodhouse.Fsd
