import Woodhouse.Fsd.Points

namespace Woodhouse.Fsd
open Sql Intervals

section Inferred
variable {drive : Drive} {segments : List Segment} {s : Segment}

theorem leavesRest_some {distance x : ℚ} :
    leavesRest (some distance) x = true ↔ tolerance < distance - x := by
  simp [leavesRest,greater]

/-- The carried segment, where the drive goes on for more than the tolerance. -/
def carriedTail (drive : Drive) (s : Segment) : List Segment :=
  if leavesRest drive.bestAvailableDistanceMiles s.endDistanceMiles then
    drive.bestAvailableDistanceMiles.toList.map (carriedSegment s) else []

theorem mem_carriedTail {t : Segment} : t ∈ carriedTail drive s ↔
    ∃ distance, drive.bestAvailableDistanceMiles = some distance ∧
      tolerance < distance - s.endDistanceMiles ∧ t = carriedSegment s distance := by
  unfold carriedTail
  cases h : drive.bestAvailableDistanceMiles with
  | none => simp [leavesRest,greater]
  | some distance => simp [leavesRest,greater]

theorem flatMap_ranked (g : Segment → List Segment) (rest : List Segment) (k : Nat) :
    (rest.zipIdx (k + 2)).flatMap (fun r => r.1 :: if r.2 = 1 then g r.1 else []) = rest := by
  induction rest generalizing k with
  | nil => rfl
  | cons s rest ih =>
    rw [List.zipIdx_cons,List.flatMap_cons,ih (k + 1),if_neg (by simp)]
    rfl

/-- Only the segment that reaches farthest is carried. -/
theorem inferredSegments_cons {rest : List Segment}
    (h : orderBy Segment.reverseKey segments = s :: rest) :
    inferredSegments drive segments = s :: (carriedTail drive s ++ rest) := by
  have hrest := flatMap_ranked (carriedTail drive) rest 0
  have hfun : (fun r : Segment × Nat => r.1 ::
      if r.2 = 1 ∧ leavesRest drive.bestAvailableDistanceMiles r.1.endDistanceMiles then
        drive.bestAvailableDistanceMiles.toList.map (carriedSegment r.1) else []) =
      (fun r => r.1 :: if r.2 = 1 then carriedTail drive r.1 else []) := by
    funext r
    by_cases h1 : r.2 = 1 <;> simp [h1,carriedTail]
  unfold inferredSegments rankedBucketSegments
  rw [h,hfun,List.zipIdx_cons,List.flatMap_cons,hrest]
  simp

theorem inferredSegments_nil : inferredSegments drive [] = [] := by
  unfold inferredSegments rankedBucketSegments
  rw [orderBy_nil]
  rfl

theorem mem_inferredSegments {t : Segment} : t ∈ inferredSegments drive segments ↔
    t ∈ segments ∨
      ∃ s, (orderBy Segment.reverseKey segments).head? = some s ∧ t ∈ carriedTail drive s := by
  cases h : orderBy Segment.reverseKey segments with
  | nil =>
    have hnil : segments = [] := by
      have := (orderBy_perm Segment.reverseKey segments)
      rw [h] at this
      exact List.nil_perm.mp this
    rw [hnil,inferredSegments_nil]
    simp
  | cons s rest =>
    have hmem : t ∈ segments ↔ t = s ∨ t ∈ rest := by
      rw [← List.mem_cons,← h,mem_orderBy]
    rw [inferredSegments_cons h,List.mem_cons,List.mem_append,hmem,List.head?_cons]
    constructor
    · rintro (ht | ht | ht)
      · exact .inl (.inl ht)
      · exact .inr ⟨s,rfl,ht⟩
      · exact .inl (.inr ht)
    · rintro ((ht | ht) | ⟨s',hs,ht⟩)
      · exact .inl ht
      · exact .inr (.inr ht)
      · rw [← Option.some.inj hs] at ht
        exact .inr (.inl ht)

end Inferred

section Completed
variable {drive : Drive} {path : List PathPoint} {inferred segments : List Segment} {s : Segment}

/-- Filling gaps adds uncertain segments only. -/
theorem completedSegmentArray_state {distance : Option ℚ} {count : Nat}
    {r : (Segment × Option Segment) × Nat} (h : s ∈ completedSegmentArray distance count r) :
    s = r.1.1 ∨ s.state = .uncertain := by
  unfold completedSegmentArray at h
  simp only [List.mem_append,List.mem_singleton] at h
  rcases h with ((h | h) | h) | h
  · split at h
    · rw [List.mem_singleton.mp h]
      exact .inr rfl
    · cases h
  · split at h
    · split at h
      · rw [List.mem_singleton.mp h]
        exact .inr rfl
      · cases h
    · cases h
  · exact .inl h
  · split at h
    · obtain ⟨d,_,rfl⟩ := List.mem_map.mp h
      exact .inr rfl
    · cases h

theorem mem_completedSegments (hs : s.state ≠ .uncertain) :
    s ∈ completedSegments drive inferred ↔ s ∈ inferred := by
  unfold completedSegments
  dsimp only
  have hfst : (((overRows (lag some none) (orderBy Segment.windowKey inferred)).zipIdx 1).map
      Prod.fst).map Prod.fst = orderBy Segment.windowKey inferred := by
    rw [List.zipIdx_map_fst,over_fst]
  constructor
  · intro h
    obtain ⟨r,hr,h⟩ := List.mem_flatMap.mp h
    rcases completedSegmentArray_state h with rfl | h
    · have := List.mem_map_of_mem (f := Prod.fst) (List.mem_map_of_mem (f := Prod.fst) hr)
      rw [hfst] at this
      exact mem_orderBy.mp this
    · exact absurd h hs
  · intro h
    rw [← (orderBy_perm Segment.windowKey inferred).mem_iff,← hfst] at h
    obtain ⟨q,hq,rfl⟩ := List.mem_map.mp h
    obtain ⟨r,hr,rfl⟩ := List.mem_map.mp hq
    refine List.mem_flatMap.mpr ⟨r,hr,?_⟩
    unfold completedSegmentArray
    simp

theorem mem_allSegments (hs : s.state ≠ .uncertain) :
    s ∈ allSegments drive segments ↔ s ∈ segments := by
  unfold allSegments
  split
  · constructor
    · intro h
      obtain ⟨d,_,rfl⟩ := List.mem_map.mp h
      exact absurd rfl hs
    · intro h
      cases h
  · exact Iff.rfl

/-- The rows hold the segments of positive length. -/
theorem segmentRows_segments :
    (segmentRows drive path segments).map FsdSegment.toSegment = orderBy Segment.windowKey
      (segments.dedup.filter (fun s => s.startDistanceMiles < s.endDistanceMiles)) := by
  unfold segmentRows
  rw [List.map_map]
  exact List.zipIdx_map_fst 1 _

theorem mem_segmentRows : (∃ row ∈ segmentRows drive path segments, row.toSegment = s) ↔
    s ∈ segments ∧ s.startDistanceMiles < s.endDistanceMiles := by
  rw [← List.mem_map,segmentRows_segments,mem_orderBy,List.mem_filter,List.mem_dedup]
  simp

/-- The labelled rows are the certified segments and the one carried to the end. -/
theorem mem_segmentsOfPoints (drive : Drive) (path : List PathPoint) {points : List MappedPoint}
    (h : EpochsInOrder points)
    (hs : s.state ≠ .uncertain) :
    (∃ row ∈ segmentsOfPoints drive path points, row.toSegment = s) ↔
      (s ∈ certified points ∨ ∃ last,
        (orderBy Segment.reverseKey (certified points)).head? = some last ∧
        s ∈ carriedTail drive last) ∧ s.startDistanceMiles < s.endDistanceMiles := by
  unfold segmentsOfPoints
  rw [mem_segmentRows,mem_allSegments hs,mem_completedSegments hs,mem_inferredSegments,
    bucketSegments_eq h]

end Completed

end Woodhouse.Fsd
