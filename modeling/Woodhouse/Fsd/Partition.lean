import Woodhouse.Fsd.Attribution
import Woodhouse.Fsd.Reconciliation

namespace Woodhouse.Fsd
open Sql Intervals

/-- The path point picked for a time is one of the nearest in time. -/
def NearestInTime (path : List PathPoint) (t : Int) : Prop :=
  ∀ p, nearestPathPoint path t = some p → ∀ q ∈ path,
    |p.sourceTimestamp - t| ≤ |q.sourceTimestamp - t|

/-- The distances of the path do not decrease in time and lie within the drive. -/
structure PathWithin (distance : ℚ) (path : List PathPoint) : Prop where
  forward : ∀ p ∈ path, ∀ q ∈ path, p.sourceTimestamp ≤ q.sourceTimestamp →
    p.distanceIntoDriveMiles ≤ q.distanceIntoDriveMiles
  within : ∀ p ∈ path, 0 ≤ p.distanceIntoDriveMiles ∧ p.distanceIntoDriveMiles ≤ distance

section Mapping
variable {drive : Drive} {path : List PathPoint} {distance : ℚ} {s t : Int} {a b : ℚ}

theorem nearest_mem {p : PathPoint} (h : nearestPathPoint path t = some p) : p ∈ path :=
  (head?_orderBy h).1

/-- The picked points do not go back in time. -/
def PicksForward (path : List PathPoint) (s t : Int) : Prop :=
  ∀ p q, nearestPathPoint path s = some p → nearestPathPoint path t = some q →
    p.sourceTimestamp ≤ q.sourceTimestamp

/-- The later of two points is nearest only beyond their middle. -/
theorem middle_le {x y : Int} (hlt : y < x) (hnear : |x - t| ≤ |y - t|) : x + y ≤ 2 * t := by
  rcases abs_cases (x - t) with hx | hx
  · rcases abs_cases (y - t) with hy | hy <;> omega
  · rcases abs_cases (y - t) with hy | hy <;> omega

theorem le_middle {x y : Int} (hlt : y < x) (hnear : |y - t| ≤ |x - t|) : 2 * t ≤ x + y := by
  rcases abs_cases (x - t) with hx | hx
  · rcases abs_cases (y - t) with hy | hy <;> omega
  · rcases abs_cases (y - t) with hy | hy <;> omega

theorem picksForward_of_nearest (hs : NearestInTime path s) (ht : NearestInTime path t)
    (hst : s ≤ t) : PicksForward path s t := by
  intro p q hp hq
  have hps := hs p hp q (nearest_mem hq)
  have hqt := ht q hq p (nearest_mem hp)
  by_contra hlt
  rcases eq_or_lt_of_le hst with heq | hst
  · rw [heq,hq] at hp
    cases hp
    exact hlt (le_refl _)
  · have hbeyond := middle_le (not_le.mp hlt) hps
    have hbefore := le_middle (not_le.mp hlt) hqt
    omega

theorem millisecondsBetween_eq (s t : Int) : millisecondsBetween s t = (s - t).natAbs / 1000 :=
  Int.natAbs_tdiv _ _

/-- No point is nearer than the picked one by a millisecond; of equally near ones it is the
earliest. -/
theorem nearest_least {p : PathPoint} (hp : nearestPathPoint path t = some p) {q : PathPoint}
    (hq : q ∈ path) :
    (p.sourceTimestamp - t).natAbs / 1000 < (q.sourceTimestamp - t).natAbs / 1000 ∨
    ((p.sourceTimestamp - t).natAbs / 1000 = (q.sourceTimestamp - t).natAbs / 1000 ∧
      p.sourceTimestamp ≤ q.sourceTimestamp) := by
  have hle := Prod.Lex.le_iff.mp ((head?_orderBy hp).2 q hq)
  rw [← millisecondsBetween_eq,← millisecondsBetween_eq]
  exact hle

/-- Timestamps of one millisecond grid are compared exactly. -/
theorem nearestInTime_of_milliseconds (h : ∀ p ∈ path, (1000 : Int) ∣ p.sourceTimestamp - t) :
    NearestInTime path t := by
  intro p hp q hq
  have hleast := nearest_least hp hq
  obtain ⟨m,hm⟩ := h p (nearest_mem hp)
  obtain ⟨n,hn⟩ := h q hq
  rw [hm,hn] at hleast ⊢
  rw [Int.abs_eq_natAbs,Int.abs_eq_natAbs]
  omega

/-- Whole milliseconds are exact enough for points that are a millisecond apart. -/
theorem picksForward_of_spaced
    (h : ∀ p ∈ path, ∀ q ∈ path, p.sourceTimestamp < q.sourceTimestamp →
      p.sourceTimestamp + 1000 ≤ q.sourceTimestamp) (hst : s ≤ t) : PicksForward path s t := by
  intro p q hp hq
  by_contra hlt
  rcases eq_or_lt_of_le hst with heq | hst
  · rw [heq,hq] at hp
    cases hp
    exact hlt (le_refl _)
  · have hapart := h q (nearest_mem hq) p (nearest_mem hp) (not_le.mp hlt)
    have hnearer := nearest_least hp (nearest_mem hq)
    have hnearer' := nearest_least hq (nearest_mem hp)
    omega

theorem distanceIntoDrive_within (hd : drive.bestAvailableDistanceMiles = some distance)
    (hpos : 0 ≤ distance) (hpath : PathWithin distance path)
    (ha : distanceIntoDrive drive path t = some a) : 0 ≤ a ∧ a ≤ distance := by
  unfold distanceIntoDrive at ha
  split at ha
  · cases ha
    exact ⟨le_refl _,hpos⟩
  · split at ha
    · rw [hd] at ha
      cases ha
      exact ⟨hpos,le_refl _⟩
    · obtain ⟨p,hp,rfl⟩ := Option.map_eq_some_iff.mp ha
      exact hpath.within p (nearest_mem hp)

/-- The mapped distances do not decrease. -/
theorem distanceIntoDrive_forward (hd : drive.bestAvailableDistanceMiles = some distance)
    (hpos : 0 ≤ distance) (hpath : PathWithin distance path) (hpicks : PicksForward path s t)
    (hst : s ≤ t) (ha : distanceIntoDrive drive path s = some a)
    (hb : distanceIntoDrive drive path t = some b) : a ≤ b := by
  have hbounds := distanceIntoDrive_within hd hpos hpath ha
  have hbounds' := distanceIntoDrive_within hd hpos hpath hb
  unfold distanceIntoDrive at ha hb
  split at ha
  · cases ha
    exact hbounds'.1
  · rename_i hstart
    rw [if_neg (by omega)] at hb
    split at ha
    · rename_i hended
      have hended' : drive.endedAt.any (fun ended => decide (ended ≤ t)) = true := by
        obtain ⟨ended,he,hle⟩ := (Option.any_eq_true ..).mp hended
        have hle := of_decide_eq_true hle
        exact (Option.any_eq_true ..).mpr ⟨ended,he,decide_eq_true (by omega)⟩
      rw [if_pos hended',ha] at hb
      cases hb
      exact le_refl _
    · split at hb
      · rw [hd] at hb
        cases hb
        exact hbounds.2
      · obtain ⟨p,hp,rfl⟩ := Option.map_eq_some_iff.mp ha
        obtain ⟨q,hq,rfl⟩ := Option.map_eq_some_iff.mp hb
        exact hpath.forward p (nearest_mem hp) q (nearest_mem hq) (hpicks p q hp hq)

end Mapping

/-- Rows in the order of their indexes that do not overlap and lie within the drive; FSD
lies within the bucket it was inferred from, unless it is carried. -/
structure OrderedPartition (distance : ℚ) (points : List MappedPoint) (rows : List FsdSegment) :
    Prop where
  indexed : rows.map FsdSegment.segmentIndex = List.range' 1 rows.length
  ordered : rows.Pairwise (fun r r' => r.endDistanceMiles ≤ r'.startDistanceMiles)
  within : ∀ r ∈ rows, 0 ≤ r.startDistanceMiles ∧ r.startDistanceMiles < r.endDistanceMiles ∧
    r.endDistanceMiles ≤ distance
  inBucket : ∀ r ∈ rows, r.state = .fsd →
    r.inferenceMethod ≠ .counterStateCarriedToDriveBoundary →
    ∃ b ∈ buckets points, b.isValid = true ∧ r.transitionLowerBoundMiles = b.previousDistanceMiles ∧
      r.transitionUpperBoundMiles = b.distanceIntoDriveMiles ∧
      b.previousDistanceMiles ≤ r.startDistanceMiles ∧
      r.endDistanceMiles ≤ b.distanceIntoDriveMiles ∧
      r.endDistanceMiles - r.startDistanceMiles ≤ b.distanceMiles

section Points
variable {drive : Drive} {path : List PathPoint} {now : Int} {snapshots : List CounterSnapshot}
  {distance : ℚ}

theorem pairedChanges_snapshot {c : PairedChange} (h : c ∈ pairedChanges snapshots) :
    ∃ s ∈ snapshots, c.sourceTimestamp = s.sourceTimestamp := by
  obtain ⟨m,hm,ht⟩ := (numberEpochs_bound h).2
  obtain ⟨r,hr,rfl⟩ := List.mem_map.mp hm
  have hfst := List.mem_map_of_mem (f := Prod.fst) hr
  rw [over_fst] at hfst
  exact ⟨r.1,mem_orderBy.mp hfst,ht⟩

theorem mem_mappedPoints {p : MappedPoint} (h : p ∈ mappedPoints drive path now snapshots) :
    p.distanceIntoDriveMiles = distanceIntoDrive drive path p.sourceTimestamp ∧
      ∃ s ∈ snapshots, p.sourceTimestamp = s.sourceTimestamp := by
  obtain ⟨c,hc,rfl⟩ := List.mem_map.mp h
  refine ⟨rfl,pairedChanges_snapshot ?_⟩
  unfold selectedPoints at hc
  rcases List.mem_append.mp hc with hc | hc
  · obtain ⟨hbefore,_⟩ := head?_orderBy (Option.mem_toList.mp hc)
    exact List.mem_of_mem_filter (List.mem_of_mem_filter hbefore)
  · exact List.mem_of_mem_filter (List.mem_of_mem_filter hc)

theorem mappedWithin (hd : drive.bestAvailableDistanceMiles = some distance) (hpos : 0 ≤ distance)
    (hpath : PathWithin distance path)
    (hpicks : ∀ s ∈ snapshots, ∀ t ∈ snapshots, s.sourceTimestamp ≤ t.sourceTimestamp →
      PicksForward path s.sourceTimestamp t.sourceTimestamp) :
    MappedWithin distance (mappedPoints drive path now snapshots) := by
  refine ⟨hpos,mappedPoints_epochs drive path now snapshots,?_,?_⟩
  · refine (mappedPoints_times drive path now snapshots).imp_of_mem ?_
    intro p q hp hq ht a b ha hb
    obtain ⟨hpd,s,hs,hps⟩ := mem_mappedPoints hp
    obtain ⟨hqd,t,hts,hqt⟩ := mem_mappedPoints hq
    have hforward := hpicks s hs t hts (by omega)
    rw [hpd] at ha
    rw [hqd] at hb
    rw [← hps,← hqt] at hforward
    exact distanceIntoDrive_forward hd hpos hpath hforward ht ha hb
  · intro p hp d hpd
    rw [(mem_mappedPoints hp).1] at hpd
    exact distanceIntoDrive_within hd hpos hpath hpd

end Points

section Rows
variable {drive : Drive} {path : List PathPoint} {points : List MappedPoint} {distance : ℚ}

/-- Certified FSD lies within its bucket. -/
theorem fsd_inBucket {s : Segment} (h : s ∈ bucketSegments points) (hs : s.state = .fsd) :
    ∃ b ∈ buckets points, b.isValid = true ∧ s.transitionLowerBoundMiles = b.previousDistanceMiles ∧
      s.transitionUpperBoundMiles = b.distanceIntoDriveMiles ∧
      b.previousDistanceMiles ≤ s.startDistanceMiles ∧
      s.endDistanceMiles ≤ b.distanceIntoDriveMiles ∧
      s.endDistanceMiles - s.startDistanceMiles ≤ b.distanceMiles := by
  obtain ⟨b,hb,hs'⟩ := List.mem_flatMap.mp h
  obtain ⟨hmem,hvalid⟩ := List.mem_filter.mp hb
  obtain ⟨r,_,hr⟩ := List.mem_filterMap.mp hmem
  obtain ⟨previous,_,hbucket⟩ := Option.bind_eq_some_iff.mp hr
  obtain ⟨_,_,hlt⟩ := bucket_eq hbucket
  obtain ⟨hinferred,hle⟩ := b.inferred_bounds hlt
  unfold Bucket.segments at hs'
  rcases List.mem_append.mp hs' with hmanual | hfsd
  · split at hmanual
    · rw [List.mem_singleton.mp hmanual] at hs
      cases hs
    · cases hmanual
  · split at hfsd
    · rw [List.mem_singleton.mp hfsd]
      have hdistance : b.distanceMiles = b.distanceIntoDriveMiles - b.previousDistanceMiles := rfl
      refine ⟨b,hmem,hvalid,rfl,rfl,?_,le_refl _,?_⟩
      · change b.previousDistanceMiles ≤ b.distanceIntoDriveMiles - b.inferredFsdMiles
        linarith
      · change b.distanceIntoDriveMiles - (b.distanceIntoDriveMiles - b.inferredFsdMiles) ≤ _
        linarith
    · cases hfsd

/-- The segments of the rows, in order. -/
theorem rows_inOrder (path : List PathPoint)
    (hd : drive.bestAvailableDistanceMiles = some distance)
    (h : MappedWithin distance points) : ∃ segments : List Segment,
      InOrder 0 (segments.map Segment.span) distance ∧
      segmentsOfPoints drive path points = (segments.zipIdx 1).map (fsdSegment drive path) := by
  unfold segmentsOfPoints
  rw [bucketSegments_eq h.epochs]
  by_cases hnil : certified points = []
  · rw [hnil,inferredSegments_nil]
    have hall : allSegments drive (completedSegments drive []) = [uncertainSegment 0 distance] := by
      unfold completedSegments
      rw [orderBy_nil]
      unfold allSegments
      rw [hd]
      rfl
    rw [hall]
    rcases eq_or_lt_of_le h.usable with hzero | hpos
    · refine ⟨[],h.usable,?_⟩
      rw [← hzero]
      unfold segmentRows
      simp [uncertainSegment]
    · have hone : InOrder 0 ([uncertainSegment 0 distance].map Segment.span) distance :=
        ⟨le_refl _,hpos,le_refl _⟩
      exact ⟨_,hone,segmentRows_inOrder hone⟩
  · have horder := certified_inOrder h.distances h.usable h.within
    have hall := allSegments_inOrder hd horder hnil
    exact ⟨_,hall,segmentRows_inOrder hall⟩

theorem orderedPartition_of_points (path : List PathPoint)
    (hd : drive.bestAvailableDistanceMiles = some distance) (h : MappedWithin distance points) :
    OrderedPartition distance points (segmentsOfPoints drive path points) := by
  obtain ⟨segments,horder,hrows⟩ := rows_inOrder path hd h
  have hsegments : (segmentsOfPoints drive path points).map FsdSegment.toSegment = segments := by
    rw [hrows,List.map_map]
    exact List.zipIdx_map_fst 1 segments
  refine ⟨?_,?_,?_,?_⟩
  · rw [hrows,List.map_map,List.length_map,List.length_zipIdx]
    exact List.zipIdx_map_snd 1 segments
  · have hpairs := List.pairwise_map.mp horder.pairwise
    rw [← hsegments,List.pairwise_map] at hpairs
    exact hpairs
  · intro r hr
    have hmem : r.toSegment ∈ segments := hsegments ▸ List.mem_map_of_mem hr
    exact horder.bounds _ (List.mem_map_of_mem hmem)
  · intro r hr hfsd hcarried
    have hstate : r.state ≠ .uncertain := by
      rw [hfsd]
      exact fun hs => nomatch hs
    rcases ((mem_segmentsOfPoints drive path h.epochs hstate).mp ⟨r,hr,rfl⟩).1 with hc | ⟨last,_,hc⟩
    · rw [← bucketSegments_eq h.epochs] at hc
      exact fsd_inBucket hc hfsd
    · obtain ⟨d,_,_,heq⟩ := mem_carriedTail.mp hc
      rw [heq] at hcarried
      exact absurd rfl hcarried

end Rows

/-- The drive whose counters are reset on the way, with three path points. -/
def resetPathPoints : List PathPoint :=
  [{ sourceTimestamp := 0, latitude := 0, longitude := 0, distanceIntoDriveMiles := 0 },
   { sourceTimestamp := 1000000, latitude := 0, longitude := 0, distanceIntoDriveMiles := 5 },
   { sourceTimestamp := 3000000, latitude := 0, longitude := 0, distanceIntoDriveMiles := 9 }]

/-- So do those of a path whose points are a millisecond apart, however near they are picked. -/
theorem segments_partition_of_spaced (drive : Drive) (path : List PathPoint) (now : Int)
    (snapshots : List CounterSnapshot) {distance : ℚ}
    (hd : drive.bestAvailableDistanceMiles = some distance) (hpos : 0 ≤ distance)
    (hpath : PathWithin distance path)
    (hspaced : ∀ p ∈ path, ∀ q ∈ path, p.sourceTimestamp < q.sourceTimestamp →
      p.sourceTimestamp + 1000 ≤ q.sourceTimestamp) :
    OrderedPartition distance (mappedPoints drive path now snapshots)
      (driveFsdSegments drive path now snapshots) := by
  refine orderedPartition_of_points path hd (mappedWithin hd hpos hpath ?_)
  intro s _ t _ hst
  exact picksForward_of_spaced hspaced hst

end Woodhouse.Fsd
