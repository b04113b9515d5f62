import Woodhouse.Fsd.Buckets
import Woodhouse.Fsd.Rows

namespace Woodhouse.Fsd
open Sql Intervals

/-- Counter points in time order, mapped to distances of the drive that do not decrease. -/
structure MappedWithin (distance : ℚ) (points : List MappedPoint) : Prop where
  usable : 0 ≤ distance
  epochs : EpochsInOrder points
  distances : DistancesInOrder points
  within : ∀ p ∈ points, ∀ d, p.distanceIntoDriveMiles = some d → 0 ≤ d ∧ d ≤ distance

section Filling
variable {distance lo hi : ℚ} {ordered : List Segment}

theorem longGap_uncertain (a b : ℚ) :
    (if tolerance < b - a then [uncertainSegment a b] else []).map Segment.span =
      longGap tolerance a b := by
  unfold longGap
  split <;> rfl

/-- One row of the gap filling adds the gap before it and, at the last rank, the rest. -/
theorem completedSegmentArray_spans {previous : Option Segment} {j : Nat}
    (hfirst : j = 0 ↔ previous = none) (count : Nat) (a : Segment) :
    (completedSegmentArray (some distance) count ((a,previous),j + 1)).map Segment.span =
      longGap tolerance ((previous.map Segment.endDistanceMiles).getD 0) a.startDistanceMiles ++
      a.span :: (if j + 1 = count then longGap tolerance a.endDistanceMiles distance else []) := by
  have hrest : (if j + 1 = count ∧ leavesRest (some distance) a.endDistanceMiles then
      (some distance).toList.map (uncertainSegment a.endDistanceMiles) else []).map Segment.span =
      if j + 1 = count then longGap tolerance a.endDistanceMiles distance else [] := by
    rw [← longGap_uncertain]
    simp only [leavesRest_some,ite_and]
    by_cases hc : j + 1 = count <;> simp [hc]
  unfold completedSegmentArray
  dsimp only
  rw [List.map_append,hrest,List.map_append,List.map_append]
  cases previous with
  | none =>
    have hj := hfirst.mpr rfl
    have hleading := longGap_uncertain 0 a.startDistanceMiles
    rw [sub_zero] at hleading
    rw [hj]
    simp [hleading]
  | some p =>
    have hj : j ≠ 0 := fun h => nomatch hfirst.mp h
    rw [longGap_uncertain]
    simp [hj]

theorem completed_spans (distance : ℚ) {previous : Option Segment} {j : Nat} (hne : ordered ≠ [])
    (hfirst : j = 0 ↔ previous = none) :
    (((ordered.zip (previous :: ordered.map some)).zipIdx (j + 1)).flatMap
      (completedSegmentArray (some distance) (j + ordered.length))).map Segment.span =
      filled tolerance ((previous.map Segment.endDistanceMiles).getD 0)
        (ordered.map Segment.span) distance := by
  induction ordered generalizing previous j with
  | nil => exact absurd rfl hne
  | cons a rest ih =>
    rw [List.map_cons,List.zip_cons_cons,List.zipIdx_cons,List.flatMap_cons,List.map_append,
      completedSegmentArray_spans hfirst,List.map_cons,filled]
    cases rest with
    | nil =>
      simp only [List.map_nil,List.length_singleton,if_true,filled,List.zip_nil_left,
        List.zipIdx_nil,List.flatMap_nil,List.append_nil]
      rfl
    | cons b rest =>
      have hlen : j + (a :: b :: rest).length = (j + 1) + (b :: rest).length := by
        simp only [List.length_cons]
        omega
      have hnotlast : ¬ j + 1 = j + (a :: b :: rest).length := by
        simp only [List.length_cons]
        omega
      have hsome : j + 1 = 0 ↔ some a = none := by simp
      have hrest := ih (by simp) hsome
      rw [if_neg hnotlast,hlen,hrest]
      simp [Segment.span]

/-- The gap filling of a drive's inferred segments, in their order. -/
theorem completedSegments_spans {drive : Drive} {inferred : List Segment}
    (hd : drive.bestAvailableDistanceMiles = some distance) (hne : ordered ≠ [])
    (ho : orderBy Segment.windowKey inferred = ordered) :
    (completedSegments drive inferred).map Segment.span =
      filled tolerance 0 (ordered.map Segment.span) distance := by
  have hfirst : (0 : Nat) = 0 ↔ (none : Option Segment) = none := iff_of_true rfl rfl
  have h := completed_spans distance hne hfirst
  unfold completedSegments
  dsimp only
  rw [ho,over_lag,hd]
  rw [Nat.zero_add] at h
  exact h

end Filling

section Sorted
variable {lo hi : ℚ} {segments : List Segment}

theorem ends_of_inOrder (h : InOrder lo (segments.map Segment.span) hi) :
    segments.Pairwise (fun a b => a.endDistanceMiles ≤ b.startDistanceMiles ∧
      a.startDistanceMiles < a.endDistanceMiles ∧ b.startDistanceMiles < b.endDistanceMiles) := by
  have hpair := List.pairwise_map.mp h.pairwise
  refine hpair.imp_of_mem ?_
  intro a b ha hb hab
  exact ⟨hab,(h.bounds _ (List.mem_map_of_mem ha)).2.1,(h.bounds _ (List.mem_map_of_mem hb)).2.1⟩

theorem windowKey_increasing (h : InOrder lo (segments.map Segment.span) hi) :
    segments.Pairwise (fun a b => a.windowKey < b.windowKey) := by
  refine (ends_of_inOrder h).imp ?_
  intro a b hab
  obtain ⟨hle,ha,_⟩ := hab
  exact Prod.Lex.lt_iff.mpr (.inl (ha.trans_le hle))

/-- Segments in order, read from the farthest one. -/
theorem orderBy_reverseKey (h : InOrder lo (segments.map Segment.span) hi) :
    orderBy Segment.reverseKey segments = segments.reverse := by
  refine orderBy_eq (List.reverse_perm segments).symm (List.pairwise_reverse.mpr ?_)
  refine (ends_of_inOrder h).imp ?_
  intro a b hab
  obtain ⟨hle,_,hb⟩ := hab
  exact Prod.Lex.lt_iff.mpr (.inl (OrderDual.toDual_lt_toDual.mpr (hle.trans_lt hb)))

/-- The carried segment comes last. -/
theorem inferred_ordered {drive : Drive} {init : List Segment} {last : Segment}
    (h : InOrder lo ((init ++ [last]).map Segment.span) hi)
    (htail : InOrder lo ((init ++ [last] ++ carriedTail drive last).map Segment.span) hi) :
    orderBy Segment.windowKey (inferredSegments drive (init ++ [last])) =
      init ++ [last] ++ carriedTail drive last := by
  have hreverse := orderBy_reverseKey h
  rw [List.reverse_append,List.reverse_singleton,List.singleton_append] at hreverse
  rw [inferredSegments_cons hreverse]
  refine orderBy_eq ?_ (windowKey_increasing htail)
  have hperm : (carriedTail drive last ++ init.reverse).Perm (init ++ carriedTail drive last) :=
    List.perm_append_comm.trans ((List.reverse_perm init).append_right _)
  refine (hperm.cons last).trans ?_
  rw [List.append_assoc]
  exact List.perm_middle.symm

end Sorted

section Totals
variable {drive : Drive} {path : List PathPoint} {points : List MappedPoint}
  {segments : List Segment} {lo hi distance : ℚ}

/-- Every row has one of the three states. -/
theorem stateDistance_total (rows : List FsdSegment) :
    stateDistance .fsd rows + stateDistance .manual rows + stateDistance .uncertain rows =
      (rows.map FsdSegment.distanceMiles).sum := by
  unfold stateDistance
  induction rows with
  | nil => simp
  | cons r rows ih =>
    simp only [List.map_cons,List.sum_cons]
    rw [← ih]
    cases r.state <;> simp only [reduceCtorEq,if_true,if_false] <;> linarith

/-- Segments in order become the rows, one each. -/
theorem segmentRows_inOrder (h : InOrder lo (segments.map Segment.span) hi) :
    segmentRows drive path segments = (segments.zipIdx 1).map (fsdSegment drive path) := by
  have hincreasing := windowKey_increasing h
  have hnodup : segments.Nodup := by
    refine hincreasing.imp ?_
    intro a b hab heq
    exact (ne_of_lt hab) (congrArg Segment.windowKey heq)
  have hfilter : segments.dedup.filter
      (fun s => s.startDistanceMiles < s.endDistanceMiles) = segments := by
    rw [hnodup.dedup]
    refine List.filter_eq_self.mpr ?_
    intro s hs
    exact decide_eq_true (h.bounds _ (List.mem_map_of_mem hs)).2.1
  unfold segmentRows
  rw [hfilter,orderBy_of_pairwise (hincreasing.imp le_of_lt)]

theorem rows_distance (h : InOrder lo (segments.map Segment.span) hi) :
    ((segmentRows drive path segments).map FsdSegment.distanceMiles).sum =
      total (segments.map Segment.span) := by
  have hrows : (segmentRows drive path segments).map FsdSegment.distanceMiles =
      segments.map (fun s => max (s.endDistanceMiles - s.startDistanceMiles) 0) := by
    have hfst := congrArg
      (List.map (fun s : Segment => max (s.endDistanceMiles - s.startDistanceMiles) 0))
      (List.zipIdx_map_fst 1 segments)
    rw [List.map_map] at hfst
    rw [segmentRows_inOrder h,List.map_map]
    exact hfst
  rw [hrows]
  unfold total
  rw [List.map_map]
  refine congrArg List.sum (List.map_congr_left ?_)
  intro s hs
  exact max_eq_left (sub_nonneg.mpr (h.bounds _ (List.mem_map_of_mem hs)).2.1.le)

/-- Carrying the last segment keeps the order and changes no gap's tolerance. -/
theorem carriedTail_inOrder {init : List Segment} {last : Segment}
    (hd : drive.bestAvailableDistanceMiles = some distance)
    (h : InOrder 0 ((init ++ [last]).map Segment.span) distance) :
    InOrder 0 ((init ++ [last] ++ carriedTail drive last).map Segment.span) distance ∧
    total (slivers tolerance 0 ((init ++ [last] ++ carriedTail drive last).map Segment.span)
      distance) = total (slivers tolerance 0 ((init ++ [last]).map Segment.span) distance) := by
  have htol : (0 : ℚ) ≤ tolerance := by norm_num [tolerance]
  by_cases hrest : tolerance < distance - last.endDistanceMiles
  · have hcarried : carriedTail drive last = [carriedSegment last distance] := by
      unfold carriedTail
      rw [hd,if_pos (leavesRest_some.mpr hrest)]
      rfl
    have hlt : last.endDistanceMiles < distance := sub_pos.mp (htol.trans_lt hrest)
    rw [List.map_append,List.map_singleton] at h
    have hslivers := total_slivers_carried (s := last.span) 0 (init.map Segment.span) htol hrest
    rw [hcarried,List.map_append,List.map_append]
    exact ⟨h.shrink.append ⟨le_refl _,hlt,le_refl _⟩,hslivers⟩
  · have hcarried : carriedTail drive last = [] := by
      unfold carriedTail
      rw [hd,if_neg (fun h => hrest (leavesRest_some.mp h))]
    rw [hcarried,List.append_nil]
    exact ⟨h,rfl⟩

theorem classified_eq (drive : Drive) (rows : List FsdSegment) :
    (driveFsdSummary drive rows).classifiedDistanceMiles =
      (rows.map FsdSegment.distanceMiles).sum :=
  stateDistance_total rows

/-- The rows of a drive with certified segments fill all its gaps longer than the tolerance. -/
theorem allSegments_spans {init : List Segment} {last : Segment}
    (hd : drive.bestAvailableDistanceMiles = some distance)
    (h : InOrder 0 ((init ++ [last]).map Segment.span) distance) :
    (allSegments drive (completedSegments drive (inferredSegments drive
      (init ++ [last])))).map Segment.span = filled tolerance 0
        ((init ++ [last] ++ carriedTail drive last).map Segment.span) distance := by
  have htail := (carriedTail_inOrder hd h).1
  have hspans := completedSegments_spans hd (by simp) (inferred_ordered h htail)
  unfold allSegments
  split
  · rename_i hcompleted
    rw [hcompleted] at hspans
    exact absurd hspans.symm (filled_ne_nil (by simp))
  · exact hspans

theorem allSegments_inOrder (hd : drive.bestAvailableDistanceMiles = some distance)
    (h : InOrder 0 (segments.map Segment.span) distance) (hne : segments ≠ []) :
    InOrder 0 ((allSegments drive (completedSegments drive (inferredSegments drive
      segments))).map Segment.span) distance := by
  have htol : (0 : ℚ) ≤ tolerance := by norm_num [tolerance]
  rcases List.eq_nil_or_concat segments with hnil | ⟨init,last,hlast⟩
  · exact absurd hnil hne
  · rw [List.concat_eq_append] at hlast
    subst hlast
    rw [allSegments_spans hd h]
    exact inOrder_filled htol (carriedTail_inOrder hd h).1

/-- What a drive with certified segments leaves unclassified: the gaps between them that
are no longer than the tolerance. -/
theorem unclassified_of_certified (path : List PathPoint)
    (hd : drive.bestAvailableDistanceMiles = some distance)
    (h : MappedWithin distance points) (hne : certified points ≠ []) :
    distance - (driveFsdSummary drive (segmentsOfPoints drive path points)).classifiedDistanceMiles
      = total (slivers tolerance 0 ((certified points).map Segment.span) distance) := by
  have horder := certified_inOrder h.distances h.usable h.within
  have hrows := allSegments_inOrder hd horder hne
  rw [classified_eq]
  unfold segmentsOfPoints
  rw [bucketSegments_eq h.epochs,rows_distance hrows]
  rcases List.eq_nil_or_concat (certified points) with hnil | ⟨init,last,hlast⟩
  · exact absurd hnil hne
  · rw [List.concat_eq_append] at hlast
    rw [hlast] at horder ⊢
    have hslivers := (carriedTail_inOrder hd horder).2
    have hfilled := total_filled tolerance 0 distance
      ((init ++ [last] ++ carriedTail drive last).map Segment.span)
    rw [← hslivers,allSegments_spans hd horder]
    linarith

/-- A drive without certified segments is one uncertain segment. -/
theorem classified_of_nothing (hd : drive.bestAvailableDistanceMiles = some distance)
    (h : MappedWithin distance points) (hnil : certified points = []) :
    (driveFsdSummary drive (segmentsOfPoints drive path points)).classifiedDistanceMiles =
      distance := by
  rw [classified_eq]
  unfold segmentsOfPoints
  rw [bucketSegments_eq h.epochs,hnil,inferredSegments_nil]
  have hall : allSegments drive (completedSegments drive []) = [uncertainSegment 0 distance] := by
    unfold completedSegments
    rw [orderBy_nil]
    unfold allSegments
    rw [hd]
    rfl
  rw [hall]
  rcases eq_or_lt_of_le h.usable with hzero | hpos
  · rw [← hzero]
    unfold segmentRows
    simp [uncertainSegment]
  · have hrows : InOrder 0 ([uncertainSegment 0 distance].map Segment.span) distance :=
      ⟨le_refl _,hpos,le_refl _⟩
    rw [rows_distance hrows]
    simp [Segment.span,uncertainSegment,length]

theorem classificationComplete_some (hd : drive.bestAvailableDistanceMiles = some distance)
    (rows : List FsdSegment) : (driveFsdSummary drive rows).classificationComplete = true ↔
      |distance - (driveFsdSummary drive rows).classifiedDistanceMiles| ≤ tolerance := by
  unfold driveFsdSummary
  dsimp only
  rw [hd]
  exact decide_eq_true_iff

end Totals

/-- Ten miles in three buckets; in each of the first two, eight ten-thousandths of a mile
are FSD. -/
def sliverDrive : Drive :=
  { startedAt := 0, endedAt := some 4000000, bestAvailableDistanceMiles := some 10 }

def sliverPoint (t : Int) (totalMiles fsdMiles distance : ℚ) : MappedPoint :=
  { sourceTimestamp := t, pubsubMessageId := "m", totalMiles, fsdMiles, synchronizedPair := true
    pairingGapSeconds := 0, resetEpoch := 0, distanceIntoDriveMiles := some distance }

def sliverPoints : List MappedPoint :=
  [sliverPoint 0 100 50 0,sliverPoint 1000000 101 (50 + 8 / 10000) 1,
   sliverPoint 2000000 102 (50 + 16 / 10000) 2,sliverPoint 4000000 110 (50 + 16 / 10000) 10]

theorem MappedWithin.take {distance : ℚ} {points : List MappedPoint}
    (h : MappedWithin distance points) (n : Nat) : MappedWithin distance (points.take n) := by
  have hsub := List.take_sublist n points
  refine ⟨h.usable,List.Pairwise.sublist hsub h.epochs,List.Pairwise.sublist hsub h.distances,?_⟩
  intro p hp d hd
  exact h.within p (List.mem_of_mem_take hp) d hd

theorem sliverPoints_within : MappedWithin 10 sliverPoints := by
  refine ⟨by norm_num,?_,?_,?_⟩
  · unfold EpochsInOrder sliverPoints
    simp [sliverPoint]
  · unfold DistancesInOrder sliverPoints
    simp [sliverPoint]
    norm_num
  · intro p hp d hd
    simp [sliverPoints] at hp
    rcases hp with rfl | rfl | rfl | rfl <;> cases hd <;> norm_num

end Woodhouse.Fsd
