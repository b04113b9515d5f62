import Woodhouse.Fsd.Buckets
import Woodhouse.Fsd.Rows

namespace Woodhouse.Fsd
open Sql Intervals

/-- The mapped distance between two consecutive points, where a counter reset lies
between them or their bucket is invalid. -/
def unknownBetween (previous point : MappedPoint) : Option (Span ℚ) :=
  match previous.distanceIntoDriveMiles, point.distanceIntoDriveMiles with
  | some a, some b =>
    if previous.resetEpoch ≠ point.resetEpoch then some (min a b,max a b)
    else if (bucket previous point).any (fun b => !b.isValid) then some (a,b)
    else none
  | _, _ => none

def unknownSpans (points : List MappedPoint) : List (Span ℚ) :=
  (consecutive points).filterMap (fun p => unknownBetween p.1 p.2)

/-- Where the drive goes on after the certified segment that reaches farthest, no
unknown distance lies in that rest. -/
def RestKnown (drive : Drive) (points : List MappedPoint) : Prop :=
  ∀ c ∈ certified points, (∀ d ∈ certified points, d.endDistanceMiles ≤ c.endDistanceMiles) →
    ∀ distance, drive.bestAvailableDistanceMiles = some distance →
      tolerance < distance - c.endDistanceMiles →
        ∀ u ∈ unknownSpans points, ¬ Overlaps u (c.endDistanceMiles,distance)

/-- No certified segment lies in the unknown distance between other points. -/
def CertifiedApart (points : List MappedPoint) : Prop :=
  ∀ u ∈ unknownSpans points, ∀ c ∈ certified points, ¬ Overlaps u c.span

section Carried
variable {drive : Drive} {path : List PathPoint} {points : List MappedPoint}

/-- The segment that is carried reaches farthest. -/
theorem farthest {segments : List Segment} {last : Segment}
    (h : (orderBy Segment.reverseKey segments).head? = some last) :
    last ∈ segments ∧ ∀ d ∈ segments, d.endDistanceMiles ≤ last.endDistanceMiles := by
  obtain ⟨hmem,hle⟩ := head?_orderBy h
  refine ⟨hmem,?_⟩
  intro d hd
  rcases Prod.Lex.le_iff.mp (hle d hd) with hlt | ⟨heq,_⟩
  · exact le_of_lt (OrderDual.toDual_lt_toDual.mp hlt)
  · exact le_of_eq (OrderDual.toDual.injective heq.symm)

theorem overlaps_pos {a b : Span ℚ} (h : Overlaps a b) : b.1 < b.2 :=
  (le_max_right a.1 b.1).trans_lt (lt_of_lt_of_le h (min_le_right a.2 b.2))

theorem carried_exists {c : Segment} (hc : c ∈ certified points)
    (hfar : ∀ d ∈ certified points, d.endDistanceMiles ≤ c.endDistanceMiles) :
    ∃ last, (orderBy Segment.reverseKey (certified points)).head? = some last ∧
      last ∈ certified points ∧ last.endDistanceMiles = c.endDistanceMiles := by
  cases h : (orderBy Segment.reverseKey (certified points)).head? with
  | none =>
    have hnil := List.head?_eq_none_iff.mp h
    have hmem := (orderBy_perm Segment.reverseKey _).mem_iff.mpr hc
    rw [hnil] at hmem
    cases hmem
  | some last =>
    obtain ⟨hmem,hle⟩ := farthest h
    exact ⟨last,rfl,hmem,le_antisymm (hfar last hmem) (hle c hc)⟩

/-- Rows label unknown distance as uncertain exactly when it is apart from the certified
segments and from the rest the last one is carried over. -/
theorem uncertain_iff_of_points (h : EpochsInOrder points) :
    (∀ row ∈ segmentsOfPoints drive path points, ∀ u ∈ unknownSpans points,
      Overlaps u row.span → row.state = .uncertain) ↔
    RestKnown drive points ∧ CertifiedApart points := by
  have htol : (0 : ℚ) < tolerance := by norm_num [tolerance]
  constructor
  · intro hrows
    constructor
    · intro c hc hfar distance hd hrest u hu hover
      obtain ⟨last,hhead,hlast,hend⟩ := carried_exists hc hfar
      rw [← hend] at hover hrest
      have hstate : (carriedSegment last distance).state ≠ .uncertain := by
        change last.state ≠ .uncertain
        exact certified_state hlast
      have hpos : (carriedSegment last distance).startDistanceMiles <
          (carriedSegment last distance).endDistanceMiles := by
        change last.endDistanceMiles < distance
        linarith
      obtain ⟨row,hrow,heq⟩ := (mem_segmentsOfPoints drive path h hstate).mpr
        ⟨.inr ⟨last,hhead,mem_carriedTail.mpr ⟨distance,hd,hrest,rfl⟩⟩,hpos⟩
      have := hrows row hrow u hu (by rw [heq]; exact hover)
      rw [heq] at this
      exact hstate this
    · intro u hu c hc hover
      have hstate := certified_state hc
      obtain ⟨row,hrow,heq⟩ := (mem_segmentsOfPoints drive path h hstate).mpr
        ⟨.inl hc,overlaps_pos hover⟩
      have := hrows row hrow u hu (by rw [heq]; exact hover)
      rw [heq] at this
      exact hstate this
  · intro hknown row hrow u hu hover
    obtain ⟨hrest,hapart⟩ := hknown
    by_contra hstate
    obtain ⟨hs,_⟩ := (mem_segmentsOfPoints drive path h hstate).mp ⟨row,hrow,rfl⟩
    rcases hs with hs | ⟨last,hhead,hs⟩
    · exact hapart u hu _ hs hover
    · obtain ⟨distance,hd,hlong,heq⟩ := mem_carriedTail.mp hs
      obtain ⟨hmem,hfar⟩ := farthest hhead
      rw [heq] at hover
      exact hrest last hmem hfar distance hd hlong u hu hover

end Carried

section Forward
variable {points : List MappedPoint} {previous point p : MappedPoint} {u : Span ℚ}

theorem unknownSpans_snoc (points : List MappedPoint) (p : MappedPoint) :
    unknownSpans (points ++ [p]) = unknownSpans points ++
      points.getLast?.toList.filterMap (fun previous => unknownBetween previous p) := by
  unfold unknownSpans
  rw [consecutive_snoc,List.filterMap_append]
  cases points.getLast? <;> rfl

theorem unknownBetween_ends (h : unknownBetween previous point = some u) :
    ∃ a b, previous.distanceIntoDriveMiles = some a ∧ point.distanceIntoDriveMiles = some b ∧
      min a b ≤ u.1 ∧ u.2 ≤ max a b ∧
      (previous.resetEpoch ≠ point.resetEpoch ∨
        (bucket previous point).any (fun b => !b.isValid) = true) := by
  unfold unknownBetween at h
  split at h
  · rename_i a b ha hb
    refine ⟨a,b,ha,hb,?_⟩
    split at h
    · rename_i he
      cases h
      exact ⟨le_refl _,le_refl _,.inl he⟩
    · split at h
      · rename_i hv
        cases h
        exact ⟨min_le_left a b,le_max_right a b,.inr hv⟩
      · cases h
  · cases h

/-- Two points whose distance is unknown certify nothing. -/
theorem certifiedBy_unknown (h : previous.resetEpoch ≠ point.resetEpoch ∨
    (bucket previous point).any (fun b => !b.isValid) = true) :
    certifiedBy previous point = [] := by
  unfold certifiedBy
  rcases h with he | hv
  · exact if_neg he
  · cases hb : bucket previous point with
    | none => simp [hb] at hv
    | some b =>
      have hinvalid : b.isValid = false := by simpa [hb] using hv
      simp [hinvalid]

/-- Everything among points lies at or before the greatest of their distances. -/
theorem spans_bound {hi : ℚ}
    (h : ∀ p ∈ points, ∀ d, p.distanceIntoDriveMiles = some d → d ≤ hi) :
    (∀ c ∈ certified points, c.endDistanceMiles ≤ hi) ∧ (∀ u ∈ unknownSpans points, u.2 ≤ hi) := by
  have hpairs : ∀ r ∈ consecutive points, r.1 ∈ points ∧ r.2 ∈ points := by
    intro r hr
    obtain ⟨h1,h2⟩ := List.of_mem_zip hr
    exact ⟨h1,List.mem_of_mem_tail h2⟩
  constructor
  · intro c hc
    obtain ⟨r,hr,hc⟩ := List.mem_flatMap.mp hc
    unfold certifiedBy at hc
    split at hc
    · obtain ⟨b,hb,hc⟩ := List.mem_flatMap.mp hc
      have hsome := Option.mem_toList.mp (List.mem_filter.mp hb).1
      obtain ⟨_,hpoint,hlt⟩ := bucket_eq hsome
      have hend := (segments_inOrder hlt).bounds c.span (List.mem_map_of_mem hc)
      exact hend.2.2.trans (h r.2 (hpairs r hr).2 _ hpoint)
    · cases hc
  · intro u hu
    obtain ⟨r,hr,hu⟩ := List.mem_filterMap.mp hu
    obtain ⟨a,b,ha,hb,_,hle,_⟩ := unknownBetween_ends hu
    exact hle.trans (max_le (h r.1 (hpairs r hr).1 a ha) (h r.2 (hpairs r hr).2 b hb))

/-- At mapped distances that do not decrease, certified segments and unknown distance
are always apart. -/
theorem certifiedApart_of_inOrder (h : DistancesInOrder points) : CertifiedApart points := by
  induction points using List.reverseRecOn with
  | nil => exact fun u hu => nomatch hu
  | append_singleton points p ih =>
    obtain ⟨hpoints,_,hlast⟩ := List.pairwise_append.mp h
    have hbefore := ih hpoints
    intro u hu c hc hover
    rw [unknownSpans_snoc] at hu
    rw [certified_snoc] at hc
    cases hq : points.getLast? with
    | none =>
      simp only [hq,Option.toList_none,List.filterMap_nil,List.flatMap_nil,List.append_nil] at hu hc
      exact hbefore u hu c hc hover
    | some q =>
      obtain ⟨init,rfl⟩ := List.getLast?_eq_some_iff.mp hq
      simp only [hq,Option.toList_some,List.flatMap_singleton] at hu hc
      -- everything before ends where the last of the earlier points lies
      have hbound : ∀ a, q.distanceIntoDriveMiles = some a →
          ∀ r ∈ init ++ [q], ∀ d, r.distanceIntoDriveMiles = some d → d ≤ a := by
        intro a ha r hr d hd
        rcases List.mem_append.mp hr with hr | hr
        · exact (List.pairwise_append.mp hpoints).2.2 r hr q List.mem_cons_self d a hd ha
        · rw [List.mem_singleton.mp hr,ha] at hd
          exact le_of_eq (Option.some.inj hd).symm
      rcases List.mem_append.mp hc with hc | hc
      · rcases List.mem_append.mp hu with hu | hu
        · exact hbefore u hu c hc hover
        · obtain ⟨r,hr,hu⟩ := List.mem_filterMap.mp hu
          rw [List.mem_singleton.mp hr] at hu
          obtain ⟨a,b,ha,hb,hle,_,_⟩ := unknownBetween_ends hu
          have hab := hlast q (by simp) p List.mem_cons_self a b ha hb
          have hend := (spans_bound (hbound a ha)).1 c hc
          rw [min_eq_left hab] at hle
          have h1 := le_max_left u.1 c.span.1
          have h2 := min_le_right u.2 c.span.2
          have h3 : c.span.2 = c.endDistanceMiles := rfl
          unfold Overlaps at hover
          linarith
      · obtain ⟨a,b,ha,hb⟩ := certifiedBy_mapped hc
        have hab := hlast q (by simp) p List.mem_cons_self a b ha hb
        have hstart := ((certifiedBy_inOrder ha hb hab).bounds c.span (List.mem_map_of_mem hc)).1
        rcases List.mem_append.mp hu with hu | hu
        · have hend := (spans_bound (hbound a ha)).2 u hu
          have h1 := le_max_right u.1 c.span.1
          have h2 := min_le_left u.2 c.span.2
          unfold Overlaps at hover
          linarith
        · obtain ⟨r,hr,hu⟩ := List.mem_filterMap.mp hu
          rw [List.mem_singleton.mp hr] at hu
          obtain ⟨_,_,_,_,_,_,hunknown⟩ := unknownBetween_ends hu
          rw [certifiedBy_unknown hunknown] at hc
          cases hc

end Forward

/-- Unknown distance is labelled uncertain wherever a row covers it, exactly when none
lies in the rest of the drive over which the last certified state is carried (and, where
the mapping runs backwards, none lies under a certified segment of other points). -/
theorem unknown_uncertain_iff (drive : Drive) (path : List PathPoint) (now : Int)
    (snapshots : List CounterSnapshot) :
    (∀ row ∈ driveFsdSegments drive path now snapshots,
      ∀ u ∈ unknownSpans (mappedPoints drive path now snapshots),
        Overlaps u row.span → row.state = .uncertain) ↔
    RestKnown drive (mappedPoints drive path now snapshots) ∧
      CertifiedApart (mappedPoints drive path now snapshots) :=
  uncertain_iff_of_points (mappedPoints_epochs drive path now snapshots)

def snapshot (t : Int) (messageId : String) (totalMiles fsdMiles : ℚ) : CounterSnapshot :=
  { sourceTimestamp := t, pubsubMessageId := messageId, totalMiles, fsdMiles
    synchronizedPair := true, pairingGapSeconds := 0 }

/-- Ten miles, the first five on FSD; the counters are reset before the end. -/
def resetDrive : Drive :=
  { startedAt := 0, endedAt := some 4000000, bestAvailableDistanceMiles := some 10 }

def resetPath : List PathPoint :=
  [{ sourceTimestamp := 1000000, latitude := 0, longitude := 0, distanceIntoDriveMiles := 5 }]

def resetSnapshots : List CounterSnapshot :=
  [snapshot 0 "m1" 100 50,snapshot 1000000 "m2" 105 55,snapshot 4000000 "m3" 1 0]

def pointAt (s : CounterSnapshot) (resetEpoch : Nat) (distance : ℚ) : MappedPoint :=
  { toCounterSnapshot := s, resetEpoch, distanceIntoDriveMiles := some distance }

theorem resetDrive_points : mappedPoints resetDrive resetPath 4000000 resetSnapshots =
    [pointAt (snapshot 0 "m1" 100 50) 0 0,pointAt (snapshot 1000000 "m2" 105 55) 0 5,
     pointAt (snapshot 4000000 "m3" 1 0) 1 10] := by
  have hsnapshots : orderBy CounterSnapshot.windowKey resetSnapshots = resetSnapshots :=
    orderBy_of_pairwise (by decide)
  have hchanges : driveCandidates resetDrive 4000000 (numberEpochs
      ((overRows (lag some none) resetSnapshots).map (fun p => (p.1,beginsResetEpoch p.1 p.2)))) =
      [⟨snapshot 0 "m1" 100 50,0⟩,⟨snapshot 1000000 "m2" 105 55,0⟩,
       ⟨snapshot 4000000 "m3" 1 0,1⟩] := by
    decide +kernel
  have hnearest : nearestPathPoint resetPath 1000000 = some ⟨1000000,0,0,5⟩ := by
    unfold nearestPathPoint
    rw [orderBy_of_pairwise (by decide)]
    rfl
  unfold mappedPoints pairedChanges resetMarkers
  rw [hsnapshots,hchanges]
  simp [selectedPoints,lastBefore,resetDrive,snapshot,distanceIntoDrive,hnearest,pointAt]

/-- The five miles after the reset are labelled FSD. -/
theorem reset_carried_as_fsd :
    ∃ row ∈ driveFsdSegments resetDrive resetPath 4000000 resetSnapshots,
      ∃ u ∈ unknownSpans (mappedPoints resetDrive resetPath 4000000 resetSnapshots),
        Overlaps u row.span ∧ row.state = .fsd := by
  have hepochs := mappedPoints_epochs resetDrive resetPath 4000000 resetSnapshots
  unfold driveFsdSegments
  rw [resetDrive_points] at hepochs ⊢
  have hcertified : certified [pointAt (snapshot 0 "m1" 100 50) 0 0,
      pointAt (snapshot 1000000 "m2" 105 55) 0 5,pointAt (snapshot 4000000 "m3" 1 0) 1 10] =
      [⟨0,5,.fsd,9 / 10,.synchronizedCounterBucket,0,5⟩] := by
    decide +kernel
  obtain ⟨row,hrow,hs⟩ := (mem_segmentsOfPoints resetDrive resetPath hepochs
    (s := carriedSegment ⟨0,5,.fsd,9 / 10,.synchronizedCounterBucket,0,5⟩ 10)
    (fun h => nomatch h)).mpr ⟨.inr ⟨⟨0,5,.fsd,9 / 10,.synchronizedCounterBucket,0,5⟩,by
      rw [hcertified,orderBy_of_pairwise (List.pairwise_singleton _ _)]
      rfl,mem_carriedTail.mpr ⟨10,rfl,by decide +kernel,rfl⟩⟩,by decide +kernel⟩
  refine ⟨row,hrow,(5,10),by decide +kernel,?_,?_⟩
  · rw [hs]
    decide +kernel
  · rw [hs]
    rfl

end Woodhouse.Fsd
