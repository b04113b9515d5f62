import Woodhouse.Drives.Routes

namespace Woodhouse.Drives
open Python Sql Ingest

section Points
variable {J : Type} {d : Drive} {now : Int} {table : List (Observation J ℚ)} {k : Int}

theorem maxOf_isSome {values : List (Option ℚ)} :
    (maxOf values).isSome = true ↔ ∃ v, some v ∈ values := by
  unfold maxOf
  constructor
  · intro h
    obtain ⟨m,hm⟩ := Option.isSome_iff_exists.mp h
    obtain ⟨v,hv,rfl⟩ := List.mem_filterMap.mp (List.max?_mem hm)
    exact ⟨m,hv⟩
  · rintro ⟨v,hv⟩
    have hmem : v ∈ values.filterMap id := List.mem_filterMap.mpr ⟨some v,hv,rfl⟩
    cases hmax : (values.filterMap id).max? with
    | none =>
      rw [List.max?_eq_none_iff.mp hmax] at hmem
      cases hmem
    | some m => rfl

/-- The two joins keep the same locations. -/
theorem isPathObservation_location {o : Observation J ℚ} (h : o.fieldName = str "Location") :
    isPathObservation d now o = isJoined d now o := by
  have hbetween : holds (isBetween (some (micros o.sourceTimestamp)) (some d.startedAt)
      (some (d.endedAt.getD now))) = (decide (d.startedAt ≤ micros o.sourceTimestamp) &&
        decide (micros o.sourceTimestamp ≤ d.endedAt.getD now)) := by
    simp only [isBetween,atMost,greater,truthNot_some,truthAnd_some,holds_some,← decide_not,not_lt]
  have hfield : o.fieldName ∈ [str "Location",str "VehicleSpeed",str "Soc"] := by
    rw [h]
    exact List.mem_cons_self
  unfold isPathObservation isJoined
  rw [hbetween,decide_eq_true hfield,Bool.and_true,← Bool.and_assoc]

/-- Every location of the drive has both coordinates. -/
def Located (d : Drive) (now : Int) (table : List (Observation J ℚ)) : Prop :=
  ∀ o ∈ table, isJoined d now o = true → o.fieldName = str "Location" →
    o.latitude.isSome = true ∧ o.longitude.isSome = true

/-- A coordinate of an instant is the same in both views. -/
theorem coordinate_eq (hlocated : Located d now table) (x : Observation J ℚ → Option ℚ) (k : Int) :
    maxOf (((table.filter (isPathObservation d now)).filter
      (fun o => micros o.sourceTimestamp = k)).map (ofLocation x)) =
    maxOf ((((table.filter (isJoined d now)).filter isLocated).filter
      (fun o => micros o.sourceTimestamp = k)).map x) := by
  unfold maxOf
  rw [List.filterMap_map,List.filterMap_map,List.filterMap_filter,List.filterMap_filter,
    List.filterMap_filter,List.filterMap_filter,List.filterMap_filter]
  congr 1
  refine List.filterMap_congr ?_
  intro o ho
  by_cases hfield : o.fieldName = str "Location"
  · rw [isPathObservation_location hfield]
    by_cases hjoined : isJoined d now o = true
    · obtain ⟨hlat,hlon⟩ := hlocated o ho hjoined hfield
      have hloc : isLocated o = true := by simp [isLocated,hfield,hlat,hlon]
      simp [hjoined,hloc,ofLocation,hfield]
    · simp [hjoined]
  · have hloc : isLocated o = false := by simp [isLocated,hfield]
    simp [hloc,ofLocation,hfield]

theorem routePoints_nodup :
    ((routePoints d now table).map RoutePoint.observationTimestamp).Nodup := by
  unfold routePoints routePointsOf
  rw [List.map_map]
  exact groupBy_keys_nodup _ _

theorem locationPoints_nodup :
    ((locationPoints d now table).map RoutePoint.observationTimestamp).Nodup := by
  have hevents : ((driveEvents d now table).map DriveEvent.sourceTimestamp).Nodup := by
    unfold driveEvents
    rw [List.map_map]
    exact groupBy_keys_nodup _ _
  unfold locationPoints
  rw [List.map_map]
  exact (List.filter_sublist.map DriveEvent.sourceTimestamp).nodup hevents

/-- The point of an instant. -/
def pointAt (d : Drive) (now : Int) (table : List (Observation J ℚ)) (k : Int) : RoutePoint :=
  { observationTimestamp := k
    point := geogPoint
      (maxOf ((((table.filter (isJoined d now)).filter isLocated).filter
        (fun o => micros o.sourceTimestamp = k)).map Observation.longitude))
      (maxOf ((((table.filter (isJoined d now)).filter isLocated).filter
        (fun o => micros o.sourceTimestamp = k)).map Observation.latitude)) }

theorem mem_routePoints {p : RoutePoint} : p ∈ routePoints d now table ↔
    ∃ k, (∃ o ∈ (table.filter (isJoined d now)).filter isLocated,
      micros o.sourceTimestamp = k) ∧ p = pointAt d now table k := by
  unfold routePoints routePointsOf
  rw [List.mem_map]
  constructor
  · rintro ⟨⟨k,g⟩,hg,rfl⟩
    obtain ⟨rfl,hk⟩ := mem_groupBy.mp hg
    exact ⟨k,hk,rfl⟩
  · rintro ⟨k,hk,rfl⟩
    exact ⟨_,mem_groupBy.mpr ⟨rfl,hk⟩,rfl⟩

theorem mem_locationPoints (hlocated : Located d now table) {p : RoutePoint} :
    p ∈ locationPoints d now table ↔
      ∃ k, (∃ o ∈ (table.filter (isJoined d now)).filter isLocated,
        micros o.sourceTimestamp = k) ∧ p = pointAt d now table k := by
  unfold locationPoints driveEvents
  constructor
  · intro h
    obtain ⟨e,he,rfl⟩ := List.mem_map.mp h
    obtain ⟨he,hsome⟩ := List.mem_filter.mp he
    obtain ⟨⟨k,g⟩,hg,rfl⟩ := List.mem_map.mp he
    obtain ⟨rfl,_⟩ := mem_groupBy.mp hg
    simp only [coordinate_eq hlocated,Bool.and_eq_true] at hsome ⊢
    obtain ⟨v,hv⟩ := maxOf_isSome.mp hsome.1
    obtain ⟨o,ho,_⟩ := List.mem_map.mp hv
    obtain ⟨ho,hk⟩ := List.mem_filter.mp ho
    exact ⟨k,⟨o,ho,of_decide_eq_true hk⟩,rfl⟩
  · rintro ⟨k,⟨o,ho,hk⟩,rfl⟩
    obtain ⟨hjoined,hloc⟩ := List.mem_filter.mp ho
    obtain ⟨hmem,hjoined⟩ := List.mem_filter.mp hjoined
    have hfield : o.fieldName = str "Location" ∧ o.latitude.isSome = true ∧
        o.longitude.isSome = true := by
      simpa [isLocated,and_assoc] using hloc
    have hpath : o ∈ table.filter (isPathObservation d now) :=
      List.mem_filter.mpr ⟨hmem,by rw [isPathObservation_location hfield.1]; exact hjoined⟩
    have hgroup : (k,(table.filter (isPathObservation d now)).filter
        (fun o => micros o.sourceTimestamp = k)) ∈ groupBy (fun o => micros o.sourceTimestamp)
          (table.filter (isPathObservation d now)) := mem_groupBy.mpr ⟨rfl,o,hpath,hk⟩
    have hrow : o ∈ ((table.filter (isJoined d now)).filter isLocated).filter
        (fun o => micros o.sourceTimestamp = k) := List.mem_filter.mpr ⟨ho,decide_eq_true hk⟩
    refine List.mem_map.mpr ⟨_,List.mem_filter.mpr ⟨List.mem_map.mpr ⟨_,hgroup,rfl⟩,?_⟩,?_⟩
    · rw [coordinate_eq hlocated,coordinate_eq hlocated,Bool.and_eq_true,maxOf_isSome,maxOf_isSome]
      obtain ⟨lat,hlat⟩ := Option.isSome_iff_exists.mp hfield.2.1
      obtain ⟨lon,hlon⟩ := Option.isSome_iff_exists.mp hfield.2.2
      exact ⟨⟨lat,List.mem_map.mpr ⟨o,hrow,hlat⟩⟩,lon,List.mem_map.mpr ⟨o,hrow,hlon⟩⟩
    · rw [coordinate_eq hlocated,coordinate_eq hlocated]
      rfl

/-- Both views see the same route. -/
theorem routeSegments_eq (hlocated : Located d now table) :
    routeSegments (locationPoints d now table) = routeSegments (routePoints d now table) := by
  unfold routeSegments
  rw [orderBy_same locationPoints_nodup routePoints_nodup]
  intro p
  rw [mem_locationPoints hlocated,mem_routePoints]

end Points

section Lengths
variable {stDistance : GeogPoint → GeogPoint → ℚ}

/-- The length of a segment, 0 where it is not plausible. -/
def segmentLength (stDistance : GeogPoint → GeogPoint → ℚ) (p : RoutePoint × Option RoutePoint) :
    ℚ := (segmentDistanceMiles stDistance p).getD 0

/-- A plausible segment has a length. -/
theorem segmentDistance_known (p : RoutePoint × Option RoutePoint) :
    segmentDistanceMiles stDistance p = some (segmentLength stDistance p) := by
  unfold segmentLength segmentDistanceMiles
  split
  · rename_i hwithin
    obtain ⟨x,_,hx,_,_⟩ := holds_atMost.mp hwithin
    rw [hx]
    rfl
  · rfl

theorem segmentLength_nonneg (hdist : ∀ p q, 0 ≤ stDistance p q)
    (p : RoutePoint × Option RoutePoint) : 0 ≤ segmentLength stDistance p := by
  unfold segmentLength segmentDistanceMiles
  split
  · cases hcandidate : candidateSegmentMiles stDistance p with
    | none => exact le_refl 0
    | some x =>
      obtain ⟨m,hm,rfl⟩ := Option.map_eq_some_iff.mp hcandidate
      obtain ⟨a,b,_,_,rfl⟩ := Option.map₂_eq_some_iff.mp hm
      exact div_nonneg (hdist a b) (by norm_num [metresPerMile])
  · exact le_refl 0

theorem sum_known {rows : List (RoutePoint × Option RoutePoint)} (h : rows ≠ []) :
    sumOf (rows.map (segmentDistanceMiles stDistance)) =
      some (rows.map (segmentLength stDistance)).sum := by
  have hrows : rows.map (segmentDistanceMiles stDistance) =
      (rows.map (segmentLength stDistance)).map some := by
    rw [List.map_map]
    exact List.map_congr_left (fun p _ => segmentDistance_known p)
  rw [hrows,sumOf_known (by simpa using h)]

/-- The raw distances are the running totals of the lengths. -/
theorem cumulative_totals (rows : List (RoutePoint × Option RoutePoint)) :
    (overRows (fun frame => sumOf (frame.map (segmentDistanceMiles stDistance))) rows).map
      Prod.snd = (runningTotals (segmentLength stDistance) rows).map some := by
  induction rows using List.reverseRecOn with
  | nil => rfl
  | append_singleton rows a ih =>
    have hsum : sumOf ((rows ++ [a]).map (segmentDistanceMiles stDistance)) =
        some ((rows ++ [a]).map (segmentLength stDistance)).sum := sum_known (by simp)
    rw [over_snoc,hsum,List.map_append,ih,runningTotals_snoc]
    simp

end Lengths

section Metrics
variable {J : Type} {stDistance : GeogPoint → GeogPoint → ℚ} {d : Drive} {now : Int}
  {boundaries : List (MetricBoundary ℚ)} {table : List (Observation J ℚ)}

theorem bestDistance_nonneg {m : DriveMetrics} {best : ℚ}
    (hdistance : ∀ x, m.distanceMiles = some x → 0 ≤ x)
    (h : m.bestAvailableDistanceMiles = some best) : 0 ≤ best := by
  unfold DriveMetrics.bestAvailableDistanceMiles at h
  split at h
  · exact hdistance best h
  · split at h
    · rename_i husable
      unfold DriveMetrics.routeUsable at husable
      rw [Bool.and_eq_true,Bool.and_eq_true] at husable
      obtain ⟨x,y,hx,hy,hlt⟩ := holds_greater.mp husable.1.1
      cases hy
      rw [h,Option.some.injEq] at hx
      exact hx ▸ hlt.le
    · cases h

theorem distanceMiles_nonneg {x : ℚ}
    (h : (driveMetrics stDistance d now boundaries table).distanceMiles = some x) : 0 ≤ x := by
  obtain ⟨a,b,_,hb,rfl⟩ := Option.map₂_eq_some_iff.mp h
  cases hb
  exact le_max_right _ _

/-- The route distance of a drive with locations. -/
theorem routeDistance_some (h : routeSegments (routePoints d now table) ≠ []) :
    (driveMetrics stDistance d now boundaries table).routeDistanceMiles =
      some ((routeSegments (routePoints d now table)).map (segmentLength stDistance)).sum := by
  change (routeSummary stDistance (routePoints d now table)).bind _ = _
  unfold routeSummary
  cases hrows : routeSegments (routePoints d now table) with
  | nil => exact absurd hrows h
  | cons p rows => exact sum_known (by simp)

theorem routeSegments_ne_nil {o : Observation J ℚ} (ho : o ∈ table)
    (hjoined : isJoined d now o = true) (hfield : o.fieldName = str "Location")
    (hlocated : Located d now table) : routeSegments (routePoints d now table) ≠ [] := by
  obtain ⟨hlat,hlon⟩ := hlocated o ho hjoined hfield
  have hrow : o ∈ (table.filter (isJoined d now)).filter isLocated :=
    List.mem_filter.mpr ⟨List.mem_filter.mpr ⟨ho,hjoined⟩,by simp [isLocated,hfield,hlat,hlon]⟩
  have hpoint : pointAt d now table (micros o.sourceTimestamp) ∈ routePoints d now table :=
    mem_routePoints.mpr ⟨_,⟨o,hrow,rfl⟩,rfl⟩
  intro hnil
  have hfst := over_fst (lag some none)
    (orderBy RoutePoint.observationTimestamp (routePoints d now table))
  unfold routeSegments at hnil
  rw [hnil] at hfst
  have hmem : _ ∈ orderBy RoutePoint.observationTimestamp (routePoints d now table) :=
    mem_orderBy.mpr hpoint
  rw [← hfst] at hmem
  cases hmem

/-- Scaling multiplies by a factor that takes the whole route to the best distance. -/
theorem scaledDistance_factor {total : ℚ} {best : Option ℚ} (htotal : 0 ≤ total)
    (hbest : ∀ b, best = some b → 0 ≤ b) : ∃ factor : ℚ, 0 ≤ factor ∧
      (∀ x, scaledDistance (some total) best (some x) = some (x * factor)) ∧
      ∀ b, best = some b → total * factor ≤ b ∧ (0 < total → total * factor = b) := by
  by_cases h : 0 < total ∧ best.isSome = true
  · obtain ⟨hpos,hsome⟩ := h
    obtain ⟨b,rfl⟩ := Option.isSome_iff_exists.mp hsome
    refine ⟨b / total,div_nonneg (hbest b rfl) htotal,?_,?_⟩
    · intro x
      have hcond : holds (truthAnd (greater (some total) (some 0)) (some (some b).isSome)) =
          true := by simp [greater,hpos]
      unfold scaledDistance
      rw [if_pos hcond]
      simp [mul_div_assoc]
    · intro b' hb'
      cases hb'
      have heq : total * (b / total) = b := by field_simp
      exact ⟨heq.le,fun _ => heq⟩
  · refine ⟨1,zero_le_one,?_,?_⟩
    · intro x
      have hcond : ¬ holds (truthAnd (greater (some total) (some 0)) (some best.isSome)) =
          true := by simpa [greater] using h
      unfold scaledDistance
      rw [if_neg hcond,mul_one]
    · rintro b rfl
      have hzero : total = 0 := by
        refine le_antisymm (not_lt.mp ?_) htotal
        exact fun hpos => h ⟨hpos,rfl⟩
      rw [hzero,zero_mul]
      exact ⟨hbest b rfl,fun hpos => absurd hpos (lt_irrefl 0)⟩

end Metrics

/-- The row of `drives` and the rows of `drive_path_points` of a drive agree. -/
structure RoutesAgree (m : DriveMetrics) (path : List DrivePathPoint) : Prop where
  route : ∃ raw, m.routeDistanceMiles = some raw ∧
    path.getLast?.map DrivePathPoint.rawDistanceIntoDriveMiles = some (some raw)
  rises : path.Pairwise (fun p q => p.sourceTimestamp < q.sourceTimestamp ∧
    ∃ x y, p.distanceIntoDriveMiles = some x ∧ q.distanceIntoDriveMiles = some y ∧ x ≤ y)
  within : ∀ best, m.bestAvailableDistanceMiles = some best → ∀ p ∈ path,
    ∃ x, p.distanceIntoDriveMiles = some x ∧ 0 ≤ x ∧ x ≤ best
  ends : ∀ best raw, m.bestAvailableDistanceMiles = some best →
    m.routeDistanceMiles = some raw → 0 < raw →
      path.getLast?.map DrivePathPoint.distanceIntoDriveMiles = some (some best)

section Agreement
variable {J : Type} {stDistance : GeogPoint → GeogPoint → ℚ} {d : Drive} {now : Int}
  {boundaries : List (MetricBoundary ℚ)} {table : List (Observation J ℚ)}

/-- The length of a whole route. -/
def routeLength (stDistance : GeogPoint → GeogPoint → ℚ) (points : List RoutePoint) : ℚ :=
  ((routeSegments points).map (segmentLength stDistance)).sum

theorem routeLength_nonneg (hdist : ∀ p q, 0 ≤ stDistance p q) (points : List RoutePoint) :
    0 ≤ routeLength stDistance points := by
  refine List.sum_nonneg ?_
  intro x hx
  obtain ⟨p,_,rfl⟩ := List.mem_map.mp hx
  exact segmentLength_nonneg hdist p

theorem cumulative_max {points : List RoutePoint}
    (hdist : ∀ p q, 0 ≤ stDistance p q) (hpoints : routeSegments points ≠ []) :
    maxOf ((cumulative stDistance points).map Prod.snd) =
      some (routeLength stDistance points) := by
  unfold cumulative
  rw [cumulative_totals,maxOf_known]
  exact runningTotals_max hpoints (fun p _ => segmentLength_nonneg hdist p)

/-- The points of a path come in time order. -/
theorem cumulative_times {points : List RoutePoint}
    (hnodup : (points.map RoutePoint.observationTimestamp).Nodup) :
    (cumulative stDistance points).Pairwise
      (fun a b => a.1.1.observationTimestamp < b.1.1.observationTimestamp) := by
  have hordered := orderBy_strict hnodup
  have hfst : ((cumulative stDistance points).map Prod.fst).map Prod.fst =
      orderBy RoutePoint.observationTimestamp points := by
    unfold cumulative routeSegments
    rw [over_fst,over_fst]
  rw [← hfst,List.pairwise_map,List.pairwise_map] at hordered
  exact hordered

/-- A row's raw distance is a running total. -/
theorem cumulative_snd {points : List RoutePoint}
    {row : (RoutePoint × Option RoutePoint) × Option ℚ} (h : row ∈ cumulative stDistance points) :
    ∃ x ∈ runningTotals (segmentLength stDistance) (routeSegments points), row.2 = some x := by
  have hmem : row.2 ∈ (cumulative stDistance points).map Prod.snd := List.mem_map.mpr ⟨row,h,rfl⟩
  unfold cumulative at hmem
  rw [cumulative_totals] at hmem
  obtain ⟨x,hx,heq⟩ := List.mem_map.mp hmem
  exact ⟨x,hx,heq.symm⟩

theorem cumulative_mono {points : List RoutePoint} (hdist : ∀ p q, 0 ≤ stDistance p q) :
    (cumulative stDistance points).Pairwise
      (fun a b => ∃ x y, a.2 = some x ∧ b.2 = some y ∧ x ≤ y) := by
  have hmono : (runningTotals (segmentLength stDistance) (routeSegments points)).Pairwise
      (fun x y => x ≤ y) := runningTotals_mono (fun p _ => segmentLength_nonneg hdist p)
  have htotals : (cumulative stDistance points).map Prod.snd =
      (runningTotals (segmentLength stDistance) (routeSegments points)).map some :=
    cumulative_totals _
  have hsome : ((runningTotals (segmentLength stDistance) (routeSegments points)).map
      some).Pairwise (fun a b => ∃ x y, a = some x ∧ b = some y ∧ x ≤ y) :=
    List.pairwise_map.mpr (hmono.imp (fun hle => ⟨_,_,rfl,rfl,hle⟩))
  rw [← htotals,List.pairwise_map] at hsome
  exact hsome

theorem cumulative_last {points : List RoutePoint} (hpoints : routeSegments points ≠ []) :
    (cumulative stDistance points).getLast?.map Prod.snd =
      some (some (routeLength stDistance points)) := by
  rw [← List.getLast?_map]
  unfold cumulative
  rw [cumulative_totals,List.getLast?_map,runningTotals_last hpoints]
  rfl

end Agreement

/-- For a drive with a location, where every location has both coordinates. -/
theorem routes_agree {J : Type} {stDistance : GeogPoint → GeogPoint → ℚ} {d : Drive} {now : Int}
    {boundaries : List (MetricBoundary ℚ)} {table : List (Observation J ℚ)}
    (hdist : ∀ p q, 0 ≤ stDistance p q)
    (hlocation : ∃ o ∈ table, isJoined d now o = true ∧ o.fieldName = str "Location")
    (hlocated : Located d now table) :
    RoutesAgree (driveMetrics stDistance d now boundaries table)
      (drivePath stDistance d now boundaries table) := by
  obtain ⟨o,ho,hjoined,hfield⟩ := hlocation
  have hroute := routeSegments_ne_nil ho hjoined hfield hlocated
  have hsegments := routeSegments_eq hlocated
  have hpath : routeSegments (locationPoints d now table) ≠ [] := by
    rw [hsegments]
    exact hroute
  have hdistance : (driveMetrics stDistance d now boundaries table).routeDistanceMiles =
      some (routeLength stDistance (locationPoints d now table)) := by
    unfold routeLength
    rw [hsegments]
    exact routeDistance_some hroute
  have htotals : (cumulative stDistance (locationPoints d now table)).getLast?.map Prod.snd =
      some (some (routeLength stDistance (locationPoints d now table))) := cumulative_last hpath
  obtain ⟨last,hlast,htotal⟩ := Option.map_eq_some_iff.mp htotals
  have hrows : drivePath stDistance d now boundaries table =
      (cumulative stDistance (locationPoints d now table)).map (drivePathPoint stDistance
        (some (routeLength stDistance (locationPoints d now table)))
        (driveMetrics stDistance d now boundaries table).bestAvailableDistanceMiles) := by
    unfold drivePath drivePathPoints
    rw [cumulative_max hdist hpath]
  obtain ⟨factor,hfactor,hscale,hbest⟩ := scaledDistance_factor
    (routeLength_nonneg hdist (locationPoints d now table))
    (fun b (hb : (driveMetrics stDistance d now boundaries table).bestAvailableDistanceMiles =
      some b) => bestDistance_nonneg (fun x hx => distanceMiles_nonneg hx) hb)
  have hscaled : ∀ {row : (RoutePoint × Option RoutePoint) × Option ℚ} {x : ℚ},
      row.2 = some x → (drivePathPoint stDistance
        (some (routeLength stDistance (locationPoints d now table)))
        (driveMetrics stDistance d now boundaries table).bestAvailableDistanceMiles
        row).distanceIntoDriveMiles = some (x * factor) := by
    intro row x hx
    unfold drivePathPoint
    rw [hx,hscale]
  rw [hrows]
  constructor
  · refine ⟨_,hdistance,?_⟩
    rw [List.getLast?_map,hlast,← htotal]
    rfl
  · refine List.pairwise_map.mpr ?_
    refine ((cumulative_times locationPoints_nodup).and (cumulative_mono hdist)).imp ?_
    rintro p q ⟨htime,x,y,hx,hy,hle⟩
    exact ⟨htime,_,_,hscaled hx,hscaled hy,mul_le_mul_of_nonneg_right hle hfactor⟩
  · intro best hb p hp
    obtain ⟨row,hrow,rfl⟩ := List.mem_map.mp hp
    obtain ⟨x,hx,hval⟩ := cumulative_snd hrow
    obtain ⟨hlow,hhigh⟩ := runningTotals_bounds
      (fun p _ => segmentLength_nonneg hdist p) x hx
    refine ⟨_,hscaled hval,mul_nonneg hlow hfactor,?_⟩
    exact (mul_le_mul_of_nonneg_right hhigh hfactor).trans (hbest best hb).1
  · intro best raw hb hraw hpos
    rw [hdistance,Option.some.injEq] at hraw
    rw [List.getLast?_map,hlast,Option.map_some,Option.map_some,hscaled htotal,
      (hbest best hb).2 (hraw ▸ hpos)]

section Odometers
variable {J : Type} {d : Drive} {drives : List Drive} {table : List (Observation J ℚ)}
  {name : BoundaryName}

/-- Without odometer observations no odometer boundary has a value. -/
theorem odometerMiles_none (hodometer : ∀ o ∈ table, o.fieldName ≠ str "Odometer") :
    odometerMiles d ((selectedCandidates drives table).map (fun p => metricBoundary p.1 p.2))
      name = none := by
  by_contra hsome
  obtain ⟨v,hv⟩ := maxOf_isSome.mp (Option.isSome_iff_ne_none.mpr hsome)
  obtain ⟨b,hb,hvalue⟩ := List.mem_map.mp hv
  obtain ⟨⟨spec,o⟩,hp,rfl⟩ := List.mem_map.mp (List.mem_filter.mp hb).1
  split at hvalue
  · rename_i hfield
    obtain ⟨o,rfl,_⟩ := Option.bind_eq_some_iff.mp hvalue
    obtain ⟨_,ho,hcandidate⟩ :=
      mem_leftJoin_some.mp (mem_orderBy.mp (mem_of_firstRows hp))
    simp only [isCandidate,Bool.and_eq_true,decide_eq_true_eq] at hcandidate
    have hname : o.fieldName = spec.field.fieldName := hcandidate.1.2
    rw [show spec.field = .odometer from hfield.2] at hname
    exact hodometer o ho hname
  · cases hvalue

end Odometers

section Meridian

/-- Metres along a meridian, a degree being 111195 of them. -/
def meridianDistance (p q : GeogPoint) : ℚ := |p.latitude - q.latitude| * 111195

theorem meridianDistance_nonneg (p q : GeogPoint) : 0 ≤ meridianDistance p q :=
  mul_nonneg (abs_nonneg _) (by norm_num)

/-- A valid location on the meridian. -/
def location (t : Utc) (latitude : ℚ) : Observation Unit ℚ :=
  { sourceTimestamp := t, ingestedAt := t, processedAt := t, vehicleId := some (str "v")
    recordType := str "V", fieldName := str "Location", isInvalid := false, numericValue := none
    stringValue := none, booleanValue := none, latitude := some latitude, longitude := some 0
    valueJson := none, telemetryConfigVersion := none, telemetryConfigHash := none
    transportMessageId := none, pubsubMessageId := str "m1", telemetryClientVersion := none
    telemetryReceiverVersion := str "v1", receiverRecordVersion := none }

/-- A drive of two seconds. -/
def meridianDrive : Drive :=
  { driveId := some (str "d"), vehicleId := some (str "v"), startedAt := 0
    endedAt := some 2000000, startGearMessageId := none, endGearMessageId := none
    previousDriveEndedAt := none, nextDriveStartedAt := none }

/-- The metric boundaries of the drive. -/
def meridianBoundaries (table : List (Observation Unit ℚ)) : List (MetricBoundary ℚ) :=
  (selectedCandidates [meridianDrive] table).map (fun p => metricBoundary p.1 p.2)

/-- Two locations 56 metres apart. -/
def shortTrip : List (Observation Unit ℚ) :=
  [location ⟨0,by decide⟩ 0,location ⟨1000000,by decide⟩ (1 / 2000)]

theorem routes_agree_shortTrip : RoutesAgree
    (driveMetrics meridianDistance meridianDrive 0 (meridianBoundaries shortTrip) shortTrip)
    (drivePath meridianDistance meridianDrive 0 (meridianBoundaries shortTrip) shortTrip) := by
  refine routes_agree meridianDistance_nonneg ⟨_,List.mem_cons_self,by decide,rfl⟩ ?_
  intro o ho _ _
  rcases List.mem_cons.mp ho with rfl | ho
  · exact ⟨rfl,rfl⟩
  · rw [List.mem_singleton.mp ho]
    exact ⟨rfl,rfl⟩

/-- A third location a degree away, a second later. -/
def jumpTrip : List (Observation Unit ℚ) := shortTrip ++ [location ⟨2000000,by decide⟩ 1]

theorem jumpTrip_located : Located meridianDrive 0 jumpTrip := by
  intro o ho _ _
  obtain ⟨t,latitude,rfl⟩ : ∃ t latitude, o = location t latitude := by
    simp only [jumpTrip,shortTrip,List.cons_append,List.nil_append,List.mem_cons,
      List.not_mem_nil,or_false] at ho
    rcases ho with rfl | rfl | rfl
    · exact ⟨_,_,rfl⟩
    · exact ⟨_,_,rfl⟩
    · exact ⟨_,_,rfl⟩
  exact ⟨rfl,rfl⟩

def meridianPoint (t : Int) (latitude : ℚ) : RoutePoint :=
  { observationTimestamp := t, point := some { longitude := 0, latitude } }

theorem jumpTrip_segments : routeSegments (routePoints meridianDrive 0 jumpTrip) =
    [(meridianPoint 0 0,none),(meridianPoint 1000000 (1 / 2000),some (meridianPoint 0 0)),
      (meridianPoint 2000000 1,some (meridianPoint 1000000 (1 / 2000)))] := by
  have hpoints : routePoints meridianDrive 0 jumpTrip =
      [meridianPoint 0 0,meridianPoint 1000000 (1 / 2000),meridianPoint 2000000 1] := by
    decide +kernel
  unfold routeSegments
  rw [hpoints,orderBy_of_pairwise (by decide)]
  rfl

theorem jumpTrip_best :
    (driveMetrics meridianDistance meridianDrive 0 (meridianBoundaries jumpTrip) jumpTrip).bestAvailableDistanceMiles =
      none := by
  have hrejected : (driveMetrics meridianDistance meridianDrive 0 (meridianBoundaries jumpTrip)
      jumpTrip).routeRejectedSegmentCount = 1 := by
    change ((routeSummary meridianDistance (routePoints meridianDrive 0 jumpTrip)).map _).getD 0 = 1
    unfold routeSummary
    rw [jumpTrip_segments]
    decide +kernel
  have hdistance : (driveMetrics meridianDistance meridianDrive 0 (meridianBoundaries jumpTrip) jumpTrip).distanceMiles =
      none := by
    have hstart : odometerMiles meridianDrive (meridianBoundaries jumpTrip) .start = none :=
      odometerMiles_none (by decide)
    unfold driveMetrics metricsOf
    simp only [hstart,Option.map₂_none_right]
    rfl
  unfold DriveMetrics.bestAvailableDistanceMiles DriveMetrics.routeUsable
  rw [hdistance,hrejected]
  simp

theorem scaledDistance_none (rawRoute raw : Option ℚ) : scaledDistance rawRoute none raw = raw := by
  unfold scaledDistance
  rw [if_neg]
  simp

/-- Without odometers and with a rejected segment there is no best distance, although the route
is longer than 0 and the path ends at its raw distance. -/
theorem jumpTrip_unscaled : (∃ o ∈ jumpTrip, isJoined meridianDrive 0 o = true ∧
      o.fieldName = str "Location") ∧ Located meridianDrive 0 jumpTrip ∧
    (∃ raw, (driveMetrics meridianDistance meridianDrive 0 (meridianBoundaries jumpTrip) jumpTrip).routeDistanceMiles =
      some raw ∧ 0 < raw) ∧
    (drivePath meridianDistance meridianDrive 0 (meridianBoundaries jumpTrip) jumpTrip).getLast?.map
      DrivePathPoint.distanceIntoDriveMiles ≠
        some (driveMetrics meridianDistance meridianDrive 0 (meridianBoundaries jumpTrip)
          jumpTrip).bestAvailableDistanceMiles := by
  have hsegments := routeSegments_eq jumpTrip_located
  have hne : routeSegments (routePoints meridianDrive 0 jumpTrip) ≠ [] := by
    rw [jumpTrip_segments]
    exact List.cons_ne_nil _ _
  refine ⟨⟨_,List.mem_cons_self,by decide,rfl⟩,jumpTrip_located,
    ⟨_,routeDistance_some hne,?_⟩,?_⟩
  · rw [jumpTrip_segments]
    decide +kernel
  · rw [← hsegments] at hne
    have hlast : (cumulative meridianDistance (locationPoints meridianDrive 0
        jumpTrip)).getLast?.map Prod.snd = some (some (routeLength meridianDistance
          (locationPoints meridianDrive 0 jumpTrip))) := cumulative_last hne
    obtain ⟨row,hrow,hraw⟩ := Option.map_eq_some_iff.mp hlast
    unfold drivePath drivePathPoints
    rw [jumpTrip_best,List.getLast?_map,hrow,Option.map_some,Option.map_some]
    unfold drivePathPoint
    rw [scaledDistance_none,hraw]
    simp

end Meridian

end Woodhouse.Drives
