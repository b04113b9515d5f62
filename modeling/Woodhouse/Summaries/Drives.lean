import Woodhouse.Drives.Refinement
import Woodhouse.Fsd.PathStates
import Woodhouse.Summaries.Daily

namespace Woodhouse.Summaries
open Python Sql Ingest
open Drives (Drive MetricBoundary BoundaryName RouteSummary micros)

section View
variable {J : Type} (stDistance : Drives.GeogPoint → Drives.GeogPoint → ℚ) (now : Int)

/-- `drive_id, vehicle_id, started_at, ended_at`; the other columns of a drive are left out. -/
def session (b : MetricBoundary ℚ) : Drive :=
  { driveId := b.driveId, vehicleId := b.vehicleId, startedAt := b.startedAt, endedAt := b.endedAt
    startGearMessageId := none, endGearMessageId := none
    previousDriveEndedAt := none, nextDriveStartedAt := none }

/-- The rows of `sessions`: the view `drive_metric_boundaries`, grouped by these columns. -/
def sessions (boundaries : List (MetricBoundary ℚ)) : List Drive :=
  (boundaries.map session).dedup

/-- The rows of `joined` of a `drive_id` that hold an observation; `now` is
`CURRENT_TIMESTAMP()`. -/
def joined (boundaries : List (MetricBoundary ℚ)) (table : List (Observation J ℚ))
    (driveId : Option Str) : List (Observation J ℚ) :=
  ((sessions boundaries).filter (fun d => d.driveId = driveId)).flatMap
    (fun d => table.filter (Drives.isJoined d now))

/-- `MAX(IF(boundary_name = … AND field_name = 'EnergyRemaining', selected_numeric_value, NULL))`. -/
def energyKwh (d : Drive) (boundaries : List (MetricBoundary ℚ)) (name : BoundaryName) :
    Option ℚ :=
  maxOf ((boundaries.filter (fun b => holds (equals b.driveId d.driveId))).map (fun b =>
    if b.boundaryName = name ∧ b.field = .energyRemaining then b.selectedNumericValue else none))

/-- The summary's columns of a row of `drives`, for its row of `route_summary`. -/
def driveRow (boundaries : List (MetricBoundary ℚ)) (route : Option RouteSummary) (d : Drive) :
    DriveRow :=
  let metrics := Drives.metricsOf d boundaries route
  { startedAt := d.startedAt
    vehicleId := d.vehicleId
    distanceMiles := metrics.distanceMiles
    bestAvailableDistanceMiles := metrics.bestAvailableDistanceMiles
    distanceMethod := metrics.distanceMethod
    energyUsedKwh := greatest (Option.map₂ (fun a b => a - b) (energyKwh d boundaries .start)
      (energyKwh d boundaries .end_)) (some 0)
    durationSeconds := timestampDiff second (d.endedAt.getD now) d.startedAt }

/-- A session with its groups of `boundaries`, `JOIN … USING (drive_id)`. -/
def sessionRows (boundaries : List (MetricBoundary ℚ)) (table : List (Observation J ℚ))
    (d : Drive) : List DriveRow :=
  ((groupBy MetricBoundary.driveId boundaries).filter
    (fun g => holds (equals d.driveId g.1))).map (fun g =>
      driveRow now g.2 (Drives.routeSummary stDistance
        (Drives.routePointsOf (joined now boundaries table d.driveId))) d)

/-- The rows of `drives` over one table of observations. -/
def driveRows (ids : Drives.IdFunctions) (texts : Drives.JsonTexts J)
    (table : List (Observation J ℚ)) : List DriveRow :=
  (sessions (Drives.driveMetricBoundaries ids texts table)).flatMap
    (sessionRows stDistance now (Drives.driveMetricBoundaries ids texts table) table)

end View

section Sessions
variable {J : Type} {stDistance : Drives.GeogPoint → Drives.GeogPoint → ℚ} {now : Int}
  {ids : Drives.IdFunctions} {texts : Drives.JsonTexts J} {table : List (Observation J ℚ)}
  {boundaries : List (MetricBoundary ℚ)} {vehicleId : Str}

/-- The columns of a drive that its boundaries repeat. -/
def columns (d : Drive) : Drive :=
  { d with startGearMessageId := none, endGearMessageId := none
           previousDriveEndedAt := none, nextDriveStartedAt := none }

theorem mem_sessions {s : Drive} : s ∈ sessions boundaries ↔ ∃ b ∈ boundaries, session b = s := by
  unfold sessions
  rw [List.mem_dedup,List.mem_map]

/-- A boundary repeats the columns of a drive. -/
theorem boundary_drive {b : MetricBoundary ℚ}
    (h : b ∈ Drives.driveMetricBoundaries ids texts table) :
    ∃ d ∈ Drives.drives ids (Drives.gearEvents texts table), session b = columns d := by
  obtain ⟨p,hp,rfl⟩ := List.mem_map.mp h
  have hspec := mem_left_of_leftJoin (mem_orderBy.mp (mem_of_firstRows hp))
  obtain ⟨d,hd,name,field,_,hspec⟩ := Drives.mem_boundarySpecs.mp hspec
  refine ⟨d,hd,?_⟩
  have hdrive : p.1.drive = d := by
    rw [hspec]
    cases name <;> rfl
  change columns p.1.drive = columns d
  rw [hdrive]

theorem session_drive {s : Drive}
    (h : s ∈ sessions (Drives.driveMetricBoundaries ids texts table)) :
    ∃ d ∈ Drives.drives ids (Drives.gearEvents texts table), s = columns d := by
  obtain ⟨b,hb,rfl⟩ := mem_sessions.mp h
  exact boundary_drive hb

/-- A drive of the vehicle has boundaries, since it has a start. -/
theorem drive_boundary (htext : Drives.ReadOffText texts table)
    (htimes : Drives.DistinctTimes (some vehicleId) table)
    (hids : Drives.IdsApart ids (Drives.drives ids (Drives.gearEvents texts table))) {d : Drive}
    (hd : d ∈ Drives.drives ids (Drives.gearEvents texts table))
    (hv : d.vehicleId = some vehicleId) :
    ∃ b ∈ Drives.driveMetricBoundaries ids texts table, b.driveId = d.driveId := by
  have hlength := Drives.boundaryRows_length htext htimes hids hd hv .start .odometer
  rw [if_pos (.inl rfl)] at hlength
  obtain ⟨b,hb⟩ := List.length_eq_one_iff.mp hlength
  have hmem : b ∈ Drives.boundaryRows ids texts table d .start .odometer := by
    rw [hb]
    exact List.mem_singleton_self b
  obtain ⟨hmem,hkey⟩ := List.mem_filter.mp hmem
  exact ⟨b,hmem,(Prod.mk.inj (of_decide_eq_true hkey)).1⟩

/-- The sessions with the id of a drive of the vehicle are that drive. -/
theorem sessions_of_id (htext : Drives.ReadOffText texts table)
    (htimes : Drives.DistinctTimes (some vehicleId) table)
    (hids : Drives.IdsApart ids (Drives.drives ids (Drives.gearEvents texts table))) {d : Drive}
    (hd : d ∈ Drives.drives ids (Drives.gearEvents texts table))
    (hv : d.vehicleId = some vehicleId) :
    (sessions (Drives.driveMetricBoundaries ids texts table)).filter
      (fun s => s.driveId = d.driveId) = [columns d] := by
  have hnodup : (sessions (Drives.driveMetricBoundaries ids texts table)).Nodup :=
    List.nodup_dedup _
  have honly : ∀ d' ∈ Drives.drives ids (Drives.gearEvents texts table),
      d'.driveId = d.driveId → d' = d :=
    fun d' hd' hid => Drives.drive_of_id htext htimes hids hd hv hd' hid
  refine List.perm_singleton.mp ((List.perm_ext_iff_of_nodup (hnodup.filter _)
    (List.nodup_singleton _)).mpr ?_)
  intro s
  rw [List.mem_filter,List.mem_singleton]
  constructor
  · rintro ⟨hs,hid⟩
    obtain ⟨d',hd',rfl⟩ := session_drive hs
    rw [honly d' hd' (of_decide_eq_true hid)]
  · rintro rfl
    obtain ⟨b,hb,hid⟩ := drive_boundary htext htimes hids hd hv
    obtain ⟨d',hd',hsession⟩ := boundary_drive hb
    have hsame : d' = d := by
      refine honly d' hd' ?_
      rw [← hid]
      exact (congrArg Drive.driveId hsession).symm
    exact ⟨mem_sessions.mpr ⟨b,hb,hsame ▸ hsession⟩,decide_eq_true rfl⟩

/-- The sessions of a vehicle are its drives. -/
theorem sessions_perm (htext : Drives.ReadOffText texts table)
    (htimes : Drives.DistinctTimes (some vehicleId) table)
    (hids : Drives.IdsApart ids (Drives.drives ids (Drives.gearEvents texts table))) :
    ((sessions (Drives.driveMetricBoundaries ids texts table)).filter
      (fun s => s.vehicleId = some vehicleId)).Perm
      (((Drives.drives ids (Drives.gearEvents texts table)).filter
        (fun d => d.vehicleId = some vehicleId)).map columns) := by
  have hsessions : (sessions (Drives.driveMetricBoundaries ids texts table)).Nodup :=
    List.nodup_dedup _
  have hdrives : (((Drives.drives ids (Drives.gearEvents texts table)).filter
      (fun d => d.vehicleId = some vehicleId)).map columns).Nodup := by
    refine List.pairwise_map.mpr ((Drives.drives_starts htext htimes).imp ?_)
    intro a b hne heq
    have hstart : (columns a).startedAt = (columns b).startedAt := congrArg Drive.startedAt heq
    exact hne hstart
  refine (List.perm_ext_iff_of_nodup (hsessions.filter _) hdrives).mpr ?_
  intro s
  rw [List.mem_filter,List.mem_map]
  constructor
  · rintro ⟨hs,hv⟩
    obtain ⟨d,hd,rfl⟩ := session_drive hs
    exact ⟨d,List.mem_filter.mpr ⟨hd,hv⟩,rfl⟩
  · rintro ⟨d,hd,rfl⟩
    obtain ⟨hd,hv⟩ := List.mem_filter.mp hd
    have hmem : columns d ∈ (sessions (Drives.driveMetricBoundaries ids texts table)).filter
        (fun s => s.driveId = d.driveId) := by
      rw [sessions_of_id htext htimes hids hd (of_decide_eq_true hv)]
      exact List.mem_singleton_self _
    exact ⟨(List.mem_filter.mp hmem).1,hv⟩

/-- A drive's own boundaries are all that its columns are read from. -/
theorem driveRow_own (route : Option RouteSummary) {d : Drive} {driveId : Str}
    (hid : d.driveId = some driveId) :
    driveRow now (boundaries.filter (fun b => b.driveId = some driveId)) route (columns d) =
      driveRow now boundaries route d := by
  have hown : (boundaries.filter (fun b => b.driveId = some driveId)).filter
      (fun b => holds (equals b.driveId (columns d).driveId)) =
      boundaries.filter (fun b => holds (equals b.driveId d.driveId)) := by
    rw [List.filter_filter]
    refine List.filter_congr ?_
    intro b _
    change (holds (equals b.driveId d.driveId) && _) = _
    rw [hid]
    cases b.driveId with
    | none => rfl
    | some i => simp [equals]
  unfold driveRow energyKwh Drives.metricsOf Drives.odometerMiles
  rw [hown]
  rfl

/-- A session of the vehicle has one row, with the metrics of its drive. -/
theorem sessionRows_eq (htext : Drives.ReadOffText texts table)
    (htimes : Drives.DistinctTimes (some vehicleId) table)
    (hids : Drives.IdsApart ids (Drives.drives ids (Drives.gearEvents texts table))) {d : Drive}
    (hd : d ∈ Drives.drives ids (Drives.gearEvents texts table))
    (hv : d.vehicleId = some vehicleId) :
    sessionRows stDistance now (Drives.driveMetricBoundaries ids texts table) table (columns d) =
      [driveRow now (Drives.driveMetricBoundaries ids texts table)
        (Drives.routeSummary stDistance (Drives.routePoints d now table)) d] := by
  obtain ⟨driveId,hid⟩ : ∃ driveId, d.driveId = some driveId := by
    rw [Drives.driveId_of_mem hd,hv]
    exact ⟨_,rfl⟩
  have hgroups : (groupBy MetricBoundary.driveId
      (Drives.driveMetricBoundaries ids texts table)).filter
        (fun g => holds (equals (columns d).driveId g.1)) =
      [(some driveId,(Drives.driveMetricBoundaries ids texts table).filter
        (fun b => b.driveId = some driveId))] := by
    have husing : (fun g : Option Str × List (MetricBoundary ℚ) =>
        holds (equals (columns d).driveId g.1)) = (fun g => decide (g.1 = some driveId)) := by
      funext g
      change holds (equals d.driveId g.1) = _
      rw [hid]
      cases g.1 with
      | none => rfl
      | some i => simp [equals,eq_comm]
    obtain ⟨b,hb,hbid⟩ := drive_boundary htext htimes hids hd hv
    rw [husing]
    exact filter_groupBy ⟨b,hb,hbid.trans hid⟩
  have hjoined : joined now (Drives.driveMetricBoundaries ids texts table) table
      (columns d).driveId = table.filter (Drives.isJoined d now) := by
    change joined now (Drives.driveMetricBoundaries ids texts table) table d.driveId = _
    unfold joined
    rw [sessions_of_id htext htimes hids hd hv,List.flatMap_singleton]
    rfl
  unfold sessionRows
  rw [hgroups,hjoined,List.map_singleton,driveRow_own _ hid]
  rfl

theorem flatMap_if {α β : Type} (p : α → Prop) [DecidablePred p] (f : α → List β) (l : List α) :
    (l.flatMap (fun a => if p a then f a else [])) = (l.filter p).flatMap f := by
  induction l with
  | nil => rfl
  | cons a l ih =>
    rw [List.flatMap_cons,ih,List.filter_cons]
    by_cases ha : p a
    · rw [if_pos ha,if_pos (decide_eq_true ha),List.flatMap_cons]
    · rw [if_neg ha,decide_eq_false ha,if_neg Bool.false_ne_true,List.nil_append]

/-- The rows of a vehicle are those of its drives. -/
theorem driveRows_perm (htext : Drives.ReadOffText texts table)
    (htimes : Drives.DistinctTimes (some vehicleId) table)
    (hids : Drives.IdsApart ids (Drives.drives ids (Drives.gearEvents texts table))) :
    ((driveRows stDistance now ids texts table).filter
      (fun r => r.vehicleId = some vehicleId)).Perm
      (((Drives.drives ids (Drives.gearEvents texts table)).filter
        (fun d => d.vehicleId = some vehicleId)).map (fun d =>
          driveRow now (Drives.driveMetricBoundaries ids texts table)
            (Drives.routeSummary stDistance (Drives.routePoints d now table)) d)) := by
  have hvehicle : ∀ s, (sessionRows stDistance now (Drives.driveMetricBoundaries ids texts table)
      table s).filter (fun r => r.vehicleId = some vehicleId) =
      if s.vehicleId = some vehicleId then sessionRows stDistance now
        (Drives.driveMetricBoundaries ids texts table) table s else [] := by
    intro s
    unfold sessionRows
    rw [List.filter_map]
    by_cases hs : s.vehicleId = some vehicleId
    · rw [if_pos hs,List.filter_eq_self.mpr]
      intro g _
      exact decide_eq_true hs
    · rw [if_neg hs,List.filter_eq_nil_iff.mpr,List.map_nil]
      intro g _ hg
      exact hs (of_decide_eq_true hg)
  have hrows : (driveRows stDistance now ids texts table).filter
      (fun r => r.vehicleId = some vehicleId) =
      ((sessions (Drives.driveMetricBoundaries ids texts table)).filter
        (fun s => s.vehicleId = some vehicleId)).flatMap
          (sessionRows stDistance now (Drives.driveMetricBoundaries ids texts table) table) := by
    unfold driveRows
    rw [List.filter_flatMap,List.flatMap_congr (fun s _ => hvehicle s),flatMap_if]
  rw [hrows]
  refine ((sessions_perm htext htimes hids).flatMap_right _).trans ?_
  rw [List.flatMap_map,← List.flatMap_singleton' (List.map _ _),List.flatMap_map]
  refine List.Perm.of_eq (List.flatMap_congr ?_)
  intro d hd
  obtain ⟨hd,hv⟩ := List.mem_filter.mp hd
  exact sessionRows_eq htext htimes hids hd (of_decide_eq_true hv)

end Sessions

section Main
variable {J : Type} (stDistance : Drives.GeogPoint → Drives.GeogPoint → ℚ) (now : Int)

end Main

section TwoDays
open Drives (newYear plainTexts gearRow)
open Fsd (tripObservation)

/-- Four seconds of driving after midnight, and five the next day. -/
def twoDays : List (Observation Str ℚ) :=
  [tripObservation newYear "m1" "Gear" (some (str "D")) none,
   tripObservation ⟨63839664004000000,by decide⟩ "m2" "Gear" (some (str "P")) none,
   tripObservation ⟨63839750400000000,by decide⟩ "m3" "Gear" (some (str "R")) none,
   tripObservation ⟨63839750405000000,by decide⟩ "m4" "Gear" (some (str "P")) none]

/-- The ids and the texts of the two drives. -/
def twoDayIds : Drives.IdFunctions :=
  { sha256Hex := fun text =>
      if text = str "vehicle-1|2024-01-01 00:00:00+00" then
        str "1b4ba2e413b2d3672c22f4859be634daa146c899358c6aa7b6c522aa13d5802e"
      else str "015f69615d120ba0f74d34d3bd52bc19dae12f9f20977cc2d4ca46627cdde4cf"
    castString := fun t =>
      if t = 63839664000000000 then str "2024-01-01 00:00:00+00" else str "2024-01-02 00:00:00+00" }

def dayDrive (driveNumber : Nat) (startedAt endedAt : Int) (startId endId : String)
    (previous next : Option Int) : Drive :=
  { Drives.drive twoDayIds
      { vehicleId := some (str "vehicle-1"), driveNumber, startedAt, endedAt := some endedAt
        startGearMessageId := some (str startId), endGearMessageId := some (str endId) } none none with
    previousDriveEndedAt := previous, nextDriveStartedAt := next }

theorem twoDays_drives : Drives.drives twoDayIds (Drives.gearEvents plainTexts twoDays) =
    [dayDrive 1 63839664000000000 63839664004000000 "m1" "m2" none (some 63839750400000000),
     dayDrive 2 63839750400000000 63839750405000000 "m3" "m4" (some 63839664004000000) none] := by
  have hsorted : orderBy Drives.fieldKey (twoDays.filter (fun o => !o.isInvalid)) = twoDays :=
    orderBy_of_pairwise (by decide)
  have hevents : Drives.gearEvents plainTexts twoDays =
      [gearRow 63839664000000000 "m1" "D" true,gearRow 63839664004000000 "m2" "P" false,
       gearRow 63839750400000000 "m3" "R" true,gearRow 63839750405000000 "m4" "P" false] := by
    unfold Drives.gearEvents Drives.vehicleStateChanges Drives.ordered
    rw [hsorted]
    decide
  have hgears : Drives.vehicleGears (some (str "vehicle-1"))
      [gearRow 63839664000000000 "m1" "D" true,gearRow 63839664004000000 "m2" "P" false,
       gearRow 63839750400000000 "m3" "R" true,gearRow 63839750405000000 "m4" "P" false] =
      [gearRow 63839664000000000 "m1" "D" true,gearRow 63839664004000000 "m2" "P" false,
       gearRow 63839750400000000 "m3" "R" true,gearRow 63839750405000000 "m4" "P" false] :=
    orderBy_of_pairwise (by decide)
  have hvehicles : ([gearRow 63839664000000000 "m1" "D" true,
      gearRow 63839664004000000 "m2" "P" false,gearRow 63839750400000000 "m3" "R" true,
      gearRow 63839750405000000 "m4" "P" false].map Drives.GearEvent.vehicleId).dedup =
      [some (str "vehicle-1")] := by
    decide
  rw [hevents]
  unfold Drives.drives
  rw [hvehicles,List.flatMap_singleton,hgears]
  unfold Drives.identified
  rw [orderBy_of_pairwise (by decide)]
  decide

theorem twoDays_idsApart : Drives.IdsApart twoDayIds
    (Drives.drives twoDayIds (Drives.gearEvents plainTexts twoDays)) := by
  rw [twoDays_drives]
  refine ⟨by decide,by decide,?_⟩
  intro d hd c hc
  have hbar : str "|" = [124] := by decide
  rw [hbar,List.mem_singleton] at hc
  rw [hc]
  simp only [List.mem_cons,List.not_mem_nil,or_false] at hd
  rcases hd with rfl | rfl
  · change 124 ∉ str "2024-01-01 00:00:00+00"
    decide
  · change 124 ∉ str "2024-01-02 00:00:00+00"
    decide

theorem twoDays_readOff : Drives.ReadOffText plainTexts twoDays := by
  refine Drives.plainTexts_readOff ?_
  intro o ho
  simp only [twoDays,List.mem_cons,List.not_mem_nil,or_false] at ho
  rcases ho with rfl | rfl | rfl | rfl
  · rfl
  · rfl
  · rfl
  · rfl

/-- A night of charging, measured on the AC side. -/
def nightCharge : ChargeRow :=
  { startedAt := 63839700000000000, vehicleId := some (str "vehicle-1")
    energyQuality := some .validated, acEnergyAddedKwh := some 10, dcEnergyAddedKwh := none }

end TwoDays

end Woodhouse.Summaries
