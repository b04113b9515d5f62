import Woodhouse.Charging.Energy
import Woodhouse.Drives.Routes
import Woodhouse.Sql.Aggregates
import Woodhouse.Sql.Join

namespace Woodhouse.Summaries
open Python Sql Ingest
open Charging (EnergyQuality)
open Drives (DistanceMethod micros)

/-- `DATE(timestamp)`, counted in days from 0001-01-01. -/
def dateOf (timestamp : Int) : Int := timestamp / dayMicros

/-- `summary_date, vehicle_id`. -/
abbrev DailyKey := Int × Option Str

/-- `USING (summary_date, vehicle_id)`: a `NULL` vehicle joins nothing. -/
def joins (a b : DailyKey) : Bool := decide (a.1 = b.1) && holds (equals a.2 b.2)

/-- The columns of `drives` that the summary reads. -/
structure DriveRow where
  startedAt : Int
  vehicleId : Option Str
  distanceMiles : Option ℚ
  bestAvailableDistanceMiles : Option ℚ
  distanceMethod : DistanceMethod
  energyUsedKwh : Option ℚ
  durationSeconds : Int

def DriveRow.key (d : DriveRow) : DailyKey := (dateOf d.startedAt,d.vehicleId)

/-- The columns of `charge_sessions` that the summary reads. -/
structure ChargeRow where
  startedAt : Int
  vehicleId : Option Str
  energyQuality : Option EnergyQuality
  acEnergyAddedKwh : Option ℚ
  dcEnergyAddedKwh : Option ℚ

def ChargeRow.key (c : ChargeRow) : DailyKey := (dateOf c.startedAt,c.vehicleId)

def observationKey {J : Type} (o : Observation J ℚ) : DailyKey :=
  (dateOf (micros o.sourceTimestamp),o.vehicleId)

section Aggregates
variable {J : Type}

/-- `IF(field_name = … AND NOT is_invalid, numeric_value, NULL)`. -/
def valid (fieldName : String) (o : Observation J ℚ) : Option ℚ :=
  if o.fieldName = str fieldName ∧ o.isInvalid = false then o.numericValue else none

/-- `AVG`, which skips `NULL` and is `NULL` of no value. -/
def averageOf (values : List (Option ℚ)) : Option ℚ :=
  (sumOf values).map (fun total => total / (values.filterMap id).length)

/-- A row of `observation_daily`. -/
structure ObservationDaily where
  minimumSocPercent : Option ℚ
  maximumSocPercent : Option ℚ
  averageOutsideTemp : Option ℚ
  maximumSpeedMph : Option ℚ

def observationDay (rows : List (Observation J ℚ)) : ObservationDaily where
  minimumSocPercent := minOf (rows.map (valid "Soc"))
  maximumSocPercent := maxOf (rows.map (valid "Soc"))
  averageOutsideTemp := averageOf (rows.map (valid "OutsideTemp"))
  maximumSpeedMph := maxOf (rows.map (valid "VehicleSpeed"))

/-- A row of `drive_daily`. -/
structure DriveDaily where
  distanceMiles : Option ℚ
  odometerDistanceMiles : Option ℚ
  routeFallbackDistanceMiles : Option ℚ
  distanceUnavailableDriveCount : Nat
  driveEnergyUsedKwh : Option ℚ
  driveCount : Nat
  drivingSeconds : Option Int

/-- `IF(distance_method = 'gps_route_fallback', best_available_distance_miles, 0)`. -/
def DriveRow.routeFallback (d : DriveRow) : Option ℚ :=
  if d.distanceMethod = .gpsRouteFallback then d.bestAvailableDistanceMiles else some 0

def driveDay (rows : List DriveRow) : DriveDaily where
  distanceMiles := sumOf (rows.map DriveRow.bestAvailableDistanceMiles)
  odometerDistanceMiles := sumOf (rows.map DriveRow.distanceMiles)
  routeFallbackDistanceMiles := sumOf (rows.map DriveRow.routeFallback)
  distanceUnavailableDriveCount := rows.countP (fun d => d.distanceMethod = .unavailable)
  driveEnergyUsedKwh := sumOf (rows.map DriveRow.energyUsedKwh)
  driveCount := rows.length
  drivingSeconds := sumOf (rows.map (fun d => some d.durationSeconds))

/-- A row of `charge_daily`. -/
structure ChargeDaily where
  chargeSessionCount : Nat
  chargeEnergyIssueCount : Nat
  acEnergyAddedKwh : Option ℚ
  dcEnergyAddedKwh : Option ℚ

/-- `COALESCE(energy_quality, 'unavailable') != 'validated'`. -/
def ChargeRow.hasIssue (c : ChargeRow) : Bool := c.energyQuality.getD .unavailable ≠ .validated

/-- `IF(energy_quality = 'validated', x, NULL)`. -/
def ChargeRow.validated (x : ChargeRow → Option ℚ) (c : ChargeRow) : Option ℚ :=
  if holds (equals c.energyQuality (some .validated)) then x c else none

def chargeDay (rows : List ChargeRow) : ChargeDaily where
  chargeSessionCount := rows.length
  chargeEnergyIssueCount := rows.countP ChargeRow.hasIssue
  acEnergyAddedKwh := sumOf (rows.map (ChargeRow.validated ChargeRow.acEnergyAddedKwh))
  dcEnergyAddedKwh := sumOf (rows.map (ChargeRow.validated ChargeRow.dcEnergyAddedKwh))

end Aggregates

section View
variable {J : Type}

/-- The groups of a table, each with its aggregates. -/
def daily {α β : Type} (key : α → DailyKey) (day : List α → β) (rows : List α) :
    List (DailyKey × β) :=
  (groupBy key rows).map (fun g => (g.1,day g.2))

/-- The keys of the three tables, with `UNION DISTINCT`. -/
def dailyKeys (observations : List (Observation J ℚ)) (drives : List DriveRow)
    (charges : List ChargeRow) : List DailyKey :=
  ((daily observationKey observationDay observations).map Prod.fst ++
    (daily DriveRow.key driveDay drives).map Prod.fst ++
    (daily ChargeRow.key chargeDay charges).map Prod.fst).dedup

/-- A row of `daily_vehicle_summary`. -/
structure DailySummary where
  summaryDate : Int
  vehicleId : Option Str
  distanceMiles : Option ℚ
  odometerDistanceMiles : Option ℚ
  routeFallbackDistanceMiles : Option ℚ
  distanceUnavailableDriveCount : Nat
  driveEnergyUsedKwh : Option ℚ
  efficiencyWhPerMile : Option ℚ
  driveCount : Nat
  drivingSeconds : Int
  chargeSessionCount : Nat
  chargeEnergyIssueCount : Nat
  acEnergyAddedKwh : Option ℚ
  dcEnergyAddedKwh : Option ℚ
  minimumSocPercent : Option ℚ
  maximumSocPercent : Option ℚ
  averageOutsideTemp : Option ℚ
  maximumSpeedMph : Option ℚ

/-- `SAFE_DIVIDE(x, NULLIF(y, 0))`. -/
def safeDivide (x y : Option ℚ) : Option ℚ :=
  Option.map₂ (fun x y => x / y) x (y.filter (fun y => y ≠ 0))

def dailySummary (key : DailyKey) (observation : Option ObservationDaily)
    (drive : Option DriveDaily) (charge : Option ChargeDaily) : DailySummary :=
  let distance := drive.bind DriveDaily.distanceMiles
  let energy := drive.bind DriveDaily.driveEnergyUsedKwh
  { summaryDate := key.1
    vehicleId := key.2
    distanceMiles := distance
    odometerDistanceMiles := drive.bind DriveDaily.odometerDistanceMiles
    routeFallbackDistanceMiles := drive.bind DriveDaily.routeFallbackDistanceMiles
    distanceUnavailableDriveCount := (drive.map DriveDaily.distanceUnavailableDriveCount).getD 0
    driveEnergyUsedKwh := energy
    efficiencyWhPerMile := safeDivide (energy.map (fun e => e * 1000)) distance
    driveCount := (drive.map DriveDaily.driveCount).getD 0
    drivingSeconds := (drive.bind DriveDaily.drivingSeconds).getD 0
    chargeSessionCount := (charge.map ChargeDaily.chargeSessionCount).getD 0
    chargeEnergyIssueCount := (charge.map ChargeDaily.chargeEnergyIssueCount).getD 0
    acEnergyAddedKwh := charge.bind ChargeDaily.acEnergyAddedKwh
    dcEnergyAddedKwh := charge.bind ChargeDaily.dcEnergyAddedKwh
    minimumSocPercent := observation.bind ObservationDaily.minimumSocPercent
    maximumSocPercent := observation.bind ObservationDaily.maximumSocPercent
    averageOutsideTemp := observation.bind ObservationDaily.averageOutsideTemp
    maximumSpeedMph := observation.bind ObservationDaily.maximumSpeedMph }

def DailySummary.key (s : DailySummary) : DailyKey := (s.summaryDate,s.vehicleId)

/-- The view `daily_vehicle_summary`. -/
def dailyVehicleSummary (observations : List (Observation J ℚ)) (drives : List DriveRow)
    (charges : List ChargeRow) : List DailySummary :=
  (leftJoin (fun p charge => joins p.1.1 charge.1)
    (leftJoin (fun p drive => joins p.1 drive.1)
      (leftJoin (fun key observation => joins key observation.1)
        (dailyKeys observations drives charges)
        (daily observationKey observationDay observations))
      (daily DriveRow.key driveDay drives))
    (daily ChargeRow.key chargeDay charges)).map (fun p =>
      dailySummary p.1.1.1 (p.1.1.2.map Prod.snd) (p.1.2.map Prod.snd) (p.2.map Prod.snd))

end View

section Joined
variable {α β M : Type} {key : α → DailyKey} {day : List α → β} {rows : List α} {k : DailyKey}
  {v : Str}

/-- The aggregates that a key is joined with. -/
def found (key : α → DailyKey) (day : List α → β) (rows : List α) (k : DailyKey) : Option β :=
  ((daily key day rows).find? (fun g => joins k g.1)).map Prod.snd

theorem joins_eq (hv : k.2 = some v) {j : DailyKey} : joins k j = decide (j = k) := by
  obtain ⟨d,_⟩ := k
  obtain ⟨e,w⟩ := j
  subst hv
  cases w with
  | none => simp [joins,equals]
  | some w => simp [joins,equals,eq_comm]

theorem joins_none (hv : k.2 = none) (j : DailyKey) : joins k j = false := by
  simp [joins,equals,hv]

theorem daily_keys : (daily key day rows).map Prod.fst = (groupBy key rows).map Prod.fst := by
  unfold daily
  rw [List.map_map]
  rfl

/-- No two groups join one key. -/
theorem daily_apart {γ : Type} {left : List γ} (f : γ → DailyKey) :
    (daily key day rows).Pairwise
      (fun b b' => ∀ a ∈ left, joins (f a) b.1 = true → ¬ joins (f a) b'.1 = true) := by
  have hnodup : ((daily key day rows).map Prod.fst).Nodup := by
    rw [daily_keys]
    exact groupBy_keys_nodup key rows
  refine (List.pairwise_map.mp hnodup).imp ?_
  intro b b' hne a _ hb hb'
  cases hv : (f a).2 with
  | none =>
    rw [joins_none hv] at hb
    cases hb
  | some v =>
    rw [joins_eq hv] at hb hb'
    exact hne ((of_decide_eq_true hb).trans (of_decide_eq_true hb').symm)

theorem found_none (hv : k.2 = none) : found key day rows k = none := by
  unfold found
  rw [List.find?_eq_none.mpr (fun g _ => by rw [joins_none hv]; exact Bool.false_ne_true)]
  rfl

theorem found_some (hv : k.2 = some v) : found key day rows k =
    if rows.filter (fun a => key a = k) = [] then none
    else some (day (rows.filter (fun a => key a = k))) := by
  have hjoins : (fun g : DailyKey × β => joins k g.1) = (fun g => decide (g.1 = k)) := by
    funext g
    exact joins_eq hv
  have hgroup := @find_groupBy _ _ _ key rows k
  unfold found daily
  rw [hjoins,List.find?_map]
  change Option.map Prod.snd (Option.map _ ((groupBy key rows).find? (fun g => g.1 = k))) = _
  rw [hgroup]
  split
  · rfl
  · rfl

/-- A column that adds up over the rows of a day adds up over the days of a vehicle. -/
theorem total_found [AddCommMonoid M] {keys : List DailyKey} (hnodup : keys.Nodup)
    (hcover : ∀ a ∈ rows, key a ∈ keys) {f : Option β → M} {m : α → M} (hnone : f none = 0)
    (hday : ∀ l, f (some (day l)) = (l.map m).sum) (v : Str) :
    ((keys.filter (fun k => k.2 = some v)).map (fun k => f (found key day rows k))).sum =
      ((rows.filter (fun a => (key a).2 = some v)).map m).sum := by
  have hkeys : (keys.filter (fun k => k.2 = some v)).Nodup := hnodup.filter _
  have hrows : ∀ a ∈ rows.filter (fun a => (key a).2 = some v),
      key a ∈ keys.filter (fun k => k.2 = some v) := by
    intro a ha
    obtain ⟨hmem,hv⟩ := List.mem_filter.mp ha
    exact List.mem_filter.mpr ⟨hcover a hmem,hv⟩
  rw [← sum_by_key hkeys hrows m]
  refine congrArg List.sum (List.map_congr_left ?_)
  intro k hk
  have hv : k.2 = some v := of_decide_eq_true (List.mem_filter.mp hk).2
  have hsame : (rows.filter (fun a => (key a).2 = some v)).filter (fun a => key a = k) =
      rows.filter (fun a => key a = k) := by
    rw [List.filter_filter]
    refine List.filter_congr ?_
    intro a _
    by_cases ha : key a = k
    · simp [ha,hv]
    · simp [ha]
  rw [hsame,found_some hv]
  split
  · rename_i hempty
    rw [hempty,hnone]
    rfl
  · exact hday _

end Joined

section Conservation
variable {J : Type} (observations : List (Observation J ℚ)) (drives : List DriveRow)
  (charges : List ChargeRow)

theorem dailyVehicleSummary_eq : dailyVehicleSummary observations drives charges =
    (dailyKeys observations drives charges).map (fun k => dailySummary k
      (found observationKey observationDay observations k) (found DriveRow.key driveDay drives k)
      (found ChargeRow.key chargeDay charges k)) := by
  unfold dailyVehicleSummary
  rw [leftJoin_find (daily_apart (fun k => k)),leftJoin_find (daily_apart Prod.fst),
    leftJoin_find (daily_apart (fun p : (DailyKey × Option (DailyKey × ObservationDaily)) ×
      Option (DailyKey × DriveDaily) => p.1.1)),List.map_map,List.map_map,List.map_map]
  rfl

variable {observations drives charges}

theorem mem_dailyKeys {k : DailyKey} : k ∈ dailyKeys observations drives charges ↔
    (∃ o ∈ observations, observationKey o = k) ∨ (∃ d ∈ drives, d.key = k) ∨
      ∃ c ∈ charges, c.key = k := by
  unfold dailyKeys
  rw [List.mem_dedup,List.mem_append,List.mem_append,daily_keys,daily_keys,daily_keys,
    mem_groupBy_keys,mem_groupBy_keys,mem_groupBy_keys,or_assoc]

/-- The sum of a column over the days of a vehicle. -/
def vehicleTotal {M : Type} [AddCommMonoid M] (v : Str) (column : DailySummary → M)
    (rows : List DailySummary) : M :=
  ((rows.filter (fun r => r.vehicleId = some v)).map column).sum

theorem vehicleTotal_eq {M : Type} [AddCommMonoid M] (v : Str) (column : DailySummary → M) :
    vehicleTotal v column (dailyVehicleSummary observations drives charges) =
      (((dailyKeys observations drives charges).filter (fun k => k.2 = some v)).map
        (fun k => column (dailySummary k (found observationKey observationDay observations k)
          (found DriveRow.key driveDay drives k) (found ChargeRow.key chargeDay charges k)))).sum := by
  unfold vehicleTotal
  rw [dailyVehicleSummary_eq,List.filter_map,List.map_map]
  rfl

/-- A column of the drives' aggregates adds up over the drives of a vehicle. -/
theorem total_drives {M : Type} [AddCommMonoid M] (v : Str) {column : DailySummary → M}
    {f : Option DriveDaily → M} {m : DriveRow → M}
    (hcolumn : ∀ k o d c, column (dailySummary k o d c) = f d) (hnone : f none = 0)
    (hday : ∀ l, f (some (driveDay l)) = (l.map m).sum) :
    vehicleTotal v column (dailyVehicleSummary observations drives charges) =
      ((drives.filter (fun d => d.vehicleId = some v)).map m).sum := by
  rw [vehicleTotal_eq]
  simp only [hcolumn]
  exact total_found (List.nodup_dedup _)
    (fun d hd => mem_dailyKeys.mpr (.inr (.inl ⟨d,hd,rfl⟩))) hnone hday v

theorem total_charges {M : Type} [AddCommMonoid M] (v : Str) {column : DailySummary → M}
    {f : Option ChargeDaily → M} {m : ChargeRow → M}
    (hcolumn : ∀ k o d c, column (dailySummary k o d c) = f c) (hnone : f none = 0)
    (hday : ∀ l, f (some (chargeDay l)) = (l.map m).sum) :
    vehicleTotal v column (dailyVehicleSummary observations drives charges) =
      ((charges.filter (fun c => c.vehicleId = some v)).map m).sum := by
  rw [vehicleTotal_eq]
  simp only [hcolumn]
  exact total_found (List.nodup_dedup _)
    (fun c hc => mem_dailyKeys.mpr (.inr (.inr ⟨c,hc,rfl⟩))) hnone hday v

theorem countP_sum {α : Type} (p : α → Bool) (l : List α) :
    l.countP p = (l.map (fun a => if p a then 1 else 0)).sum := by
  induction l with
  | nil => rfl
  | cons a l ih =>
    rw [List.countP_cons,ih,List.map_cons,List.sum_cons,add_comm]

theorem sum_if {α M : Type} [AddCommMonoid M] (p : α → Bool) (m : α → M) (l : List α) :
    (l.map (fun a => if p a then m a else 0)).sum = ((l.filter p).map m).sum := by
  induction l with
  | nil => rfl
  | cons a l ih =>
    rw [List.map_cons,List.sum_cons,ih]
    by_cases hp : p a
    · rw [if_pos hp,List.filter_cons_of_pos hp,List.map_cons,List.sum_cons]
    · rw [if_neg hp,List.filter_cons_of_neg hp,zero_add]

/-- Only validated energy is summed. -/
theorem validated_getD (x : ChargeRow → Option ℚ) (c : ChargeRow) :
    (c.validated x).getD 0 = if !c.hasIssue then (x c).getD 0 else 0 := by
  unfold ChargeRow.validated ChargeRow.hasIssue
  cases hq : c.energyQuality with
  | none => simp [equals]
  | some q => cases q <;> simp [equals]

theorem total_energy (v : Str) {column : DailySummary → ℚ} {x : ChargeRow → Option ℚ}
    {added : ChargeDaily → Option ℚ}
    (hcolumn : ∀ k o d c, column (dailySummary k o d c) = (c.bind added).getD 0)
    (hadded : ∀ l, added (chargeDay l) = sumOf (l.map (ChargeRow.validated x))) :
    vehicleTotal v column (dailyVehicleSummary observations drives charges) =
      ((charges.filter (fun c => !c.hasIssue && decide (c.vehicleId = some v))).map
        (fun c => (x c).getD 0)).sum := by
  have hday : ∀ l, ((some (chargeDay l)).bind added).getD 0 =
      (l.map (fun c => (c.validated x).getD 0)).sum := by
    intro l
    rw [Option.bind_some,hadded,sumOf_getD,List.map_map]
    rfl
  rw [total_charges v (f := fun c => (c.bind added).getD 0) hcolumn rfl hday,
    List.map_congr_left (fun c _ => validated_getD x c),sum_if,List.filter_filter]

end Conservation

/-- The summary has one row for each day and vehicle of the three views, and its columns add up
to what the views say of a vehicle. -/
structure Conserves {J : Type} (observations : List (Observation J ℚ)) (drives : List DriveRow)
    (charges : List ChargeRow) (rows : List DailySummary) : Prop where
  keyed : (rows.map DailySummary.key).Nodup
  covers : ∀ k, k ∈ rows.map DailySummary.key ↔ (∃ o ∈ observations, observationKey o = k) ∨
    (∃ d ∈ drives, d.key = k) ∨ ∃ c ∈ charges, c.key = k
  driveCount : ∀ v, vehicleTotal v DailySummary.driveCount rows =
    drives.countP (fun d => d.vehicleId = some v)
  drivingSeconds : ∀ v, vehicleTotal v DailySummary.drivingSeconds rows =
    ((drives.filter (fun d => d.vehicleId = some v)).map DriveRow.durationSeconds).sum
  distance : ∀ v, vehicleTotal v (fun r => r.distanceMiles.getD 0) rows =
    ((drives.filter (fun d => d.vehicleId = some v)).map
      (fun d => d.bestAvailableDistanceMiles.getD 0)).sum
  energyUsed : ∀ v, vehicleTotal v (fun r => r.driveEnergyUsedKwh.getD 0) rows =
    ((drives.filter (fun d => d.vehicleId = some v)).map (fun d => d.energyUsedKwh.getD 0)).sum
  sessionCount : ∀ v, vehicleTotal v DailySummary.chargeSessionCount rows =
    charges.countP (fun c => c.vehicleId = some v)
  issueCount : ∀ v, vehicleTotal v DailySummary.chargeEnergyIssueCount rows =
    (charges.filter (fun c => c.vehicleId = some v)).countP ChargeRow.hasIssue
  energyAdded : ∀ v, vehicleTotal v (fun r => r.acEnergyAddedKwh.getD 0) rows =
      ((charges.filter (fun c => !c.hasIssue && decide (c.vehicleId = some v))).map
        (fun c => c.acEnergyAddedKwh.getD 0)).sum ∧
    vehicleTotal v (fun r => r.dcEnergyAddedKwh.getD 0) rows =
      ((charges.filter (fun c => !c.hasIssue && decide (c.vehicleId = some v))).map
        (fun c => c.dcEnergyAddedKwh.getD 0)).sum
  /-- What belongs to no vehicle has a row, but no column. -/
  unowned : ∀ r ∈ rows, r.vehicleId = none →
    r = dailySummary (r.summaryDate,none) none none none

section Main
variable {J : Type} (observations : List (Observation J ℚ)) (drives : List DriveRow)
  (charges : List ChargeRow)

theorem daily_conserved :
    Conserves observations drives charges (dailyVehicleSummary observations drives charges) := by
  have hkeys : (dailyVehicleSummary observations drives charges).map DailySummary.key =
      dailyKeys observations drives charges := by
    rw [dailyVehicleSummary_eq,List.map_map]
    exact List.map_id _
  constructor
  · rw [hkeys]
    exact List.nodup_dedup _
  · intro k
    rw [hkeys,mem_dailyKeys]
  · intro v
    rw [total_drives v (f := fun d => (d.map DriveDaily.driveCount).getD 0) (m := fun _ => 1)
      (fun _ _ _ _ => rfl) rfl (fun l => by simp [driveDay])]
    simp [List.countP_eq_length_filter]
  · intro v
    refine total_drives v (f := fun d => (d.bind DriveDaily.drivingSeconds).getD 0)
      (fun _ _ _ _ => rfl) rfl (fun l => ?_)
    rw [Option.bind_some]
    change (sumOf (l.map (fun d => some d.durationSeconds))).getD 0 = _
    rw [sumOf_getD,List.map_map]
    rfl
  · intro v
    refine total_drives v (f := fun d => (d.bind DriveDaily.distanceMiles).getD 0)
      (fun _ _ _ _ => rfl) rfl (fun l => ?_)
    rw [Option.bind_some]
    change (sumOf (l.map DriveRow.bestAvailableDistanceMiles)).getD 0 = _
    rw [sumOf_getD,List.map_map]
    rfl
  · intro v
    refine total_drives v (f := fun d => (d.bind DriveDaily.driveEnergyUsedKwh).getD 0)
      (fun _ _ _ _ => rfl) rfl (fun l => ?_)
    rw [Option.bind_some]
    change (sumOf (l.map DriveRow.energyUsedKwh)).getD 0 = _
    rw [sumOf_getD,List.map_map]
    rfl
  · intro v
    rw [total_charges v (f := fun c => (c.map ChargeDaily.chargeSessionCount).getD 0)
      (m := fun _ => 1) (fun _ _ _ _ => rfl) rfl (fun l => by simp [chargeDay])]
    simp [List.countP_eq_length_filter]
  · intro v
    rw [total_charges v (f := fun c => (c.map ChargeDaily.chargeEnergyIssueCount).getD 0)
      (fun _ _ _ _ => rfl) rfl (fun l => countP_sum ChargeRow.hasIssue l),← countP_sum]
  · intro v
    exact ⟨total_energy v (fun _ _ _ _ => rfl) (fun _ => rfl),
      total_energy v (fun _ _ _ _ => rfl) (fun _ => rfl)⟩
  · intro r hr hnone
    rw [dailyVehicleSummary_eq] at hr
    obtain ⟨k,_,rfl⟩ := List.mem_map.mp hr
    have hv : k.2 = none := hnone
    obtain ⟨d,v⟩ := k
    simp only at hv
    subst hv
    rw [found_none rfl,found_none rfl,found_none rfl]
    rfl

end Main

end Woodhouse.Summaries
