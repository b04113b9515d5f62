import Mathlib.Algebra.Order.Field.Rat
import Woodhouse.Drives.Boundaries
import Woodhouse.Sql.Aggregates
import Woodhouse.Sql.Timestamps

namespace Woodhouse.Drives
open Python Sql Ingest

structure GeogPoint where
  longitude : ℚ
  latitude : ℚ
  deriving DecidableEq

/-- `ST_GEOGPOINT`, `NULL` where a coordinate is. -/
def geogPoint (longitude latitude : Option ℚ) : Option GeogPoint :=
  Option.map₂ GeogPoint.mk longitude latitude

/-- A point of a route, a row of `route_points` and of `location_points`. -/
structure RoutePoint where
  observationTimestamp : Int
  point : Option GeogPoint
  deriving DecidableEq

section Segments

/-- Each point with the one before it. -/
def routeSegments (points : List RoutePoint) : List (RoutePoint × Option RoutePoint) :=
  overRows (lag some none) (orderBy RoutePoint.observationTimestamp points)

def metresPerMile : ℚ := 1609344 / 1000

-- `ST_DISTANCE`, in metres.
variable (stDistance : GeogPoint → GeogPoint → ℚ)

/-- `candidate_segment_distance_miles`. -/
def candidateSegmentMiles (p : RoutePoint × Option RoutePoint) : Option ℚ :=
  (Option.map₂ stDistance (p.2.bind RoutePoint.point) p.1.point).map (fun m => m / metresPerMile)

/-- No more than 0.05 miles, or what 200 miles an hour allow. -/
def isPlausibleSegment (p : RoutePoint × Option RoutePoint) : Truth :=
  atMost (candidateSegmentMiles stDistance p)
    (greatest (some (1 / 20)) (p.2.map (fun previous =>
      (timestampDiff millisecond p.1.observationTimestamp previous.observationTimestamp : ℚ) /
        3600000 * 200)))

/-- `IF(…, candidate_segment_distance_miles, 0)`. -/
def segmentDistanceMiles (p : RoutePoint × Option RoutePoint) : Option ℚ :=
  if holds (isPlausibleSegment stDistance p) then candidateSegmentMiles stDistance p else some 0

end Segments

section DriveRow
variable {J : Type} (stDistance : GeogPoint → GeogPoint → ℚ)

/-- The condition of the join of `joined`; `now` is `CURRENT_TIMESTAMP()`. -/
def isJoined (d : Drive) (now : Int) (o : Observation J ℚ) : Bool :=
  holds (equals o.vehicleId d.vehicleId) && !o.isInvalid &&
    decide (d.startedAt ≤ micros o.sourceTimestamp) &&
    decide (micros o.sourceTimestamp ≤ d.endedAt.getD now)

def isLocated (o : Observation J ℚ) : Bool :=
  decide (o.fieldName = str "Location") && o.latitude.isSome && o.longitude.isSome

/-- The rows of `route_points` of a `drive_id`, for its rows of `joined`. -/
def routePointsOf (joined : List (Observation J ℚ)) : List RoutePoint :=
  (groupBy (fun o => micros o.sourceTimestamp) (joined.filter isLocated)).map (fun g =>
    { observationTimestamp := g.1
      point := geogPoint (maxOf (g.2.map Observation.longitude))
        (maxOf (g.2.map Observation.latitude)) })

def routePoints (d : Drive) (now : Int) (table : List (Observation J ℚ)) : List RoutePoint :=
  routePointsOf (table.filter (isJoined d now))

/-- The row of `route_summary`, for the route's segments. -/
structure RouteSummary where
  routeDistanceMiles : Option ℚ
  routePointCount : Nat
  routeRejectedSegmentCount : Nat

/-- `candidate_segment_distance_miles IS NOT NULL AND NOT is_plausible_segment`. -/
def isRejectedSegment (p : RoutePoint × Option RoutePoint) : Bool :=
  holds (truthAnd (some (candidateSegmentMiles stDistance p).isSome)
    (truthNot (isPlausibleSegment stDistance p)))

def routeSummary (points : List RoutePoint) : Option RouteSummary :=
  match routeSegments points with
  | [] => none
  | segments => some
    { routeDistanceMiles := sumOf (segments.map (segmentDistanceMiles stDistance))
      routePointCount := segments.length
      routeRejectedSegmentCount := (segments.filter (isRejectedSegment stDistance)).length }

/-- `MAX(IF(boundary_name = … AND field_name = 'Odometer', selected_numeric_value, NULL))`. -/
def odometerMiles (d : Drive) (boundaries : List (MetricBoundary ℚ)) (name : BoundaryName) :
    Option ℚ :=
  maxOf ((boundaries.filter (fun b => holds (equals b.driveId d.driveId))).map (fun b =>
    if b.boundaryName = name ∧ b.field = .odometer then b.selectedNumericValue else none))

inductive DistanceMethod where
  | odometerBoundary
  | gpsRouteFallback
  | unavailable
  deriving DecidableEq

/-- The distance columns of a row of `metrics`. -/
structure DriveMetrics where
  routeDistanceMiles : Option ℚ
  routePointCount : Nat
  routeRejectedSegmentCount : Nat
  distanceMiles : Option ℚ

/-- A row of `metrics`, for the drive's row of `route_summary`. -/
def metricsOf (d : Drive) (boundaries : List (MetricBoundary ℚ)) (route : Option RouteSummary) :
    DriveMetrics :=
  { routeDistanceMiles := route.bind RouteSummary.routeDistanceMiles
    routePointCount := (route.map RouteSummary.routePointCount).getD 0
    routeRejectedSegmentCount := (route.map RouteSummary.routeRejectedSegmentCount).getD 0
    distanceMiles := greatest (Option.map₂ (fun a b => a - b) (odometerMiles d boundaries .end_)
      (odometerMiles d boundaries .start)) (some 0) }

def driveMetrics (d : Drive) (now : Int) (boundaries : List (MetricBoundary ℚ))
    (table : List (Observation J ℚ)) : DriveMetrics :=
  metricsOf d boundaries (routeSummary stDistance (routePoints d now table))

/-- The route stands in for the odometer. -/
def DriveMetrics.routeUsable (m : DriveMetrics) : Bool :=
  holds (greater m.routeDistanceMiles (some 0)) && decide (2 ≤ m.routePointCount) &&
    decide (m.routeRejectedSegmentCount = 0)

def DriveMetrics.bestAvailableDistanceMiles (m : DriveMetrics) : Option ℚ :=
  if m.distanceMiles.isSome then m.distanceMiles
  else if m.routeUsable then m.routeDistanceMiles
  else none

def DriveMetrics.distanceMethod (m : DriveMetrics) : DistanceMethod :=
  if m.distanceMiles.isSome then .odometerBoundary
  else if m.routeUsable then .gpsRouteFallback
  else .unavailable

end DriveRow

section Path
variable {J : Type} (stDistance : GeogPoint → GeogPoint → ℚ)

/-- The condition of the join of `drive_events`. -/
def isPathObservation (d : Drive) (now : Int) (o : Observation J ℚ) : Bool :=
  holds (equals o.vehicleId d.vehicleId) && !o.isInvalid &&
    decide (o.fieldName ∈ [str "Location",str "VehicleSpeed",str "Soc"]) &&
    holds (isBetween (some (micros o.sourceTimestamp)) (some d.startedAt)
      (some (d.endedAt.getD now)))

/-- A row of `drive_events`. -/
structure DriveEvent where
  sourceTimestamp : Int
  latitude : Option ℚ
  longitude : Option ℚ

/-- `IF(observation.field_name = 'Location', x, NULL)`. -/
def ofLocation (x : Observation J ℚ → Option ℚ) (o : Observation J ℚ) : Option ℚ :=
  if o.fieldName = str "Location" then x o else none

def driveEvents (d : Drive) (now : Int) (table : List (Observation J ℚ)) : List DriveEvent :=
  (groupBy (fun o => micros o.sourceTimestamp) (table.filter (isPathObservation d now))).map
    (fun g =>
      { sourceTimestamp := g.1
        latitude := maxOf (g.2.map (ofLocation Observation.latitude))
        longitude := maxOf (g.2.map (ofLocation Observation.longitude)) })

def locationPoints (d : Drive) (now : Int) (table : List (Observation J ℚ)) : List RoutePoint :=
  ((driveEvents d now table).filter (fun e => e.latitude.isSome && e.longitude.isSome)).map
    (fun e => { observationTimestamp := e.sourceTimestamp
                point := geogPoint e.longitude e.latitude })

/-- The rows of `cumulative`: each segment with `raw_distance_into_drive_miles`. -/
def cumulative (points : List RoutePoint) : List ((RoutePoint × Option RoutePoint) × Option ℚ) :=
  overRows (fun frame => sumOf (frame.map (segmentDistanceMiles stDistance)))
    (routeSegments points)

/-- The columns of `drive_path_points` about distance. -/
structure DrivePathPoint where
  sourceTimestamp : Int
  point : Option GeogPoint
  segmentDistanceMiles : Option ℚ
  rawDistanceIntoDriveMiles : Option ℚ
  rawRouteDistanceMiles : Option ℚ
  distanceIntoDriveMiles : Option ℚ
  bestAvailableDistanceMiles : Option ℚ

/-- `raw * best / raw_route` where there is a route and a best distance. -/
def scaledDistance (rawRoute best raw : Option ℚ) : Option ℚ :=
  if holds (truthAnd (greater rawRoute (some 0)) (some best.isSome)) then
    Option.map₂ (fun x route => x / route) (Option.map₂ (fun x b => x * b) raw best) rawRoute
  else raw

def drivePathPoint (rawRoute best : Option ℚ)
    (row : (RoutePoint × Option RoutePoint) × Option ℚ) : DrivePathPoint :=
  { sourceTimestamp := row.1.1.observationTimestamp
    point := row.1.1.point
    segmentDistanceMiles := Drives.segmentDistanceMiles stDistance row.1
    rawDistanceIntoDriveMiles := row.2
    rawRouteDistanceMiles := rawRoute
    distanceIntoDriveMiles := scaledDistance rawRoute best row.2
    bestAvailableDistanceMiles := best }

/-- Every row of `cumulative` with the `MAX` of the raw distances. -/
def drivePathPoints (best : Option ℚ) (points : List RoutePoint) : List DrivePathPoint :=
  (cumulative stDistance points).map
    (drivePathPoint stDistance (maxOf ((cumulative stDistance points).map Prod.snd)) best)

/-- The rows of `drive_path_points` of a drive. -/
def drivePath (d : Drive) (now : Int) (boundaries : List (MetricBoundary ℚ))
    (table : List (Observation J ℚ)) : List DrivePathPoint :=
  drivePathPoints stDistance
    (driveMetrics stDistance d now boundaries table).bestAvailableDistanceMiles
    (locationPoints d now table)

end Path

end Woodhouse.Drives
