import Mathlib.Order.WithBot
import Woodhouse.Drives.Gears
import Woodhouse.Sql.Join

namespace Woodhouse.Drives
open Python Sql Ingest

/-- `TO_HEX(SHA256(…))`, and `CAST(… AS STRING)` of a timestamp. -/
structure IdFunctions where
  sha256Hex : Str → Str
  castString : Int → Str

def driveText (ids : IdFunctions) (vehicleId : Str) (startedAt : Int) : Str :=
  vehicleId ++ str "|" ++ ids.castString startedAt

/-- A row of `identified`. -/
structure Drive where
  driveId : Option Str
  vehicleId : Option Str
  startedAt : Int
  endedAt : Option Int
  startGearMessageId : Option Str
  endGearMessageId : Option Str
  previousDriveEndedAt : Option Int
  nextDriveStartedAt : Option Int
  deriving DecidableEq

def drive (ids : IdFunctions) (s : Segment) (previous next : Option Segment) : Drive :=
  { driveId := s.vehicleId.map (fun v => ids.sha256Hex (driveText ids v s.startedAt))
    vehicleId := s.vehicleId, startedAt := s.startedAt, endedAt := s.endedAt
    startGearMessageId := s.startGearMessageId, endGearMessageId := s.endGearMessageId
    previousDriveEndedAt := previous.bind Segment.endedAt
    nextDriveStartedAt := next.map Segment.startedAt }

/-- One vehicle's rows of `identified`. -/
def identified (ids : IdFunctions) (segments : List Segment) : List Drive :=
  (overLead (overRows (lag some none) (orderBy Segment.startedAt segments))).map
    (fun p => drive ids p.1.1 p.1.2 (p.2.map Prod.fst))

/-- The drives of all vehicles. -/
def drives (ids : IdFunctions) (events : List GearEvent) : List Drive :=
  (events.map GearEvent.vehicleId).dedup.flatMap
    (fun v => identified ids (segments v (vehicleGears v events)))

inductive BoundaryName where
  | start
  | end_
  deriving DecidableEq

inductive BoundaryField where
  | odometer
  | energyRemaining
  | soc
  | location
  deriving DecidableEq

def BoundaryField.fieldName : BoundaryField → Str
  | .odometer => str "Odometer"
  | .energyRemaining => str "EnergyRemaining"
  | .soc => str "Soc"
  | .location => str "Location"

/-- `field_name IN ('EnergyRemaining', 'Soc')`. -/
def BoundaryField.isState (f : BoundaryField) : Bool := f = .energyRemaining || f = .soc

def fiveMinutes : Int := 300000000

def ninetySeconds : Int := 90000000

structure BoundarySpec where
  drive : Drive
  boundaryName : BoundaryName
  field : BoundaryField
  boundaryAt : Option Int
  boundaryMessageId : Option Str
  candidateWindowStart : Option Int
  candidateWindowEnd : Option Int
  deriving DecidableEq

def boundarySpec (d : Drive) (boundaryName : BoundaryName) (field : BoundaryField) : BoundarySpec :=
  match boundaryName with
  | .start =>
    { drive := d, boundaryName, field
      boundaryAt := some d.startedAt
      boundaryMessageId := d.startGearMessageId
      candidateWindowStart :=
        match d.previousDriveEndedAt with
        | none => some (d.startedAt - fiveMinutes)
        | some previous => some (max (d.startedAt - fiveMinutes) previous)
      candidateWindowEnd :=
        some (min (d.startedAt + ninetySeconds) (d.endedAt.getD (d.startedAt + ninetySeconds))) }
  | .end_ =>
    { drive := d, boundaryName, field
      boundaryAt := d.endedAt
      boundaryMessageId := d.endGearMessageId
      candidateWindowStart := d.endedAt.map (fun ended => max (ended - ninetySeconds) d.startedAt)
      candidateWindowEnd :=
        match d.nextDriveStartedAt with
        | none => d.endedAt.map (fun ended => ended + fiveMinutes)
        | some next => d.endedAt.map (fun ended => min (ended + fiveMinutes) next) }

def boundaryNames : List (BoundaryName × BoundaryField) :=
  [(.start,.odometer),(.start,.energyRemaining),(.start,.soc),(.start,.location),
   (.end_,.odometer),(.end_,.energyRemaining),(.end_,.soc),(.end_,.location)]

/-- `CROSS JOIN UNNEST(…) WHERE boundary_name = 'start' OR ended_at IS NOT NULL`. -/
def boundarySpecs (drives : List Drive) : List BoundarySpec :=
  drives.flatMap (fun d =>
    (boundaryNames.filter (fun b => b.1 = .start || d.endedAt.isSome)).map
      (fun b => boundarySpec d b.1 b.2))

section Candidates
variable {J F : Type}

def between (t : Int) (low high : Option Int) : Truth :=
  truthAnd (truthNot (greater low (some t))) (truthNot (greater (some t) high))

/-- The condition of the outer join. -/
def isCandidate (b : BoundarySpec) (o : Observation J F) : Bool :=
  holds (equals o.vehicleId b.drive.vehicleId) && !o.isInvalid &&
    decide (o.fieldName = b.field.fieldName) &&
    if b.field.isState then holds (truthNot (greater (some (micros o.sourceTimestamp)) b.boundaryAt))
    else holds (between (micros o.sourceTimestamp) b.candidateWindowStart b.candidateWindowEnd)

/-- `observation.source_timestamp <= boundary.boundary_at`. -/
def observedBy (b : BoundarySpec) (o : Option (Observation J F)) : Bool :=
  holds (truthNot (greater (o.map (fun o => micros o.sourceTimestamp)) b.boundaryAt))

/-- `observation.source_timestamp >= boundary.boundary_at`. -/
def observedFrom (b : BoundarySpec) (o : Option (Observation J F)) : Bool :=
  holds (truthNot (greater b.boundaryAt (o.map (fun o => micros o.sourceTimestamp))))

def isSynchronized (b : BoundarySpec) (o : Option (Observation J F)) : Bool :=
  holds (equals (o.map Observation.pubsubMessageId) b.boundaryMessageId)

inductive InferenceMethod where
  | unavailable
  | exactSynchronizedBoundary
  | asOfState
  | stationaryPreBoundary
  | stationaryPostBoundary
  | insideDriveFallback
  deriving DecidableEq

def inferenceMethod (b : BoundarySpec) (o : Option (Observation J F)) : InferenceMethod :=
  if o.isNone then .unavailable
  else if isSynchronized b o then .exactSynchronizedBoundary
  else if b.field.isState then .asOfState
  else if b.boundaryName = .start ∧ observedBy b o then .stationaryPreBoundary
  else if b.boundaryName = .end_ ∧ observedFrom b o then .stationaryPostBoundary
  else .insideDriveFallback

def preference (b : BoundarySpec) (o : Option (Observation J F)) : Nat :=
  if isSynchronized b o then 0
  else if b.field.isState then 1
  else if b.boundaryName = .start ∧ observedBy b o then 2
  else if b.boundaryName = .end_ ∧ observedFrom b o then 2
  else 3

/-- 1970-01-01 in microseconds. -/
def unixEpoch : Int := 62135596800000000

def unixMillis (t : Int) : Int := (t - unixEpoch) / 1000

/-- `TIMESTAMP_DIFF(s, t, MILLISECOND)`. -/
def millisecondsFrom (s t : Int) : Int := (s - t).tdiv 1000

def candidateDistance (b : BoundarySpec) (o : Option (Observation J F)) : WithBot Int :=
  if b.field.isState then (o.map (fun o => -unixMillis (micros o.sourceTimestamp)) : Option Int)
  else
    (o.bind (fun o => b.boundaryAt.map
      (fun t => ((millisecondsFrom (micros o.sourceTimestamp) t).natAbs : Int))) : Option Int)

/-- The order of `candidate_rank`; `NULL` comes first. -/
def candidateKey (p : BoundarySpec × Option (Observation J F)) :
    Nat ×ₗ WithBot Int ×ₗ WithBot Int :=
  toLex (preference p.1 p.2,toLex (candidateDistance p.1 p.2,
    (p.2.map (fun o => micros o.sourceTimestamp) : Option Int)))

/-- `PARTITION BY drive_id, boundary_name, field_name`. -/
def BoundarySpec.key (b : BoundarySpec) : Option Str × BoundaryName × BoundaryField :=
  (b.drive.driveId,b.boundaryName,b.field)

/-- A row of `drive_metric_boundaries`. -/
structure MetricBoundary (F : Type) where
  driveId : Option Str
  vehicleId : Option Str
  startedAt : Int
  endedAt : Option Int
  boundaryName : BoundaryName
  field : BoundaryField
  boundaryAt : Option Int
  selectedObservationAt : Option Int
  observationOffsetMilliseconds : Option Int
  selectedNumericValue : Option F
  selectedLatitude : Option F
  selectedLongitude : Option F
  inferenceMethod : InferenceMethod
  boundaryMessageId : Option Str
  observationMessageId : Option Str

def metricBoundary (b : BoundarySpec) (o : Option (Observation J F)) : MetricBoundary F :=
  { driveId := b.drive.driveId, vehicleId := b.drive.vehicleId, startedAt := b.drive.startedAt
    endedAt := b.drive.endedAt, boundaryName := b.boundaryName, field := b.field
    boundaryAt := b.boundaryAt
    selectedObservationAt := o.map (fun o => micros o.sourceTimestamp)
    observationOffsetMilliseconds := o.bind (fun o => b.boundaryAt.map
      (fun t => millisecondsFrom (micros o.sourceTimestamp) t))
    selectedNumericValue := o.bind Observation.numericValue
    selectedLatitude := o.bind Observation.latitude
    selectedLongitude := o.bind Observation.longitude
    inferenceMethod := inferenceMethod b o
    boundaryMessageId := b.boundaryMessageId
    observationMessageId := o.map Observation.pubsubMessageId }

/-- The joined rows with `candidate_rank = 1`. -/
def selectedCandidates (drives : List Drive) (table : List (Observation J F)) :
    List (BoundarySpec × Option (Observation J F)) :=
  firstRows (fun p => p.1.key)
    (orderBy candidateKey (leftJoin isCandidate (boundarySpecs drives) table))

/-- The view `drive_metric_boundaries`. -/
def driveMetricBoundaries (ids : IdFunctions) (texts : JsonTexts J)
    (table : List (Observation J F)) : List (MetricBoundary F) :=
  (selectedCandidates (drives ids (gearEvents texts table)) table).map
    (fun p => metricBoundary p.1 p.2)

end Candidates

end Woodhouse.Drives
