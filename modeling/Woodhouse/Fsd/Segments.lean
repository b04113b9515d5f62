import Mathlib.Algebra.Order.Field.Rat
import Mathlib.Data.List.Dedup
import Woodhouse.Sql.Logic
import Woodhouse.Sql.Order
import Woodhouse.Sql.Window

namespace Woodhouse.Fsd
open Sql

/-- The columns of `drives` that segmentation reads. -/
structure Drive where
  startedAt : Int
  endedAt : Option Int
  bestAvailableDistanceMiles : Option ℚ
  deriving DecidableEq

/-- A row of `drive_path_points` of the drive. -/
structure PathPoint where
  sourceTimestamp : Int
  latitude : ℚ
  longitude : ℚ
  distanceIntoDriveMiles : ℚ
  deriving DecidableEq

/-- A row of `counter_snapshots` of the drive's vehicle. -/
structure CounterSnapshot where
  sourceTimestamp : Int
  pubsubMessageId : String
  totalMiles : ℚ
  fsdMiles : ℚ
  synchronizedPair : Bool
  pairingGapSeconds : Nat
  deriving DecidableEq

/-- `total_miles < LAG(total_miles) OR fsd_miles < LAG(fsd_miles)`. -/
def beginsResetEpoch (snapshot : CounterSnapshot) (previous : Option CounterSnapshot) : Nat :=
  if holds (truthOr
      (greater (previous.map CounterSnapshot.totalMiles) (some snapshot.totalMiles))
      (greater (previous.map CounterSnapshot.fsdMiles) (some snapshot.fsdMiles))) then 1 else 0

/-- `ORDER BY source_timestamp, pubsub_message_id`. -/
def CounterSnapshot.windowKey (s : CounterSnapshot) : Int ×ₗ String :=
  toLex (s.sourceTimestamp,s.pubsubMessageId)

def resetMarkers (snapshots : List CounterSnapshot) : List (CounterSnapshot × Nat) :=
  (overRows (lag some none) (orderBy CounterSnapshot.windowKey snapshots)).map
    (fun p => (p.1,beginsResetEpoch p.1 p.2))

/-- A row of `paired_changes`. -/
structure PairedChange extends CounterSnapshot where
  resetEpoch : Nat
  deriving DecidableEq

def numberEpochs (markers : List (CounterSnapshot × Nat)) : List PairedChange :=
  (overRows (sum Prod.snd) markers).map (fun p => { toCounterSnapshot := p.1.1, resetEpoch := p.2 })

def pairedChanges (snapshots : List CounterSnapshot) : List PairedChange :=
  numberEpochs (resetMarkers snapshots)

/-- Fifteen minutes in microseconds. -/
def counterWindow : Int := 900000000

/-- The snapshots of a drive; `now` is `CURRENT_TIMESTAMP()`. -/
def driveCandidates (drive : Drive) (now : Int) (changes : List PairedChange) : List PairedChange :=
  changes.filter (fun c => drive.startedAt - counterWindow ≤ c.sourceTimestamp ∧
    c.sourceTimestamp ≤ drive.endedAt.getD now)

/-- The candidate before the start whose `before_rank` is 1. -/
def lastBefore (drive : Drive) (candidates : List PairedChange) : Option PairedChange :=
  (orderBy (fun c => OrderDual.toDual c.sourceTimestamp)
    (candidates.filter (fun c => c.sourceTimestamp < drive.startedAt))).head?

def selectedPoints (drive : Drive) (candidates : List PairedChange) : List PairedChange :=
  (lastBefore drive candidates).toList ++
    candidates.filter (fun c => drive.startedAt ≤ c.sourceTimestamp)

/-- `ABS(TIMESTAMP_DIFF(…, MILLISECOND))` of two microsecond timestamps. -/
def millisecondsBetween (s t : Int) : Nat := ((s - t).tdiv 1000).natAbs

/-- The path point whose `path_rank` is 1. -/
def nearestPathPoint (path : List PathPoint) (t : Int) : Option PathPoint :=
  (orderBy (fun p => toLex (millisecondsBetween p.sourceTimestamp t,p.sourceTimestamp))
    path).head?

/-- A row of `mapped_points`. -/
structure MappedPoint extends PairedChange where
  distanceIntoDriveMiles : Option ℚ
  deriving DecidableEq

def distanceIntoDrive (drive : Drive) (path : List PathPoint) (t : Int) : Option ℚ :=
  if t ≤ drive.startedAt then some 0
  else if drive.endedAt.any (fun ended => ended ≤ t) then drive.bestAvailableDistanceMiles
  else (nearestPathPoint path t).map PathPoint.distanceIntoDriveMiles

def mappedPoints (drive : Drive) (path : List PathPoint) (now : Int)
    (snapshots : List CounterSnapshot) : List MappedPoint :=
  (selectedPoints drive (driveCandidates drive now (pairedChanges snapshots))).map
    (fun c => { toPairedChange := c
                distanceIntoDriveMiles := distanceIntoDrive drive path c.sourceTimestamp })

/-- Each point with the one before it in its reset epoch. -/
def deltas (points : List MappedPoint) : List (MappedPoint × Option MappedPoint) :=
  overPartition (fun p => p.resetEpoch) (lag some none) points

/-- A row of `buckets`. -/
structure Bucket where
  synchronizedPair : Bool
  pairingGapSeconds : Nat
  previousDistanceMiles : ℚ
  distanceIntoDriveMiles : ℚ
  counterTotalDeltaMiles : ℚ
  counterFsdDeltaMiles : ℚ
  deriving DecidableEq

def Bucket.distanceMiles (b : Bucket) : ℚ := b.distanceIntoDriveMiles - b.previousDistanceMiles

def Bucket.counterManualDeltaMiles (b : Bucket) : ℚ :=
  b.counterTotalDeltaMiles - b.counterFsdDeltaMiles

/-- The bucket between two points that lie at increasing distances. -/
def bucket (previous point : MappedPoint) : Option Bucket :=
  match previous.distanceIntoDriveMiles, point.distanceIntoDriveMiles with
  | some from_, some to_ =>
    if from_ < to_ then
      some { synchronizedPair := point.synchronizedPair
             pairingGapSeconds := point.pairingGapSeconds
             previousDistanceMiles := from_
             distanceIntoDriveMiles := to_
             counterTotalDeltaMiles := point.totalMiles - previous.totalMiles
             counterFsdDeltaMiles := point.fsdMiles - previous.fsdMiles }
    else none
  | _, _ => none

def buckets (points : List MappedPoint) : List Bucket :=
  (deltas points).filterMap (fun p => p.2.bind (fun previous => bucket previous p.1))

def Bucket.isValid (b : Bucket) : Bool :=
  0 ≤ b.counterTotalDeltaMiles ∧ 0 ≤ b.counterFsdDeltaMiles ∧
    -(1 / 100) ≤ b.counterManualDeltaMiles

def Bucket.inferredFsdMiles (b : Bucket) : ℚ :=
  if 0 < b.counterTotalDeltaMiles then
    b.distanceMiles * min 1 (max (b.counterFsdDeltaMiles / b.counterTotalDeltaMiles) 0)
  else min b.distanceMiles (max b.counterFsdDeltaMiles 0)

def Bucket.baseConfidence (b : Bucket) : ℚ :=
  if b.synchronizedPair ∧ b.pairingGapSeconds = 0 then 9 / 10
  else if b.pairingGapSeconds ≤ 30 then 3 / 4
  else 11 / 20

inductive InferenceMethod where
  | synchronizedCounterBucket
  | counterMilestoneInferred
  | counterStateCarriedToDriveBoundary
  | insufficientCounterEvidence
  deriving DecidableEq

def Bucket.baseMethod (b : Bucket) : InferenceMethod :=
  if b.synchronizedPair ∧ b.pairingGapSeconds = 0 then .synchronizedCounterBucket
  else .counterMilestoneInferred

/-- The states in their order as strings. -/
inductive State where
  | fsd
  | manual
  | uncertain
  deriving DecidableEq

def State.rank : State → Nat
  | .fsd => 0
  | .manual => 1
  | .uncertain => 2

structure Segment where
  startDistanceMiles : ℚ
  endDistanceMiles : ℚ
  state : State
  confidence : ℚ
  inferenceMethod : InferenceMethod
  transitionLowerBoundMiles : ℚ
  transitionUpperBoundMiles : ℚ
  deriving DecidableEq

/-- A thousandth of a mile. -/
def tolerance : ℚ := 1 / 1000

/-- The manual prefix of a bucket. -/
def Bucket.manualSegment (b : Bucket) : Segment :=
  { startDistanceMiles := b.previousDistanceMiles
    endDistanceMiles := b.distanceIntoDriveMiles - b.inferredFsdMiles
    state := .manual
    confidence := if 0 < b.inferredFsdMiles then b.baseConfidence * (4 / 5) else b.baseConfidence
    inferenceMethod := b.baseMethod
    transitionLowerBoundMiles := b.previousDistanceMiles
    transitionUpperBoundMiles := b.distanceIntoDriveMiles }

/-- The FSD distance at the end of a bucket. -/
def Bucket.fsdSegment (b : Bucket) : Segment :=
  { startDistanceMiles := b.distanceIntoDriveMiles - b.inferredFsdMiles
    endDistanceMiles := b.distanceIntoDriveMiles
    state := .fsd
    confidence := if b.inferredFsdMiles < b.distanceMiles then b.baseConfidence * (4 / 5)
      else b.baseConfidence
    inferenceMethod := b.baseMethod
    transitionLowerBoundMiles := b.previousDistanceMiles
    transitionUpperBoundMiles := b.distanceIntoDriveMiles }

def Bucket.segments (b : Bucket) : List Segment :=
  (if tolerance < b.distanceMiles - b.inferredFsdMiles then [b.manualSegment] else []) ++
    (if tolerance < b.inferredFsdMiles then [b.fsdSegment] else [])

def bucketSegments (points : List MappedPoint) : List Segment :=
  ((buckets points).filter Bucket.isValid).flatMap Bucket.segments

/-- `ORDER BY end_distance_miles DESC, start_distance_miles DESC`. -/
def Segment.reverseKey (s : Segment) : ℚᵒᵈ ×ₗ ℚᵒᵈ :=
  toLex (OrderDual.toDual s.endDistanceMiles,OrderDual.toDual s.startDistanceMiles)

/-- Each segment with its `reverse_segment_rank`. -/
def rankedBucketSegments (segments : List Segment) : List (Segment × Nat) :=
  (orderBy Segment.reverseKey segments).zipIdx 1

/-- `distance_miles - x > 0.001`. -/
def leavesRest (distance : Option ℚ) (x : ℚ) : Bool :=
  holds (greater (distance.map (fun d => d - x)) (some tolerance))

/-- The last segment's state carried to the end of the drive. -/
def carriedSegment (s : Segment) (distance : ℚ) : Segment :=
  { startDistanceMiles := s.endDistanceMiles
    endDistanceMiles := distance
    state := s.state
    confidence := s.confidence * (3 / 5)
    inferenceMethod := .counterStateCarriedToDriveBoundary
    transitionLowerBoundMiles := s.endDistanceMiles
    transitionUpperBoundMiles := distance }

def inferredSegments (drive : Drive) (segments : List Segment) : List Segment :=
  (rankedBucketSegments segments).flatMap (fun r =>
    r.1 :: if r.2 = 1 ∧ leavesRest drive.bestAvailableDistanceMiles r.1.endDistanceMiles then
      drive.bestAvailableDistanceMiles.toList.map (carriedSegment r.1) else [])

/-- `ORDER BY start_distance_miles, end_distance_miles, state`. -/
def Segment.windowKey (s : Segment) : ℚ ×ₗ ℚ ×ₗ Nat :=
  toLex (s.startDistanceMiles,toLex (s.endDistanceMiles,s.state.rank))

def uncertainSegment (from_ to_ : ℚ) : Segment :=
  { startDistanceMiles := from_
    endDistanceMiles := to_
    state := .uncertain
    confidence := 0
    inferenceMethod := .insufficientCounterEvidence
    transitionLowerBoundMiles := from_
    transitionUpperBoundMiles := to_ }

/-- A segment with the gaps filled before it and, after the last one, behind it. -/
def completedSegmentArray (distance : Option ℚ) (count : Nat)
    (r : (Segment × Option Segment) × Nat) : List Segment :=
  let segment := r.1.1
  (if r.2 = 1 ∧ tolerance < segment.startDistanceMiles then
    [uncertainSegment 0 segment.startDistanceMiles] else []) ++
  (match r.1.2 with
    | some previous =>
      if tolerance < segment.startDistanceMiles - previous.endDistanceMiles then
        [uncertainSegment previous.endDistanceMiles segment.startDistanceMiles] else []
    | none => []) ++
  [segment] ++
  (if r.2 = count ∧ leavesRest distance segment.endDistanceMiles then
    distance.toList.map (uncertainSegment segment.endDistanceMiles) else [])

def completedSegments (drive : Drive) (inferred : List Segment) : List Segment :=
  let ordered := orderBy Segment.windowKey inferred
  ((overRows (lag some none) ordered).zipIdx 1).flatMap
    (completedSegmentArray drive.bestAvailableDistanceMiles ordered.length)

/-- A drive without segments is one uncertain segment; without a distance its end is
`NULL` and the last `WHERE` drops it. -/
def allSegments (drive : Drive) (completed : List Segment) : List Segment :=
  match completed with
  | [] => drive.bestAvailableDistanceMiles.toList.map (uncertainSegment 0)
  | _ => completed

/-- The path point nearest to a distance. -/
def locate (path : List PathPoint) (x : ℚ) : Option PathPoint :=
  (orderBy (fun p => toLex (|p.distanceIntoDriveMiles - x|,p.sourceTimestamp)) path).head?

/-- A row of `drive_fsd_segments`. -/
structure FsdSegment extends Segment where
  segmentIndex : Nat
  startedAt : Int
  endedAt : Option Int
  startPoint : Option (ℚ × ℚ)
  endPoint : Option (ℚ × ℚ)
  distanceMiles : ℚ
  deriving DecidableEq

def fsdSegment (drive : Drive) (path : List PathPoint) (r : Segment × Nat) : FsdSegment :=
  let start := locate path r.1.startDistanceMiles
  let end_ := locate path r.1.endDistanceMiles
  { toSegment := r.1
    segmentIndex := r.2
    startedAt := (start.map PathPoint.sourceTimestamp).getD drive.startedAt
    endedAt := (end_.map PathPoint.sourceTimestamp).or drive.endedAt
    startPoint := start.map (fun p => (p.latitude,p.longitude))
    endPoint := end_.map (fun p => (p.latitude,p.longitude))
    distanceMiles := max (r.1.endDistanceMiles - r.1.startDistanceMiles) 0 }

/-- The `GROUP BY` of `located` names every column, so that equal segments become one. -/
def segmentRows (drive : Drive) (path : List PathPoint) (segments : List Segment) :
    List FsdSegment :=
  ((orderBy Segment.windowKey
    (segments.dedup.filter (fun s => s.startDistanceMiles < s.endDistanceMiles))).zipIdx 1).map
      (fsdSegment drive path)

/-- `drive_fsd_segments` from the counter points of a drive. -/
def segmentsOfPoints (drive : Drive) (path : List PathPoint) (points : List MappedPoint) :
    List FsdSegment :=
  segmentRows drive path
    (allSegments drive (completedSegments drive (inferredSegments drive (bucketSegments points))))

def driveFsdSegments (drive : Drive) (path : List PathPoint) (now : Int)
    (snapshots : List CounterSnapshot) : List FsdSegment :=
  segmentsOfPoints drive path (mappedPoints drive path now snapshots)

/-- A row of `drive_fsd_summary`. -/
structure FsdSummary where
  totalDistanceMiles : Option ℚ
  fsdDistanceMiles : ℚ
  manualDistanceMiles : ℚ
  uncertainDistanceMiles : ℚ
  fsdPercent : Option ℚ
  minimumConfidence : Option ℚ
  segmentCount : Nat
  classifiedDistanceMiles : ℚ
  unclassifiedDistanceMiles : Option ℚ
  classificationComplete : Bool
  deriving DecidableEq

/-- `SUM(IF(state = …, distance_miles, 0))`. -/
def stateDistance (state : State) (rows : List FsdSegment) : ℚ :=
  (rows.map (fun r => if r.state = state then r.distanceMiles else 0)).sum

def driveFsdSummary (drive : Drive) (rows : List FsdSegment) : FsdSummary :=
  let total := drive.bestAvailableDistanceMiles
  let fsd := stateDistance .fsd rows
  let manual := stateDistance .manual rows
  let uncertain := stateDistance .uncertain rows
  { totalDistanceMiles := total
    fsdDistanceMiles := fsd
    manualDistanceMiles := manual
    uncertainDistanceMiles := uncertain
    fsdPercent := (total.filter (fun d => d ≠ 0)).map (fun d => 100 * (fsd / d))
    minimumConfidence := (rows.map (fun r => r.confidence)).min?
    segmentCount := rows.length
    classifiedDistanceMiles := fsd + manual + uncertain
    unclassifiedDistanceMiles := total.map (fun d => max (d - (fsd + manual + uncertain)) 0)
    classificationComplete :=
      match total with
      | none => true
      | some d => |d - (fsd + manual + uncertain)| ≤ tolerance }

end Woodhouse.Fsd
