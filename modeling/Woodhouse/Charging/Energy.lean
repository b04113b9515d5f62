import Mathlib.Algebra.Order.Field.Rat
import Mathlib.Data.Prod.Lex
import Woodhouse.Charging.Sessions
import Woodhouse.Sql.Timestamps

namespace Woodhouse.Charging
open Sql

/-- A row of `telemetry_observations` with its numeric value; timestamps are counted from
1970. -/
structure Reading extends Observation where
  numericValue : Option ℚ

/-- A row of `identified`. -/
structure ChargeSession where
  vehicleId : String
  startedAt : Int
  endedAt : Option Int
  startStateMessageId : Option String
  endStateMessageId : Option String
  deriving DecidableEq

/-- One vehicle's rows of `identified`. -/
def identified (vehicleId : String) (table : List Reading) : List ChargeSession :=
  (segments (partition vehicleId (table.map Reading.toObservation))).map
    (fun s => { vehicleId, startedAt := s.startedAt, endedAt := s.endedAt
                startStateMessageId := s.startStateMessageId
                endStateMessageId := s.endStateMessageId })

inductive EnergyKind where
  | ac
  | dc
  deriving DecidableEq

def EnergyKind.counterField : EnergyKind → String
  | .ac => "ACChargingEnergyIn"
  | .dc => "DCChargingEnergyIn"

def EnergyKind.powerField : EnergyKind → String
  | .ac => "ACChargingPower"
  | .dc => "DCChargingPower"

/-- `observation.vehicle_id = … AND NOT observation.is_invalid AND observation.field_name = …`. -/
def isReading (vehicleId fieldName : String) (o : Reading) : Bool :=
  o.vehicleId = vehicleId && !o.isInvalid && decide (o.fieldName = fieldName)

section Boundaries

inductive BoundaryName where
  | start
  | end_
  deriving DecidableEq

def tenMinutes : Int := 600000000

def twoMinutes : Int := 120000000

/-- A row of `boundary_specs` of an energy counter. Without an end the window of the end
boundary is `NULL`, so that no row is in it. -/
structure BoundarySpec where
  session : ChargeSession
  boundaryName : BoundaryName
  kind : EnergyKind
  boundaryAt : Option Int
  boundaryMessageId : Option String
  candidateWindowStart : Option Int
  candidateWindowEnd : Option Int

def boundarySpec (s : ChargeSession) (kind : EnergyKind) : BoundaryName → BoundarySpec
  | .start =>
    { session := s, boundaryName := .start, kind
      boundaryAt := some s.startedAt
      boundaryMessageId := s.startStateMessageId
      candidateWindowStart := some (s.startedAt - tenMinutes)
      candidateWindowEnd :=
        some (min (s.startedAt + twoMinutes) (s.endedAt.getD (s.startedAt + twoMinutes))) }
  | .end_ =>
    { session := s, boundaryName := .end_, kind
      boundaryAt := s.endedAt
      boundaryMessageId := s.endStateMessageId
      candidateWindowStart := some s.startedAt
      candidateWindowEnd := s.endedAt }

def isCandidate (b : BoundarySpec) (o : Reading) : Bool :=
  isReading b.session.vehicleId b.kind.counterField o &&
    holds (isBetween (some o.sourceTimestamp) b.candidateWindowStart b.candidateWindowEnd)

/-- `ABS(TIMESTAMP_DIFF(observation.source_timestamp, boundary.boundary_at, SECOND)) <= 120`. -/
def isNear (b : BoundarySpec) (o : Reading) : Bool :=
  holds (atMost (b.boundaryAt.map (fun t => |timestampDiff second o.sourceTimestamp t|)) (some 120))

def preference (b : BoundarySpec) (o : Reading) : Nat :=
  if b.boundaryName = .start ∧ o.sourceTimestamp ≤ b.session.startedAt then 0
  else if holds (equals (some o.pubsubMessageId) b.boundaryMessageId) then 0
  else if isNear b o then 1
  else if b.boundaryName = .end_ then 2
  else if o.sourceTimestamp ≤ b.session.startedAt then 2
  else 3

def recency (b : BoundarySpec) (o : Reading) : Int :=
  if b.boundaryName = .end_ then -unixMillis o.sourceTimestamp
  else if o.sourceTimestamp ≤ b.session.startedAt then -unixMillis o.sourceTimestamp
  else unixMillis o.sourceTimestamp

/-- The order of `candidate_rank`. -/
def candidateKey (b : BoundarySpec) (o : Reading) : Nat ×ₗ Int ×ₗ Int :=
  toLex (preference b o,toLex (recency b o,o.sourceTimestamp))

/-- The row of `direct_boundaries`, `none` where the join found no observation. The counters
have no stationary anchors, so that `selected_boundaries` keeps it. -/
def selectedBoundary (b : BoundarySpec) (table : List Reading) : Option Reading :=
  (orderBy (candidateKey b) (table.filter (isCandidate b))).head?

/-- The start boundary where its observation is not later than the start. -/
def baseline (s : ChargeSession) (kind : EnergyKind) (table : List Reading) : Option Reading :=
  (selectedBoundary (boundarySpec s kind .start) table).filter
    (fun o => o.sourceTimestamp ≤ s.startedAt)

def lastCounter (s : ChargeSession) (kind : EnergyKind) (table : List Reading) : Option Reading :=
  selectedBoundary (boundarySpec s kind .end_) table

end Boundaries

section Summary

/-- A thousandth of a kWh. -/
def tolerance : ℚ := 1 / 1000

/-- The observations of a session that `joined` keeps; `now` is `CURRENT_TIMESTAMP()`. -/
def isJoined (s : ChargeSession) (now : Int) (o : Reading) : Bool :=
  decide (o.vehicleId = s.vehicleId) && !o.isInvalid && decide (s.startedAt ≤ o.sourceTimestamp) &&
    decide (o.sourceTimestamp ≤ s.endedAt.getD now)

/-- `MAX(IF(field_name = …, numeric_value, NULL))` of `aggregated`. -/
def maximumPowerKw (s : ChargeSession) (now : Int) (table : List Reading) (kind : EnergyKind) :
    Option ℚ :=
  ((table.filter (isJoined s now)).filterMap
    (fun o => if o.fieldName = kind.powerField then o.numericValue else none)).max?

/-- `ORDER BY source_timestamp, pubsub_message_id`. -/
def Reading.windowKey (o : Reading) : Int ×ₗ String := toLex (o.sourceTimestamp,o.pubsubMessageId)

/-- The rows of `counter_observations` of one field. -/
def counterObservations (s : ChargeSession) (kind : EnergyKind) (table : List Reading) :
    List Reading :=
  orderBy Reading.windowKey (table.filter (fun o =>
    isReading s.vehicleId kind.counterField o &&
      holds (isBetween (some o.sourceTimestamp) (some s.startedAt) s.endedAt)))

/-- `numeric_value < previous_numeric_value - 0.001`. -/
def isAnomaly (p : Reading × Option Reading) : Bool :=
  holds (greater ((p.2.bind Reading.numericValue).map (fun v => v - tolerance)) p.1.numericValue)

def countAnomalies (rows : List Reading) : Nat :=
  ((overRows (lag some none) rows).filter isAnomaly).length

/-- The columns of `counter_quality`, which has no row for a session without counters. -/
def counterAnomalies (s : ChargeSession) (table : List Reading) (kind : EnergyKind) : Option Nat :=
  if counterObservations s .ac table = [] ∧ counterObservations s .dc table = [] then none
  else some (countAnomalies (counterObservations s kind table))

/-- The columns of `tail_specs`, which has a row for each energy kind. -/
structure TailSpec where
  vehicleId : String
  startedAt : Int
  endedAt : Option Int
  maximumPowerKw : EnergyKind → Option ℚ
  startEnergyKwh : EnergyKind → Option ℚ
  observedEndEnergyKwh : EnergyKind → Option ℚ
  counterObservedAt : EnergyKind → Option Int
  counterAnomalies : EnergyKind → Option Nat

def tailSpec (s : ChargeSession) (now : Int) (table : List Reading) : TailSpec :=
  { vehicleId := s.vehicleId, startedAt := s.startedAt, endedAt := s.endedAt
    maximumPowerKw := Charging.maximumPowerKw s now table
    startEnergyKwh := fun kind => (baseline s kind table).bind Reading.numericValue
    observedEndEnergyKwh := fun kind => (lastCounter s kind table).bind Reading.numericValue
    counterObservedAt := fun kind =>
      (lastCounter s kind table).map (fun o => o.sourceTimestamp)
    counterAnomalies := Charging.counterAnomalies s table }

def TailSpec.powerIsApplicable (spec : TailSpec) : EnergyKind → Truth
  | .ac => truthAnd (greater (spec.maximumPowerKw .ac) (some 0))
      (atMost (some ((spec.maximumPowerKw .dc).getD 0)) (spec.maximumPowerKw .ac))
  | .dc => truthAnd (greater (spec.maximumPowerKw .dc) (some 0))
      (greater (spec.maximumPowerKw .dc) (some ((spec.maximumPowerKw .ac).getD 0)))

def TailSpec.counterIsApplicable (spec : TailSpec) : EnergyKind → Truth
  | .ac => truthOr (greater (spec.maximumPowerKw .ac) (some 0))
      (truthAnd (some (spec.observedEndEnergyKwh .ac).isSome)
        (some (decide ((spec.maximumPowerKw .dc).getD 0 = 0))))
  | .dc => some true

end Summary

section Tail

/-- A row of `tail_power_candidates`. -/
structure PowerReading where
  sourceTimestamp : Int
  pubsubMessageId : String
  numericValue : ℚ
  deriving DecidableEq

def powerReading (spec : TailSpec) (kind : EnergyKind) (o : Reading) : Option PowerReading :=
  match o.numericValue with
  | some power =>
    if isReading spec.vehicleId kind.powerField o ∧ 0 ≤ power ∧
        holds (isBetween (some o.sourceTimestamp) (some spec.startedAt) spec.endedAt) then
      some { sourceTimestamp := o.sourceTimestamp, pubsubMessageId := o.pubsubMessageId
             numericValue := power }
    else none
  | none => none

/-- The valid non-negative power observations of a session. -/
def sessionPower (spec : TailSpec) (kind : EnergyKind) (table : List Reading) : List PowerReading :=
  table.filterMap (powerReading spec kind)

def tailPowerCandidates (spec : TailSpec) (kind : EnergyKind) (table : List Reading) :
    List PowerReading :=
  if holds (spec.powerIsApplicable kind) then sessionPower spec kind table else []

/-- `ORDER BY source_timestamp DESC, pubsub_message_id DESC`. -/
def PowerReading.priorKey (r : PowerReading) : Intᵒᵈ ×ₗ Stringᵒᵈ :=
  toLex (OrderDual.toDual r.sourceTimestamp,OrderDual.toDual r.pubsubMessageId)

/-- Of the candidates not later than the counter, the one whose `prior_rank` is 1. -/
def priorPower (counterAt : Int) (candidates : List PowerReading) : Option PowerReading :=
  (orderBy PowerReading.priorKey
    (candidates.filter (fun r => r.sourceTimestamp ≤ counterAt))).head?

/-- A row of `tail_power_points`. -/
structure PowerPoint where
  pointAt : Int
  numericValue : ℚ
  deriving DecidableEq

def powerPoint (counterAt : Int) (r : PowerReading) : PowerPoint :=
  { pointAt := max r.sourceTimestamp counterAt, numericValue := r.numericValue }

/-- One point of each instant. -/
def tailPowerPoints (counterAt : Int) (candidates : List PowerReading) : List PowerPoint :=
  (firstRows (fun r => (powerPoint counterAt r).pointAt)
    (orderBy (fun r => OrderDual.toDual r.sourceTimestamp)
      ((priorPower counterAt candidates).toList ++
        candidates.filter (fun r => counterAt < r.sourceTimestamp)))).map (powerPoint counterAt)

/-- A row of `tail_power_segments`, up to the next point or the session's end. -/
structure PowerSegment extends PowerPoint where
  until_ : Int
  deriving DecidableEq

def tailPowerSegments (ended : Int) (points : List PowerPoint) : List PowerSegment :=
  (overLead (orderBy PowerPoint.pointAt points)).map
    (fun p => { toPowerPoint := p.1, until_ := (p.2.map PowerPoint.pointAt).getD ended })

def PowerSegment.milliseconds (s : PowerSegment) : Int := timestampDiff millisecond s.until_ s.pointAt

def PowerSegment.kwh (s : PowerSegment) : ℚ := s.numericValue * s.milliseconds / 3600000

/-- A row of `integrated_tails`. -/
structure IntegratedTail where
  coverageStartedAt : Int
  tailKwh : ℚ

def integratedTail (segments : List PowerSegment) : Option IntegratedTail :=
  ((segments.map (fun s => s.pointAt)).min?).map (fun coverage =>
    { coverageStartedAt := coverage, tailKwh := (segments.map PowerSegment.kwh).sum })

def tailSegments (spec : TailSpec) (kind : EnergyKind) (table : List Reading) (counterAt ended : Int) :
    List PowerSegment :=
  tailPowerSegments ended (tailPowerPoints counterAt (tailPowerCandidates spec kind table))

def integratedTails (spec : TailSpec) (kind : EnergyKind) (table : List Reading) :
    Option IntegratedTail :=
  match spec.counterObservedAt kind, spec.endedAt with
  | some counterAt, some ended => integratedTail (tailSegments spec kind table counterAt ended)
  | _, _ => none

/-- `COUNT` of `tail_invalidations`. -/
def invalidTailObservations (spec : TailSpec) (kind : EnergyKind) (table : List Reading) : Nat :=
  (table.filter (fun o => decide (o.vehicleId = spec.vehicleId) &&
    decide (o.fieldName ∈ [kind.counterField,kind.powerField]) && o.isInvalid &&
      holds (isBetween (some o.sourceTimestamp) (spec.counterObservedAt kind) spec.endedAt))).length

/-- `TIMESTAMP_DIFF(ended_at, counter_observed_at, SECOND)`. -/
def TailSpec.tailSeconds (spec : TailSpec) (kind : EnergyKind) : Option Int :=
  Option.map₂ (timestampDiff second) spec.endedAt (spec.counterObservedAt kind)

def TailSpec.noAnomaly (spec : TailSpec) (kind : EnergyKind) : Truth :=
  equals (spec.counterAnomalies kind) (some 0)

def energyTailKwh (spec : TailSpec) (kind : EnergyKind) (table : List Reading) : Option ℚ :=
  let tail := integratedTails spec kind table
  if holds (truthAnd (spec.noAnomaly kind) (equals (spec.tailSeconds kind) (some 0))) then some 0
  else if holds (truthAnd (truthAnd (truthAnd (spec.noAnomaly kind)
      (some (decide (invalidTailObservations spec kind table = 0))))
      (isBetween (spec.tailSeconds kind) (some 1) (some 300)))
      (equals (tail.map IntegratedTail.coverageStartedAt) (spec.counterObservedAt kind))) then
    tail.map IntegratedTail.tailKwh
  else none

end Tail

section Corrected

/-- What is taken from the end counter: nothing without a baseline or after a reset. -/
def TailSpec.subtrahend (spec : TailSpec) (kind : EnergyKind) : Option ℚ :=
  if holds (truthOr (some (spec.startEnergyKwh kind).isNone)
      (greater ((spec.startEnergyKwh kind).map (fun v => v - tolerance))
        (spec.observedEndEnergyKwh kind))) then some 0
  else spec.startEnergyKwh kind

def energyCounterKwh (spec : TailSpec) (kind : EnergyKind) : Option ℚ :=
  if holds (spec.counterIsApplicable kind) then
    greatest (Option.map₂ (fun a b => a - b) (spec.observedEndEnergyKwh kind) (spec.subtrahend kind))
      (some 0)
  else none

/-- `COALESCE(quality.…_counter_anomalies, 0)`. -/
def TailSpec.anomalies (spec : TailSpec) (kind : EnergyKind) : Nat :=
  (spec.counterAnomalies kind).getD 0

/-- The columns of `corrected_candidates`, from those of `energy_reconstructed`. -/
structure Reconstructed where
  spec : TailSpec
  energyCounterKwh : EnergyKind → Option ℚ
  energyTailKwh : EnergyKind → Option ℚ

def energyReconstructed (spec : TailSpec) (table : List Reading) : Reconstructed :=
  { spec, energyCounterKwh := Charging.energyCounterKwh spec
    energyTailKwh := fun kind => Charging.energyTailKwh spec kind table }

/-- `candidate_…_energy_added_kwh`. -/
def Reconstructed.candidate (r : Reconstructed) (kind : EnergyKind) : Option ℚ :=
  if holds (greater (r.spec.counterAnomalies kind) (some 0)) then none
  else (r.energyCounterKwh kind).map (fun counter => counter + (r.energyTailKwh kind).getD 0)

/-- Maximum power times session duration. -/
def TailSpec.powerDurationKwh (spec : TailSpec) (kind : EnergyKind) : Option ℚ :=
  Option.map₂ (fun power (ended : Int) =>
    power * timestampDiff millisecond ended spec.startedAt / 3600000)
    (spec.maximumPowerKw kind) spec.endedAt

/-- `x + GREATEST(0.05, x * share)`. -/
def withAllowance (share : ℚ) (x : Option ℚ) : Option ℚ :=
  x.map (fun v => v + max (1 / 20) (v * share))

/-- `…_energy_upper_bound_kwh`. -/
def Reconstructed.upperBound (r : Reconstructed) : EnergyKind → Option ℚ
  | .ac =>
    if holds (greater (r.spec.maximumPowerKw .ac) (some 0)) then
      withAllowance (1 / 50) (r.spec.powerDurationKwh .ac)
    else none
  | .dc =>
    if holds (greater (r.spec.maximumPowerKw .dc) (some 0)) then
      withAllowance (1 / 50) (r.spec.powerDurationKwh .dc)
    else if holds (truthAnd (greater (r.spec.maximumPowerKw .ac) (some 0))
        (some (r.candidate .ac).isSome)) then
      withAllowance (1 / 20) (r.candidate .ac)
    else none

/-- The condition under which the values of `corrected` are `NULL`. -/
def Reconstructed.isRejected (r : Reconstructed) (kind : EnergyKind) : Truth :=
  truthOr (truthOr (some (r.candidate kind).isNone) (some (r.upperBound kind).isNone))
    (greater (r.candidate kind) (r.upperBound kind))

/-- `IF(…, NULL, x)`. -/
def Reconstructed.accepted (r : Reconstructed) (kind : EnergyKind) (x : Option ℚ) : Option ℚ :=
  if holds (r.isRejected kind) then none else x

inductive EnergyMethod where
  | counterAnomaly
  | unavailable
  | physicalBoundUnavailable
  | physicallyImplausible_
  | measuredCounterPlusBoundedPowerTail
  | measuredCounter
  | measuredCounterTailUnavailable
  deriving DecidableEq

def EnergyMethod.text : EnergyMethod → String
  | .counterAnomaly => "counter_anomaly"
  | .unavailable => "unavailable"
  | .physicalBoundUnavailable => "physical_bound_unavailable"
  | .physicallyImplausible_ => "physically_implausible"
  | .measuredCounterPlusBoundedPowerTail => "measured_counter_plus_bounded_power_tail"
  | .measuredCounter => "measured_counter"
  | .measuredCounterTailUnavailable => "measured_counter_tail_unavailable"

def Reconstructed.energyMethod (r : Reconstructed) (kind : EnergyKind) : EnergyMethod :=
  if 0 < r.spec.anomalies kind then .counterAnomaly
  else if (r.energyCounterKwh kind).isNone then .unavailable
  else if (r.upperBound kind).isNone then .physicalBoundUnavailable
  else if holds (greater (r.candidate kind) (r.upperBound kind)) then .physicallyImplausible_
  else if holds (greater (r.energyTailKwh kind) (some 0)) then .measuredCounterPlusBoundedPowerTail
  else if holds (equals (r.spec.counterObservedAt kind) r.spec.endedAt) then .measuredCounter
  else .measuredCounterTailUnavailable

inductive EnergyQuality where
  | counterAnomaly
  | physicalBoundUnavailable
  | physicallyImplausible_
  | unavailable
  | counterReset
  | baselineUnavailable
  | validated
  deriving DecidableEq

/-- A candidate without a bound. -/
def Reconstructed.isUnbounded (r : Reconstructed) (kind : EnergyKind) : Truth :=
  truthAnd (some (r.candidate kind).isSome) (some (r.upperBound kind).isNone)

/-- A candidate whose end counter is below its baseline. -/
def Reconstructed.isReset (r : Reconstructed) (kind : EnergyKind) : Truth :=
  truthAnd (truthAnd (some (r.candidate kind).isSome) (some (r.spec.startEnergyKwh kind).isSome))
    (greater ((r.spec.startEnergyKwh kind).map (fun v => v - tolerance))
      (r.spec.observedEndEnergyKwh kind))

def Reconstructed.lacksBaseline (r : Reconstructed) (kind : EnergyKind) : Truth :=
  truthAnd (some (r.candidate kind).isSome) (some (r.spec.startEnergyKwh kind).isNone)

def Reconstructed.energyQuality (r : Reconstructed) : EnergyQuality :=
  if 0 < r.spec.anomalies .ac ∨ 0 < r.spec.anomalies .dc then .counterAnomaly
  else if holds (truthOr (r.isUnbounded .ac) (r.isUnbounded .dc)) then .physicalBoundUnavailable
  else if holds (truthOr (greater (r.candidate .ac) (r.upperBound .ac))
      (greater (r.candidate .dc) (r.upperBound .dc))) then .physicallyImplausible_
  else if (r.candidate .ac).isNone ∧ (r.candidate .dc).isNone then .unavailable
  else if holds (truthOr (r.isReset .ac) (r.isReset .dc)) then .counterReset
  else if holds (truthOr (r.lacksBaseline .ac) (r.lacksBaseline .dc)) then .baselineUnavailable
  else .validated

/-- The energy columns of `charge_sessions`. -/
structure ChargeEnergy where
  energyCounterKwh : EnergyKind → Option ℚ
  energyTailKwh : EnergyKind → Option ℚ
  energyAddedKwh : EnergyKind → Option ℚ
  energyUpperBoundKwh : EnergyKind → Option ℚ
  energyMethod : EnergyKind → EnergyMethod
  energyQuality : EnergyQuality

def Reconstructed.corrected (r : Reconstructed) : ChargeEnergy :=
  { energyCounterKwh := fun kind => r.accepted kind (r.energyCounterKwh kind)
    energyTailKwh := fun kind => r.accepted kind (r.energyTailKwh kind)
    energyAddedKwh := fun kind => r.accepted kind (r.candidate kind)
    energyUpperBoundKwh := r.upperBound
    energyMethod := r.energyMethod
    energyQuality := r.energyQuality }

def chargeEnergy (s : ChargeSession) (now : Int) (table : List Reading) : ChargeEnergy :=
  (energyReconstructed (tailSpec s now table) table).corrected

end Corrected

end Woodhouse.Charging
