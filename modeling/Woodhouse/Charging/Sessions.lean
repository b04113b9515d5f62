import Woodhouse.Sql.Logic
import Woodhouse.Sql.Order
import Woodhouse.Sql.Window

namespace Woodhouse.Charging
open Sql

/-- The columns of `telemetry_observations` that sessionization reads. -/
structure Observation where
  sourceTimestamp : Int
  vehicleId : String
  pubsubMessageId : String
  fieldName : String
  stringValue : Option String
  isInvalid : Bool

inductive Field where
  | detailedChargeState
  | chargeState
  deriving DecidableEq

inductive StateClass where
  | active
  | terminal
  | starting
  | unknown
  deriving DecidableEq

/-- `field_name IN ('DetailedChargeState', 'ChargeState')`. -/
def chargeField (fieldName : String) : Option Field :=
  if fieldName = "DetailedChargeState" then some .detailedChargeState
  else if fieldName = "ChargeState" then some .chargeState
  else none

def stateClass (field : Field) (value : String) : StateClass :=
  match field with
  | .detailedChargeState =>
    if value ∈ ["DetailedChargeStateCharging"] then .active
    else if value ∈ ["DetailedChargeStateDisconnected","DetailedChargeStateNoPower",
        "DetailedChargeStateComplete","DetailedChargeStateStopped"] then .terminal
    else if value ∈ ["DetailedChargeStateStarting"] then .starting
    else .unknown
  | .chargeState =>
    if value ∈ ["Charging","ChargeStateCharging"] then .active
    else if value ∈ ["Disconnected","NoPower","Complete","Stopped","Idle","Init",
        "ChargeStateDisconnected","ChargeStateNoPower","ChargeStateComplete",
        "ChargeStateStopped","ChargeStateStarting","Starting"] then .terminal
    else .unknown

/-- A row of `raw_charge_events`. -/
structure ChargeRow where
  sourceTimestamp : Int
  vehicleId : String
  pubsubMessageId : String
  field : Field
  chargeState : String
  deriving DecidableEq

def ChargeRow.stateClass (row : ChargeRow) : StateClass :=
  Charging.stateClass row.field row.chargeState

def rawChargeEvent (o : Observation) : Option ChargeRow :=
  match chargeField o.fieldName, o.stringValue with
  | some field, some value =>
    if o.isInvalid then none
    else some { sourceTimestamp := o.sourceTimestamp, vehicleId := o.vehicleId
                pubsubMessageId := o.pubsubMessageId, field, chargeState := value }
  | _, _ => none

/-- `ORDER BY source_timestamp, pubsub_message_id`. -/
def ChargeRow.windowKey (row : ChargeRow) : Int ×ₗ String :=
  toLex (row.sourceTimestamp,row.pubsubMessageId)

/-- The window partition of one vehicle. -/
def partition (vehicleId : String) (table : List Observation) : List ChargeRow :=
  orderBy ChargeRow.windowKey
    ((table.filterMap rawChargeEvent).filter (fun row => row.vehicleId = vehicleId))

/-- `IF(field_name = … AND state_class != 'unknown', x, NULL)`. -/
def ChargeRow.known {α : Type} (field : Field) (x : ChargeRow → α) (row : ChargeRow) : Option α :=
  if row.field = field ∧ row.stateClass ≠ .unknown then some (x row) else none

/-- The carried values of `stateful_charge_events`. -/
structure Carried where
  detailedClass : Option StateClass
  detailedAt : Option Int
  detailedMessageId : Option String
  coarseClass : Option StateClass
  coarseAt : Option Int
  deriving DecidableEq

def carried (frame : List ChargeRow) : Carried :=
  { detailedClass := lastValue (ChargeRow.known .detailedChargeState ChargeRow.stateClass) frame
    detailedAt := lastValue (ChargeRow.known .detailedChargeState ChargeRow.sourceTimestamp) frame
    detailedMessageId :=
      lastValue (ChargeRow.known .detailedChargeState ChargeRow.pubsubMessageId) frame
    coarseClass := lastValue (ChargeRow.known .chargeState ChargeRow.stateClass) frame
    coarseAt := lastValue (ChargeRow.known .chargeState ChargeRow.sourceTimestamp) frame }

/-- Fifteen minutes in microseconds. -/
def fallbackInterval : Int := 900000000

/-- `coarse_class = 'active' AND coarse_at > TIMESTAMP_ADD(detailed_at, …)`. -/
def freshCoarse (c : Carried) : Truth :=
  truthAnd (equals c.coarseClass (some .active))
    (greater c.coarseAt (c.detailedAt.map (fun t => t + fallbackInterval)))

def detailedDecides (c : Carried) : Truth :=
  truthAnd (isIn c.detailedClass [.terminal,.starting]) (truthNot (freshCoarse c))

def isCharging (c : Carried) : Truth :=
  if holds (equals c.detailedClass (some .active)) then some true
  else if holds (detailedDecides c) then some false
  else if holds (equals c.coarseClass (some .active)) then some true
  else if holds (equals c.coarseClass (some .terminal)) then some false
  else none

inductive StateSource where
  | detailedChargeState
  | coarseChargeStateFallback
  deriving DecidableEq

def stateSource (c : Carried) : StateSource :=
  if holds (equals c.detailedClass (some .active)) then .detailedChargeState
  else if holds (detailedDecides c) then .detailedChargeState
  else .coarseChargeStateFallback

/-- A row of `charge_events`. -/
structure ChargeEvent where
  sourceTimestamp : Int
  detailedMessageId : Option String
  isCharging : Truth
  stateSource : StateSource
  deriving DecidableEq

def chargeEvent (row : ChargeRow) (c : Carried) : ChargeEvent :=
  { sourceTimestamp := row.sourceTimestamp, detailedMessageId := c.detailedMessageId
    isCharging := isCharging c, stateSource := stateSource c }

/-- `charge_events WHERE is_charging IS NOT NULL`. -/
def chargeEvents (rows : List ChargeRow) : List ChargeEvent :=
  ((overRows carried rows).map (fun p => chargeEvent p.1 p.2)).filter
    (fun event => event.isCharging.isSome)

/-- `IF(is_charging AND NOT was_charging, 1, 0)`. -/
def beginsCharge (p : ChargeEvent × Truth) : Nat :=
  if holds (truthAnd p.1.isCharging (truthNot p.2)) then 1 else 0

def markedCharge (events : List ChargeEvent) : List (ChargeEvent × Truth) :=
  overRows (lag ChargeEvent.isCharging (some false)) events

/-- Each event with its charge number. -/
def sessionizedCharge (events : List ChargeEvent) : List (ChargeEvent × Nat) :=
  (overRows (sum beginsCharge) (markedCharge events)).map (fun p => (p.1.1,p.2))

structure Segment where
  chargeNumber : Nat
  startedAt : Int
  startStateMessageId : Option String
  endedAt : Option Int
  endStateMessageId : Option String
  stateSource : Option StateSource
  deriving DecidableEq

/-- `MIN(IF(is_charging, source_timestamp, NULL))`. -/
def startedAt (rows : List ChargeEvent) : Option Int :=
  (rows.filterMap (fun e => if holds e.isCharging then some e.sourceTimestamp else none)).min?

def endedAt (rows : List ChargeEvent) : Option Int :=
  (rows.filterMap
    (fun e => if holds (truthNot e.isCharging) then some e.sourceTimestamp else none)).min?

/-- One group of `segments`; the `ARRAY_AGG`s take the first value in time order. -/
def segment (chargeNumber : Nat) (rows : List ChargeEvent) : Option Segment :=
  (startedAt rows).map (fun started =>
    { chargeNumber
      startedAt := started
      startStateMessageId := (rows.filterMap
        (fun e => if holds e.isCharging then e.detailedMessageId else none)).head?
      endedAt := endedAt rows
      endStateMessageId := (rows.filterMap
        (fun e => if holds (truthNot e.isCharging) then e.detailedMessageId else none)).head?
      stateSource := (rows.map ChargeEvent.stateSource).head? })

/-- `GROUP BY vehicle_id, charge_number` of the numbered events. -/
def chargeGroups (events : List ChargeEvent) : List (Nat × List (ChargeEvent × Nat)) :=
  groupBy Prod.snd ((sessionizedCharge events).filter (fun p => 0 < p.2))

def segments (rows : List ChargeRow) : List Segment :=
  (chargeGroups (chargeEvents rows)).filterMap (fun g => segment g.1 (g.2.map Prod.fst))

/-- The `(started_at, ended_at)` pairs of one vehicle's charge sessions. -/
def chargeSessions (vehicleId : String) (table : List Observation) : List (Int × Option Int) :=
  (segments (partition vehicleId table)).map (fun s => (s.startedAt,s.endedAt))

end Woodhouse.Charging
