import Mathlib.Data.List.Dedup
import Mathlib.Order.Lex
import Woodhouse.Ingest.Observations
import Woodhouse.Sql.Islands

namespace Woodhouse.Drives
open Python Sql Ingest

/-- A timestamp in microseconds. -/
def micros (t : Utc) : Int := t.val

section StateChanges
variable {J F : Type}

/-- A row of `vehicle_state_changes`. -/
structure StateChange (J F : Type) where
  sourceTimestamp : Utc
  vehicleId : Option Str
  fieldName : Str
  numericValue : Option F
  previousNumericValue : Option F
  stringValue : Option Str
  previousStringValue : Option Str
  booleanValue : Option Bool
  previousBooleanValue : Option Bool
  latitude : Option F
  longitude : Option F
  previousLatitude : Option F
  previousLongitude : Option F
  valueJson : Option J
  previousValueJson : Option J
  pubsubMessageId : Str

/-- `TO_JSON_STRING` and `PARSE_JSON`. -/
structure JsonTexts (J : Type) where
  toJsonString : Option J → Option Str
  parseJson : Str → J

variable (texts : JsonTexts J)

/-- `ORDER BY source_timestamp, pubsub_message_id`. -/
def fieldKey (o : Observation J F) : Utc ×ₗ Str := toLex (o.sourceTimestamp,o.pubsubMessageId)

/-- The valid observations, each with the one before it in its `field_window`. -/
def ordered (table : List (Observation J F)) : List (Observation J F × Option (Observation J F)) :=
  overPartition (fun o => (o.vehicleId,o.fieldName)) (lag some none)
    (orderBy fieldKey (table.filter (fun o => !o.isInvalid)))

def valueText (o : Observation J F) : Option Str := texts.toJsonString o.valueJson

/-- `previous_value_text IS NULL OR previous_value_text != TO_JSON_STRING(value_json)`. -/
def isChange (o : Observation J F) (previous : Option (Observation J F)) : Truth :=
  truthOr (some (previous.bind (valueText texts)).isNone)
    (truthNot (equals (previous.bind (valueText texts)) (valueText texts o)))

def stateChange (o : Observation J F) (previous : Option (Observation J F)) : StateChange J F :=
  { sourceTimestamp := o.sourceTimestamp, vehicleId := o.vehicleId, fieldName := o.fieldName
    numericValue := o.numericValue
    previousNumericValue := previous.bind Observation.numericValue
    stringValue := o.stringValue
    previousStringValue := previous.bind Observation.stringValue
    booleanValue := o.booleanValue
    previousBooleanValue := previous.bind Observation.booleanValue
    latitude := o.latitude, longitude := o.longitude
    previousLatitude := previous.bind Observation.latitude
    previousLongitude := previous.bind Observation.longitude
    valueJson := o.valueJson
    previousValueJson := (previous.bind (valueText texts)).map texts.parseJson
    pubsubMessageId := o.pubsubMessageId }

/-- The view `vehicle_state_changes`. -/
def vehicleStateChanges (table : List (Observation J F)) : List (StateChange J F) :=
  ((ordered table).filter (fun p => holds (isChange texts p.1 p.2))).map
    (fun p => stateChange texts p.1 p.2)

end StateChanges

/-- A row of `gear_events`. -/
structure GearEvent where
  sourceTimestamp : Int
  vehicleId : Option Str
  pubsubMessageId : Str
  gear : Str
  isDriving : Truth
  deriving DecidableEq

def drivingGears : List Str := [str "ShiftStateD",str "ShiftStateR",str "D",str "R"]

section GearEvents
variable {J F : Type}

/-- A state change of the field `Gear` with a text. -/
def gearEvent (c : StateChange J F) : Option GearEvent :=
  if c.fieldName = str "Gear" then
    c.stringValue.map (fun gear =>
      { sourceTimestamp := micros c.sourceTimestamp, vehicleId := c.vehicleId
        pubsubMessageId := c.pubsubMessageId, gear
        isDriving := isIn (some gear) drivingGears })
  else none

def gearEvents (texts : JsonTexts J) (table : List (Observation J F)) : List GearEvent :=
  (vehicleStateChanges texts table).filterMap gearEvent

/-- `PARTITION BY vehicle_id ORDER BY source_timestamp`. -/
def vehicleGears (vehicleId : Option Str) (events : List GearEvent) : List GearEvent :=
  orderBy GearEvent.sourceTimestamp (events.filter (fun e => e.vehicleId = vehicleId))

end GearEvents

/-- One vehicle's rows with their drive numbers. -/
def sessionizedGears (rows : List GearEvent) : List (GearEvent × Nat) :=
  numbered GearEvent.isDriving rows

structure Segment where
  vehicleId : Option Str
  driveNumber : Nat
  startedAt : Int
  startGearMessageId : Option Str
  endedAt : Option Int
  endGearMessageId : Option Str
  deriving DecidableEq

/-- One group of `segments`; the `ARRAY_AGG`s take the first value in time order. -/
def segment (vehicleId : Option Str) (driveNumber : Nat) (rows : List GearEvent) : Option Segment :=
  (minOn GearEvent.isDriving GearEvent.sourceTimestamp rows).map (fun startedAt =>
    { vehicleId, driveNumber, startedAt
      startGearMessageId := (rows.filterMap
        (fun e => if holds e.isDriving then some e.pubsubMessageId else none)).head?
      endedAt := minOff GearEvent.isDriving GearEvent.sourceTimestamp rows
      endGearMessageId := (rows.filterMap
        (fun e => if holds (truthNot e.isDriving) then some e.pubsubMessageId else none)).head? })

/-- `GROUP BY vehicle_id, drive_number` of one vehicle's rows. -/
def segments (vehicleId : Option Str) (rows : List GearEvent) : List Segment :=
  (groupBy Prod.snd ((sessionizedGears rows).filter (fun p => 0 < p.2))).filterMap
    (fun g => segment vehicleId g.1 (g.2.map Prod.fst))

end Woodhouse.Drives
