import Mathlib.Data.Prod.Lex
import Woodhouse.Ingest.Messages
import Woodhouse.Sql.Order
import Woodhouse.Sql.Window

namespace Woodhouse.Ingest
open Python Sql

/-- BigQuery's functions on JSON values and their texts. -/
structure JsonFunctions (J F : Type) where
  parse : Str → J
  jsonQueryArray : J → String → List J
  jsonValue : J → String → Option Str
  jsonQuery : J → String → Option J
  safeCastFloat64 : Str → Option F
  safeCastBool : Str → Option Bool

/-- A row of `telemetry_observations`. -/
structure Observation (J F : Type) where
  sourceTimestamp : Utc
  ingestedAt : Utc
  processedAt : Utc
  vehicleId : Option Str
  recordType : Str
  fieldName : Str
  isInvalid : Bool
  numericValue : Option F
  stringValue : Option Str
  booleanValue : Option Bool
  latitude : Option F
  longitude : Option F
  valueJson : Option J
  telemetryConfigVersion : Option Str
  telemetryConfigHash : Option Str
  transportMessageId : Option Str
  pubsubMessageId : Str
  telemetryClientVersion : Option Str
  telemetryReceiverVersion : Str
  receiverRecordVersion : Option Int

def numericPaths : List String :=
  ["$.value.doubleValue","$.value.floatValue","$.value.longValue","$.value.intValue",
   "$.value.stringValue"]

def stringPaths : List String :=
  ["$.value.stringValue","$.value.shiftStateValue","$.value.detailedChargeStateValue",
   "$.value.chargingValue","$.value.laneAssistLevelValue","$.value.scheduledChargingModeValue",
   "$.value.sentryModeStateValue","$.value.speedAssistLevelValue","$.value.mediaStatusValue",
   "$.value.bmsStateValue","$.value.buckleStatusValue","$.value.carTypeValue",
   "$.value.chargePortValue","$.value.chargePortLatchValue","$.value.doorValue",
   "$.value.driveInverterStateValue","$.value.hvilStatusValue","$.value.hvacPowerValue",
   "$.value.windowStateValue","$.value.seatFoldPositionValue","$.value.tractorAirStatusValue",
   "$.value.followDistanceValue","$.value.forwardCollisionSensitivityValue",
   "$.value.guestModeMobileAccessValue","$.value.trailerAirStatusValue",
   "$.value.hvacAutoModeValue","$.value.cabinOverheatProtectionModeValue",
   "$.value.cabinOverheatProtectionTemperatureLimitValue","$.value.defrostModeValue",
   "$.value.climateKeeperModeValue","$.value.fastChargerValue","$.value.cableTypeValue",
   "$.value.tonneauTentModeValue","$.value.tonneauPositionValue","$.value.powershareTypeValue",
   "$.value.powershareStateValue","$.value.powershareStopReasonValue","$.value.displayStateValue",
   "$.value.distanceUnitValue","$.value.temperatureUnitValue","$.value.pressureUnitValue",
   "$.value.chargeUnitPreferenceValue","$.value.turnSignalStateValue",
   "$.value.sunroofInstalledStateValue"]

section View
variable {J F : Type} (json : JsonFunctions J F)

/-- One element of the payload's `data`; without a key it is no observation. -/
def observationOf (raw : RawTelemetryRow) (datum : J) : Option (Observation J F) := do
  let fieldName ← json.jsonValue datum "$.key"
  let value := json.jsonValue datum
  let castFloat := fun path => (value path).bind json.safeCastFloat64
  some
    { sourceTimestamp := raw.sourceTimestamp
      ingestedAt := raw.ingestedAt
      processedAt := raw.processedAt
      vehicleId := raw.vehicleId
      recordType := raw.recordType
      fieldName
      isInvalid := (json.jsonQuery datum "$.value.invalid").isSome
      numericValue := numericPaths.findSome? castFloat
      stringValue := stringPaths.findSome? value
      booleanValue := (value "$.value.booleanValue").bind json.safeCastBool
      latitude := castFloat "$.value.locationValue.latitude"
      longitude := castFloat "$.value.locationValue.longitude"
      valueJson := json.jsonQuery datum "$.value"
      telemetryConfigVersion := raw.telemetryConfigVersion
      telemetryConfigHash := raw.telemetryConfigHash
      transportMessageId := raw.transportMessageId
      pubsubMessageId := raw.pubsubMessageId
      telemetryClientVersion := raw.telemetryClientVersion
      telemetryReceiverVersion := raw.telemetryReceiverVersion
      receiverRecordVersion := raw.receiverRecordVersion }

/-- The observations of one raw row. -/
def observations (raw : RawTelemetryRow) : List (Observation J F) :=
  (json.jsonQueryArray (json.parse raw.payload) "$.data").filterMap (observationOf json raw)

/-- The first processed copy of each vehicle message. -/
def rawDeduplicated (table : List RawTelemetryRow) : List RawTelemetryRow :=
  firstRows RawTelemetryRow.pubsubMessageId
    (orderBy (fun raw => toLex (raw.processedAt,raw.ingestedAt))
      (table.filter (fun raw => raw.recordType = str "V")))

/-- The view `telemetry_observations` of a table. -/
def telemetryObservations (table : List RawTelemetryRow) : List (Observation J F) :=
  (rawDeduplicated table).flatMap (observations json)

end View

section Deduplication
variable {J F : Type} {json : JsonFunctions J F} {table : List RawTelemetryRow} {id : Str}

theorem observations_id {raw : RawTelemetryRow} {o : Observation J F}
    (h : o ∈ observations json raw) : o.pubsubMessageId = raw.pubsubMessageId := by
  obtain ⟨datum,_,ho⟩ := List.mem_filterMap.mp h
  unfold observationOf at ho
  simp only [Option.bind_eq_bind,Option.bind_eq_some_iff,Option.some.injEq] at ho
  obtain ⟨_,_,rfl⟩ := ho
  rfl

theorem mem_rawDeduplicated {raw : RawTelemetryRow} (h : raw ∈ rawDeduplicated table) :
    raw ∈ table ∧ raw.recordType = str "V" := by
  have hmem := mem_orderBy.mp (mem_of_firstRows h)
  simpa using List.mem_filter.mp hmem

/-- The rows of a message in the order of the window. -/
def copiesOf (id : Str) (table : List RawTelemetryRow) : List RawTelemetryRow :=
  (orderBy (fun raw => toLex (raw.processedAt,raw.ingestedAt))
    (table.filter (fun raw => raw.recordType = str "V"))).filter (fun raw => raw.pubsubMessageId = id)

theorem rawDeduplicated_filter :
    (rawDeduplicated table).filter (fun raw => raw.pubsubMessageId = id) =
      (copiesOf id table).head?.toList :=
  firstRows_filter _ _ id

theorem mem_copiesOf {raw : RawTelemetryRow} :
    raw ∈ copiesOf id table ↔ raw ∈ table ∧ raw.recordType = str "V" ∧ raw.pubsubMessageId = id := by
  simp [copiesOf,and_assoc]

/-- No copy was processed before the one that is kept. -/
theorem head_copiesOf {raw : RawTelemetryRow} (h : (copiesOf id table).head? = some raw) :
    raw ∈ copiesOf id table ∧ ∀ other ∈ copiesOf id table, raw.processedAt ≤ other.processedAt := by
  have hpair : (copiesOf id table).Pairwise (fun a b => a.processedAt ≤ b.processedAt) := by
    refine ((orderBy_pairwise _ _).imp ?_).filter _
    intro a b hab
    rcases Prod.Lex.toLex_le_toLex.mp hab with hlt | ⟨heq,_⟩
    · exact hlt.le
    · exact heq.le
  obtain ⟨rest,hrest⟩ := List.head?_eq_some_iff.mp h
  refine ⟨List.mem_of_head? h,?_⟩
  intro other hother
  rw [hrest] at hpair hother
  rcases List.mem_cons.mp hother with rfl | hother
  · exact le_refl _
  · exact (List.pairwise_cons.mp hpair).1 other hother

/-- The view's rows of a message are the observations of its first processed copy. -/
theorem telemetryObservations_filter :
    (telemetryObservations json table).filter (fun o => o.pubsubMessageId = id) =
      (copiesOf id table).head?.toList.flatMap (observations json) := by
  rw [← rawDeduplicated_filter]
  unfold telemetryObservations
  induction rawDeduplicated table with
  | nil => rfl
  | cons raw rest ih =>
    rw [List.flatMap_cons,List.filter_append,ih]
    by_cases hid : raw.pubsubMessageId = id
    · have hall : (observations json raw).filter (fun o => o.pubsubMessageId = id) =
          observations json raw := by
        refine List.filter_eq_self.mpr ?_
        intro o ho
        simpa [observations_id ho] using hid
      rw [hall,List.filter_cons_of_pos (by simpa using hid),List.flatMap_cons]
    · have hnone : (observations json raw).filter (fun o => o.pubsubMessageId = id) = [] := by
        refine List.filter_eq_nil_iff.mpr ?_
        intro o ho
        simpa [observations_id ho] using hid
      rw [hnone,List.filter_cons_of_neg (by simpa using hid),List.nil_append]

end Deduplication

end Woodhouse.Ingest
