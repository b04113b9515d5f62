import Woodhouse.Python.DateTime
import Woodhouse.Python.Dumps

namespace Woodhouse.Ingest
open Python

/-- The exceptions of the telemetry processor. -/
inductive Exc where
  | invalidPushMessage (category : String)
  | retryableProcessing (category : Str)
  | python (e : PyExc)
  | other (name : String)

/-- Binds authenticated deliveries to their source path. -/
structure TelemetrySourcePolicy where
  syntheticSubscription : Str
  fleetSubscriptions : Dict Str

def allowedRecordTypes : List Str := [str "V",str "alerts",str "connectivity",str "errors"]

def syntheticMarker : Str := str "phase7"

/-- One decoded Pub/Sub delivery. -/
structure IncomingTelemetry where
  sourceTimestamp : Utc
  edgeReceivedAt : Utc
  payload : Dict Json
  vin : Option Str
  recordType : Str
  transportMessageId : Option Str
  pubsubMessageId : Str
  pubsubPublishTime : Option Utc
  pubsubDeliveryAttempt : Option Int
  telemetryClientVersion : Option Str
  receiverRecordVersion : Option Int
  validationError : Option String
  syntheticFixtureId : Option Str
  syntheticFailFirst : Bool
  sourceAuthentication : String

/-- Trusted server-side destination for one vehicle. -/
structure VehicleRoute where
  userId : Str
  datasetId : Str
  vehicleId : Str
  teslaVehicleId : Option Str
  telemetryConfigVersion : Option Str
  telemetryConfigHash : Option Str

/-- One delivery to permanent raw telemetry history. -/
structure RawTelemetryEvent where
  sourceTimestamp : Utc
  ingestedAt : Utc
  processedAt : Utc
  vehicleId : Option Str
  vin : Option Str
  teslaVehicleId : Option Str
  recordType : Str
  payload : Dict Json
  telemetryConfigVersion : Option Str
  telemetryConfigHash : Option Str
  transportMessageId : Option Str
  pubsubMessageId : Str
  pubsubPublishTime : Option Utc
  pubsubDeliveryAttempt : Option Int
  telemetryClientVersion : Option Str
  telemetryReceiverVersion : Str
  receiverRecordVersion : Option Int

/-- A row of a raw telemetry table. The payload is JSON text; the timestamps are sent as
the ISO texts of their instants. -/
structure RawTelemetryRow where
  sourceTimestamp : Utc
  ingestedAt : Utc
  processedAt : Utc
  vehicleId : Option Str
  vin : Option Str
  teslaVehicleId : Option Str
  recordType : Str
  payload : Str
  telemetryConfigVersion : Option Str
  telemetryConfigHash : Option Str
  transportMessageId : Option Str
  pubsubMessageId : Str
  pubsubPublishTime : Option Utc
  pubsubDeliveryAttempt : Option Int
  telemetryClientVersion : Option Str
  telemetryReceiverVersion : Str
  receiverRecordVersion : Option Int

def RawTelemetryEvent.bigqueryRow (e : RawTelemetryEvent) : RawTelemetryRow where
  sourceTimestamp := e.sourceTimestamp
  ingestedAt := e.ingestedAt
  processedAt := e.processedAt
  vehicleId := e.vehicleId
  vin := e.vin
  teslaVehicleId := e.teslaVehicleId
  recordType := e.recordType
  payload := dumps (.obj e.payload)
  telemetryConfigVersion := e.telemetryConfigVersion
  telemetryConfigHash := e.telemetryConfigHash
  transportMessageId := e.transportMessageId
  pubsubMessageId := e.pubsubMessageId
  pubsubPublishTime := e.pubsubPublishTime
  pubsubDeliveryAttempt := e.pubsubDeliveryAttempt
  telemetryClientVersion := e.telemetryClientVersion
  telemetryReceiverVersion := e.telemetryReceiverVersion
  receiverRecordVersion := e.receiverRecordVersion

structure ProcessingResult where
  disposition : String
  recordType : Str
  pubsubMessageId : Str
  vehicleId : Option Str := none
  userId : Option Str := none
  quarantineReason : Option String := none
  fixtureId : Option Str := none
  sourceAuthentication : Option String := none
  telemetryConfigProvenance : Option String := none

end Woodhouse.Ingest
