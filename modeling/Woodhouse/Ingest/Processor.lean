import Woodhouse.Ingest.Decoder
import Woodhouse.Ingest.Services

namespace Woodhouse.Ingest
open Effects Python

/-- What the service is started with. -/
structure Runtime where
  sourcePolicy : TelemetrySourcePolicy
  receiverVersion : Str
  projectId : Str
  quarantineTable : Str
  syntheticTable : Str
  audience : Str
  expectedEmail : Str

def eventOf (receiverVersion : Str) (incoming : IncomingTelemetry) (now : Utc) :
    RawTelemetryEvent where
  sourceTimestamp := incoming.sourceTimestamp
  ingestedAt := incoming.edgeReceivedAt
  processedAt := now
  vehicleId := none
  vin := incoming.vin
  teslaVehicleId := none
  recordType := incoming.recordType
  payload := incoming.payload
  telemetryConfigVersion := none
  telemetryConfigHash := none
  transportMessageId := incoming.transportMessageId
  pubsubMessageId := incoming.pubsubMessageId
  pubsubPublishTime := incoming.pubsubPublishTime
  pubsubDeliveryAttempt := incoming.pubsubDeliveryAttempt
  telemetryClientVersion := incoming.telemetryClientVersion
  telemetryReceiverVersion := receiverVersion
  receiverRecordVersion := incoming.receiverRecordVersion

/-- The event with its owner and the vehicle's configuration provenance. -/
def ownedEvent (event : RawTelemetryEvent) (route : VehicleRoute) : RawTelemetryEvent :=
  { event with
    vehicleId := some route.vehicleId
    teslaVehicleId := route.teslaVehicleId
    telemetryConfigVersion := route.telemetryConfigVersion
    telemetryConfigHash := route.telemetryConfigHash }

def configProvenance (route : VehicleRoute) : String :=
  if route.telemetryConfigVersion.isSome ∧ route.telemetryConfigHash.isSome then "complete"
  else if route.telemetryConfigVersion.isSome ∨ route.telemetryConfigHash.isSome then "partial"
  else "missing"

def quarantine (incoming : IncomingTelemetry) (event : RawTelemetryEvent) (reason : String) :
    Processing ProcessingResult := do
  append (.quarantine event reason)
  return { disposition := "quarantined"
           recordType := incoming.recordType
           pubsubMessageId := incoming.pubsubMessageId
           quarantineReason := some reason
           sourceAuthentication := some incoming.sourceAuthentication }

/-- Whether the fixture's first failure is on record; it is caused first. -/
def failFirst (sha256Hex : Bytes → Str) (incoming : IncomingTelemetry) (fixtureId : Str)
    (now : Utc) : Processing Bool := do
  if incoming.syntheticFailFirst then
    let shouldFail ← shouldFailFirst sha256Hex fixtureId now
    if shouldFail then throw (.retryableProcessing (str "synthetic_first_delivery_failure"))
    else return true
  else return false

/-- `TelemetryProcessor.process`. -/
def process (sha256Hex : Bytes → Str) (receiverVersion : Str) (incoming : IncomingTelemetry)
    (now : Utc) : Processing ProcessingResult :=
  let event := eventOf receiverVersion incoming now
  match incoming.validationError,incoming.syntheticFixtureId,incoming.vin with
  | some reason,_,_ => quarantine incoming event reason
  | none,some fixtureId,_ => do
    let firstFailureRecorded ← failFirst sha256Hex incoming fixtureId now
    append (.synthetic event fixtureId firstFailureRecorded)
    return { disposition := "synthetic"
             recordType := incoming.recordType
             pubsubMessageId := incoming.pubsubMessageId
             fixtureId := some fixtureId
             sourceAuthentication := some incoming.sourceAuthentication }
  | none,none,none => quarantine incoming event "missing_vin"
  | none,none,some vin => do
    let route ← resolve sha256Hex vin
    match route with
    | none => quarantine incoming event "unknown_vin"
    | some route => do
      append (.user route.datasetId (ownedEvent event route))
      return { disposition := "persisted"
               recordType := incoming.recordType
               pubsubMessageId := incoming.pubsubMessageId
               vehicleId := some route.vehicleId
               userId := some route.userId
               sourceAuthentication := some incoming.sourceAuthentication
               telemetryConfigProvenance := some (configProvenance route) }

/-- `process(decode_pubsub_push(body))`. -/
def processPush (sha256Hex : Bytes → Str) (limit : Nat) (runtime : Runtime) (body : Bytes)
    (now : Utc) : Processing ProcessingResult := do
  let incoming ← .ofExcept (decodePubsubPush limit body now runtime.sourcePolicy)
  process sha256Hex runtime.receiverVersion incoming now

section Handler

def maxPushBodyBytes : Int := 2000000

inductive HttpStatus where
  | noContent
  | unauthorized
  | notFound
  | serviceUnavailable
  deriving DecidableEq

structure Response where
  status : HttpStatus
  error : Option String := none

/-- A POST request; `body` is what the client sends behind the headers. -/
structure PostRequest where
  path : Str
  authorization : Option Str
  contentLength : Option Str
  body : Bytes

def contentLengthOf (header : Option Str) : Option Nat :=
  let length := match intOfStr (header.getD []) with
    | .ok length => length
    | .error _ => -1
  if length < 1 ∨ maxPushBodyBytes < length then none else some length.toNat

/-- The answer to an exception of the decoder or the processor. -/
def responseTo : Exc → Response
  | .invalidPushMessage _ => { status := .noContent }
  | _ => { status := .serviceUnavailable, error := some "retry" }

/-- `TelemetryHandler.do_POST` behind the verifier. -/
def answerPush (sha256Hex : Bytes → Str) (limit : Nat) (runtime : Runtime) (request : PostRequest)
    (now : Utc) : Processing Response :=
  match contentLengthOf request.contentLength with
  | none => return { status := .noContent }
  | some length =>
    tryCatch (do
      let _ ← processPush sha256Hex limit runtime (request.body.take length) now
      return { status := .noContent })
      (fun e => return responseTo e)

def isAuthorized (runtime : Runtime) (request : PostRequest) : Processing Bool :=
  tryCatch (do
    verify runtime.audience runtime.expectedEmail request.authorization
    return true)
    (fun _ => return false)

/-- `TelemetryHandler.do_POST`; `now` is the clock when the body has been read. -/
def doPost (sha256Hex : Bytes → Str) (limit : Nat) (runtime : Runtime) (request : PostRequest)
    (now : Utc) : Processing Response := do
  if request.path ≠ str "/pubsub/push" then return { status := .notFound }
  else
    let authorized ← isAuthorized runtime request
    if authorized then answerPush sha256Hex limit runtime request now
    else return { status := .unauthorized, error := some "unauthorized" }

end Handler

/-- A runtime with one fleet subscription, of vehicle records. -/
def demoRuntime : Runtime where
  sourcePolicy :=
    { syntheticSubscription := str "projects/p/subscriptions/synthetic"
      fleetSubscriptions := [(str "projects/p/subscriptions/v",str "V")] }
  receiverVersion := str "v1"
  projectId := str "p"
  quarantineTable := str "p.ops.quarantine"
  syntheticTable := str "p.ops.synthetic"
  audience := str "push"
  expectedEmail := str "push@p.iam.gserviceaccount.com"

end Woodhouse.Ingest
