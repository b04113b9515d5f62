import Woodhouse.Python.Base64
import Woodhouse.Ingest.Messages

namespace Woodhouse.Ingest
open Python

def requiredString (value : Dict Json) (key : String) : Except Exc Str :=
  match value.get (str key) with
  | some (.str item) =>
    if item = [] then .error (.invalidPushMessage ("missing_" ++ key)) else .ok item
  | _ => .error (.invalidPushMessage ("missing_" ++ key))

def optionalTimestamp (value : Option Json) : Except Exc (Option Utc) :=
  match value with
  | some (.str s) =>
    if s = [] then .ok none
    else match fromisoformat (replaceChar s (chr 'Z') (str "+00:00")) with
      | .error .valueError => .ok none
      | .error e => .error (.python e)
      | .ok ⟨_,none⟩ => .ok none
      | .ok ⟨clock,some offset⟩ =>
        match astimezoneUtc clock offset with
        | .ok t => .ok (some t)
        | .error e => .error (.python e)
  | _ => .ok none

def millisecondsTimestamp (value : Option Str) : Option Utc :=
  match value with
  | none => none
  | some s =>
    match intOfStr s with
    | .ok ms => fromMilliseconds ms
    | .error _ => none

def optionalInt (value : Option Json) : Option Int :=
  match value with
  | some (.int i) => some i
  | some (.str s) => (intOfStr s).toOption
  | _ => none

def isFixtureChar (c : CodePoint) : Bool :=
  (65 ≤ c.val ∧ c.val ≤ 90) ∨ (97 ≤ c.val ∧ c.val ≤ 122) ∨ (48 ≤ c.val ∧ c.val ≤ 57) ∨
    c = chr '_' ∨ c = chr '-'

/-- `^phase7[-_][A-Za-z0-9_-]{1,80}$` -/
def isFixtureId (s : Str) : Bool :=
  s.take 6 = str "phase7" ∧ (s[6]? = some (chr '-') ∨ s[6]? = some (chr '_')) ∧
    1 ≤ (s.drop 7).length ∧ (s.drop 7).length ≤ 80 ∧ (s.drop 7).all isFixtureChar

def syntheticFixtureId (attributes : Dict Str) : Except Exc (Option Str) :=
  if attributes.get (str "tpp_synthetic_fixture") ≠ some syntheticMarker then .ok none
  else
    let fixtureId := (attributes.get (str "tpp_fixture_id")).getD []
    if isFixtureId fixtureId then .ok (some fixtureId)
    else .error (.invalidPushMessage "invalid_synthetic_fixture_id")

/-- `json.loads` of the wrapper or of the decoded data. -/
def loadsOr (limit : Nat) (category : String) (body : Bytes) : Except Exc Json :=
  match loads limit body with
  | .ok v => .ok v
  | .error .unicodeDecodeError => .error (.invalidPushMessage category)
  | .error .jsonDecodeError => .error (.invalidPushMessage category)
  | .error e => .error (.python e)

def decodeData (encoded : Str) : Except Exc Bytes :=
  match b64decode encoded with
  | .ok decoded => .ok decoded
  | .error .binasciiError => .error (.invalidPushMessage "invalid_pubsub_data")
  | .error e => .error (.python e)

def messageOf (wrapper : Json) : Except Exc (Dict Json × Dict Json) :=
  match wrapper with
  | .obj wrapper =>
    match Dict.get wrapper (str "message") with
    | some (.obj message) => .ok (wrapper,message)
    | _ => .error (.invalidPushMessage "missing_pubsub_message")
  | _ => .error (.invalidPushMessage "missing_pubsub_message")

def payloadOf (payload : Json) : Except Exc (Dict Json) :=
  match payload with
  | .obj payload => .ok payload
  | _ => .error (.invalidPushMessage "payload_must_be_object")

def stringEntry : Str × Json → Option (Str × Str)
  | (key,.str value) => some (key,value)
  | _ => none

/-- `message.get("attributes", {})` when all its values are strings. -/
def attributesOf (message : Dict Json) : Except Exc (Dict Str) :=
  match (message.get (str "attributes")).getD (.obj []) with
  | .obj rawAttributes =>
    match rawAttributes.mapM stringEntry with
    | some attributes => .ok attributes
    | none => .error (.invalidPushMessage "invalid_pubsub_attributes")
  | _ => .error (.invalidPushMessage "invalid_pubsub_attributes")

/-- The parts of a push body. -/
structure Push where
  subscription : Str
  messageId : Str
  payload : Dict Json
  attributes : Dict Str
  publishTime : Option Json
  deliveryAttempt : Option Json

/-- The parts of `body` that are checked before any timestamp. -/
def readPush (limit : Nat) (body : Bytes) : Except Exc Push := do
  let loaded ← loadsOr limit "invalid_json_wrapper" body
  let (wrapper,message) ← messageOf loaded
  let subscription ← requiredString wrapper "subscription"
  let messageId ← requiredString message "messageId"
  let encoded ← requiredString message "data"
  let decoded ← decodeData encoded
  let loadedPayload ← loadsOr limit "invalid_pubsub_data" decoded
  let payload ← payloadOf loadedPayload
  let attributes ← attributesOf message
  return { subscription, messageId, payload, attributes
           publishTime := message.get (str "publishTime")
           deliveryAttempt := wrapper.get (str "deliveryAttempt") }

def recordTypeOf (attributes : Dict Str) (fixtureId : Option Str) : Str :=
  (attributes.get (str "txtype")).getD
    (if fixtureId.isSome then str "synthetic" else str "unknown")

/-- `s or None`. -/
def orNone (s : Option Str) : Option Str := s.filter (fun s => decide (s ≠ []))

/-- The source authentication and the first validation error of a subscription. -/
def checkSubscription (policy : TelemetrySourcePolicy) (subscription recordType : Str)
    (fixtureId : Option Str) : String × Option String :=
  if subscription = policy.syntheticSubscription then
    ("operator_fixture",if fixtureId.isNone then some "missing_synthetic_marker" else none)
  else match policy.fleetSubscriptions.get subscription with
    | some expected =>
      ("tesla_mtls",
        if fixtureId.isSome then some "synthetic_marker_on_fleet_subscription"
        else if recordType ≠ expected then some "record_type_subscription_mismatch"
        else none)
    | none => ("untrusted_subscription",some "untrusted_pubsub_subscription")

def checkRecordType (recordType : Str) (fixtureId : Option Str) : Option String :=
  if fixtureId.isNone ∧ recordType ∉ allowedRecordTypes then some "invalid_record_type" else none

def checkPayloadVin (payload : Dict Json) (vin fixtureId : Option Str) : Option String :=
  match vin,payload.get (str "vin") with
  | some vin,some (.str payloadVin) =>
    if fixtureId.isNone ∧ payloadVin ≠ [] ∧ payloadVin ≠ vin then some "payload_vin_mismatch"
    else none
  | _,_ => none

def checkSourceTimestamp (t : Option Utc) : Option String :=
  if t.isNone then some "missing_source_timestamp" else none

def checkEdgeReceivedAt (t : Option Utc) (fixtureId : Option Str) : Option String :=
  if t.isNone ∧ fixtureId.isNone then some "missing_edge_received_timestamp" else none

/-- The delivery of a push body whose timestamps are read. -/
def incomingOf (policy : TelemetrySourcePolicy) (now : Utc) (push : Push)
    (publishTime sourceTimestamp : Option Utc) (fixtureId : Option Str) : IncomingTelemetry :=
  let attr := fun name => push.attributes.get (str name)
  let recordType := recordTypeOf push.attributes fixtureId
  let vin := orNone (attr "vin")
  let (sourceAuthentication,subscriptionError) :=
    checkSubscription policy push.subscription recordType fixtureId
  let edgeReceivedAt := millisecondsTimestamp (attr "receivedat")
  { sourceTimestamp := sourceTimestamp.getD (publishTime.getD now)
    edgeReceivedAt := edgeReceivedAt.getD (publishTime.getD now)
    payload := push.payload
    vin
    recordType
    transportMessageId := orNone (attr "txid")
    pubsubMessageId := push.messageId
    pubsubPublishTime := publishTime
    pubsubDeliveryAttempt := optionalInt push.deliveryAttempt
    telemetryClientVersion := orNone (attr "device_client_version")
    receiverRecordVersion := optionalInt ((attr "version").map Json.str)
    validationError := subscriptionError
      <|> checkRecordType recordType fixtureId
      <|> checkPayloadVin push.payload vin fixtureId
      <|> checkSourceTimestamp sourceTimestamp
      <|> checkEdgeReceivedAt edgeReceivedAt fixtureId
    syntheticFixtureId := fixtureId
    syntheticFailFirst := attr "tpp_fixture_fail_first" = some (str "true")
    sourceAuthentication }

/-- `decode_pubsub_push`; `limit` is the interpreter's recursion limit. -/
def decodePubsubPush (limit : Nat) (body : Bytes) (now : Utc) (policy : TelemetrySourcePolicy) :
    Except Exc IncomingTelemetry := do
  let push ← readPush limit body
  let publishTime ← optionalTimestamp push.publishTime
  let fixtureId ← syntheticFixtureId push.attributes
  let sourceTimestamp ← optionalTimestamp (push.payload.get (str "createdAt"))
  return incomingOf policy now push publishTime sourceTimestamp fixtureId

end Woodhouse.Ingest
