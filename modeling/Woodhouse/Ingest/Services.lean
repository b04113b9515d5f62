import Woodhouse.Effects.Prog
import Woodhouse.Ingest.Messages

namespace Woodhouse.Ingest
open Effects Python

/-- A Firestore document, as far as its fields are strings or not. -/
abbrev Document := Dict Json

def Document.string (d : Document) (field : String) : Option Str :=
  match d.get (str field) with
  | some (.str s) => some s
  | _ => none

/-- A document reference that was read. -/
structure Snapshot where
  found : Bool
  toDict : Option Document

/-- A call of the telemetry sink. -/
inductive Append where
  | user (datasetId : Str) (event : RawTelemetryEvent)
  | quarantine (event : RawTelemetryEvent) (reason : String)
  | synthetic (event : RawTelemetryEvent) (fixtureId : Str) (firstFailureRecorded : Bool)

/-- The calls that leave the service. -/
inductive Call where
  | verifyOauth2Token (token audience : Str)
  | getVinIndex (indexId : Str)
  | getVehicle (vehicleId : Str)
  | queryAllowedUsers (userId : Str) (limit : Nat)
  | createFixtureRetry (documentId fixtureId : Str) (firstFailureAt expiresAt : Utc)
  | insertRowsJson (append : Append)

abbrev Call.Ret : Call → Type
  | .verifyOauth2Token .. => Dict Json
  | .getVinIndex _ => Snapshot
  | .getVehicle _ => Snapshot
  | .queryAllowedUsers .. => List Snapshot
  | .createFixtureRetry .. => Bool
  | .insertRowsJson _ => List (Dict Json)

abbrev Processing (α : Type) := Prog Call Call.Ret Exc α

abbrev ServiceEvent := Event Call Call.Ret Exc

abbrev perform (call : Call) : Processing call.Ret := Prog.perform call

def ofPython {α : Type} : Except PyExc α → Processing α
  | .ok a => .ret a
  | .error e => .raise (.python e)

section Registry

/-- `^tesla_u_[a-z0-9_]{1,80}$` -/
def isDatasetId (s : Str) : Bool :=
  s.take 8 = str "tesla_u_" ∧ 1 ≤ (s.drop 8).length ∧ (s.drop 8).length ≤ 80 ∧
    (s.drop 8).all (fun c => decide ((97 ≤ c.val ∧ c.val ≤ 122) ∨ (48 ≤ c.val ∧ c.val ≤ 57) ∨
      c = chr '_'))

/-- The vehicle and owner that an index entry names. -/
def indexTarget (index : Snapshot) : Option (Str × Str) := do
  if !index.found then none
  let indexData ← index.toDict
  let vehicleId ← indexData.string "vehicle_id"
  let ownerUserId ← indexData.string "owner_user_id"
  some (vehicleId,ownerUserId)

/-- The vehicle's document, when it has the VIN and the owner of the index entry. -/
def vehicleOf (vehicle : Snapshot) (vin ownerUserId : Str) : Option Document := do
  if !vehicle.found then none
  let vehicleData ← vehicle.toDict
  if vehicleData.string "vin" ≠ some vin ∨ vehicleData.string "owner_user_id" ≠ some ownerUserId
  then none else some vehicleData

/-- The dataset of the only user found, when that user is active. -/
def datasetOf (users : List Snapshot) : Option Str :=
  match users with
  | [user] => do
    let userData ← user.toDict
    let datasetId ← userData.string "dataset_id"
    if userData.string "status" = some (str "active") ∧ isDatasetId datasetId then some datasetId
    else none
  | _ => none

def optionalString (d : Document) (field : String) : Option Str :=
  (d.string field).filter (fun s => decide (s ≠ []))

def routeOf (ownerUserId datasetId vehicleId : Str) (vehicleData : Document) : VehicleRoute where
  userId := ownerUserId
  datasetId := datasetId
  vehicleId := vehicleId
  teslaVehicleId := optionalString vehicleData "tesla_vehicle_id"
  telemetryConfigVersion := optionalString vehicleData "telemetry_config_version"
  telemetryConfigHash := optionalString vehicleData "telemetry_config_hash"

/-- `FirestoreVehicleRegistry.resolve`. -/
def resolve (sha256Hex : Bytes → Str) (vin : Str) : Processing (Option VehicleRoute) := do
  let encoded ← ofPython (encodeUtf8 vin)
  let index ← perform (.getVinIndex (sha256Hex encoded))
  match indexTarget index with
  | none => return none
  | some (vehicleId,ownerUserId) => do
    let vehicle ← perform (.getVehicle vehicleId)
    match vehicleOf vehicle vin ownerUserId with
    | none => return none
    | some vehicleData => do
      let users ← perform (.queryAllowedUsers ownerUserId 2)
      return (datasetOf users).map
        (fun datasetId => routeOf ownerUserId datasetId vehicleId vehicleData)

end Registry

section Sink

/-- `^[A-Za-z0-9_.-]{1,80}$` -/
def isDiagnostic (s : Str) : Bool :=
  1 ≤ s.length ∧ s.length ≤ 80 ∧ s.all (fun c => decide ((65 ≤ c.val ∧ c.val ≤ 90) ∨
    (97 ≤ c.val ∧ c.val ≤ 122) ∨ (48 ≤ c.val ∧ c.val ≤ 57) ∨ c = chr '_' ∨ c = chr '.' ∨
    c = chr '-'))

def diagnosticOf : Json → Option Str
  | .obj detail =>
    match Dict.get detail (str "reason"),Dict.get detail (str "location") with
    | some (.str reason),location =>
      if !isDiagnostic reason then none
      else match location with
        | some (.str location) =>
          if isDiagnostic location then some (reason ++ str "@" ++ location) else some reason
        | _ => some reason
    | _,_ => none
  | _ => none

def rowDiagnostics (rowError : Dict Json) : List Str :=
  match rowError.get (str "errors") with
  | some (.arr details) => details.filterMap diagnosticOf
  | _ => []

/-- `_bigquery_rejection_category`: the reason codes, without row values. -/
def rejectionCategory (errors : List (Dict Json)) : Str :=
  let diagnostics := (errors.flatMap rowDiagnostics).dedup.mergeSort (fun a b => decide (a ≤ b))
  str "bigquery_append_rejected:" ++
    (if diagnostics = [] then str "unknown" else commaSeparated diagnostics)

/-- `insert_rows_json` of the append's row into its table. -/
def insertRows (a : Append) : Processing (List (Dict Json)) :=
  tryCatch (perform (.insertRowsJson a))
    (fun _ => throw (Exc.retryableProcessing (str "bigquery_append_failed")))

def append (a : Append) : Processing Unit := do
  let errors ← insertRows a
  if errors.isEmpty then return ()
  else throw (Exc.retryableProcessing (rejectionCategory errors))

end Sink

/-- `FirestoreFixtureRetryGate.should_fail_first`. -/
def shouldFailFirst (sha256Hex : Bytes → Str) (fixtureId : Str) (now : Utc) : Processing Bool := do
  let encoded ← ofPython (encodeUtf8 fixtureId)
  match utcOfMicros (now.val + dayMicros) with
  | none => throw (Exc.python .overflowError)
  | some expiresAt =>
    -- the answer says whether the document was created or existed already
    perform (.createFixtureRetry (sha256Hex encoded) fixtureId now expiresAt)

section Verifier

def isPushIdentity (expectedEmail : Str) (claims : Dict Json) : Bool :=
  (Document.string claims "iss" = some (str "accounts.google.com") ∨
    Document.string claims "iss" = some (str "https://accounts.google.com")) ∧
  Document.string claims "email" = some expectedEmail ∧
  (match claims.get (str "email_verified") with
    | some (.bool verified) => verified
    | _ => false) = true

/-- `GooglePushTokenVerifier.verify`. -/
def verify (audience expectedEmail : Str) (authorization : Option Str) : Processing Unit := do
  match authorization with
  | none => throw (Exc.python .valueError)
  | some authorization =>
    if authorization.take 7 ≠ str "Bearer " then throw (Exc.python .valueError)
    else
      let token := strip (authorization.drop 7)
      if token = [] then throw (Exc.python .valueError)
      else
        let claims ← perform (.verifyOauth2Token token audience)
        if isPushIdentity expectedEmail claims then return () else throw (Exc.python .valueError)

end Verifier

end Woodhouse.Ingest
