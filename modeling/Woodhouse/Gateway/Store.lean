import Woodhouse.Gateway.Models

namespace Woodhouse.Gateway

variable (sha256Hex : String → String)

def stableVehicleId (ownerUserId vin : String) : String :=
  "veh_" ++ (sha256Hex (ownerUserId ++ "\x00" ++ vin)).take 32

namespace Database
variable (db : Database)

def setConnection (owner : String) (doc : ConnectionDocument) : Database :=
  { db with connections := Function.update db.connections owner (some doc) }

def setVehicle (vehicleId : String) (doc : VehicleDocument) : Database :=
  { db with vehicles := Function.update db.vehicles vehicleId (some doc) }

@[simp] theorem setConnection_self (owner : String) (doc : ConnectionDocument) :
    (db.setConnection owner doc).connections owner = some doc := by
  simp [setConnection]

@[simp] theorem setVehicle_connections (vehicleId : String) (doc : VehicleDocument) :
    (db.setVehicle vehicleId doc).connections = db.connections := rfl

/-- Raising inside the transaction leaves the state document in place. -/
def consumeState (state : String) (now : Int) :
    Except Exc (PendingAuthorization × Database) :=
  if state = "" then .error (.invalidOAuthState "Tesla OAuth state is missing")
  else
    match db.oauthStates (sha256Hex state) with
    | none => .error (.invalidOAuthState "Tesla OAuth state is invalid or already used")
    | some data =>
      if (data.completionMode = .browser ∧ data.browserSessionBinding = none) ∨
          (data.completionMode = .api ∧ data.browserSessionBinding ≠ none) then
        .error (.invalidOAuthState "Tesla OAuth state is invalid")
      else if data.expiresAt ≤ now then
        .error (.invalidOAuthState "Tesla OAuth state has expired")
      else
        .ok (data, { db with oauthStates := Function.update db.oauthStates (sha256Hex state) none })

def connectionFromData (ownerUserId : String) (data : ConnectionDocument) :
    Except Exc TeslaConnection :=
  if data.ownerUserId ≠ ownerUserId then
    .error (.teslaOnboarding "Tesla connection ownership is inconsistent")
  else
    .ok { connectionId := data.connectionId
          ownerUserId := ownerUserId
          tokens := data.encryptedTokens
          tokenVersion := data.tokenVersion
          region := data.region
          baseUrl := data.baseUrl
          status := data.status }

def getConnection (ownerUserId : String) : Except Exc TeslaConnection :=
  match db.connections ownerUserId with
  | none => .error (.teslaOnboarding "Tesla connection is not configured")
  | some data => connectionFromData ownerUserId data

/-- `freshId` is the random `conn_…` id used when the user has no connection yet. -/
def saveConnection (ownerUserId : String) (tokens : TokenSet) (baseUrl freshId : String) :
    TeslaConnection × Database :=
  let existing := db.connections ownerUserId
  let connectionId :=
    match existing with
    | some data => if data.connectionId ≠ "" then data.connectionId else freshId
    | none => freshId
  let version :=
    match existing with
    | some data => data.tokenVersion + 1
    | none => 1
  ({ connectionId, ownerUserId, tokens, tokenVersion := version, region := none, baseUrl,
     status := .discoveryPending },
   db.setConnection ownerUserId
    { connectionId, ownerUserId, encryptedTokens := tokens, tokenVersion := version,
      accessTokenExpiresAt := tokens.expiresAt, grantedScopes := tokens.scopes,
      teslaSubject := tokens.teslaSubject, baseUrl, region := none,
      status := .discoveryPending })

/-- The update of `complete_connection`; its answer is a separate read. -/
def updateCompleted (ownerUserId region baseUrl : String) : Except Exc Database :=
  match db.connections ownerUserId with
  | none => .error (.other "NotFound")
  | some data =>
    .ok (db.setConnection ownerUserId { data with region := some region, baseUrl, status := .connected })

def markReauthorizationRequired (ownerUserId : String) : Except Exc Database :=
  match db.connections ownerUserId with
  | none => .error (.other "NotFound")
  | some data => .ok (db.setConnection ownerUserId { data with status := .reauthorizationRequired })

def rotateTokens (ownerUserId : String) (expectedVersion : Nat) (tokens : TokenSet) :
    Except Exc (TeslaConnection × Database) :=
  match db.connections ownerUserId with
  | none => .error (.teslaOnboarding "Tesla connection is not configured")
  | some data =>
    if data.tokenVersion ≠ expectedVersion then
      .error (.concurrentTokenRotation "Tesla token was already rotated")
    else if data.ownerUserId ≠ ownerUserId then
      .error (.teslaOnboarding "Tesla connection ownership is inconsistent")
    else
      let updated :=
        { data with
          encryptedTokens := tokens
          tokenVersion := expectedVersion + 1
          accessTokenExpiresAt := tokens.expiresAt
          grantedScopes := tokens.scopes
          status := .connected }
      match connectionFromData ownerUserId updated with
      | .error e => .error e
      | .ok connection => .ok (connection, db.setConnection ownerUserId updated)

def vehicleFromData (vehicleId : String) (data : VehicleDocument) : VehicleRecord :=
  { vehicleId
    ownerUserId := data.ownerUserId
    connectionId := data.connectionId
    vin := data.vin
    teslaVehicleId := data.teslaVehicleId
    displayName := data.displayName
    state := data.state
    authorizationStatus := data.authorizationStatus
    virtualKeyStatus := data.virtualKeyStatus
    commandProtocolRequired := data.vehicleCommandProtocolRequired
    firmwareVersion := data.firmwareVersion
    fleetTelemetryVersion := data.fleetTelemetryVersion
    totalNumberOfKeys := data.totalNumberOfKeys }

def requireVehicleOwner (record : VehicleRecord) (ownerUserId : String) : Except Exc Unit :=
  if record.ownerUserId ≠ ownerUserId then
    .error (.crossUserAccess "Vehicle is outside the authenticated user boundary")
  else if record.authorizationStatus ≠ .active then
    .error (.teslaOnboarding "Vehicle is no longer returned by the Tesla connection")
  else .ok ()

def getVehicle (ownerUserId vehicleId : String) : Except Exc VehicleRecord :=
  match db.vehicles vehicleId with
  | none => .error (.teslaOnboarding "Vehicle does not exist")
  | some data =>
    match requireVehicleOwner (vehicleFromData vehicleId data) ownerUserId with
    | .error e => .error e
    | .ok () => .ok (vehicleFromData vehicleId data)

def updateFleetStatus (ownerUserId vehicleId : String) (status : FleetStatus) :
    Except Exc (VehicleRecord × Database) :=
  match db.vehicles vehicleId with
  | none => .error (.teslaOnboarding "Vehicle does not exist")
  | some data =>
    match requireVehicleOwner (vehicleFromData vehicleId data) ownerUserId with
    | .error e => .error e
    | .ok () =>
      if data.vin ≠ status.vin then
        .error (.crossUserAccess "Tesla fleet status does not match selected vehicle")
      else
        let updated :=
          { data with
            virtualKeyStatus := Gateway.virtualKeyStatus (some status)
            vehicleCommandProtocolRequired := status.vehicleCommandProtocolRequired
            firmwareVersion := status.firmwareVersion
            fleetTelemetryVersion := status.fleetTelemetryVersion
            totalNumberOfKeys := status.totalNumberOfKeys }
        .ok (vehicleFromData vehicleId updated, db.setVehicle vehicleId updated)

/-- The id a listed vehicle is stored under, read from the VIN index before any
write of the transaction. -/
def resolveVehicleId (ownerUserId vin : String) : Except Exc String :=
  match db.vinIndex (sha256Hex vin) with
  | none => .ok (stableVehicleId sha256Hex ownerUserId vin)
  | some data =>
    if data.ownerUserId ≠ ownerUserId then
      .error (.vehicleOwnershipConflict "Tesla vehicle is already bound to another platform user")
    else if data.vehicleId = "" then
      .error (.teslaOnboarding "VIN ownership index is invalid")
    else .ok data.vehicleId

def syncedRecord (ownerUserId connectionId vehicleId : String) (vehicle : TeslaVehicle)
    (status : Option FleetStatus) : VehicleRecord :=
  { vehicleId, ownerUserId, connectionId
    vin := vehicle.vin
    teslaVehicleId := vehicle.teslaVehicleId
    displayName := vehicle.displayName
    state := vehicle.state
    authorizationStatus := .active
    virtualKeyStatus := Gateway.virtualKeyStatus status
    commandProtocolRequired := status.bind FleetStatus.vehicleCommandProtocolRequired
    firmwareVersion := status.bind FleetStatus.firmwareVersion
    fleetTelemetryVersion := status.bind FleetStatus.fleetTelemetryVersion
    totalNumberOfKeys := status.bind FleetStatus.totalNumberOfKeys }

/-- `transaction.set(…, merge=True)`: the telemetry fields are not in the written map. -/
def mergeRecord (old : Option VehicleDocument) (record : VehicleRecord) : VehicleDocument :=
  { ownerUserId := record.ownerUserId
    connectionId := record.connectionId
    vin := record.vin
    teslaVehicleId := record.teslaVehicleId
    displayName := record.displayName
    state := record.state
    authorizationStatus := record.authorizationStatus
    virtualKeyStatus := record.virtualKeyStatus
    vehicleCommandProtocolRequired := record.commandProtocolRequired
    firmwareVersion := record.firmwareVersion
    fleetTelemetryVersion := record.fleetTelemetryVersion
    totalNumberOfKeys := record.totalNumberOfKeys
    telemetry := (old.map VehicleDocument.telemetry).getD {} }

/-- The two writes for one listed vehicle. -/
def bindVehicle (written : Database) (record : VehicleRecord) : Database :=
  { written with
    vinIndex := Function.update written.vinIndex (sha256Hex record.vin)
      (some { ownerUserId := record.ownerUserId, vehicleId := record.vehicleId })
    vehicles := Function.update written.vehicles record.vehicleId
      (some (mergeRecord (written.vehicles record.vehicleId) record)) }

/-- The records of the listed vehicles, or the first conflict. -/
def syncRecords (ownerUserId connectionId : String) (statuses : String → Option FleetStatus) :
    List TeslaVehicle → Except Exc (List VehicleRecord)
  | [] => .ok []
  | vehicle :: rest =>
    match resolveVehicleId sha256Hex db ownerUserId vehicle.vin with
    | .error e => .error e
    | .ok vehicleId =>
      match syncRecords ownerUserId connectionId statuses rest with
      | .error e => .error e
      | .ok records =>
        .ok (syncedRecord ownerUserId connectionId vehicleId vehicle (statuses vehicle.vin) :: records)

/-- The last loop of `_sync_vehicles`: the user's documents of this connection that
the listing did not return. -/
def markNotReturned (ownerUserId connectionId : String) (active : List String)
    (written : Database) : Database :=
  { written with
    vehicles := fun vehicleId =>
      match db.vehicles vehicleId with
      | none => written.vehicles vehicleId
      | some data =>
        if data.ownerUserId = ownerUserId ∧ vehicleId ∉ active ∧ data.connectionId = connectionId then
          (written.vehicles vehicleId).map (fun doc => { doc with authorizationStatus := .notReturned })
        else written.vehicles vehicleId }

def syncVehicles (ownerUserId connectionId : String) (vehicles : List TeslaVehicle)
    (statuses : String → Option FleetStatus) : Except Exc (List VehicleRecord × Database) :=
  match syncRecords sha256Hex db ownerUserId connectionId statuses vehicles with
  | .error e => .error e
  | .ok records =>
    .ok (records,
      db.markNotReturned ownerUserId connectionId (records.map VehicleRecord.vehicleId)
        (records.foldl (bindVehicle sha256Hex) db))

end Database

end Woodhouse.Gateway
