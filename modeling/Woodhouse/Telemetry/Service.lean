import Woodhouse.Gateway.Onboarding
import Woodhouse.Telemetry.Configurations

namespace Woodhouse.Telemetry
open Effects Python
open Gateway (Exc TelemetryConfigurationState VehicleRecord)

/-- An audit record of a configuration operation, 'attempted' until it is completed. -/
structure ConfigAudit where
  auditId : String
  timestamp : Int
  ownerUserId : String
  vehicleId : String
  operation : String
  desiredConfigHash : Option String
  source : String
  deriving DecidableEq

/-- The calls of a control-plane operation: the onboarding store and the credentials,
the registry, the audits, and Tesla's configuration endpoints. -/
inductive Call where
  | onboarding (call : Gateway.Call)
  | listVehicles (ownerUserId : String)
  | getTelemetryConfiguration (ownerUserId vehicleId : String)
  | updateTelemetry (vehicleId : String) (state : TelemetryConfigurationState)
  | beginTelemetryConfigAudit (record : ConfigAudit)
  | completeTelemetryConfigAudit (auditId result : String) (errorCategory : Option String)
  | configCreate (accessToken baseUrl vin : String) (config : FleetTelemetryConfig)
  | configDelete (accessToken baseUrl vin : String)
  | configGet (accessToken baseUrl vin : String)
  | telemetryErrors (accessToken baseUrl vin : String)
  | tokenHex (bytes : Nat)
  | sleep (milliseconds : Nat)

abbrev Call.Ret : Call → Type
  | .onboarding call => call.Ret
  | .listVehicles _ => List VehicleRecord
  | .getTelemetryConfiguration .. => TelemetryConfigurationState
  | .updateTelemetry .. => Unit
  | .beginTelemetryConfigAudit _ => Unit
  | .completeTelemetryConfigAudit .. => Unit
  | .configCreate .. => Dict Json
  | .configDelete .. => Unit
  | .configGet .. => Dict Json
  | .telemetryErrors .. => Json
  | .tokenHex _ => String
  | .sleep _ => Unit

abbrev Controlling (α : Type) := Prog Call Call.Ret Exc α

abbrev TelemetryEvent := Event Call Call.Ret Exc

def perform (c : Call) : Controlling c.Ret := Prog.perform c

/-- The onboarding service's part of an operation. -/
def onboarding {α : Type} (p : Gateway.Onboarding α) : Controlling α :=
  p.lift Call.onboarding (fun _ value => value) id id

/-- `PerUserTeslaClient.execute`, for the telemetry operations. -/
def execute {α : Type} (ownerUserId : String) (operation : String → String → Controlling α) :
    Controlling α :=
  Gateway.executeWith Exc.isReauthorization
    (fun forceRefresh => onboarding (Gateway.accessForUser ownerUserId forceRefresh none)) operation

def errorCategory : Exc → String
  | .telemetryConfiguration category _ => category
  | .crossUserAccess _ => "cross_user_access_denied"
  | .teslaReauthorizationRequired _ => "reauthorization_required"
  | .teslaApi category => category
  | e => if e.isTeslaOnboarding then "onboarding_error" else "unexpected_error"

/-- What the control service is built with. -/
structure Control where
  sha256Hex : Bytes → String
  loadPemCertificates : Bytes → Except Exc (List Certificate)
  reviewed : ReviewedProfile
  trust : ServerTrustProfile
  syncAttempts : Nat
  syncDelayMilliseconds : Nat
  attempts_valid : 1 ≤ syncAttempts ∧ syncAttempts ≤ 60
  delay_valid : syncDelayMilliseconds ≤ 30000

def requiredScopes : List String := ["vehicle_device_data","vehicle_location"]

/-- `except (UnicodeError, ValueError)` around Tesla's configuration. -/
def checkedConfiguration {α : Type} : Except Exc α → Except Exc α
  | .ok a => .ok a
  | .error e =>
    if e = valueError ∨ e = unicodeError then
      .error (.telemetryConfiguration "invalid_tesla_configuration"
        "Tesla returned an invalid telemetry configuration")
    else .error e

/-- `isinstance(skipped, (dict, list)) and skipped`. -/
def skipsVehicle (response : Dict Json) : Bool :=
  match response.get (str "skipped_vehicles") with
  | some (.arr items) => !items.isEmpty
  | some (.obj entries) => !entries.isEmpty
  | _ => false

def isSynced (response : Dict Json) : Bool :=
  match response.get (str "synced") with
  | some (.bool synced) => synced
  | _ => false

/-- `secrets.compare_digest` of two texts, which must be ASCII. -/
def compareDigest (a b : String) : Except Exc Bool :=
  if isAscii (str a) ∧ isAscii (str b) then .ok (decide (a = b)) else .error (.other "TypeError")

section Service
variable (control : Control)

def eligibleVehicle (ownerUserId vehicleId : String) : Controlling VehicleRecord := do
  let vehicle ← perform (.onboarding (.getVehicle ownerUserId vehicleId))
  if vehicle.authorizationStatus ≠ .active then
    throw (.telemetryConfiguration "vehicle_not_active" "Tesla no longer returns the selected vehicle")
  else if vehicle.virtualKeyStatus ≠ .paired then
    throw (.telemetryConfiguration "virtual_key_required"
      "Pair the application Virtual Key before configuration")
  else
    let connection ← perform (.onboarding (.getConnection ownerUserId))
    if requiredScopes.any (fun scope => scope ∉ connection.tokens.scopes) then
      throw (.telemetryConfiguration "missing_tesla_scope"
        "Reconnect Tesla with the required telemetry scopes")
    else return vehicle

/-- The profile of a `fleet_status` answer. -/
def profileOf (vin : String) (statuses : String → Option Gateway.FleetStatus) :
    Except Exc FleetTelemetryProfile :=
  match statuses vin with
  | none =>
    .error (.telemetryConfiguration "fleet_status_missing_vehicle"
      "Tesla fleet_status omitted the selected vehicle")
  | some status => do
    let supported ← supportsBroadProfile status.fleetTelemetryVersion
    if supported then broadProfile control.reviewed status.fleetTelemetryVersion
    else throw (.telemetryConfiguration "telemetry_client_upgrade_required"
      "The actual Fleet Telemetry client reported by Tesla must be 1.0.0 or later")

def capabilityProfile (ownerUserId : String) (vehicle : VehicleRecord) :
    Controlling FleetTelemetryProfile := do
  let statuses ← execute ownerUserId (fun accessToken baseUrl =>
    perform (.onboarding (.fleetStatus accessToken baseUrl [vehicle.vin])))
  Prog.ofExcept (profileOf control vehicle.vin statuses)

def desiredConfig (profile : FleetTelemetryProfile) : FleetTelemetryConfig :=
  control.trust.buildConfig profile

def desiredHash (profile : FleetTelemetryProfile) : String :=
  telemetryConfigHash control.sha256Hex profile control.trust

/-- How Tesla's answer compares to the desired configuration. -/
def compareAnswer (desired : FleetTelemetryConfig) (response : Dict Json) : Except Exc ConfigDiff := do
  let current ← checkedConfiguration (parseTeslaConfig response)
  checkedConfiguration (configDiff control.sha256Hex control.loadPemCertificates current desired)

/-- `_has_relevant_errors`, which reads the clock for a list. -/
def relevantErrors : Json → Controlling Bool
  | .arr items => do
    let now ← perform (.onboarding .utcNow)
    return hasRelevantErrors now (.arr items)
  | _ => return false

/-- One attempt of `_wait_until_synced`: whether Tesla confirmed the configuration. -/
def confirmOnce (ownerUserId vin : String) (desired : FleetTelemetryConfig) : Controlling Bool := do
  let response ← execute ownerUserId (fun accessToken baseUrl =>
    perform (.configGet accessToken baseUrl vin))
  let difference ← Prog.ofExcept (compareAnswer control desired response)
  if isSynced response ∧ difference.status = "in_sync" then
    let errors ← execute ownerUserId (fun accessToken baseUrl =>
      perform (.telemetryErrors accessToken baseUrl vin))
    let relevant ← relevantErrors errors
    if relevant then
      throw (.telemetryConfiguration "tesla_reported_errors"
        "Tesla reports telemetry configuration errors")
    else return true
  else return false

/-- The attempts of `_wait_until_synced` still to make. -/
def waitUntilSynced (ownerUserId vin : String) (desired : FleetTelemetryConfig) :
    (left : Nat) → Controlling Unit
  | 0 => throw (.telemetryConfiguration "sync_timeout"
      "Tesla did not report the expected synchronized configuration")
  | left + 1 => do
    let confirmed ← confirmOnce control ownerUserId vin desired
    if confirmed then return ()
    else if left = 0 then waitUntilSynced ownerUserId vin desired left
    else do
      perform (.sleep control.syncDelayMilliseconds)
      waitUntilSynced ownerUserId vin desired left

def beginAudit (ownerUserId vehicleId operation : String) (desiredHash : Option String)
    (source : String) : Controlling String := do
  let token ← perform (.tokenHex 16)
  let timestamp ← perform (.onboarding .utcNow)
  let auditId := "tca_" ++ token
  perform (.beginTelemetryConfigAudit
    { auditId, timestamp, ownerUserId, vehicleId, operation, desiredConfigHash := desiredHash, source })
  return auditId

def completeAudit (auditId result : String) (category : Option String) : Controlling Unit :=
  perform (.completeTelemetryConfigAudit auditId result category)

/-- `save_telemetry_configuration`: the check of the owner, and the update. -/
def saveTelemetryConfiguration (ownerUserId vehicleId : String) (state : TelemetryConfigurationState) :
    Controlling Unit := do
  let _ ← perform (.onboarding (.getVehicle ownerUserId vehicleId))
  perform (.updateTelemetry vehicleId state)

/-- `try: p except Exception as error: complete "failed"; raise`, and 'succeeded' after it. -/
def audited (auditId : String) (p : Controlling Unit) : Controlling Unit := do
  tryCatch p fun e => do
    completeAudit auditId "failed" (some (errorCategory e))
    throw e
  completeAudit auditId "succeeded" none

def syncedState (vehicleId : String) (profile : FleetTelemetryProfile)
    (transportMaintenanceOptIn : Bool) : TelemetryConfigurationState :=
  { vehicleId
    profileVersion := some profile.version
    configHash := some (desiredHash control profile)
    fieldConfigHash := some (profile.fieldConfigHash control.sha256Hex)
    trustProfileId := some control.trust.profileId
    trustProfileHash := some control.trust.caHash
    status := "synced"
    transportMaintenanceOptIn }

/-- The last part of `apply` and of `verify`. -/
def confirmAndSave (ownerUserId : String) (vehicle : VehicleRecord) (vehicleId : String)
    (profile : FleetTelemetryProfile) (transportMaintenanceOptIn : Bool) : Controlling Unit := do
  waitUntilSynced control ownerUserId vehicle.vin (desiredConfig control profile) control.syncAttempts
  saveTelemetryConfiguration ownerUserId vehicleId
    (syncedState control vehicleId profile transportMaintenanceOptIn)

/-- The signed create request of `apply`. -/
def createConfiguration (ownerUserId : String) (vehicle : VehicleRecord)
    (config : FleetTelemetryConfig) : Controlling Unit := do
  let response ← execute ownerUserId (fun accessToken baseUrl =>
    perform (.configCreate accessToken baseUrl vehicle.vin config))
  if skipsVehicle response then
    throw (.telemetryConfiguration "vehicle_skipped"
      "Tesla did not accept the selected vehicle configuration")
  else return ()

/-- The reply of an operation on one vehicle, without Tesla's error summary. -/
structure OperationResult where
  status : String
  vehicleId : String
  configHash : Option String := none
  deriving DecidableEq

def applyConfig (userId vehicleId expectedConfigHash : String) (confirm : Bool)
    (transportMaintenanceOptIn : Bool := false) (source : String := "operator-onboarding") :
    Controlling OperationResult := do
  if confirm = false then
    throw (.telemetryConfiguration "confirmation_required"
      "Explicit vehicle configuration approval is required")
  else
    let vehicle ← eligibleVehicle userId vehicleId
    let profile ← capabilityProfile control userId vehicle
    let unchanged ← Prog.ofExcept (compareDigest expectedConfigHash (desiredHash control profile))
    if unchanged = false then
      throw (.telemetryConfiguration "stale_plan"
        "The telemetry plan changed; inspect it again before applying")
    else
      let auditId ← beginAudit userId vehicleId "apply" (some (desiredHash control profile)) source
      audited auditId (do
        createConfiguration userId vehicle (desiredConfig control profile)
        confirmAndSave control userId vehicle vehicleId profile transportMaintenanceOptIn)
      return { status := "synced", vehicleId, configHash := some (desiredHash control profile) }

def verify (userId vehicleId : String) : Controlling OperationResult := do
  let vehicle ← eligibleVehicle userId vehicleId
  let profile ← capabilityProfile control userId vehicle
  let prior ← perform (.getTelemetryConfiguration userId vehicleId)
  let auditId ← beginAudit userId vehicleId "verify" (some (desiredHash control profile))
    "operator-verify"
  audited auditId
    (confirmAndSave control userId vehicle vehicleId profile prior.transportMaintenanceOptIn)
  return { status := "verified", vehicleId, configHash := some (desiredHash control profile) }

def remove (userId vehicleId : String) (confirm : Bool) (source : String := "operator-onboarding") :
    Controlling OperationResult := do
  if confirm = false then
    throw (.telemetryConfiguration "confirmation_required"
      "Explicit telemetry removal approval is required")
  else
    let vehicle ← eligibleVehicle userId vehicleId
    let auditId ← beginAudit userId vehicleId "remove" none source
    audited auditId (do
      execute userId (fun accessToken baseUrl => perform (.configDelete accessToken baseUrl vehicle.vin))
      saveTelemetryConfiguration userId vehicleId { vehicleId, status := "removed" })
    return { status := "removed", vehicleId }

def repair (userId vehicleId expectedConfigHash : String) (confirm : Bool) :
    Controlling OperationResult := do
  let state ← perform (.getTelemetryConfiguration userId vehicleId)
  applyConfig control userId vehicleId expectedConfigHash confirm state.transportMaintenanceOptIn
    "operator-repair"

/-- One entry of a reconciliation's `vehicles`. -/
inductive VehicleResult where
  | applied (result : OperationResult)
  | optInRequired (vehicleId : String)
  | fieldDriftBlocked (vehicleId : String)
  | failed (vehicleId errorCategory : String)
  deriving DecidableEq

def VehicleResult.vehicleId : VehicleResult → String
  | .applied result => result.vehicleId
  | .optInRequired vehicleId | .fieldDriftBlocked vehicleId | .failed vehicleId _ => vehicleId

def VehicleResult.status : VehicleResult → String
  | .applied result => result.status
  | .optInRequired _ => "opt_in_required"
  | .fieldDriftBlocked _ => "field_drift_blocked"
  | .failed .. => "failed"

/-- `except (CrossUserAccessError, TeslaOnboardingError, TeslaReauthorizationRequired): raise`. -/
def abortsReconciliation : Exc → Bool
  | .crossUserAccess _ => true
  | e => e.isTeslaOnboarding || e.isReauthorization

/-- The `try` of the loop: the apply of one vehicle. -/
def reapply (userId : String) (vehicle : VehicleRecord) (expectedConfigHash : String) :
    Controlling VehicleResult :=
  tryCatch
    (do
      let result ← applyConfig control userId vehicle.vehicleId expectedConfigHash true true
        "transport-reconciler"
      return .applied result)
    fun e =>
      if abortsReconciliation e then throw e
      else pure (.failed vehicle.vehicleId (errorCategory e))

/-- The loop body for one vehicle. -/
def reconcileVehicle (userId : String) (vehicle : VehicleRecord) : Controlling VehicleResult := do
  let state ← perform (.getTelemetryConfiguration userId vehicle.vehicleId)
  let profile ← capabilityProfile control userId vehicle
  if state.transportMaintenanceOptIn = false then return .optInRequired vehicle.vehicleId
  else if state.fieldConfigHash ≠ some (profile.fieldConfigHash control.sha256Hex) then
    return .fieldDriftBlocked vehicle.vehicleId
  else reapply control userId vehicle (desiredHash control profile)

/-- The iterations after the canary. -/
def reconcileOthers (userId : String) : List VehicleRecord → Controlling (List VehicleResult)
  | [] => return []
  | vehicle :: rest => do
    let result ← reconcileVehicle control userId vehicle
    let results ← reconcileOthers userId rest
    return result :: results

def reconcileOrdered (userId : String) (canary : VehicleRecord) (others : List VehicleRecord) :
    Controlling (List VehicleResult) := do
  let result ← reconcileVehicle control userId canary
  match result with
  | .applied _ => do
    let results ← reconcileOthers control userId others
    return result :: results
  | _ => return [result]

structure Reconciliation where
  status : String
  trustProfileId : String
  trustProfileHash : String
  vehicles : List VehicleResult
  deriving DecidableEq

def reconciliationOf (ordered : List VehicleRecord) (results : List VehicleResult) : Reconciliation :=
  let ready := results.length = ordered.length ∧ results.all (fun result => result.status = "synced")
  { status := if ready then "ready_for_server_cutover" else "blocked"
    trustProfileId := control.trust.profileId
    trustProfileHash := control.trust.caHash
    vehicles := results }

/-- `selected[canary_vehicle_id]` of `{vehicle.vehicle_id: vehicle for vehicle in vehicles}`. -/
def selectedVehicle (vehicles : List VehicleRecord) (vehicleId : String) : Option VehicleRecord :=
  vehicles.reverse.find? (fun vehicle => vehicle.vehicleId = vehicleId)

def reconcileOptedInTransport (userId canaryVehicleId : String) : Controlling Reconciliation := do
  let listed ← perform (.listVehicles userId)
  let vehicles := listed.filter (fun vehicle => vehicle.authorizationStatus = .active)
  match selectedVehicle vehicles canaryVehicleId with
  | none => throw (.telemetryConfiguration "invalid_canary" "Canary vehicle is not eligible")
  | some canary =>
    let others := vehicles.filter (fun vehicle => vehicle.vehicleId ≠ canaryVehicleId)
    let results ← reconcileOrdered control userId canary others
    return reconciliationOf control (canary :: others) results

end Service

end Woodhouse.Telemetry
