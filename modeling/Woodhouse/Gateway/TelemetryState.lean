import Woodhouse.Gateway.Store

namespace Woodhouse.Gateway

structure TelemetryConfigurationState where
  vehicleId : String
  profileVersion : Option String := none
  configHash : Option String := none
  fieldConfigHash : Option String := none
  trustProfileId : Option String := none
  trustProfileHash : Option String := none
  status : String := "not_configured"
  transportMaintenanceOptIn : Bool := false
  deriving DecidableEq

/-- The fields of the vehicle document that a save writes. -/
def TelemetryConfigurationState.fields (state : TelemetryConfigurationState) : TelemetryFields :=
  { configVersion := state.profileVersion
    configHash := state.configHash
    fieldConfigHash := state.fieldConfigHash
    trustProfileId := state.trustProfileId
    trustProfileHash := state.trustProfileHash
    configStatus := state.status
    transportMaintenanceOptIn := state.transportMaintenanceOptIn }

def TelemetryFields.state (fields : TelemetryFields) (vehicleId : String) :
    TelemetryConfigurationState :=
  { vehicleId
    profileVersion := fields.configVersion
    configHash := fields.configHash
    fieldConfigHash := fields.fieldConfigHash
    trustProfileId := fields.trustProfileId
    trustProfileHash := fields.trustProfileHash
    status := fields.configStatus
    transportMaintenanceOptIn := fields.transportMaintenanceOptIn }

namespace Database
variable (db : Database)

def getTelemetryConfiguration (ownerUserId vehicleId : String) :
    Except Exc TelemetryConfigurationState :=
  match db.vehicles vehicleId with
  | none => .error (.teslaOnboarding "Vehicle does not exist")
  | some data =>
    match requireVehicleOwner (vehicleFromData vehicleId data) ownerUserId with
    | .error e => .error e
    | .ok () => .ok (data.telemetry.state vehicleId)

/-- The update of `save_telemetry_configuration`; its check before is the read of
`get_vehicle`, and the two are not one transaction. -/
def updateTelemetry (vehicleId : String) (state : TelemetryConfigurationState) :
    Except Exc Database :=
  match db.vehicles vehicleId with
  | none => .error (.other "NotFound")
  | some data => .ok (db.setVehicle vehicleId { data with telemetry := state.fields })

/-- `list_vehicles`, over the ids of the documents the query streams. -/
def listVehicles (ownerUserId : String) (vehicleIds : List String) : List VehicleRecord :=
  vehicleIds.filterMap (fun vehicleId =>
    (db.vehicles vehicleId).bind (fun data =>
      if data.ownerUserId = ownerUserId then some (vehicleFromData vehicleId data) else none))

end Database

@[simp] theorem state_fields (fields : TelemetryFields) (vehicleId : String) :
    (fields.state vehicleId).fields = fields := rfl

end Woodhouse.Gateway
