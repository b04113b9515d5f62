import Woodhouse.Commands.Fleet
import Woodhouse.Transport.Queries

namespace Woodhouse.Transport
open Identity Paths

/-- Where a client method sends its requests, given a VIN and a second identifier. -/
inductive Target where
  | fixed (path : String)
  | vehicle (suffix : Option String)
  | invitation
  | invoice
  | command (name : String)
  deriving DecidableEq

def Target.path (vin id : String) : Target → Except Exc String
  | .fixed path => .ok path
  | .vehicle suffix => vehiclePath vin suffix
  | .invitation => shareInviteRevokePath vin id
  | .invoice => chargingInvoicePath id
  | .command name => commandPath vin name

/-- A method of the Fleet client. -/
structure FleetCall where
  name : String
  verb : String
  target : Target
  deriving DecidableEq

/-- The methods that the Fleet client defines itself. -/
def clientCalls : List FleetCall :=
  [⟨"feature_config","GET",.fixed "/api/1/users/feature_config"⟩,
   ⟨"me","GET",.fixed "/api/1/users/me"⟩,
   ⟨"orders","GET",.fixed "/api/1/users/orders"⟩,
   ⟨"region","GET",.fixed "/api/1/users/region"⟩,
   ⟨"drivers","GET",.vehicle (some "drivers")⟩,
   ⟨"drivers_remove","DELETE",.vehicle (some "drivers")⟩,
   ⟨"fleet_status","POST",.fixed "/api/1/vehicles/fleet_status"⟩,
   ⟨"fleet_telemetry_config_create","POST",.fixed "/api/1/vehicles/fleet_telemetry_config"⟩,
   ⟨"fleet_telemetry_config_delete","DELETE",.vehicle (some "fleet_telemetry_config")⟩,
   ⟨"fleet_telemetry_config_get","GET",.vehicle (some "fleet_telemetry_config")⟩,
   ⟨"fleet_telemetry_config_jws","POST",.fixed "/api/1/vehicles/fleet_telemetry_config_jws"⟩,
   ⟨"fleet_telemetry_errors","GET",.vehicle (some "fleet_telemetry_errors")⟩,
   ⟨"list_vehicles","GET",.fixed "/api/1/vehicles"⟩,
   ⟨"mobile_enabled","GET",.vehicle (some "mobile_enabled")⟩,
   ⟨"nearby_charging_sites","GET",.vehicle (some "nearby_charging_sites")⟩,
   ⟨"recent_alerts","GET",.vehicle (some "recent_alerts")⟩,
   ⟨"release_notes","GET",.vehicle (some "release_notes")⟩,
   ⟨"service_data","GET",.vehicle (some "service_data")⟩,
   ⟨"share_invites","GET",.vehicle (some "invitations")⟩,
   ⟨"share_invites_create","POST",.vehicle (some "invitations")⟩,
   ⟨"share_invites_redeem","POST",.fixed "/api/1/invitations/redeem"⟩,
   ⟨"share_invites_revoke","POST",.invitation⟩,
   ⟨"signed_command","POST",.vehicle (some "signed_command")⟩,
   ⟨"vehicle","GET",.vehicle none⟩,
   ⟨"vehicle_data","GET",.vehicle (some "vehicle_data")⟩,
   ⟨"wake_up","POST",.vehicle (some "wake_up")⟩,
   ⟨"charging_history","GET",.fixed "/api/1/dx/charging/history"⟩,
   ⟨"charging_invoice","GET",.invoice⟩]

/-- A method of `VehicleCommands`, all of which go through `_command`. -/
def commandCall (name : String) : FleetCall := ⟨name,"POST",.command name⟩

def fleetCalls : List FleetCall := clientCalls ++ Commands.commandNames.map commandCall

/-- The paths of the requests that name no resource of the caller's. -/
def fixedPaths : List String :=
  ["/api/1/users/feature_config","/api/1/users/me","/api/1/users/orders","/api/1/users/region",
   "/api/1/vehicles/fleet_status","/api/1/vehicles/fleet_telemetry_config",
   "/api/1/vehicles/fleet_telemetry_config_jws","/api/1/vehicles","/api/1/invitations/redeem",
   "/api/1/dx/charging/history"]

/-- The target is one that the client has. -/
def Target.Fixed : Target → Prop
  | .fixed path => path ∈ fixedPaths
  | .vehicle (some suffix) => suffix ∈ vehicleSuffixes
  | .command name => name ∈ Commands.commandNames
  | _ => True

instance : (t : Target) → Decidable t.Fixed
  | .fixed _ => inferInstanceAs (Decidable (_ ∈ _))
  | .vehicle (some _) => inferInstanceAs (Decidable (_ ∈ _))
  | .vehicle none => isTrue trivial
  | .invitation => isTrue trivial
  | .invoice => isTrue trivial
  | .command _ => inferInstanceAs (Decidable (_ ∈ _))

theorem clientCalls_fixed : ∀ call ∈ clientCalls, call.target.Fixed := by decide

theorem fleetCalls_fixed : ∀ call ∈ fleetCalls, call.target.Fixed := by
  intro call hcall
  rcases List.mem_append.mp hcall with h | h
  · exact clientCalls_fixed call h
  · obtain ⟨name,hname,rfl⟩ := List.mem_map.mp h
    exact hname

end Woodhouse.Transport
