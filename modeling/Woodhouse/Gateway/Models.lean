import Mathlib.Logic.Function.Basic

namespace Woodhouse.Gateway

/-- The exception classes the gateway tells apart, with their safe texts. -/
inductive Exc where
  | teslaOnboarding (message : String)
  | invalidOAuthState (message : String)
  | concurrentTokenRotation (message : String)
  | vehicleOwnershipConflict (message : String)
  | crossUserAccess (message : String)
  | teslaReauthorizationRequired (message : String)
  | teslaApi (category : String)
  | telemetryConfiguration (category message : String)
  | other (name : String)
  deriving DecidableEq

/-- The classes below `TeslaOnboardingError`. -/
def Exc.isTeslaOnboarding : Exc → Bool
  | .teslaOnboarding _ | .invalidOAuthState _ | .concurrentTokenRotation _
  | .vehicleOwnershipConflict _ => true
  | _ => false

def Exc.isReauthorization : Exc → Bool
  | .teslaReauthorizationRequired _ => true
  | _ => false

/-- Times are microseconds of the UTC clock. -/
structure TokenSet where
  accessToken : String
  refreshToken : String
  expiresAt : Int
  scopes : List String
  teslaSubject : String
  deriving DecidableEq

structure TeslaRegion where
  region : String
  baseUrl : String
  deriving DecidableEq

structure TeslaVehicle where
  vin : String
  teslaVehicleId : String
  displayName : Option String
  state : Option String
  deriving DecidableEq

structure FleetStatus where
  vin : String
  keyPaired : Option Bool
  vehicleCommandProtocolRequired : Option Bool
  firmwareVersion : Option String
  fleetTelemetryVersion : Option String
  totalNumberOfKeys : Option Int
  deriving DecidableEq

inductive CompletionMode where
  | api
  | browser
  deriving DecidableEq

structure PendingAuthorization where
  ownerUserId : String
  nonce : String
  expiresAt : Int
  completionMode : CompletionMode := .api
  browserSessionBinding : Option String := none
  deriving DecidableEq

inductive ConnectionStatus where
  | discoveryPending
  | connected
  | reauthorizationRequired
  deriving DecidableEq

structure TeslaConnection where
  connectionId : String
  ownerUserId : String
  tokens : TokenSet
  tokenVersion : Nat
  region : Option String
  baseUrl : String
  status : ConnectionStatus
  deriving DecidableEq

inductive AuthorizationStatus where
  | active
  | notReturned
  deriving DecidableEq

inductive VirtualKeyStatus where
  | unknown
  | paired
  | pending
  deriving DecidableEq

structure VehicleRecord where
  vehicleId : String
  ownerUserId : String
  connectionId : String
  vin : String
  teslaVehicleId : String
  displayName : Option String
  state : Option String
  authorizationStatus : AuthorizationStatus
  virtualKeyStatus : VirtualKeyStatus
  commandProtocolRequired : Option Bool
  firmwareVersion : Option String
  fleetTelemetryVersion : Option String
  totalNumberOfKeys : Option Int
  deriving DecidableEq

def virtualKeyStatus : Option FleetStatus → VirtualKeyStatus
  | none => .unknown
  | some status =>
    match status.keyPaired with
    | none => .unknown
    | some true => .paired
    | some false => .pending

/-- `tesla_connections/{user_id}`. The ciphertext is represented by the token
set it decrypts to. -/
structure ConnectionDocument where
  connectionId : String
  ownerUserId : String
  encryptedTokens : TokenSet
  tokenVersion : Nat
  accessTokenExpiresAt : Int
  grantedScopes : List String
  teslaSubject : String
  baseUrl : String
  region : Option String
  status : ConnectionStatus
  deriving DecidableEq

/-- The telemetry configuration fields of a vehicle document; a document that
never had them reads as the defaults. -/
structure TelemetryFields where
  configVersion : Option String := none
  configHash : Option String := none
  fieldConfigHash : Option String := none
  trustProfileId : Option String := none
  trustProfileHash : Option String := none
  configStatus : String := "not_configured"
  transportMaintenanceOptIn : Bool := false
  deriving DecidableEq

/-- `vehicles/{vehicle_id}`. -/
structure VehicleDocument where
  ownerUserId : String
  connectionId : String
  vin : String
  teslaVehicleId : String
  displayName : Option String
  state : Option String
  authorizationStatus : AuthorizationStatus
  virtualKeyStatus : VirtualKeyStatus
  vehicleCommandProtocolRequired : Option Bool
  firmwareVersion : Option String
  fleetTelemetryVersion : Option String
  totalNumberOfKeys : Option Int
  telemetry : TelemetryFields := {}
  deriving DecidableEq

/-- `vehicle_vin_index/{sha256(vin)}`. -/
structure VinIndexDocument where
  ownerUserId : String
  vehicleId : String
  deriving DecidableEq

/-- The collections of the onboarding store, by document id. -/
structure Database where
  oauthStates : String → Option PendingAuthorization
  connections : String → Option ConnectionDocument
  vehicles : String → Option VehicleDocument
  vinIndex : String → Option VinIndexDocument

end Woodhouse.Gateway
