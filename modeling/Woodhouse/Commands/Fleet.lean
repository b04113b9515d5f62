import Woodhouse.Commands.Tools
import Woodhouse.Paths.Quoting

namespace Woodhouse.Commands
open Effects

inductive Endpoint where
  | vehicle
  | wakeUp
  | command (name : String)
  deriving DecidableEq

/-- Where a client's transport sends its requests. -/
inductive Destination where
  | teslaFleetApi
  | vehicleCommandProxy
  deriving DecidableEq

/-- One request to `{base_url}/api/1/vehicles/{vin}…`; `vin` is the quoted part of its path. -/
structure HttpRequest where
  destination : Destination
  endpoint : Endpoint
  baseUrl : String
  vin : String
  accessToken : String
  jsonBody : Option Fields

/-- A response; `json` is what its body decodes to, `none` when it does not decode. -/
structure HttpResponse where
  status : Int
  json : Option Value

structure AuditRecord where
  auditId : String
  timestamp : Int
  ownerUserId : String
  vehicleId : String
  toolName : String
  redactedParameters : Fields
  correlationId : String
  source : String

/-- The calls of a tool call: the store, the credentials, the audits, the random
tokens, the clock, and the HTTP requests to Tesla. -/
inductive Call where
  | onboarding (call : Gateway.Call)
  | listStoredVehicles (ownerUserId : String)
  | tokenHex (bytes : Nat)
  | beginCommandAudit (record : AuditRecord)
  | completeCommandAudit (auditId result : String) (errorCategory : Option String)
  | httpRequest (request : HttpRequest)
  | sleep (milliseconds : Nat)

abbrev Call.Ret : Call → Type
  | .onboarding call => call.Ret
  | .listStoredVehicles _ => List Gateway.VehicleRecord
  | .tokenHex _ => String
  | .beginCommandAudit _ => Unit
  | .completeCommandAudit .. => Unit
  | .httpRequest _ => HttpResponse
  | .sleep _ => Unit

abbrev Commanding (α : Type) := Prog Call Call.Ret Exc α

abbrev CommandEvent := Event Call Call.Ret Exc

def perform (c : Call) : Commanding c.Ret := Prog.perform c

/-- The onboarding service's part of a tool call. -/
def onboarding {α : Type} (p : Gateway.Onboarding α) : Commanding α :=
  p.lift Call.onboarding (fun _ value => value) .gateway Exc.lower

/-- `PerUserTeslaClient.execute`, for the tools. -/
def execute {α : Type} (ownerUserId : String) (operation : String → String → Commanding α) :
    Commanding α :=
  Gateway.executeWith Exc.isReauthorization
    (fun forceRefresh => onboarding (Gateway.accessForUser ownerUserId forceRefresh none)) operation

section Client

def teslaApiError (category : String) : Exc := .gateway (.teslaApi category)

def valueError : Exc := .gateway (.other "ValueError")

def knownFleetApiBaseUrls : List String :=
  ["https://fleet-api.prd.na.vn.cloud.tesla.com",
   "https://fleet-api.prd.eu.vn.cloud.tesla.com",
   "https://fleet-api.prd.cn.vn.cloud.tesla.cn"]

def normalizeBaseUrl (value : String) : Except Exc String :=
  let normalized :=
    String.ofList ((Identity.strip value).toList.reverse.dropWhile (fun c => c = '/')).reverse
  if normalized ∈ knownFleetApiBaseUrls then .ok normalized
  else .error (teslaApiError "invalid_region")

def pathPart (value : String) : Except Exc String :=
  (Paths.pathPart value).mapError (fun _ => valueError)

def retryableReadStatuses : List Int := [429,500,502,503,504]

def Exc.isTransport (e : Exc) : Bool := decide (e = teslaApiError "transport_error")

/-- The attempts of `_request` from `attempt` on, with `left` more allowed after it. -/
def requestFrom (retrySafe : Bool) (request : HttpRequest) (attempt : Nat) :
    (left : Nat) → Commanding HttpResponse
  | 0 => perform (.httpRequest request)
  | left + 1 =>
    .call (.httpRequest request) fun
      | .error e =>
        if e.isTransport ∧ retrySafe then do
          perform (.sleep (250 * 2 ^ attempt))
          requestFrom retrySafe request (attempt + 1) left
        else throw e
      | .ok response =>
        if retrySafe ∧ response.status ∈ retryableReadStatuses then do
          perform (.sleep (250 * 2 ^ attempt))
          requestFrom retrySafe request (attempt + 1) left
        else pure response

def statusCategory (status : Int) : String :=
  if status = 400 ∨ status = 422 then "invalid_request"
  else if status = 403 then "forbidden"
  else if status = 404 then "not_found"
  else if status = 408 then "vehicle_unavailable"
  else if status = 409 then "conflict"
  else if status = 429 then "rate_limited"
  else if status ≥ 500 then "upstream_unavailable"
  else "http_error"

def raiseForStatus (response : HttpResponse) : Except Exc Unit :=
  if response.status = 401 then
    .error (.gateway (.teslaReauthorizationRequired "Tesla access token was rejected"))
  else if 200 ≤ response.status ∧ response.status < 300 then .ok ()
  else .error (teslaApiError (statusCategory response.status))

def successfulJson (response : HttpResponse) : Except Exc Fields :=
  match raiseForStatus response with
  | .error e => .error e
  | .ok () =>
    match response.json with
    | none => .error (teslaApiError "invalid_json")
    | some (.obj document) => .ok document
    | some _ => .error (teslaApiError "invalid_document")

def responseMapping (document : Fields) : Except Exc Fields :=
  match document.get "response" with
  | some (.obj response) => .ok response
  | _ => .error (teslaApiError "invalid_payload")

def optionalString (document : Fields) (key : String) : Option String :=
  match document.get key with
  | some (.str value) => some value
  | _ => none

/-- `document.get("id_s", document.get("id", document.get("vehicle_id")))`. -/
def vehicleIdentifier (document : Fields) : Option Value :=
  match document.get "id_s", document.get "id" with
  | some value, _ => some value
  | none, some value => some value
  | none, none => document.get "vehicle_id"

def teslaVehicle (document : Fields) : Except Exc Gateway.TeslaVehicle :=
  match document.get "vin" with
  | some (.str vin) =>
    if vin = "" then .error (teslaApiError "invalid_payload")
    else
      let vehicle (id : String) : Gateway.TeslaVehicle :=
        { vin, teslaVehicleId := id, displayName := optionalString document "display_name",
          state := optionalString document "state" }
      match vehicleIdentifier document with
      | some (.str id) => .ok (vehicle id)
      | some (.int id) => .ok (vehicle (toString id))
      | _ => .error (teslaApiError "invalid_payload")
  | _ => .error (teslaApiError "invalid_payload")

structure CommandResult where
  successful : Bool
  reason : Option String

def commandResult (response : Fields) : Except Exc CommandResult :=
  match response.get "result" with
  | some (.bool successful) =>
    .ok { successful
          reason :=
            match response.get "reason" with
            | some (.str reason) => if reason = "" then none else some reason
            | _ => none }
  | _ => .error (teslaApiError "invalid_payload")

/-- What `vehicle` and `wake_up` return for a response. -/
def vehicleReply (response : HttpResponse) : Except Exc Gateway.TeslaVehicle := do
  let document ← successfulJson response
  let mapping ← responseMapping document
  teslaVehicle mapping

/-- What `_command` returns for a response. -/
def commandReply (response : HttpResponse) : Except Exc CommandResult := do
  let document ← successfulJson response
  let mapping ← responseMapping document
  commandResult mapping

/-- The request `_request` builds, or the check that fails before it is sent. -/
def httpRequest (destination : Destination) (endpoint : Endpoint) (accessToken baseUrl vin : String)
    (jsonBody : Option Fields) : Except Exc HttpRequest := do
  let vin ← pathPart vin
  let baseUrl ← normalizeBaseUrl baseUrl
  return { destination, endpoint, baseUrl, vin, accessToken, jsonBody }

/-- Requests that are not retry-safe, as commands, `vehicle` and `wake_up` send them. -/
def requestOnce {α : Type} (maxReadRetries : Nat) (request : Except Exc HttpRequest)
    (reply : HttpResponse → Except Exc α) : Commanding α := do
  let request ← Prog.ofExcept request
  let response ← requestFrom false request 0 maxReadRetries
  Prog.ofExcept (reply response)

variable (maxReadRetries : Nat)

def vehicle (vin accessToken baseUrl : String) : Commanding Gateway.TeslaVehicle :=
  requestOnce maxReadRetries (httpRequest .teslaFleetApi .vehicle accessToken baseUrl vin none)
    vehicleReply

def wakeUp (vin accessToken baseUrl : String) : Commanding Gateway.TeslaVehicle :=
  requestOnce maxReadRetries (httpRequest .teslaFleetApi .wakeUp accessToken baseUrl vin none)
    vehicleReply

def command (name vin : String) (payload : Fields) (accessToken baseUrl : String) :
    Commanding CommandResult :=
  requestOnce maxReadRetries
    (httpRequest .vehicleCommandProxy (.command name) accessToken baseUrl vin (some payload))
    commandReply

end Client

end Woodhouse.Commands
