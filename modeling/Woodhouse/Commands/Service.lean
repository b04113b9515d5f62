import Woodhouse.Commands.Fleet

namespace Woodhouse.Commands
open Effects

section Redaction

def redacted : String := "[REDACTED]"

def sensitiveKeys : List String :=
  ["access_token","authorization","calendar_data","client_secret","code","id_token","lat",
   "latitude","lon","longitude","password","pin","refresh_token","routable_message","token","vin"]

variable (casefold : String → String)

mutual

def redact : Value → Value
  | .arr values => .arr (redactValues values)
  | .obj fields => .obj (redactMapping fields)
  | .null => .null
  | .bool b => .bool b
  | .int n => .int n
  | .float text => .float text
  | .str s => .str s

def redactValues : List Value → List Value
  | [] => []
  | value :: rest => redact value :: redactValues rest

def redactMapping : List (String × Value) → List (String × Value)
  | [] => []
  | entry :: rest =>
    (entry.1, if casefold entry.1 ∈ sensitiveKeys then .str redacted else redact entry.2) ::
      redactMapping rest

end

def auditWholeValueFields (command : String) : List String :=
  if command = "navigation_request" then ["value"]
  else if command = "navigation_waypoints_request" then ["waypoints"]
  else []

def redactCommandParameters (spec : ToolSpec) (values : Fields) : Fields :=
  (redactMapping casefold values).map fun entry =>
    if entry.1 ∈ auditWholeValueFields spec.clientMethod then (entry.1, .str redacted) else entry

end Redaction

/-- The typed request classes of the commands. -/
structure CommandRequests (Request : Type) where
  /-- The field names of the command's request class, `none` without one. -/
  fields : (command : String) → Option (List String)
  validatePython : (command : String) → Fields → Bool
  construct : (command : String) → Fields → Except Exc Request
  toPayload : Request → Fields

section Arguments
variable {Request : Type} (requests : CommandRequests Request)

def invalidArguments (message : String) : Exc := .mcpTool "invalid_arguments" message

def isTrue : Option Value → Bool
  | some (.bool true) => true
  | _ => false

/-- `ToolSpec.validate_arguments` for a tool without an extra schema. -/
def validateArguments (spec : ToolSpec) (values : Fields) : Except Exc Unit :=
  let names := (requests.fields spec.clientMethod).getD []
  let allowed := "vehicle_id" :: names ++
    (if spec.risk = .securitySensitive then ["explicit_current_turn_intent"] else [])
  let vehicleIdValid :=
    match values.get "vehicle_id" with
    | none | some .null | some (.str _) => true
    | some _ => false
  if vehicleIdValid = false then .error (invalidArguments "Invalid value for vehicle_id")
  else if (requests.fields spec.clientMethod).isSome ∧
      requests.validatePython spec.clientMethod
        (values.filter (fun entry => entry.1 ∈ names)) = false then
    .error (invalidArguments "Tool arguments do not match the typed request")
  else if spec.risk = .securitySensitive ∧
      isTrue (values.get "explicit_current_turn_intent") = false then
    .error (invalidArguments "Explicit current-turn intent is required")
  else if values.any (fun entry => entry.1 ∉ allowed) then
    .error (invalidArguments "Tool arguments do not match the typed request")
  else .ok ()

/-- `_request_instance(spec.request_type, values) if spec.request_type else None`. -/
def requestInstance (spec : ToolSpec) (values : Fields) : Except Exc (Option Request) :=
  match requests.fields spec.clientMethod with
  | none => .ok none
  | some names =>
    (requests.construct spec.clientMethod
      (values.filter (fun entry => entry.1 ∈ names))).map some

end Arguments

/-- What a write tool returns, before its serialization. -/
inductive WriteResult where
  | command (result : CommandResult)
  | woken (vehicle : Gateway.TeslaVehicle)

/-- `not isinstance(result, CommandResult) or result.successful`. -/
def WriteResult.successful : WriteResult → Bool
  | .command result => result.successful
  | .woken _ => true

structure Document where
  result : WriteResult
  correlationId : String
  wakeCorrelationId : Option String

section Service
variable {Request : Type} (casefold : String → String) (requests : CommandRequests Request)
  (maxReadRetries : Nat)

def resolveVehicle (ownerUserId : String) : Option Value → Commanding (Option Gateway.VehicleRecord)
  | none | some .null => pure none
  | some (.str selected) =>
    if selected = "" then
      throw (.mcpTool "invalid_vehicle" "vehicle_id must be a non-empty string")
    else
      .call (.onboarding (.getVehicle ownerUserId selected)) fun
        | .ok vehicle => pure (some vehicle)
        | .error (.gateway (.crossUserAccess _)) =>
          throw (.mcpTool "vehicle_not_owned" "Vehicle is not owned by this user")
        | .error (.gateway e) =>
          if e.isTeslaOnboarding then
            throw (.mcpTool "vehicle_not_owned" "Vehicle is not owned by this user")
          else throw (.gateway e)
        | .error e => throw e
  | some _ => throw (.mcpTool "invalid_vehicle" "vehicle_id must be a non-empty string")

def eligibleVehicle (ownerUserId : String) : Commanding Gateway.VehicleRecord := do
  let stored ← perform (.listStoredVehicles ownerUserId)
  match stored.filter (fun vehicle => vehicle.authorizationStatus = .active) with
  | [] => throw (.mcpTool "no_eligible_vehicle" "No eligible Tesla vehicle is connected")
  | [vehicle] => pure vehicle
  | vehicles =>
    let choices := ", ".intercalate
      ((vehicles.map Gateway.VehicleRecord.vehicleId).mergeSort (fun a b => a ≤ b))
    throw (.mcpTool "vehicle_ambiguous"
      ("Multiple eligible vehicles exist; choose one vehicle_id: " ++ choices))

def liveVehicle (ownerUserId vin : String) : Commanding Gateway.TeslaVehicle :=
  execute ownerUserId (vehicle maxReadRetries vin)

def finalizeAudit (auditId result : String) (errorCategory : Option String) : Commanding Unit :=
  tryCatch (perform (.completeCommandAudit auditId result errorCategory)) fun _ =>
    throw (.mcpTool "command_result_indeterminate"
      "Command may have executed but its audit could not be finalized; do not retry")

/-- The begin of an audit; the command is not sent without it. -/
def beginAudit (record : AuditRecord) (message : String) : Commanding Unit :=
  tryCatch (perform (.beginCommandAudit record)) fun _ => throw (.mcpTool "audit_unavailable" message)

/-- `try: p except Exception as error: _finalize_audit(audit_id, "failure", …); raise`. -/
def auditingFailure {α : Type} (auditId : String) (p : Commanding α) : Commanding α :=
  tryCatch p fun e => do
    finalizeAudit auditId "failure" (some e.category)
    throw e

def wakePollAttempts : Nat := 6

def wakePollIntervalMilliseconds : Nat := 10000

/-- The wake polls still to make. -/
def pollOnline (ownerUserId vin correlationId : String) : (left : Nat) → Commanding (Option String)
  | 0 => throw (.mcpTool "vehicle_unavailable"
      "Vehicle did not come online within 60 seconds; command was not sent")
  | left + 1 => do
    perform (.sleep wakePollIntervalMilliseconds)
    let live ← liveVehicle maxReadRetries ownerUserId vin
    if live.state = some "online" then return some correlationId
    else pollOnline ownerUserId vin correlationId left

/-- The audited wake of a vehicle that is not online, and the polls after it. -/
def wakeAndPoll (userId : String) (spec : ToolSpec) (vehicle : Gateway.VehicleRecord) :
    Commanding (Option String) := do
  let auditToken ← perform (.tokenHex 16)
  let correlationToken ← perform (.tokenHex 16)
  let timestamp ← perform (.onboarding .utcNow)
  let auditId := "audit_" ++ auditToken
  let correlationId := "corr_" ++ correlationToken
  beginAudit
    { auditId, timestamp, ownerUserId := userId, vehicleId := vehicle.vehicleId,
      toolName := wakeUpSpec.name, redactedParameters := [("automatic_for", .str spec.name)],
      correlationId, source := "chatgpt-mcp" }
    "Command was not sent because its automatic wake could not be audited"
  let wakeResult ← auditingFailure auditId (execute userId (wakeUp maxReadRetries vehicle.vin))
  finalizeAudit auditId "success" none
  if wakeResult.state = some "online" then return some correlationId
  else pollOnline maxReadRetries userId vehicle.vin correlationId wakePollAttempts

def ensureVehicleOnline (userId : String) (spec : ToolSpec) (vehicle : Gateway.VehicleRecord) :
    Commanding (Option String) := do
  let live ← liveVehicle maxReadRetries userId vehicle.vin
  if live.state = some "online" then return none
  else wakeAndPoll maxReadRetries userId spec vehicle

/-- The writing branch of `_execute`. -/
def executeWrite (userId : String) (spec : ToolSpec) (vehicle : Gateway.VehicleRecord)
    (values : Fields) : Commanding WriteResult := do
  let request ← Prog.ofExcept (requestInstance requests spec values)
  if spec.isCommand then
    let result ← execute userId
      (command maxReadRetries spec.clientMethod vehicle.vin ((request.map requests.toPayload).getD []))
    return .command result
  else
    let woken ← execute userId (wakeUp maxReadRetries vehicle.vin)
    return .woken woken

def virtualKeyCheck (spec : ToolSpec) (vehicle : Gateway.VehicleRecord) : Except Exc Unit :=
  if spec.isCommand ∧ vehicle.commandProtocolRequired = some true ∧
      vehicle.virtualKeyStatus ≠ .paired then
    .error (.mcpTool "virtual_key_not_paired"
      "The selected vehicle still requires Virtual Key pairing")
  else .ok ()

/-- The audited part of `_execute_audited`: the wake check and the write. -/
def wakeAndExecute (userId : String) (spec : ToolSpec) (vehicle : Gateway.VehicleRecord)
    (values : Fields) : Commanding (Option String × WriteResult) := do
  Prog.ofExcept (virtualKeyCheck spec vehicle)
  let wakeCorrelationId ←
    if spec.isCommand then ensureVehicleOnline maxReadRetries userId spec vehicle else pure none
  let result ← executeWrite requests maxReadRetries userId spec vehicle values
  return (wakeCorrelationId, result)

def executeAudited (userId : String) (spec : ToolSpec) (vehicle : Gateway.VehicleRecord)
    (values : Fields) (correlationId : String) : Commanding Document := do
  let auditToken ← perform (.tokenHex 16)
  let timestamp ← perform (.onboarding .utcNow)
  let auditId := "audit_" ++ auditToken
  beginAudit
    { auditId, timestamp, ownerUserId := userId, vehicleId := vehicle.vehicleId,
      toolName := spec.name, redactedParameters := redactCommandParameters casefold spec values,
      correlationId, source := "chatgpt-mcp" }
    "Command was not sent because its audit record could not be created"
  let (wakeCorrelationId, result) ← auditingFailure auditId
    (wakeAndExecute requests maxReadRetries userId spec vehicle values)
  finalizeAudit auditId (if result.successful then "success" else "rejected")
    (if result.successful then none else some "tesla_rejected")
  return { result, correlationId, wakeCorrelationId }

def requireScopes (spec : ToolSpec) (connection : Gateway.TeslaConnection) : Except Exc Unit :=
  if spec.requiredScope ∉ connection.tokens.scopes then
    .error (.mcpTool "missing_tesla_scope"
      ("Reconnect Tesla with the required " ++ spec.requiredScope ++ " scope"))
  else if spec.isCommand ∧ "vehicle_device_data" ∉ connection.tokens.scopes then
    .error (.mcpTool "missing_tesla_scope"
      "Reconnect Tesla with the required vehicle_device_data scope for command wake checks")
  else .ok ()

/-- The checks of the arguments before any call. -/
def checkArguments (spec : ToolSpec) (values : Fields) : Except Exc Unit :=
  if spec.risk = .securitySensitive ∧
      isTrue (values.get "explicit_current_turn_intent") = false then
    .error (.mcpTool "explicit_intent_required"
      "This security-sensitive operation requires unambiguous current-turn intent")
  else validateArguments requests spec values

def callWriteTool (userId : String) (spec : ToolSpec) (arguments : Fields) (correlationId : String) :
    Commanding Document := do
  Prog.ofExcept (checkArguments requests spec arguments)
  let values := arguments.without "explicit_current_turn_intent"
  let connection ← perform (.onboarding (.getConnection userId))
  Prog.ofExcept (requireScopes spec connection)
  let selected ← resolveVehicle userId (values.get "vehicle_id")
  let vehicle ←
    match selected with
    | some vehicle => pure vehicle
    | none => eligibleVehicle userId
  executeAudited casefold requests maxReadRetries userId spec vehicle (values.without "vehicle_id")
    correlationId

/-- `TeslaMCPService.call`; the read tools and the analytics operations are left out. -/
def call (userId name : String) (arguments : Value) : Commanding Document := do
  let token ← perform (.tokenHex 16)
  let correlationId := "corr_" ++ token
  match arguments with
  | .obj values =>
    match writeToolNamed name with
    | some spec => callWriteTool casefold requests maxReadRetries userId spec values correlationId
    | none => throw (.mcpTool "unknown_tool" "Unknown MCP tool")
  | _ => throw (.mcpTool "invalid_arguments" "Tool arguments must be a JSON object")

end Service

end Woodhouse.Commands
