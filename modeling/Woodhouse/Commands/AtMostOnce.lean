import Woodhouse.Commands.AuditedCalls
import Woodhouse.Effects.Allocation

namespace Woodhouse.Commands
open Effects

/-- One call of a write tool. -/
structure ToolCall where
  userId : String
  name : String
  arguments : Value
  spec : ToolSpec
  named : writeToolNamed name = some spec

/-- The environment's answer to a call. `landed` says whether an audit whose begin
raised was committed all the same. -/
structure Choice where
  answer : (call : Call) → Except Exc call.Ret
  landed : Bool := false

/-- The audit documents that exist, and the answers of everything else. A begin creates
its document; the transport has no reauthorization exception of its own. -/
def commandMachine : Machine Call Call.Ret Exc (List String) Choice
  | audits, .beginCommandAudit record, choice =>
    match choice.answer (.beginCommandAudit record) with
    | .ok () => if record.auditId ∈ audits then none else some (.ok (), record.auditId :: audits)
    | .error e => some (.error e, if choice.landed then record.auditId :: audits else audits)
  | audits, .httpRequest request, choice =>
    match choice.answer (.httpRequest request) with
    | .ok response => some (.ok response, audits)
    | .error e => if e.isReauthorization then none else some (.error e, audits)
  | audits, call, choice => some (choice.answer call, audits)

abbrev CommandLog (ι : Type) := Log ι Call Call.Ret Exc

section Machine
variable {audits audits' : List String} {op : Call} {choice : Choice} {r : Except Exc op.Ret}

/-- A used audit id stays used. -/
theorem audits_grow (does : commandMachine audits op choice = some (r,audits')) : audits ⊆ audits' := by
  cases op with
  | beginCommandAudit record =>
    simp only [commandMachine] at does
    split at does
    · split at does
      · cases does
      · cases does
        exact List.subset_cons_self _ _
    · cases does
      split
      · exact List.subset_cons_self _ _
      · exact List.Subset.refl _
  | httpRequest request =>
    simp only [commandMachine] at does
    split at does
    · cases does
      exact List.Subset.refl _
    · split at does
      · cases does
      · cases does
        exact List.Subset.refl _
  | _ =>
    simp only [commandMachine] at does
    cases does
    exact List.Subset.refl _

theorem begin_creates {record : AuditRecord}
    (does : commandMachine audits (.beginCommandAudit record) choice = some (.ok (),audits')) :
    record.auditId ∉ audits ∧ record.auditId ∈ audits' := by
  simp only [commandMachine] at does
  split at does
  · split at does
    · cases does
    · rename_i hnew
      cases does
      exact ⟨hnew, List.mem_cons_self⟩
  · cases does

/-- The audit that an answered call has begun. -/
def begunId : CommandEvent → Option String
  | ⟨.beginCommandAudit record,.ok _⟩ => some record.auditId
  | _ => none

theorem commandMachine_allocates :
    Allocates commandMachine begunId (fun audits auditId => auditId ∈ audits) := by
  constructor
  · intro audits op choice r audits' auditId does hbegun
    unfold begunId at hbegun
    split at hbegun
    · rename_i record u he
      obtain rfl := Option.some.inj hbegun
      cases he
      exact begin_creates does
    · cases hbegun
  · intro audits op choice r audits' auditId does hm
    exact audits_grow does hm

theorem transport_error {request : HttpRequest} {e : Exc}
    (does : commandMachine audits (.httpRequest request) choice = some (.error e,audits')) :
    e.isReauthorization = false := by
  simp only [commandMachine] at does
  split at does
  · cases does
  · split at does
    · cases does
    · rename_i hr
      cases does
      simpa using hr

end Machine

section Runs
variable {ι Request : Type} [DecidableEq ι] (casefold : String → String)
  (requests : CommandRequests Request) (maxReadRetries : Nat) (calls : ι → ToolCall)

def ToolCall.program (toolCall : ToolCall) : Commanding Document :=
  call casefold requests maxReadRetries toolCall.userId toolCall.name toolCall.arguments

/-- What concurrent tool calls can do from a store with some audits. -/
def Reached (audits₀ : List String) (log : CommandLog ι) (ps : ι → Commanding Document)
    (audits : List String) : Prop :=
  Run commandMachine (fun i => (calls i).program casefold requests maxReadRetries) audits₀ log ps audits

variable {casefold requests maxReadRetries calls} {audits₀ audits : List String}
  {log : CommandLog ι} {ps : ι → Commanding Document}

theorem rules_at {pre post : CommandLog ι} {i : ι} {op : Call} {r : Except Exc op.Ret}
    (run : Reached casefold requests maxReadRetries calls audits₀ (pre ++ (i,⟨op,r⟩) :: post) ps audits) :
    CallRules (localEvents i pre) (calls i).userId (calls i).spec op := by
  obtain ⟨qs, t, c, k, t', before, turn, _, _⟩ := run.at_event
  exact before.allowed (call_obeys requests casefold (calls i).named) turn

/-- Two committed begins have different ids. -/
theorem begun_unique (run : Reached casefold requests maxReadRetries calls audits₀ log ps audits)
    {i j : ι} {record record' : AuditRecord} (h : Begun (localEvents i log) record)
    (h' : Begun (localEvents j log) record') (hid : record.auditId = record'.auditId) :
    i = j ∧ record = record' := by
  have hid' : begunId ⟨.beginCommandAudit record',.ok ()⟩ = begunId ⟨.beginCommandAudit record,.ok ()⟩ :=
    congrArg some hid.symm
  obtain ⟨hcall, hevent⟩ := commandMachine_allocates.unique run h h' rfl hid'
  cases hevent
  exact ⟨hcall, rfl⟩

theorem fresh_ids (run : Reached casefold requests maxReadRetries calls audits₀ log ps audits) (i : ι) :
    FreshIds (localEvents i log) :=
  fun _ _ h h' hid => (begun_unique run h h' hid).2

/-- The tool whose audit a request needs. -/
def Endpoint.auditedAs (spec : ToolSpec) : Endpoint → String
  | .command _ => spec.name
  | _ => wakeUpSpec.name

/-- A wake was attempted, and its audit, its completion, the wake itself or the polling
did not go through. -/
def WakeFailed (h : List CommandEvent) : Prop :=
  WakeAttempted h ∧ ¬ (WakeSucceeded h ∧ ∃ vin, Online h vin)

structure CommandGuarantees (calls : ι → ToolCall) (log : CommandLog ι) : Prop where
  /-- No wake and no command is sent without its own begun and open audit. -/
  audited : ∀ pre post i request r, log = pre ++ (i,⟨.httpRequest request,r⟩) :: post →
    request.endpoint ≠ .vehicle → ∃ record,
      Audited (localEvents i pre) (calls i).userId (request.endpoint.auditedAs (calls i).spec)
        request.vin record ∧ ∀ j, ¬ Completed (localEvents j pre) record.auditId
  /-- An audit id receives at most one completion. -/
  completed_once : ∀ pre mid post i j auditId result category r result' category' r',
    log ≠ pre ++ (i,⟨.completeCommandAudit auditId result category,r⟩) ::
      (mid ++ (j,⟨.completeCommandAudit auditId result' category',r'⟩) :: post)
  /-- A command is the tool's own, for a vehicle this call saw online. -/
  online : ∀ pre post i request r command, log = pre ++ (i,⟨.httpRequest request,r⟩) :: post →
    request.endpoint = .command command →
      command = (calls i).spec.clientMethod ∧ Online (localEvents i pre) request.vin
  /-- Another command follows only on an answer with status 401. -/
  sent_once : ∀ pre mid post i request r request' r' command command',
    log = pre ++ (i,⟨.httpRequest request,r⟩) :: (mid ++ (i,⟨.httpRequest request',r'⟩) :: post) →
    request.endpoint = .command command → request'.endpoint = .command command' →
      ∃ response, r = .ok response ∧ response.status = 401
  /-- A failed wake sends no command, and the command's own audit ends in 'failure'. -/
  wake_failed : ∀ i, (calls i).spec.isCommand = true → WakeFailed (localEvents i log) →
    Unsent (localEvents i log) ∧
    ∀ record, Begun (localEvents i log) record → record.toolName = (calls i).spec.name →
      ∀ result category r,
        (⟨.completeCommandAudit record.auditId result category,r⟩ : CommandEvent) ∈
          localEvents i log → result = "failure"

theorem command_rules {pre post : CommandLog ι} {i : ι} {request : HttpRequest}
    {r : Except Exc HttpResponse} {command : String}
    (run : Reached casefold requests maxReadRetries calls audits₀
      (pre ++ (i,⟨.httpRequest request,r⟩) :: post) ps audits)
    (he : request.endpoint = .command command) :
    RequestRule (localEvents i pre) (calls i).userId (calls i).spec request.vin (.command command) := by
  have hrules := rules_at run
  simp only [CallRules, he] at hrules
  exact hrules

theorem Reached.earlier {pre post : CommandLog ι}
    (run : Reached casefold requests maxReadRetries calls audits₀ (pre ++ post) ps audits) :
    ∃ qs t, Reached casefold requests maxReadRetries calls audits₀ pre qs t := by
  obtain ⟨qs, t, before, _⟩ := Run.split run
  exact ⟨qs, t, before⟩

/-- Only the call that began an audit completes it. -/
theorem completed_by {i j : ι} {record : AuditRecord}
    (run : Reached casefold requests maxReadRetries calls audits₀ log ps audits)
    (hb : Begun (localEvents i log) record) (hc : Completed (localEvents j log) record.auditId) :
    j = i := by
  obtain ⟨result, category, r, hm⟩ := hc
  obtain ⟨pre, post, rfl⟩ := List.append_of_mem (mem_local.mp hm)
  obtain ⟨_, other, hb', hid, _⟩ := rules_at run
  have hgrows : localEvents j pre ⊆
      localEvents j (pre ++ (j,⟨.completeCommandAudit record.auditId result category,r⟩) :: post) := by
    rw [local_append]
    exact List.subset_append_left _ _
  exact (begun_unique run (hgrows hb') hb hid).1

theorem audited_before {pre post : CommandLog ι} {i : ι} {request : HttpRequest}
    {r : Except Exc HttpResponse}
    (run : Reached casefold requests maxReadRetries calls audits₀
      (pre ++ (i,⟨.httpRequest request,r⟩) :: post) ps audits) (he : request.endpoint ≠ .vehicle) :
    ∃ record, Audited (localEvents i pre) (calls i).userId
        (request.endpoint.auditedAs (calls i).spec) request.vin record ∧
      ∀ j, ¬ Completed (localEvents j pre) record.auditId := by
  obtain ⟨qs, t, before⟩ := run.earlier
  have hopen : OpenAudit (localEvents i pre) (calls i).userId
      (request.endpoint.auditedAs (calls i).spec) request.vin := by
    cases hr : request.endpoint with
    | vehicle => exact absurd hr he
    | wakeUp =>
      have hrules := rules_at run
      simp only [CallRules, hr] at hrules
      exact hrules
    | command command => exact (command_rules run hr).2.2.1
  obtain ⟨record, ha, hfresh⟩ := hopen
  refine ⟨record, ha, ?_⟩
  intro j hc
  obtain rfl := completed_by before ha.begun hc
  exact hfresh (fresh_ids before _) hc

theorem sent_again {pre mid post : CommandLog ι} {i : ι} {request request' : HttpRequest}
    {r r' : Except Exc HttpResponse} {command command' : String}
    (run : Reached casefold requests maxReadRetries calls audits₀
      (pre ++ (i,⟨.httpRequest request,r⟩) :: (mid ++ (i,⟨.httpRequest request',r'⟩) :: post)) ps audits)
    (he : request.endpoint = .command command) (he' : request'.endpoint = .command command') :
    ∃ response, r = .ok response ∧ response.status = 401 := by
  have run' := run
  rw [← List.cons_append, ← List.append_assoc] at run'
  obtain ⟨_, _, _, _, _, hrefused⟩ := command_rules run' he'
  have hr := hrefused command request r ⟨by simp, he⟩
  cases r with
  | ok response => exact ⟨response, rfl, hr⟩
  | error e =>
    obtain ⟨qs, t, c, k, t', _, _, does, _⟩ := run.at_event
    rw [Refused, transport_error does] at hr
    cases hr

theorem unsent_of_failed {i : ι}
    (run : Reached casefold requests maxReadRetries calls audits₀ log ps audits)
    (hfailed : WakeFailed (localEvents i log)) : Unsent (localEvents i log) := by
  rintro command request r ⟨hm, he⟩
  obtain ⟨pre, post, rfl⟩ := List.append_of_mem (mem_local.mp hm)
  obtain ⟨_, _, _, honline, hawake, _⟩ := command_rules run he
  have hgrows : localEvents i pre <+:
      localEvents i (pre ++ (i,⟨.httpRequest request,r⟩) :: post) := by
    rw [local_append]
    exact List.prefix_append _ _
  obtain ⟨⟨record, answer, hbegin, htool⟩, hnot⟩ := hfailed
  apply hnot
  refine ⟨?_, request.vin, honline.mono hgrows⟩
  -- no wake begins after a command, so the attempt was before it
  rw [local_append, local_cons_self, List.mem_append] at hbegin
  rcases hbegin with hbegin | hbegin
  · exact (hawake ⟨record, answer, hbegin, htool⟩).mono hgrows
  · rcases List.mem_cons.mp hbegin with hc | hlater
    · cases hc
    · obtain ⟨a, b, rfl⟩ := List.append_of_mem (mem_local.mp hlater)
      rw [← List.cons_append, ← List.append_assoc] at run
      obtain ⟨_, hunsent⟩ := rules_at run
      exact absurd ⟨by simp, he⟩ (hunsent command request r)

theorem commands_audited_at_most_once
    (run : Reached casefold requests maxReadRetries calls audits₀ log ps audits) :
    CommandGuarantees calls log := by
  constructor
  case audited =>
    rintro pre post i request r rfl he
    exact audited_before run he
  case completed_once =>
    rintro pre mid post i j auditId result category r result' category' r' rfl
    have run' := run
    rw [← List.cons_append, ← List.append_assoc] at run'
    obtain ⟨hopen, record, hb, hid, _⟩ := rules_at run'
    obtain ⟨qs, t, before⟩ := run'.earlier
    subst hid
    have hfirst : Completed (localEvents i (pre ++
        (i,⟨.completeCommandAudit record.auditId result category,r⟩) :: mid)) record.auditId :=
      ⟨result, category, r, by simp⟩
    obtain rfl := completed_by before hb hfirst
    exact hopen (fresh_ids before _) hfirst
  case online =>
    rintro pre post i request r command rfl he
    obtain ⟨hmethod, _, _, honline, _⟩ := command_rules run he
    exact ⟨hmethod, honline⟩
  case sent_once =>
    rintro pre mid post i request r request' r' command command' rfl he he'
    exact sent_again run he he'
  case wake_failed =>
    intro i hcommand hfailed
    have hunsent := unsent_of_failed run hfailed
    refine ⟨hunsent, ?_⟩
    intro record hb htool result category r hm
    obtain ⟨pre, post, rfl⟩ := List.append_of_mem (mem_local.mp hm)
    obtain ⟨_, other, hb', hid, hfailure⟩ := rules_at run
    have hgrows : localEvents i pre ⊆ localEvents i
        (pre ++ (i,⟨.completeCommandAudit record.auditId result category,r⟩) :: post) := by
      rw [local_append]
      exact List.subset_append_left _ _
    obtain ⟨_, rfl⟩ := begun_unique run (hgrows hb') hb hid
    by_contra hresult
    obtain ⟨request, r', hm', he⟩ := hfailure htool hcommand hresult
    exact hunsent _ request r' ⟨hgrows hm', he⟩

end Runs

section Witness

def demoRequests : CommandRequests Unit :=
  { fields := fun _ => none, validatePython := fun _ _ => true, construct := fun _ _ => .ok (),
    toPayload := fun _ => [] }

def demoConnection : Gateway.TeslaConnection :=
  { connectionId := "conn_1", ownerUserId := "usr_1"
    tokens :=
      { accessToken := "access", refreshToken := "refresh", expiresAt := 1000000000000,
        scopes := ["vehicle_device_data","vehicle_cmds"], teslaSubject := "subject" }
    tokenVersion := 1, region := some "eu", baseUrl := "https://fleet-api.prd.eu.vn.cloud.tesla.com"
    status := .connected }

def demoVehicle : Gateway.VehicleRecord :=
  { vehicleId := "veh_1", ownerUserId := "usr_1", connectionId := "conn_1", vin := "LRW0",
    teslaVehicleId := "7", displayName := none, state := none, authorizationStatus := .active,
    virtualKeyStatus := .paired, commandProtocolRequired := some true, firmwareVersion := none,
    fleetTelemetryVersion := none, totalNumberOfKeys := none }

def demoChoice (token : String) (response : HttpResponse) : Choice :=
  { answer := fun
      | .onboarding .utcNow => .ok (0 : Int)
      | .onboarding (.getConnection _) => .ok demoConnection
      | .onboarding (.refresh ..) => .ok demoConnection.tokens
      | .onboarding (.rotateTokens ..) => .ok demoConnection
      | .onboarding _ => .error (.gateway (.other "unavailable"))
      | .listStoredVehicles _ => .ok [demoVehicle]
      | .tokenHex _ => .ok token
      | .beginCommandAudit _ => .ok ()
      | .completeCommandAudit .. => .ok ()
      | .httpRequest _ => .ok response
      | .sleep _ => .ok () }

def vehicleResponse (state : String) : HttpResponse :=
  { status := 200
    json := some (.obj [("response",.obj [("vin",.str "LRW0"),("id",.int 7),("state",.str state)])]) }

def acceptedResponse : HttpResponse :=
  { status := 200, json := some (.obj [("response",.obj [("result",.bool true)])]) }

theorem named_honkHorn : writeToolNamed "tesla_honk_horn" = some (commandSpec "honk_horn") := by
  have hname : (commandSpec "honk_horn").name = "tesla_honk_horn" := by decide
  rw [← hname]
  exact writeToolNamed_command (by decide +kernel) (by decide +kernel)

def demoCall : ToolCall :=
  { userId := "usr_1", name := "tesla_honk_horn", arguments := .obj []
    spec := commandSpec "honk_horn", named := named_honkHorn }

/-- The vehicle is asleep, wakes up, and honks on the second attempt. -/
def demoSchedule : List (Unit × Choice) :=
  [("c0",acceptedResponse),("",acceptedResponse),("",acceptedResponse),
   ("a0",acceptedResponse),("",acceptedResponse),("",acceptedResponse),
   ("",acceptedResponse),("",acceptedResponse),("",vehicleResponse "asleep"),
   ("a1",acceptedResponse),("c1",acceptedResponse),("",acceptedResponse),("",acceptedResponse),
   ("",acceptedResponse),("",acceptedResponse),("",vehicleResponse "online"),("",acceptedResponse),
   ("",acceptedResponse),("",acceptedResponse),("",{ status := 401, json := none }),
   ("",acceptedResponse),("",acceptedResponse),("",acceptedResponse),("",acceptedResponse),
   ("",acceptedResponse),("",acceptedResponse)].map
    (fun entry => ((),demoChoice entry.1 entry.2))

def honks (log : CommandLog Unit) : Nat :=
  log.countP (fun entry =>
    match entry.2 with
    | ⟨.httpRequest request,.ok _⟩ => decide (request.endpoint = .command "honk_horn")
    | _ => false)

set_option maxRecDepth 100000 in
theorem commands_audited_at_most_once_honk :
    ∃ log ps audits, Reached id demoRequests 2 (fun _ : Unit => demoCall) [] log ps audits ∧
      honks log = 2 ∧ (ps ()).finished = true ∧
      CommandGuarantees (fun _ : Unit => demoCall) log := by
  obtain ⟨log, ps, audits, run, hp⟩ := run_of_schedule commandMachine
    (fun _ : Unit => demoCall.program id demoRequests 2) [] demoSchedule
    (fun out => decide (honks out.1 = 2) && (out.2.1 ()).finished) (by decide +kernel)
  obtain ⟨hhonks, hfinished⟩ := Bool.and_eq_true_iff.mp hp
  exact ⟨log, ps, audits, run, of_decide_eq_true hhonks, hfinished, commands_audited_at_most_once run⟩

end Witness

end Woodhouse.Commands
