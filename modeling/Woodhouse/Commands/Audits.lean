import Woodhouse.Commands.Exchanges

namespace Woodhouse.Commands
open Effects

section Rules
variable (h : List CommandEvent)

/-- The audit was committed. -/
def Begun (record : AuditRecord) : Prop :=
  (⟨.beginCommandAudit record,.ok ()⟩ : CommandEvent) ∈ h

/-- A completion of the audit was attempted. -/
def Completed (auditId : String) : Prop :=
  ∃ result category r, (⟨.completeCommandAudit auditId result category,r⟩ : CommandEvent) ∈ h

def FreshIds : Prop :=
  ∀ record record', Begun h record → Begun h record' → record.auditId = record'.auditId →
    record = record'

/-- A command POST for the command, whatever the answer. -/
def Posted (command : String) (request : HttpRequest) (r : Except Exc HttpResponse) : Prop :=
  (⟨.httpRequest request,r⟩ : CommandEvent) ∈ h ∧ request.endpoint = .command command

/-- The store returned the vehicle to this user's call. -/
def Selected (userId : String) (vehicle : Gateway.VehicleRecord) : Prop :=
  (∃ selected, (⟨.onboarding (.getVehicle userId selected),.ok vehicle⟩ : CommandEvent) ∈ h) ∨
  ∃ stored, (⟨.listStoredVehicles userId,.ok stored⟩ : CommandEvent) ∈ h ∧ vehicle ∈ stored

/-- The committed audit of a request to the vehicle of that VIN. -/
structure Audited (userId toolName vin : String) (record : AuditRecord) : Prop where
  begun : Begun h record
  tool : record.toolName = toolName
  owner : record.ownerUserId = userId
  vehicle : ∃ vehicle, Selected h userId vehicle ∧ record.vehicleId = vehicle.vehicleId ∧
    pathPart vehicle.vin = .ok vin

/-- Tesla reported the vehicle of that VIN online, to a read or to a wake. -/
def Online (vin : String) : Prop :=
  ∃ request response live, (⟨.httpRequest request,.ok response⟩ : CommandEvent) ∈ h ∧
    (request.endpoint = .vehicle ∨ request.endpoint = .wakeUp) ∧ request.vin = vin ∧
    vehicleReply response = .ok live ∧ live.state = some "online"

def WakeAttempted : Prop :=
  ∃ record r, (⟨.beginCommandAudit record,r⟩ : CommandEvent) ∈ h ∧
    record.toolName = wakeUpSpec.name

/-- The wake's audit was committed, Tesla answered the wake with a vehicle, and the audit
was completed. -/
def WakeSucceeded : Prop :=
  ∃ record request response live, Begun h record ∧ record.toolName = wakeUpSpec.name ∧
    (⟨.httpRequest request,.ok response⟩ : CommandEvent) ∈ h ∧ request.endpoint = .wakeUp ∧
    vehicleReply response = .ok live ∧
    (⟨.completeCommandAudit record.auditId "success" none,.ok ()⟩ : CommandEvent) ∈ h

/-- The committed audit of a request is still open. -/
def OpenAudit (userId toolName vin : String) : Prop :=
  ∃ record, Audited h userId toolName vin record ∧ (FreshIds h → ¬ Completed h record.auditId)

def RequestRule (userId : String) (spec : ToolSpec) (vin : String) : Endpoint → Prop
  | .vehicle => True
  | .wakeUp => OpenAudit h userId wakeUpSpec.name vin
  | .command command => command = spec.clientMethod ∧ spec.isCommand = true ∧
      OpenAudit h userId spec.name vin ∧ Online h vin ∧ (WakeAttempted h → WakeSucceeded h) ∧
      ∀ command request r, Posted h command request r → Refused r

/-- When a call of the write tool `spec` makes the calls its audits are about. -/
def CallRules (userId : String) (spec : ToolSpec) : Call → Prop
  | .beginCommandAudit record =>
    (record.toolName = spec.name ∨ spec.isCommand = true ∧ record.toolName = wakeUpSpec.name) ∧
    ∀ command request r, ¬ Posted h command request r
  | .completeCommandAudit auditId result _ =>
    (FreshIds h → ¬ Completed h auditId) ∧ ∃ record, Begun h record ∧ record.auditId = auditId ∧
      (record.toolName = spec.name → spec.isCommand = true → result ≠ "failure" →
        ∃ request r, Posted h spec.clientMethod request r)
  | .httpRequest request => RequestRule h userId spec request.vin request.endpoint
  | _ => True

end Rules

section Histories
variable {h h' : List CommandEvent} {userId : String} {spec : ToolSpec}

theorem callRules_quiet (op : Call) (hq : op.quiet = true) : CallRules h userId spec op := by
  cases op with
  | beginCommandAudit => cases hq
  | completeCommandAudit => cases hq
  | httpRequest request =>
    have he : request.endpoint = .vehicle := of_decide_eq_true hq
    simp only [CallRules, he, RequestRule]
  | _ => trivial

theorem Selected.mono {vehicle : Gateway.VehicleRecord} (hs : Selected h userId vehicle)
    (hp : h <+: h') : Selected h' userId vehicle := by
  rcases hs with ⟨selected, hm⟩ | ⟨stored, hm, hv⟩
  · exact .inl ⟨selected, hp.subset hm⟩
  · exact .inr ⟨stored, hp.subset hm, hv⟩

theorem Audited.mono {toolName vin : String} {record : AuditRecord}
    (ha : Audited h userId toolName vin record) (hp : h <+: h') :
    Audited h' userId toolName vin record := by
  obtain ⟨vehicle, hs, hid, hvin⟩ := ha.vehicle
  exact ⟨hp.subset ha.begun, ha.tool, ha.owner, vehicle, hs.mono hp, hid, hvin⟩

theorem Online.mono {vin : String} (ho : Online h vin) (hp : h <+: h') : Online h' vin := by
  obtain ⟨request, response, live, hm, he, hvin, hr, hstate⟩ := ho
  exact ⟨request, response, live, hp.subset hm, he, hvin, hr, hstate⟩

theorem WakeSucceeded.mono (hw : WakeSucceeded h) (hp : h <+: h') : WakeSucceeded h' := by
  obtain ⟨record, request, response, live, hb, ht, hm, he, hr, hc⟩ := hw
  exact ⟨record, request, response, live, hp.subset hb, ht, hp.subset hm, he, hr, hp.subset hc⟩

theorem online_of_reply {endpoint : Endpoint} {vin part : String} {live : Gateway.TeslaVehicle}
    (hr : Replied h endpoint vin vehicleReply live) (hpart : pathPart vin = .ok part)
    (he : endpoint = .vehicle ∨ endpoint = .wakeUp) (hstate : live.state = some "online") :
    Online h part := by
  obtain ⟨request, response, hm, ⟨haddress, hvin⟩, hreply⟩ := hr
  rw [hpart] at hvin
  obtain rfl := Except.ok.inj hvin
  exact ⟨request, response, live, hm, haddress ▸ he, rfl, hreply, hstate⟩

end Histories

/-- The audit calls and POSTs of a call after its own begin, as far as its own audit and the
command are concerned: a completed audit is one of a wake begun there. -/
structure Unsettled (spec : ToolSpec) (l : List CommandEvent) : Prop where
  completed : ∀ auditId, Completed l auditId → spec.isCommand = true ∧
    ∃ record, Begun l record ∧ record.auditId = auditId ∧ record.toolName = wakeUpSpec.name

/-- No command was sent. -/
def Unsent (l : List CommandEvent) : Prop := ∀ command request r, ¬ Posted l command request r

section OwnAudit
variable {userId : String} {spec : ToolSpec} {base l h : List CommandEvent} {record : AuditRecord}

theorem own_open (hs : Stage base (⟨.beginCommandAudit record,.ok ()⟩ :: l) h)
    (htool : record.toolName = spec.name) (hname : spec.isCommand = true → spec.name ≠ wakeUpSpec.name)
    (hl : Unsettled spec l) : FreshIds h → ¬ Completed h record.auditId := by
  rintro fresh ⟨result, category, r, hm⟩
  rcases List.mem_cons.mp ((hs.mem rfl).mp hm) with he | hm
  · cases he
  · obtain ⟨hcommand, wake, hb, hid, hwake⟩ := hl.completed _ ⟨result, category, r, hm⟩
    have hown : Begun h record := hs.of_mem (by simp)
    have hother : Begun h wake := hs.of_mem (List.mem_cons_of_mem _ hb)
    rw [fresh wake record hother hown hid, htool] at hwake
    exact hname hcommand hwake

theorem unsent_of_stage (hs : Stage base (⟨.beginCommandAudit record,.ok ()⟩ :: l) h)
    (hl : Unsent l) : Unsent h := by
  rintro command request r ⟨hm, he⟩
  have hq : (Call.httpRequest request).quiet = false := by
    simp [Call.quiet, he]
  rcases List.mem_cons.mp ((hs.mem hq).mp hm) with hc | hm
  · cases hc
  · exact hl command request r ⟨hm, he⟩

end OwnAudit

section Posts
variable {endpoint : Endpoint} {posts l : List CommandEvent} {spec : ToolSpec}

/-- Every event is a request to the endpoint. -/
def PostsTo (endpoint : Endpoint) (posts : List CommandEvent) : Prop :=
  ∀ e ∈ posts, ∃ request, e.op = .httpRequest request ∧ request.endpoint = endpoint

theorem postsTo_nil : PostsTo endpoint [] := by
  intro e he
  cases he

theorem PostsTo.snoc (hp : PostsTo endpoint posts) {request : HttpRequest}
    (he : request.endpoint = endpoint) (r : Except Exc HttpResponse) :
    PostsTo endpoint (posts ++ [⟨.httpRequest request,r⟩]) := by
  intro e hm
  rcases List.mem_append.mp hm with hm | hm
  · exact hp e hm
  · rw [List.mem_singleton.mp hm]
    exact ⟨request, rfl, he⟩

theorem PostsTo.uncompleted (hp : PostsTo endpoint posts) (auditId : String) :
    ¬ Completed posts auditId := by
  rintro ⟨result, category, r, hm⟩
  obtain ⟨request, he, _⟩ := hp _ hm
  cases he

theorem PostsTo.unattempted (hp : PostsTo endpoint posts) : ¬ WakeAttempted posts := by
  rintro ⟨record, r, hm, _⟩
  obtain ⟨request, he, _⟩ := hp _ hm
  cases he

theorem PostsTo.unsent (hp : PostsTo .wakeUp posts) : Unsent posts := by
  rintro command request r ⟨hm, he⟩
  obtain ⟨request', hr, he'⟩ := hp _ hm
  cases hr
  rw [he] at he'
  cases he'

theorem completed_append {auditId : String} :
    Completed (l ++ posts) auditId ↔ Completed l auditId ∨ Completed posts auditId := by
  simp only [Completed, List.mem_append, exists_or]

theorem wakeAttempted_append :
    WakeAttempted (l ++ posts) ↔ WakeAttempted l ∨ WakeAttempted posts := by
  simp only [WakeAttempted, List.mem_append, or_and_right, exists_or]

theorem Unsettled.append (hl : Unsettled spec l) (hp : PostsTo endpoint posts) :
    Unsettled spec (l ++ posts) := by
  constructor
  intro auditId hc
  rcases completed_append.mp hc with hc | hc
  · obtain ⟨hcommand, record, hb, hid, hwake⟩ := hl.completed auditId hc
    exact ⟨hcommand, record, List.mem_append_left _ hb, hid, hwake⟩
  · exact absurd hc (hp.uncompleted auditId)

theorem unsettled_nil : Unsettled spec [] := by
  constructor
  rintro auditId ⟨result, category, r, hm⟩
  cases hm

theorem unsent_nil : Unsent [] := by
  rintro command request r ⟨hm, _⟩
  cases hm

theorem Unsent.append {l' : List CommandEvent} (hl : Unsent l) (hl' : Unsent l') :
    Unsent (l ++ l') := by
  rintro command request r ⟨hm, he⟩
  rcases List.mem_append.mp hm with hm | hm
  · exact hl command request r ⟨hm, he⟩
  · exact hl' command request r ⟨hm, he⟩

end Posts

/-- Where a call of the tool `spec` stands after the begin of its own audit. -/
structure OwnAudit (userId : String) (spec : ToolSpec) (vehicle : Gateway.VehicleRecord)
    (base : List CommandEvent) (own : AuditRecord) : Prop where
  selected : Selected base userId vehicle
  tool : own.toolName = spec.name
  owner : own.ownerUserId = userId
  vehicle : own.vehicleId = vehicle.vehicleId
  named : spec.isCommand = true → spec.name ≠ wakeUpSpec.name
  wakes : spec.isCommand = false → spec.name = wakeUpSpec.name

def OnlineAt (h : List CommandEvent) (vin : String) : Prop :=
  ∀ part, pathPart vin = .ok part → Online h part

theorem OnlineAt.mono {h h' : List CommandEvent} {vin : String} (ho : OnlineAt h vin)
    (hp : h <+: h') : OnlineAt h' vin :=
  fun part hpart => (ho part hpart).mono hp

end Woodhouse.Commands
