import Woodhouse.Effects.Allocation
import Woodhouse.Telemetry.Cutover

namespace Woodhouse.Telemetry
open Effects Python
open Gateway (Exc TelemetryConfigurationState VehicleRecord)

/-- A request for one of the control plane's operations. -/
inductive Operation where
  | apply (userId vehicleId expectedConfigHash : String) (confirm transportMaintenanceOptIn : Bool)
      (source : String)
  | verify (userId vehicleId : String)
  | remove (userId vehicleId : String) (confirm : Bool) (source : String)
  | repair (userId vehicleId expectedConfigHash : String) (confirm : Bool)
  | reconcile (userId canaryVehicleId : String)

inductive Reply where
  | vehicle (result : OperationResult)
  | fleet (reconciliation : Reconciliation)

namespace Operation

def userId : Operation → String
  | .apply userId _ _ _ _ _ | .verify userId _ | .remove userId _ _ _ | .repair userId _ _ _
  | .reconcile userId _ => userId

def program (control : Control) : Operation → Controlling Reply
  | .apply userId vehicleId expected confirm optIn source => do
    let result ← applyConfig control userId vehicleId expected confirm optIn source
    return .vehicle result
  | .verify userId vehicleId => do
    let result ← Telemetry.verify control userId vehicleId
    return .vehicle result
  | .remove userId vehicleId confirm source => do
    let result ← Telemetry.remove userId vehicleId confirm source
    return .vehicle result
  | .repair userId vehicleId expected confirm => do
    let result ← Telemetry.repair control userId vehicleId expected confirm
    return .vehicle result
  | .reconcile userId canaryVehicleId => do
    let reconciliation ← reconcileOptedInTransport control userId canaryVehicleId
    return .fleet reconciliation

end Operation

/-- The rules of an operation of the user, whatever its records name. -/
abbrev OperationRules (control : Control) (userId : String) : List TelemetryEvent → Call → Prop :=
  ConfigRules control userId (fun _ => True)

section Operations
variable {control : Control} {userId : String} {h : List TelemetryEvent}

theorem replies {α : Type} {Q : List TelemetryEvent → Except Exc α → Prop} {p : Controlling α}
    {reply : α → Reply} (ho : Obeys (OperationRules control userId) Q p h) :
    Obeys (OperationRules control userId) (fun _ _ => True)
      (do
        let result ← p
        return reply result) h :=
  ho.bind (fun _ _ _ => trivial) (fun _ _ _ => trivial)

theorem operation_obeys_rules (operation : Operation) :
    Obeys (OperationRules control operation.userId) (fun _ _ => True) (operation.program control) [] := by
  cases operation with
  | apply userId vehicleId expected confirm optIn source =>
    exact replies (applyConfig_obeys (fun _ _ => trivial))
  | verify userId vehicleId => exact replies (verify_obeys (fun _ => trivial))
  | remove userId vehicleId confirm source => exact replies (remove_obeys (fun _ => trivial))
  | repair userId vehicleId expected confirm =>
    apply replies (Q := fun _ _ => True)
    unfold repair perform
    rw [obeys_perform_bind]
    refine ⟨configRules_free rfl, fun e => trivial, ?_⟩
    intro state
    exact (applyConfig_obeys (fun _ _ => trivial)).mono (fun _ _ _ => trivial)
  | reconcile userId canaryVehicleId =>
    apply replies (Q := fun _ _ => True)
    unfold reconcileOptedInTransport perform
    rw [obeys_perform_bind]
    refine ⟨configRules_free rfl, fun e => trivial, ?_⟩
    intro listed
    exact (listed_obeys configRules_admits (Unaudited.single rfl)).mono (fun _ _ _ => trivial)

end Operations

/-- The environment's answer to a call. `landed` says whether an audit whose begin
raised was committed all the same. -/
structure Choice where
  answer : (call : Call) → Except Exc call.Ret
  landed : Bool := false

/-- The audit documents that exist, and the answers of everything else. -/
def configMachine : Machine Call Call.Ret Exc (List String) Choice
  | audits, .beginTelemetryConfigAudit record, choice =>
    match choice.answer (.beginTelemetryConfigAudit record) with
    | .ok () => if record.auditId ∈ audits then none else some (.ok (), record.auditId :: audits)
    | .error e => some (.error e, if choice.landed then record.auditId :: audits else audits)
  | audits, call, choice => some (choice.answer call, audits)

abbrev ConfigLog (ι : Type) := Log ι Call Call.Ret Exc

/-- The audit that an answered call has begun. -/
def begunId : TelemetryEvent → Option String
  | ⟨.beginTelemetryConfigAudit record,.ok _⟩ => some record.auditId
  | _ => none

def completedId : Call → Option String
  | .completeTelemetryConfigAudit auditId _ _ => some auditId
  | _ => none

theorem configMachine_allocates :
    Allocates configMachine begunId (fun audits auditId => auditId ∈ audits) := by
  constructor
  · intro audits op choice r audits' auditId does hbegun
    unfold begunId at hbegun
    split at hbegun
    · rename_i record u he
      obtain rfl := Option.some.inj hbegun
      cases he
      simp only [configMachine] at does
      split at does
      · split at does
        · cases does
        · rename_i hnew
          cases does
          exact ⟨hnew, List.mem_cons_self⟩
      · cases does
    · cases hbegun
  · intro audits op choice r audits' auditId does hm
    cases op with
    | beginTelemetryConfigAudit record =>
      simp only [configMachine] at does
      split at does
      · split at does
        · cases does
        · cases does
          exact List.mem_cons_of_mem _ hm
      · cases does
        split
        · exact List.mem_cons_of_mem _ hm
        · exact hm
    | _ =>
      simp only [configMachine] at does
      cases does
      exact hm

section Runs
variable {ι : Type} [DecidableEq ι]

/-- The operation of the log's request is in the audited part of a change. -/
def Auditing (control : Control) (operations : ι → Operation) (log : ConfigLog ι) (i : ι)
    (change : Change) (record : ConfigAudit) (mid : List TelemetryEvent) : Prop :=
  Underway control (operations i).userId (fun _ => True) (localEvents i log) change record mid

structure ConfigGuarantees (control : Control) (operations : ι → Operation) (log : ConfigLog ι) :
    Prop where
  /-- A configuration is created only after the audit of that apply was committed. -/
  created : ∀ pre post i token base vin config r,
    log = pre ++ (i,⟨.configCreate token base vin config,r⟩) :: post →
      ∃ vehicle profile optIn record mid,
        Auditing control operations pre i (.apply vehicle profile optIn) record mid ∧
        vin = vehicle.vin ∧ config = desiredConfig control profile
  /-- A configuration is deleted only after the audit of that removal was committed. -/
  deleted : ∀ pre post i token base vin r,
    log = pre ++ (i,⟨.configDelete token base vin,r⟩) :: post →
      ∃ vehicle record mid, Auditing control operations pre i (.remove vehicle) record mid ∧
        vin = vehicle.vin
  /-- An audit id receives at most one completion. -/
  completed_once : ∀ pre mid post i j auditId result category r result' category' r',
    log ≠ pre ++ (i,⟨.completeTelemetryConfigAudit auditId result category,r⟩) ::
      (mid ++ (j,⟨.completeTelemetryConfigAudit auditId result' category',r'⟩) :: post)
  /-- A completion says that the operation's save was committed, or that its audited part
  raised before that. -/
  completed : ∀ pre post i auditId result category r,
    log = pre ++ (i,⟨.completeTelemetryConfigAudit auditId result category,r⟩) :: post →
      ∃ change record mid, Auditing control operations pre i change record mid ∧
        record.auditId = auditId ∧
        (result = "succeeded" ∧
            Saved mid record.vehicleId (change.state control record.vehicleId) ∨
          result = "failed" ∧ ∃ e, category = some (errorCategory e) ∧
            Failed control (operations i).userId record.vehicleId change mid e)
  /-- A synced state is saved only after Tesla confirmed the configuration of its hash. -/
  synced : ∀ pre post i vehicleId state r,
    log = pre ++ (i,⟨.updateTelemetry vehicleId state,r⟩) :: post → state.status = "synced" →
      ∃ change profile record mid, Auditing control operations pre i change record mid ∧
        record.vehicleId = vehicleId ∧ state.configHash = some (desiredHash control profile) ∧
        Confirmed control mid change.vehicle.vin (desiredConfig control profile)

variable (control : Control) (operations : ι → Operation)

def Reached (audits₀ : List String) (log : ConfigLog ι) (ps : ι → Controlling Reply)
    (audits : List String) : Prop :=
  Run configMachine (fun i => (operations i).program control) audits₀ log ps audits

variable {control operations} {audits₀ audits : List String} {log : ConfigLog ι}
  {ps : ι → Controlling Reply}

theorem rules_at {pre post : ConfigLog ι} {i : ι} {op : Call} {r : Except Exc op.Ret}
    (run : Reached control operations audits₀ (pre ++ (i,⟨op,r⟩) :: post) ps audits) :
    OperationRules control (operations i).userId (localEvents i pre) op := by
  obtain ⟨qs, t, c, k, t', before, turn, _, _⟩ := run.at_event
  exact before.allowed (operation_obeys_rules (operations i)) turn

/-- A completion is of the audit that its operation began, and has not completed since. -/
theorem completes_own {pre post : ConfigLog ι} {i : ι} {op : Call} {r : Except Exc op.Ret}
    {auditId : String}
    (run : Reached control operations audits₀ (pre ++ (i,⟨op,r⟩) :: post) ps audits)
    (hc : completedId op = some auditId) :
    UsesOwn begunId completedId auditId (localEvents i pre) := by
  have hrules := rules_at run
  cases op with
  | completeTelemetryConfigAudit id result category =>
    obtain rfl := Option.some.inj hc
    obtain ⟨change, record, mid, hu, rfl, _⟩ := hrules
    obtain ⟨before, he, _⟩ := hu.begun
    refine ⟨before, _, mid, he, rfl, ?_⟩
    intro d hd hcompletes
    have hquiet := hu.unaudited d hd
    cases hop : d.op with
    | completeTelemetryConfigAudit id result category =>
      rw [hop] at hquiet
      cases hquiet
    | _ =>
      rw [hop] at hcompletes
      cases hcompletes
  | _ => cases hc

/-- The state of a change that saves 'synced' has the hash of its profile. -/
theorem synced_state {change : Change} {vehicleId : String}
    (hs : (change.state control vehicleId).status = "synced") :
    ∃ profile, change.profile = some profile ∧
      (change.state control vehicleId).configHash = some (desiredHash control profile) := by
  cases change with
  | apply vehicle profile optIn => exact ⟨profile, rfl, rfl⟩
  | verify vehicle profile optIn => exact ⟨profile, rfl, rfl⟩
  | remove vehicle => exact absurd hs (by simp [Change.state])

theorem configurations_audited (run : Reached control operations audits₀ log ps audits) :
    ConfigGuarantees control operations log := by
  constructor
  · intro pre post i token base vin config r he
    subst he
    exact rules_at run
  · intro pre post i token base vin r he
    subst he
    exact rules_at run
  · intro pre mid post i j auditId result category r result' category' r' he
    apply configMachine_allocates.used_once completedId ?_ ?_ run he rfl rfl
    · intro e auditId auditId' hbegun hcompletes
      unfold begunId at hbegun
      split at hbegun
      · cases hcompletes
      · cases hbegun
    · intro pre' post' i' op r'' auditId' he' hc
      rw [he'] at run
      exact completes_own run hc
  · intro pre post i auditId result category r he
    subst he
    obtain ⟨change, record, mid, hu, rfl, hsettled⟩ := rules_at run
    refine ⟨change, record, mid, hu, rfl, ?_⟩
    rcases hsettled with ⟨hresult, _, hs⟩ | ⟨hresult, e, hcategory, hf⟩
    · exact .inl ⟨hresult, hs.saved⟩
    · exact .inr ⟨hresult, e, hcategory, hf⟩
  · intro pre post i vehicleId state r he hstatus
    subst he
    obtain ⟨change, record, mid, hu, rfl, rfl, hconfirmed⟩ := rules_at run
    obtain ⟨profile, hp, hhash⟩ := synced_state hstatus
    exact ⟨change, profile, record, mid, hu, rfl, hhash, hconfirmed profile hp⟩

end Runs

section Witness

/-- One user's apply and removal at the same time, of different vehicles. -/
def demoOperations : Bool → Operation
  | false => .apply "usr_1" "veh_1" demoHash true true "operator-onboarding"
  | true => .remove "usr_1" "veh_2" true "operator-onboarding"

def demoChoice (token : String) : Choice :=
  { answer := fun
      | .tokenHex _ => .ok token
      | call => demoAnswers demoFleet (fun _ => "1.3.0") (fun _ => .ok ()) [] call }

/-- The removal runs while the apply waits for its last steps. -/
def demoSchedule : List (Bool × Choice) :=
  List.replicate 12 (false,demoChoice "a0") ++ List.replicate 11 (true,demoChoice "b0") ++
    List.replicate 9 (false,demoChoice "a0")

def successes (log : ConfigLog Bool) : Nat :=
  log.countP (fun entry =>
    match entry.2.op with
    | .completeTelemetryConfigAudit _ result _ => decide (result = "succeeded")
    | _ => false)

set_option maxRecDepth 100000 in
theorem configurations_audited_demo :
    ∃ log ps audits, Reached demoControl demoOperations [] log ps audits ∧ successes log = 2 ∧
      (ps false).finished = true ∧ (ps true).finished = true ∧
      ConfigGuarantees demoControl demoOperations log := by
  obtain ⟨log, ps, audits, run, hp⟩ := run_of_schedule configMachine
    (fun i => (demoOperations i).program demoControl) [] demoSchedule
    (fun out => decide (successes out.1 = 2) && ((out.2.1 false).finished && (out.2.1 true).finished))
    (by decide +kernel)
  obtain ⟨hsuccesses, hfinished⟩ := Bool.and_eq_true_iff.mp hp
  obtain ⟨hfirst, hsecond⟩ := Bool.and_eq_true_iff.mp hfinished
  exact ⟨log, ps, audits, run, of_decide_eq_true hsuccesses, hfirst, hsecond,
    configurations_audited run⟩

end Witness

end Woodhouse.Telemetry
