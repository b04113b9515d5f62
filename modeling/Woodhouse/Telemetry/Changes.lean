import Woodhouse.Telemetry.Service

namespace Woodhouse.Telemetry
open Effects Python
open Gateway (Exc TelemetryConfigurationState VehicleRecord)

/-- The calls no rule is about. -/
def Call.free : Call → Bool
  | .updateTelemetry .. | .beginTelemetryConfigAudit _ | .completeTelemetryConfigAudit .. => false
  | .configCreate .. | .configDelete .. => false
  | _ => true

/-- The calls that neither save a state nor write an audit. -/
def Call.working : Call → Bool
  | .updateTelemetry .. | .beginTelemetryConfigAudit _ | .completeTelemetryConfigAudit .. => false
  | _ => true

def Call.auditing : Call → Bool
  | .beginTelemetryConfigAudit _ | .completeTelemetryConfigAudit .. => true
  | _ => false

def Unaudited (mid : List TelemetryEvent) : Prop := ∀ e ∈ mid, e.op.auditing = false

def Working (mid : List TelemetryEvent) : Prop := ∀ e ∈ mid, e.op.working = true

/-- The history is `base` and then calls that neither save nor audit. -/
def Steps (base h : List TelemetryEvent) : Prop := ∃ mid, h = base ++ mid ∧ Working mid

section Steps
variable {base h mid : List TelemetryEvent} {op : Call} {r : Except Exc op.Ret}

theorem working_of_free (hf : op.free = true) : op.working = true := by
  cases op <;> first | rfl | cases hf

theorem Working.unaudited (hw : Working mid) : Unaudited mid := by
  intro e he
  have hwork := hw e he
  cases hop : e.op <;> first | rfl | (rw [hop] at hwork; cases hwork)

theorem Working.append {rest : List TelemetryEvent} (hw : Working mid) (hr : Working rest) :
    Working (mid ++ rest) := by
  intro e he
  rcases List.mem_append.mp he with he | he
  · exact hw e he
  · exact hr e he

theorem Working.single (hw : op.working = true) : Working [⟨op,r⟩] := by
  intro e he
  rw [List.mem_singleton.mp he]
  exact hw

theorem working_nil : Working [] := by
  intro e he
  cases he

theorem steps_refl : Steps base base := ⟨[], by simp, working_nil⟩

theorem Steps.step (hs : Steps base h) (hw : op.working = true) : Steps base (h ++ [⟨op,r⟩]) := by
  obtain ⟨mid, rfl, hmid⟩ := hs
  exact ⟨mid ++ [⟨op,r⟩], by simp, hmid.append (Working.single hw)⟩

theorem Steps.trans {h' : List TelemetryEvent} (hs : Steps base h) (hs' : Steps h h') :
    Steps base h' := by
  obtain ⟨mid, rfl, hmid⟩ := hs
  obtain ⟨rest, rfl, hrest⟩ := hs'
  exact ⟨mid ++ rest, by simp, hmid.append hrest⟩

theorem Steps.earlier (hs : Steps base h) : base <+: h := by
  obtain ⟨mid, rfl, _⟩ := hs
  exact List.prefix_append _ _

end Steps

/-- What the audited part of an operation works on. -/
inductive Change where
  | apply (vehicle : VehicleRecord) (profile : FleetTelemetryProfile) (optIn : Bool)
  | verify (vehicle : VehicleRecord) (profile : FleetTelemetryProfile) (optIn : Bool)
  | remove (vehicle : VehicleRecord)

namespace Change

def vehicle : Change → VehicleRecord
  | .apply vehicle _ _ | .verify vehicle _ _ | .remove vehicle => vehicle

def profile : Change → Option FleetTelemetryProfile
  | .apply _ profile _ | .verify _ profile _ => some profile
  | .remove _ => none

def operation : Change → String
  | .apply .. => "apply"
  | .verify .. => "verify"
  | .remove _ => "remove"

variable (control : Control) (userId vehicleId : String)

/-- The state that the change saves in the end. -/
def state : Change → TelemetryConfigurationState
  | .apply _ profile optIn | .verify _ profile optIn => syncedState control vehicleId profile optIn
  | .remove _ => { vehicleId, status := "removed" }

/-- The `try` of the operation. -/
def program : Change → Controlling Unit
  | .apply vehicle profile optIn => do
    createConfiguration userId vehicle (desiredConfig control profile)
    confirmAndSave control userId vehicle vehicleId profile optIn
  | .verify vehicle profile optIn => confirmAndSave control userId vehicle vehicleId profile optIn
  | .remove vehicle => do
    execute userId (fun accessToken baseUrl => perform (.configDelete accessToken baseUrl vehicle.vin))
    saveTelemetryConfiguration userId vehicleId { vehicleId, status := "removed" }

end Change

section Rules
variable (control : Control)

/-- Tesla reported the configuration of the vehicle as synced and in sync with the desired
one, and after that an error list without relevant errors. -/
def Confirmed (mid : List TelemetryEvent) (vin : String) (desired : FleetTelemetryConfig) : Prop :=
  ∃ mid₁ token base response current difference mid₂ token' base' errors mid₃ now,
    mid = mid₁ ++ ⟨.configGet token base vin,.ok response⟩ ::
      (mid₂ ++ ⟨.telemetryErrors token' base' vin,.ok errors⟩ :: mid₃) ∧
    isSynced response = true ∧ parseTeslaConfig response = .ok (some current) ∧
    configDiff control.sha256Hex control.loadPemCertificates (some current) desired =
      .ok difference ∧ difference.status = "in_sync" ∧
    hasRelevantErrors now errors = false ∧
    ∀ items, errors = .arr items → ∃ rest, mid₃ = ⟨.onboarding .utcNow,.ok now⟩ :: rest

def Reviewed (profile : FleetTelemetryProfile) : Prop :=
  ∃ version, broadProfile control.reviewed version = .ok profile

variable (userId : String)

/-- The history has found the vehicle of the change eligible. -/
structure Found (before : List TelemetryEvent) (vehicleId : String) (change : Change) : Prop where
  read : (⟨.onboarding (.getVehicle userId vehicleId),.ok change.vehicle⟩ : TelemetryEvent) ∈ before
  active : change.vehicle.authorizationStatus = .active
  reviewed : ∀ profile, change.profile = some profile → Reviewed control profile

/-- The record names the operation, and the hash of what it wants. -/
structure Describes (record : ConfigAudit) (change : Change) : Prop where
  owner : record.ownerUserId = userId
  operation : record.operation = change.operation
  hash : record.desiredConfigHash = change.profile.map (desiredHash control)

/-- The operation stands after `mid`, in the audited part that the committed `record` began. -/
structure Underway (P : ConfigAudit → Prop) (h : List TelemetryEvent) (change : Change)
    (record : ConfigAudit) (mid : List TelemetryEvent) : Prop where
  scope : P record
  describes : Describes control userId record change
  begun : ∃ before, h = before ++ ⟨.beginTelemetryConfigAudit record,.ok ()⟩ :: mid ∧
    Found control userId before record.vehicleId change
  unaudited : Unaudited mid

def Saved (mid : List TelemetryEvent) (vehicleId : String) (state : TelemetryConfigurationState) : Prop :=
  (⟨.updateTelemetry vehicleId state,.ok ()⟩ : TelemetryEvent) ∈ mid

/-- The audited part returned. -/
structure Succeeded (vehicleId : String) (change : Change) (mid : List TelemetryEvent) : Prop where
  run : Trace (change.program control userId vehicleId) mid (.ret ())
  saved : Saved mid vehicleId (change.state control vehicleId)
  confirmed : ∀ profile, change.profile = some profile →
    Confirmed control mid change.vehicle.vin (desiredConfig control profile)

/-- The audited part raised. -/
structure Failed (vehicleId : String) (change : Change) (mid : List TelemetryEvent) (e : Exc) :
    Prop where
  run : Trace (change.program control userId vehicleId) mid (.raise e)
  unsaved : ∀ vehicleId state, ¬ Saved mid vehicleId state

/-- How the audited part ended, and what its completion says of it. -/
def Settled (vehicleId : String) (change : Change) (mid : List TelemetryEvent) (result : String)
    (category : Option String) : Prop :=
  result = "succeeded" ∧ category = none ∧ Succeeded control userId vehicleId change mid ∨
  result = "failed" ∧ ∃ e, category = some (errorCategory e) ∧
    Failed control userId vehicleId change mid e

/-- When an operation makes the calls its audits are about. -/
def ConfigRules (P : ConfigAudit → Prop) (h : List TelemetryEvent) : Call → Prop
  | .configCreate _ _ vin config => ∃ vehicle profile optIn record mid,
    Underway control userId P h (.apply vehicle profile optIn) record mid ∧
      vin = vehicle.vin ∧ config = desiredConfig control profile
  | .configDelete _ _ vin => ∃ vehicle record mid,
    Underway control userId P h (.remove vehicle) record mid ∧ vin = vehicle.vin
  | .updateTelemetry vehicleId state => ∃ change record mid,
    Underway control userId P h change record mid ∧ vehicleId = record.vehicleId ∧
      state = change.state control vehicleId ∧
      ∀ profile, change.profile = some profile →
        Confirmed control mid change.vehicle.vin (desiredConfig control profile)
  | .beginTelemetryConfigAudit record => P record
  | .completeTelemetryConfigAudit auditId result category => ∃ change record mid,
    Underway control userId P h change record mid ∧ auditId = record.auditId ∧
      Settled control userId record.vehicleId change mid result category
  | _ => True

end Rules

theorem configRules_free {control : Control} {userId : String} {P : ConfigAudit → Prop}
    {h : List TelemetryEvent} {op : Call} (hf : op.free = true) :
    ConfigRules control userId P h op := by
  cases op <;> trivial

end Woodhouse.Telemetry
