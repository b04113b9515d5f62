import Mathlib.Data.List.Forall2
import Woodhouse.Telemetry.Segments

namespace Woodhouse.Telemetry
open Effects Python
open Gateway (Exc TelemetryConfigurationState VehicleRecord)

/-- The state that the store returned to this run for the vehicle. -/
def Stored (userId vehicleId : String) (state : TelemetryConfigurationState)
    (h : List TelemetryEvent) : Prop :=
  (⟨.getTelemetryConfiguration userId vehicleId,.ok state⟩ : TelemetryEvent) ∈ h

/-- The record of a reapply whose plan keeps the stored field selection. -/
structure Transport (control : Control) (vehicleId : String) (state : TelemetryConfigurationState)
    (record : ConfigAudit) : Prop where
  vehicle : record.vehicleId = vehicleId
  operation : record.operation = "apply"
  plan : ∃ profile, Reviewed control profile ∧
    record.desiredConfigHash = some (desiredHash control profile) ∧
    state.fieldConfigHash = some (profile.fieldConfigHash control.sha256Hex)

/-- Reviewed profiles with the same plan hash have the same planned document. -/
def PlanHashInjective (control : Control) : Prop :=
  ∀ profile profile', Reviewed control profile → Reviewed control profile' →
    desiredHash control profile = desiredHash control profile' →
    planDocument control.sha256Hex profile control.trust =
      planDocument control.sha256Hex profile' control.trust

/-- The record is of an apply. -/
def OfApply (record : ConfigAudit) : Prop := record.operation = "apply"

/-- A reapply that the reconciliation may make: of an active, opted-in vehicle whose stored
field hash is the planned one, and of any other than the canary only after the canary's apply. -/
structure Reapplies (control : Control) (userId canaryId : String) (listed : List VehicleRecord)
    (h : List TelemetryEvent) (entry vehicle : VehicleRecord) (profile : FleetTelemetryProfile) :
    Prop where
  listed : entry ∈ listed
  active : entry.authorizationStatus = .active
  audited : ∃ optIn record mid,
    Underway control userId OfApply h (.apply vehicle profile optIn) record mid ∧
      record.vehicleId = entry.vehicleId
  read : (⟨.onboarding (.getVehicle userId entry.vehicleId),.ok vehicle⟩ : TelemetryEvent) ∈ h
  stillActive : vehicle.authorizationStatus = .active
  fields : ∃ state, Stored userId entry.vehicleId state h ∧ state.transportMaintenanceOptIn = true ∧
    state.fieldConfigHash = some (profile.fieldConfigHash control.sha256Hex)
  gated : entry.vehicleId ≠ canaryId → Applied control userId canaryId h

def WriteAllowed (control : Control) (userId canaryId : String) (listed : List VehicleRecord)
    (h : List TelemetryEvent) (vin : String) (config : FleetTelemetryConfig) : Prop :=
  ∃ entry vehicle profile, Reapplies control userId canaryId listed h entry vehicle profile ∧
    vin = vehicle.vin ∧ config = desiredConfig control profile

/-- The calls of a reconciliation: audited applies, whose writes are allowed. -/
def TransportRules (control : Control) (userId canaryId : String) (listed : List VehicleRecord)
    (h : List TelemetryEvent) (op : Call) : Prop :=
  ConfigRules control userId OfApply h op ∧
  match op with
  | .configCreate _ _ vin config => WriteAllowed control userId canaryId listed h vin config
  | _ => True

section Vehicle
variable {control : Control} {userId canaryId vehicleId : String} {listed : List VehicleRecord}
  {base h : List TelemetryEvent} {state : TelemetryConfigurationState} {op : Call}

/-- Equal plan hashes mean that the field selection has not changed between the two reads. -/
theorem Transport.fields (hinjective : PlanHashInjective control) {record : ConfigAudit}
    (ht : Transport control vehicleId state record) {vehicle : VehicleRecord}
    {profile : FleetTelemetryProfile} {optIn : Bool}
    (hd : Describes control userId record (.apply vehicle profile optIn))
    (hr : Reviewed control profile) :
    state.fieldConfigHash = some (profile.fieldConfigHash control.sha256Hex) := by
  obtain ⟨planned, hplanned, hhash, hfields⟩ := ht.plan
  have hsame : desiredHash control profile = desiredHash control planned :=
    Option.some.inj (hd.hash.symm.trans hhash)
  have hdocument := hinjective profile planned hr hplanned hsame
  rw [hfields, fieldConfigHash_of_plan control.sha256Hex hdocument]

theorem transportRules_free (hf : op.free = true) :
    TransportRules control userId canaryId listed h op := by
  refine ⟨configRules_free hf, ?_⟩
  cases op <;> trivial

/-- The condition on calls `A` lets a reconciliation read, and reapply what it may. -/
structure Admits (control : Control) (userId canaryId : String) (listed : List VehicleRecord)
    (A : List TelemetryEvent → Call → Prop) : Prop where
  free : ∀ h op, op.free = true → A h op
  reapplies : ∀ entry ∈ listed, entry.authorizationStatus = .active →
    ∀ state h op, Stored userId entry.vehicleId state h → state.transportMaintenanceOptIn = true →
      (entry.vehicleId ≠ canaryId → Applied control userId canaryId h) →
      ConfigRules control userId (Transport control entry.vehicleId state) h op → A h op

theorem transportRules_admits (hinjective : PlanHashInjective control) :
    Admits control userId canaryId listed (TransportRules control userId canaryId listed) := by
  constructor
  · intro h op hf
    exact transportRules_free hf
  · intro entry hlisted hactive state h op hstored hopt hgate hc
    refine ⟨hc.mono (fun record ht => ht.operation), ?_⟩
    cases op with
    | configCreate token url vin config =>
      obtain ⟨vehicle, profile, optIn, record, mid, hu, rfl, rfl⟩ := hc
      obtain ⟨before, hbefore, hfound⟩ := hu.begun
      have hread := hfound.read
      rw [hu.scope.vehicle] at hread
      have hunderway : Underway control userId OfApply h (.apply vehicle profile optIn) record mid :=
        hu.mono (fun ht => ht.operation)
      have hfields := hu.scope.fields hinjective hu.describes (hfound.reviewed profile rfl)
      refine ⟨entry, vehicle, profile, ?_, rfl, rfl⟩
      refine ⟨hlisted, hactive, ⟨optIn, record, mid, hunderway, hu.scope.vehicle⟩, ?_, hfound.active,
        ⟨state, hstored, hopt, hfields⟩, hgate⟩
      rw [hbefore]
      exact List.mem_append_left _ hread
    | _ => trivial

theorem configRules_admits :
    Admits control userId canaryId listed (ConfigRules control userId (fun _ => True)) := by
  constructor
  · intro h op hf
    exact configRules_free hf
  · intro entry _ _ state h op _ _ _ hc
    exact hc.mono (fun _ _ => trivial)

/-- What the loop body does for one vehicle: its result says whether the apply succeeded. -/
def VehicleEnds (control : Control) (userId : String) (entry : VehicleRecord)
    (base h : List TelemetryEvent) (r : Except Exc VehicleResult) : Prop :=
  ∃ applied, Course control userId entry.vehicleId OfApply base h applied ∧
    ∀ result, r = .ok result → result.vehicleId = entry.vehicleId ∧
      (result.status = "synced" ↔ applied = true) ∧
      (applied = true ↔ ∃ reply, result = .applied reply)

theorem Steps.vehicleRaises {entry : VehicleRecord} (hs : Steps base h) (e : Exc) :
    VehicleEnds control userId entry base h (.error e) :=
  ⟨false, hs.course, fun result hr => by cases hr⟩

theorem Course.ofApply {returned : Bool}
    (hc : Course control userId vehicleId (Transport control vehicleId state) base h returned) :
    Course control userId vehicleId OfApply base h returned :=
  hc.mono (fun _ ht => ht.operation)

theorem reapply_obeys {entry : VehicleRecord} {profile : FleetTelemetryProfile}
    (hreviewed : Reviewed control profile)
    (hfields : state.fieldConfigHash = some (profile.fieldConfigHash control.sha256Hex)) :
    Obeys (ConfigRules control userId (Transport control entry.vehicleId state))
      (VehicleEnds control userId entry base)
      (reapply control userId entry (desiredHash control profile)) base := by
  have happly : Obeys (ConfigRules control userId (Transport control entry.vehicleId state))
      (fun h' r => Course control userId entry.vehicleId (Transport control entry.vehicleId state)
          base h' r.isOk ∧
        ∀ a, r = .ok a → a = .applied { status := "synced", vehicleId := entry.vehicleId,
                                        configHash := some (desiredHash control profile) })
      (do
        let result ← applyConfig control userId entry.vehicleId (desiredHash control profile) true true
          "transport-reconciler"
        return VehicleResult.applied result) base := by
    apply (applyConfig_obeys ?_).bind
    · intro h' result hq
      refine ⟨hq.1, ?_⟩
      intro a ha
      obtain rfl := Except.ok.inj ha
      rw [hq.2 result rfl]
    · intro h' e hq
      refine ⟨hq.1, ?_⟩
      intro a ha
      cases ha
    · intro record hplanned
      exact ⟨hplanned.vehicle, hplanned.operation, profile, hreviewed, hplanned.hash, hfields⟩
  apply happly.tryCatch
  · intro h' result hq
    refine ⟨true, hq.1.ofApply, ?_⟩
    intro result' hr
    obtain rfl := Except.ok.inj hr
    rw [hq.2 result rfl]
    exact ⟨rfl, by simp [VehicleResult.status], by simp⟩
  · intro h' e hq
    split
    · exact ⟨false, hq.1.ofApply, fun result hr => by cases hr⟩
    · refine ⟨false, hq.1.ofApply, ?_⟩
      intro result hr
      obtain rfl := Except.ok.inj hr
      exact ⟨rfl, by simp [VehicleResult.status], by simp⟩

variable {A : List TelemetryEvent → Call → Prop}

theorem Admits.capability (hA : Admits control userId canaryId listed A) (entry : VehicleRecord)
    (hs : Steps base h) :
    Obeys A (fun h' r => Steps base h' ∧ h <+: h' ∧ ∀ profile, r = .ok profile →
      Reviewed control profile) (capabilityProfile control userId entry) h := by
  have hread : Obeys (ConfigRules control userId (fun _ => False))
      (Ends (Steps base) (fun h' profile => Steps base h' ∧ Reviewed control profile))
      (capabilityProfile control userId entry) h := capabilityProfile_obeys entry hs
  refine (hread.extends.imp ?_).mono ?_
  · intro h' op hc
    exact hA.free h' op (free_of_configRules hc)
  · intro h' r hq
    obtain ⟨hends, hp⟩ := hq
    cases r with
    | ok profile =>
      refine ⟨hends.1, hp, ?_⟩
      intro profile' hr
      obtain rfl := Except.ok.inj hr
      exact hends.2
    | error e => exact ⟨hends, hp, fun profile hr => by cases hr⟩

theorem Steps.unapplied {entry : VehicleRecord} {result : VehicleResult} (hs : Steps base h)
    (hid : result.vehicleId = entry.vehicleId) (hstatus : result.status ≠ "synced")
    (hnone : ∀ reply, result ≠ .applied reply) :
    VehicleEnds control userId entry base h (.ok result) := by
  refine ⟨false, hs.course, ?_⟩
  intro result' hr
  obtain rfl := Except.ok.inj hr
  exact ⟨hid, by simp [hstatus], by simp [hnone]⟩

theorem reconcileVehicle_obeys (hA : Admits control userId canaryId listed A) {entry : VehicleRecord}
    (hlisted : entry ∈ listed) (hactive : entry.authorizationStatus = .active)
    (hgate : entry.vehicleId ≠ canaryId → Applied control userId canaryId base) :
    Obeys A (VehicleEnds control userId entry base) (reconcileVehicle control userId entry) base := by
  have hstart : Steps base base := steps_refl
  unfold reconcileVehicle perform
  rw [obeys_perform_bind]
  refine ⟨hA.free _ _ rfl, fun e => (hstart.step rfl).vehicleRaises e, ?_⟩
  intro state
  have hs₁ : Steps base (base ++ [⟨.getTelemetryConfiguration userId entry.vehicleId,.ok state⟩]) :=
    hstart.step rfl
  apply (hA.capability entry hs₁).bind
  · intro h₂ profile hq
    obtain ⟨hs₂, hp, hreviewed⟩ := hq
    split
    · apply hs₂.unapplied rfl
      · simp [VehicleResult.status]
      · intro reply he
        cases he
    · rename_i hopt
      split
      · apply hs₂.unapplied rfl
        · simp [VehicleResult.status]
        · intro reply he
          cases he
      · rename_i hfields
        have hstored : Stored userId entry.vehicleId state h₂ := by
          apply hp.subset
          simp
        have hreapply : Obeys (ConfigRules control userId (Transport control entry.vehicleId state))
            (VehicleEnds control userId entry h₂)
            (reapply control userId entry (desiredHash control profile)) h₂ :=
          reapply_obeys (hreviewed profile rfl) (not_not.mp hfields)
        refine (hreapply.since.imp ?_).mono ?_
        · intro h op hc
          apply hA.reapplies entry hlisted hactive state h op (hc.1.subset hstored) (by simpa using hopt)
          · intro hother
            exact (hgate hother).mono (hs₂.earlier.trans hc.1)
          · exact hc.2
        · intro h' r hq
          obtain ⟨applied, hcourse, hresult⟩ := hq
          exact ⟨applied, hcourse.after hs₂, hresult⟩
  · intro h₂ e hq
    exact Steps.vehicleRaises hq.1 e

end Vehicle

end Woodhouse.Telemetry
