import Woodhouse.Telemetry.Cutover

namespace Woodhouse.Telemetry
open Effects Python
open Gateway (Exc TelemetryConfigurationState VehicleRecord)

section Specification
variable (control : Control) (userId : String)

/-- The reads of the loop body, before it decides what to do with the vehicle. -/
def checkVehicle (vehicle : VehicleRecord) :
    Controlling (TelemetryConfigurationState × FleetTelemetryProfile) := do
  let state ← perform (.getTelemetryConfiguration userId vehicle.vehicleId)
  let profile ← capabilityProfile control userId vehicle
  return (state,profile)

/-- The processing of one vehicle, with every failure of it raised. -/
def processVehicle (vehicle : VehicleRecord) : Controlling VehicleResult := do
  let (state, profile) ← checkVehicle control userId vehicle
  if state.transportMaintenanceOptIn = false then return .optInRequired vehicle.vehicleId
  else if state.fieldConfigHash ≠ some (profile.fieldConfigHash control.sha256Hex) then
    return .fieldDriftBlocked vehicle.vehicleId
  else
    let result ← applyConfig control userId vehicle.vehicleId (desiredHash control profile) true true
      "transport-reconciler"
    return .applied result

/-- A vehicle's failure becomes its result, unless it aborts the reconciliation. -/
def isolated (vehicle : VehicleRecord) (p : Controlling VehicleResult) : Controlling VehicleResult :=
  tryCatch p fun e =>
    if abortsReconciliation e then throw e
    else pure (.failed vehicle.vehicleId (errorCategory e))

/-- The vehicles after the canary, each processed independently of the others' failures. -/
def processOthers : List VehicleRecord → Controlling (List VehicleResult)
  | [] => return []
  | vehicle :: rest => do
    let result ← isolated vehicle (processVehicle control userId vehicle)
    let results ← processOthers rest
    return result :: results

variable (answers : Answers Call Call.Ret Exc)

/-- No vehicle's stored state or capability fails to be read, where its turn comes. -/
def ChecksPass : List VehicleRecord → List TelemetryEvent → Prop
  | [], _ => True
  | vehicle :: rest, h =>
    (∃ checked, ((checkVehicle control userId vehicle).run answers h).2 = .ok checked) ∧
    ChecksPass rest ((isolated vehicle (processVehicle control userId vehicle)).run answers h).1

/-- A run comes to the vehicles `others` after the canary's apply, some of them fail, and no
failure aborts the reconciliation: independently processed, they give `results`. -/
structure Failing (canaryId : String) (listed : List VehicleRecord) (canary : VehicleRecord)
    (reply : OperationResult) (start h : List TelemetryEvent) (results : List VehicleResult) :
    Prop where
  lists : answers [] (.listVehicles userId) = .ok listed
  selects : selectedVehicle (activeVehicles listed) canaryId = some canary
  applied : (reconcileVehicle control userId canary).run answers
    [⟨.listVehicles userId,.ok listed⟩] = (start, .ok (.applied reply))
  processed : (processOthers control userId
    ((activeVehicles listed).filter (fun vehicle => vehicle.vehicleId ≠ canaryId))).run answers start =
      (h, .ok results)
  failed : ∃ vehicleId category, VehicleResult.failed vehicleId category ∈ results

/-- The reconciliation makes the calls of the independent processing, and returns 'blocked'
with its results. -/
def Continues (canaryId : String) (reply : OperationResult) (h : List TelemetryEvent)
    (results : List VehicleResult) : Prop :=
  ∃ reconciliation,
    (reconcileOptedInTransport control userId canaryId).run answers [] = (h, .ok reconciliation) ∧
    reconciliation.status = "blocked" ∧ reconciliation.vehicles = .applied reply :: results

end Specification

section Isolation
variable {control : Control} {userId canaryId : String} {answers : Answers Call Call.Ret Exc}
  {h : List TelemetryEvent}

/-- The loop body checks the vehicle, and then isolates what it does with it. -/
theorem reconcileVehicle_eq (vehicle : VehicleRecord) :
    reconcileVehicle control userId vehicle = (checkVehicle control userId vehicle >>= fun checked =>
      if checked.1.transportMaintenanceOptIn = false then .ret (.optInRequired vehicle.vehicleId)
      else if checked.1.fieldConfigHash ≠ some (checked.2.fieldConfigHash control.sha256Hex) then
        .ret (.fieldDriftBlocked vehicle.vehicleId)
      else reapply control userId vehicle (desiredHash control checked.2)) := by
  unfold reconcileVehicle checkVehicle
  simp only [Prog.bind_assoc, Prog.pure_eq, Prog.ret_bind]

theorem vehicle_passes {vehicle : VehicleRecord} {checked : TelemetryConfigurationState × FleetTelemetryProfile}
    (hc : ((checkVehicle control userId vehicle).run answers h).2 = .ok checked) :
    (reconcileVehicle control userId vehicle).run answers h =
      (isolated vehicle (processVehicle control userId vehicle)).run answers h := by
  have hcheck : (checkVehicle control userId vehicle).run answers h =
      (((checkVehicle control userId vehicle).run answers h).1, .ok checked) := Prod.ext rfl hc
  rw [reconcileVehicle_eq, run_bind_ok hcheck]
  unfold isolated processVehicle
  rw [run_tryCatch, run_bind_ok hcheck]
  dsimp only
  split
  · rfl
  · split
    · rfl
    · unfold reapply
      rw [run_tryCatch]

theorem vehicle_fails {vehicle : VehicleRecord} {h' : List TelemetryEvent} {e : Exc}
    (hc : (checkVehicle control userId vehicle).run answers h = (h', .error e)) :
    (reconcileVehicle control userId vehicle).run answers h = (h', .error e) := by
  rw [reconcileVehicle_eq, run_bind_error hc]

theorem others_continue {others : List VehicleRecord}
    (hpass : ChecksPass control userId answers others h) :
    (reconcileOthers control userId others).run answers h =
      (processOthers control userId others).run answers h := by
  induction others generalizing h with
  | nil => rfl
  | cons vehicle rest ih =>
    obtain ⟨⟨checked, hc⟩, hrest⟩ := hpass
    unfold reconcileOthers processOthers
    rw [run_bind, run_bind, vehicle_passes hc]
    cases hv : (isolated vehicle (processVehicle control userId vehicle)).run answers h with
    | mk h₁ r =>
      cases r with
      | error e => rfl
      | ok result =>
        dsimp only
        rw [hv] at hrest
        rw [run_bind, run_bind, ih hrest]

theorem others_abort {others : List VehicleRecord} {h' : List TelemetryEvent}
    {results : List VehicleResult} (hfails : ¬ ChecksPass control userId answers others h)
    (hprocessed : (processOthers control userId others).run answers h = (h', .ok results)) :
    ∃ h'' e, (reconcileOthers control userId others).run answers h = (h'', .error e) := by
  induction others generalizing h h' results with
  | nil => exact absurd trivial hfails
  | cons vehicle rest ih =>
    unfold reconcileOthers
    cases hc : (checkVehicle control userId vehicle).run answers h with
    | mk h₀ r₀ =>
      cases r₀ with
      | error e => exact ⟨h₀, e, run_bind_error (vehicle_fails hc)⟩
      | ok checked =>
        have hchecked : ((checkVehicle control userId vehicle).run answers h).2 = .ok checked := by
          rw [hc]
        unfold processOthers at hprocessed
        rw [run_bind, vehicle_passes hchecked]
        rw [run_bind] at hprocessed
        cases hv : (isolated vehicle (processVehicle control userId vehicle)).run answers h with
        | mk h₁ r₁ =>
          rw [hv] at hprocessed
          cases r₁ with
          | error e => exact ⟨h₁, e, rfl⟩
          | ok result =>
            dsimp only at hprocessed ⊢
            rw [run_bind] at hprocessed ⊢
            cases hrest : (processOthers control userId rest).run answers h₁ with
            | mk h₂ r₂ =>
              rw [hrest] at hprocessed
              cases r₂ with
              | error e => cases hprocessed
              | ok results' =>
                have hnot : ¬ ChecksPass control userId answers rest h₁ := by
                  intro hpass
                  apply hfails
                  refine ⟨⟨checked, hchecked⟩, ?_⟩
                  rw [hv]
                  exact hpass
                obtain ⟨h₃, e, hrun⟩ := ih hnot hrest
                rw [hrun]
                exact ⟨h₃, e, rfl⟩

variable {listed : List VehicleRecord} {canary : VehicleRecord} {reply : OperationResult}
  {start : List TelemetryEvent} {results : List VehicleResult}

/-- The run after the canary's apply. -/
theorem reconcile_run
    (hf : Failing control userId answers canaryId listed canary reply start h results) :
    (reconcileOptedInTransport control userId canaryId).run answers [] =
      (reconcileOthers control userId ((activeVehicles listed).filter
          (fun vehicle => vehicle.vehicleId ≠ canaryId)) >>= fun results =>
        .ret (reconciliationOf control (canary :: (activeVehicles listed).filter
          (fun vehicle => vehicle.vehicleId ≠ canaryId)) (.applied reply :: results))).run answers
        start := by
  have hlist : (perform (.listVehicles userId)).run answers [] =
      ([⟨.listVehicles userId,.ok listed⟩], .ok listed) := by
    unfold perform
    rw [run_perform, hf.lists]
    rfl
  unfold reconcileOptedInTransport
  rw [run_bind_ok hlist]
  have hselects := hf.selects
  unfold activeVehicles at hselects
  dsimp only
  rw [hselects]
  dsimp only
  unfold reconcileOrdered
  rw [Prog.bind_assoc, run_bind_ok hf.applied]
  simp only [Prog.bind_assoc, Prog.pure_eq, Prog.ret_bind]
  rfl

theorem reconciliation_continues_iff
    (hf : Failing control userId answers canaryId listed canary reply start h results) :
    Continues control userId answers canaryId reply h results ↔
      ChecksPass control userId answers ((activeVehicles listed).filter
        (fun vehicle => vehicle.vehicleId ≠ canaryId)) start := by
  unfold Continues
  rw [reconcile_run hf]
  constructor
  · intro hcontinues
    obtain ⟨reconciliation, hrun, _⟩ := hcontinues
    by_contra hnot
    obtain ⟨h', e, habort⟩ := others_abort hnot hf.processed
    rw [run_bind_error habort] at hrun
    cases hrun
  · intro hpass
    have hothers := (others_continue hpass).trans hf.processed
    refine ⟨_, run_bind_ok hothers, ?_, rfl⟩
    obtain ⟨vehicleId, category, hm⟩ := hf.failed
    unfold reconciliationOf
    dsimp only
    rw [if_neg]
    intro hready
    have hsynced := List.all_eq_true.mp hready.2 _ (List.mem_cons_of_mem _ hm)
    simp [VehicleResult.status] at hsynced

end Isolation

section Demo

def demoOthers (vehicles : List VehicleRecord) : List VehicleRecord :=
  (activeVehicles vehicles).filter (fun vehicle => vehicle.vehicleId ≠ "veh_2")

/-- The history after the canary's apply. -/
def demoStart (vehicles : List VehicleRecord) (answers : Answers Call Call.Ret Exc) :
    List TelemetryEvent :=
  ((reconcileVehicle demoControl "usr_1" (demoVehicle "veh_2" "LRW1")).run answers
    [⟨.listVehicles "usr_1",.ok vehicles⟩]).1

def demoReply : OperationResult :=
  { status := "synced", vehicleId := "veh_2", configHash := some demoHash }

def demoProcessed (vehicles : List VehicleRecord) (answers : Answers Call Call.Ret Exc) :
    List TelemetryEvent × Except Exc (List VehicleResult) :=
  (processOthers demoControl "usr_1" (demoOthers vehicles)).run answers (demoStart vehicles answers)

/-- The second vehicle's client is too old for the profile. -/
def outdatedAnswers : Answers Call Call.Ret Exc :=
  demoAnswers demoFleet (fun vin => if vin = "LRW0" then "0.9.0" else "1.3.0") (fun _ => .ok ())

set_option maxRecDepth 100000 in
theorem outdated_failing :
    Failing demoControl "usr_1" outdatedAnswers "veh_2" demoFleet (demoVehicle "veh_2" "LRW1") demoReply
      (demoStart demoFleet outdatedAnswers) (demoProcessed demoFleet outdatedAnswers).1
      [.failed "veh_1" "telemetry_client_upgrade_required"] := by
  constructor
  · rfl
  · decide +kernel
  · exact Prod.ext rfl (by decide +kernel)
  · exact Prod.ext rfl (by decide +kernel)
  · exact ⟨"veh_1", "telemetry_client_upgrade_required", by simp⟩

set_option maxRecDepth 100000 in
/-- The failed capability check of the second vehicle aborts the run. -/
theorem outdated_vehicle_aborts :
    ¬ ∀ (control : Control) (userId : String) (answers : Answers Call Call.Ret Exc) (canaryId : String)
      (listed : List VehicleRecord) (canary : VehicleRecord) (reply : OperationResult)
      (start h : List TelemetryEvent) (results : List VehicleResult),
      Failing control userId answers canaryId listed canary reply start h results →
      Continues control userId answers canaryId reply h results := by
  intro hclaim
  obtain ⟨reconciliation, hrun, _⟩ := hclaim _ _ _ _ _ _ _ _ _ _ outdated_failing
  have hraises : ((reconcileOptedInTransport demoControl "usr_1" "veh_2").run outdatedAnswers []).2 =
      .error (.telemetryConfiguration "telemetry_client_upgrade_required"
        "The actual Fleet Telemetry client reported by Tesla must be 1.0.0 or later") := by
    decide +kernel
  rw [hrun] at hraises
  cases hraises

/-- A third vehicle comes after the one whose save fails. -/
def trioFleet : List VehicleRecord := demoFleet ++ [demoVehicle "veh_3" "LRW2"]

/-- The save of `veh_1` fails. -/
def unsavedAnswers : Answers Call Call.Ret Exc :=
  demoAnswers trioFleet (fun _ => "1.3.0") demoUnsaved

def unsavedResults : List VehicleResult :=
  [.failed "veh_1" "unexpected_error",.applied { demoReply with vehicleId := "veh_3" }]

set_option maxRecDepth 100000 in
theorem unsaved_failing :
    Failing demoControl "usr_1" unsavedAnswers "veh_2" trioFleet (demoVehicle "veh_2" "LRW1") demoReply
      (demoStart trioFleet unsavedAnswers) (demoProcessed trioFleet unsavedAnswers).1
      unsavedResults := by
  constructor
  · rfl
  · decide +kernel
  · exact Prod.ext rfl (by decide +kernel)
  · exact Prod.ext rfl (by decide +kernel)
  · exact ⟨"veh_1", "unexpected_error", by simp [unsavedResults]⟩

/-- The history after the failed apply of `veh_1`. -/
def unsavedStart : List TelemetryEvent :=
  ((isolated (demoVehicle "veh_1" "LRW0")
    (processVehicle demoControl "usr_1" (demoVehicle "veh_1" "LRW0"))).run unsavedAnswers
    (demoStart trioFleet unsavedAnswers)).1

theorem checked_of_isOk {control : Control} {userId : String} {answers : Answers Call Call.Ret Exc}
    {vehicle : VehicleRecord} {h : List TelemetryEvent}
    (hok : ((checkVehicle control userId vehicle).run answers h).2.isOk = true) :
    ∃ checked, ((checkVehicle control userId vehicle).run answers h).2 = .ok checked := by
  cases hr : ((checkVehicle control userId vehicle).run answers h).2 with
  | ok checked => exact ⟨checked, rfl⟩
  | error e =>
    rw [hr] at hok
    cases hok

set_option maxRecDepth 100000 in
theorem reconciliation_continues_unsaved :
    Continues demoControl "usr_1" unsavedAnswers "veh_2" demoReply
      (demoProcessed trioFleet unsavedAnswers).1 unsavedResults := by
  apply (reconciliation_continues_iff unsaved_failing).mpr
  have hfirst : ((checkVehicle demoControl "usr_1" (demoVehicle "veh_1" "LRW0")).run unsavedAnswers
      (demoStart trioFleet unsavedAnswers)).2.isOk = true := by
    decide +kernel
  have hsecond : ((checkVehicle demoControl "usr_1" (demoVehicle "veh_3" "LRW2")).run unsavedAnswers
      unsavedStart).2.isOk = true := by
    decide +kernel
  exact ⟨checked_of_isOk hfirst, checked_of_isOk hsecond, trivial⟩

end Demo

end Woodhouse.Telemetry
