import Woodhouse.Telemetry.Audits

namespace Woodhouse.Telemetry
open Effects Python
open Gateway (Exc TelemetryConfigurationState VehicleRecord VehicleDocument)

/-- The registry, Tesla's current configuration of every VIN, the VINs of the creates and
deletes that Tesla has accepted, newest first, and the audit documents. -/
structure World where
  db : Gateway.Database
  tesla : String → Option FleetTelemetryConfig
  accepted : List String
  audits : List String

/-- The environment's answer to a call. `landed` says whether Tesla accepted a create or
delete, and whether a store write that raised was committed all the same. -/
structure Fate where
  answer : (call : Call) → Except Exc call.Ret
  landed : Bool

/-- The write took effect. -/
def Fate.commits (fate : Fate) (call : Call) : Bool := (fate.answer call).isOk || fate.landed

namespace World
variable (w : World)

def accept (vin : String) (config : Option FleetTelemetryConfig) : World :=
  { w with tesla := Function.update w.tesla vin config, accepted := vin :: w.accepted }

def save (vehicleId : String) (state : TelemetryConfigurationState) : World :=
  match w.db.updateTelemetry vehicleId state with
  | .ok db => { w with db }
  | .error _ => w

/-- What a call leaves. -/
def after (fate : Fate) : Call → World
  | .updateTelemetry vehicleId state =>
    if fate.commits (.updateTelemetry vehicleId state) then w.save vehicleId state else w
  | .beginTelemetryConfigAudit record =>
    if fate.commits (.beginTelemetryConfigAudit record) then
      { w with audits := record.auditId :: w.audits }
    else w
  | .configCreate _ _ vin config => if fate.landed then w.accept vin (some config) else w
  | .configDelete _ _ vin => if fate.landed then w.accept vin none else w
  | _ => w

/-- What a call returns: a read of the registry returns what it holds, or raises. -/
def respond (fate : Fate) : (call : Call) → Except Exc call.Ret
  | .onboarding (.getVehicle owner vehicleId) =>
    fate.answer (.onboarding (.getVehicle owner vehicleId)) >>= fun _ =>
      w.db.getVehicle owner vehicleId
  | .getTelemetryConfiguration owner vehicleId =>
    fate.answer (.getTelemetryConfiguration owner vehicleId) >>= fun _ =>
      w.db.getTelemetryConfiguration owner vehicleId
  | .updateTelemetry vehicleId state =>
    fate.answer (.updateTelemetry vehicleId state) >>= fun _ =>
      (w.db.updateTelemetry vehicleId state).map (fun _ => ())
  | call => fate.answer call

/-- A configuration that reads as one is Tesla's current one. -/
def reports (vin : String) (response : Dict Json) : Bool :=
  match parseTeslaConfig response with
  | .ok current => decide (current = w.tesla vin)
  | .error _ => true

/-- The answers that the store and Tesla can give. -/
def allows (fate : Fate) : Call → Bool
  | .beginTelemetryConfigAudit record =>
    !(fate.answer (.beginTelemetryConfigAudit record)).isOk || decide (record.auditId ∉ w.audits)
  | .configGet token base vin =>
    match fate.answer (.configGet token base vin) with
    | .ok response => w.reports vin response
    | .error _ => true
  | _ => true

end World

/-- The control plane's environment. Tesla's configuration of a VIN is changed by the creates
and deletes it accepts, and is what a read of it returns. -/
def provenanceMachine : Machine Call Call.Ret Exc World Fate := fun w call fate =>
  if w.allows fate call then some (w.respond fate call, w.after fate call) else none

section Machine
variable {w w' : World} {op : Call} {fate : Fate} {r : Except Exc op.Ret}

theorem machine_eq (does : provenanceMachine w op fate = some (r,w')) :
    w.allows fate op = true ∧ w.respond fate op = r ∧ w.after fate op = w' := by
  unfold provenanceMachine at does
  split at does
  · rename_i hallows
    obtain ⟨hr, hw⟩ := Prod.mk.inj (Option.some.inj does)
    exact ⟨hallows, hr, hw⟩
  · cases does

/-- A save writes the telemetry fields of a vehicle that exists. -/
theorem save_cases (vehicleId : String) (state : TelemetryConfigurationState) :
    w.save vehicleId state = w ∨ ∃ data, w.db.vehicles vehicleId = some data ∧
      w.save vehicleId state =
        { w with db := w.db.setVehicle vehicleId { data with telemetry := state.fields } } := by
  unfold World.save Gateway.Database.updateTelemetry
  cases hdata : w.db.vehicles vehicleId with
  | none => exact .inl rfl
  | some data => exact .inr ⟨data, rfl, rfl⟩

/-- What one call does to the registry: nothing, or a save of the vehicle that it names. -/
theorem registry_step (does : provenanceMachine w op fate = some (r,w')) :
    w'.db = w.db ∨ ∃ vehicleId state data, op = .updateTelemetry vehicleId state ∧
      w.db.vehicles vehicleId = some data ∧
      w'.db = w.db.setVehicle vehicleId { data with telemetry := state.fields } := by
  obtain ⟨_, _, rfl⟩ := machine_eq does
  cases op with
  | updateTelemetry vehicleId state =>
    unfold World.after
    dsimp only
    split
    · rcases @save_cases w vehicleId state with hw | ⟨data, hdata, hw⟩
      · rw [hw]
        exact .inl rfl
      · rw [hw]
        exact .inr ⟨vehicleId, state, data, rfl, hdata, rfl⟩
    · exact .inl rfl
  | beginTelemetryConfigAudit record =>
    unfold World.after
    dsimp only
    split <;> exact .inl rfl
  | configCreate token base vin config =>
    unfold World.after
    dsimp only
    split <;> exact .inl rfl
  | configDelete token base vin =>
    unfold World.after
    dsimp only
    split <;> exact .inl rfl
  | _ => exact .inl rfl

/-- Tesla's side does not change, or Tesla accepts a create or delete of one VIN. -/
theorem tesla_step (does : provenanceMachine w op fate = some (r,w')) :
    w'.tesla = w.tesla ∧ w'.accepted = w.accepted ∨
    ∃ vin config, w'.tesla = Function.update w.tesla vin config ∧ w'.accepted = vin :: w.accepted := by
  obtain ⟨_, _, rfl⟩ := machine_eq does
  cases op with
  | updateTelemetry vehicleId state =>
    unfold World.after
    dsimp only
    split
    · rcases @save_cases w vehicleId state with he | ⟨data, _, he⟩
      · rw [he]
        exact .inl ⟨rfl, rfl⟩
      · rw [he]
        exact .inl ⟨rfl, rfl⟩
    · exact .inl ⟨rfl, rfl⟩
  | beginTelemetryConfigAudit record =>
    unfold World.after
    dsimp only
    split <;> exact .inl ⟨rfl, rfl⟩
  | configCreate token base vin config =>
    unfold World.after
    dsimp only
    split
    · exact .inr ⟨vin, some config, rfl, rfl⟩
    · exact .inl ⟨rfl, rfl⟩
  | configDelete token base vin =>
    unfold World.after
    dsimp only
    split
    · exact .inr ⟨vin, none, rfl, rfl⟩
    · exact .inl ⟨rfl, rfl⟩
  | _ => exact .inl ⟨rfl, rfl⟩

/-- A read that parses returned Tesla's configuration at that moment. -/
theorem read_current {token base vin : String} {response : Dict Json}
    {current : Option FleetTelemetryConfig}
    (does : provenanceMachine w (.configGet token base vin) fate = some (.ok response,w'))
    (hparse : parseTeslaConfig response = .ok current) : w' = w ∧ w.tesla vin = current := by
  obtain ⟨hallows, hr, rfl⟩ := machine_eq does
  refine ⟨rfl, ?_⟩
  have hanswer : fate.answer (.configGet token base vin) = .ok response := hr
  unfold World.allows World.reports at hallows
  dsimp only at hallows
  rw [hanswer] at hallows
  dsimp only at hallows
  rw [hparse] at hallows
  exact (of_decide_eq_true hallows).symm

theorem getVehicle_vin {owner vehicleId : String} {vehicle : VehicleRecord}
    (does : provenanceMachine w (.onboarding (.getVehicle owner vehicleId)) fate =
      some (.ok vehicle,w')) :
    (w.db.vehicles vehicleId).map VehicleDocument.vin = some vehicle.vin := by
  obtain ⟨_, hr, _⟩ := machine_eq does
  unfold World.respond at hr
  dsimp only at hr
  cases hanswer : fate.answer (.onboarding (.getVehicle owner vehicleId)) with
  | error e =>
    rw [hanswer] at hr
    cases hr
  | ok answered =>
    rw [hanswer] at hr
    have hread : w.db.getVehicle owner vehicleId = .ok vehicle := hr
    unfold Gateway.Database.getVehicle at hread
    split at hread
    · cases hread
    · rename_i data hdata
      split at hread
      · cases hread
      · rw [hdata, ← Except.ok.inj hread]
        rfl

/-- The VIN of a vehicle document never changes. -/
theorem vin_step (does : provenanceMachine w op fate = some (r,w')) (vehicleId : String) :
    (w'.db.vehicles vehicleId).map VehicleDocument.vin =
      (w.db.vehicles vehicleId).map VehicleDocument.vin := by
  rcases registry_step does with hdb | ⟨saved, state, data, _, hdata, hdb⟩
  · rw [hdb]
  · rw [hdb]
    unfold Gateway.Database.setVehicle
    dsimp only
    by_cases hid : vehicleId = saved
    · subst hid
      rw [Function.update_self, hdata]
      rfl
    · rw [Function.update_of_ne hid]

end Machine

section Runs
variable {ι : Type} [DecidableEq ι]

/-- The configuration is equivalent to the one whose hash is `hash`. -/
def HasHash (control : Control) (config : FleetTelemetryConfig) (hash : String) : Prop :=
  ∃ profile difference, hash = desiredHash control profile ∧
    configDiff control.sha256Hex control.loadPemCertificates (some config)
      (desiredConfig control profile) = .ok difference ∧ difference.status = "in_sync"

variable (control : Control) (operations : ι → Operation)

def Evolves (w₀ : World) (log : ConfigLog ι) (ps : ι → Controlling Reply) (w : World) : Prop :=
  Run provenanceMachine (fun i => (operations i).program control) w₀ log ps w

/-- From the world `t`, Tesla has kept its configuration of the VIN, unless it has accepted a
create or delete of it. -/
def KeptSince (t w : World) (vin : String) : Prop :=
  ∃ since, w.accepted = since ++ t.accepted ∧ (vin ∉ since → w.tesla vin = t.tesla vin)

/-- The service read a synced configuration of that hash from Tesla, in a world `t` in which it
was Tesla's current one; Tesla still has it, unless it has accepted a create or delete since. -/
def ReadFromTesla (w₀ : World) (log : ConfigLog ι) (w : World) (vin hash : String) : Prop :=
  ∃ pre i token base response current post qs t,
    log = pre ++ (i,⟨.configGet token base vin,.ok response⟩) :: post ∧
    isSynced response = true ∧ parseTeslaConfig response = .ok (some current) ∧
    HasHash control current hash ∧
    Evolves control operations w₀ pre qs t ∧ t.tesla vin = some current ∧ KeptSince t w vin

variable {control operations} {w₀ w w' : World} {log : ConfigLog ι} {ps : ι → Controlling Reply}

theorem vins_kept (run : Evolves control operations w₀ log ps w) (vehicleId : String) :
    (w.db.vehicles vehicleId).map VehicleDocument.vin =
      (w₀.db.vehicles vehicleId).map VehicleDocument.vin :=
  Run.state_invariant (I := fun s => (s.db.vehicles vehicleId).map VehicleDocument.vin =
    (w₀.db.vehicles vehicleId).map VehicleDocument.vin) run rfl
    (fun _ _ _ _ _ does hi => (vin_step does vehicleId).trans hi)

theorem KeptSince.step {t : World} {vin : String} {op : Call} {fate : Fate} {r : Except Exc op.Ret}
    (hk : KeptSince t w vin) (does : provenanceMachine w op fate = some (r,w')) :
    KeptSince t w' vin := by
  obtain ⟨since, haccepted, hkept⟩ := hk
  rcases tesla_step does with ⟨htesla, hsame⟩ | ⟨target, config, htesla, hmore⟩
  · refine ⟨since, hsame.trans haccepted, ?_⟩
    intro hnot
    rw [htesla]
    exact hkept hnot
  · refine ⟨target :: since, ?_, ?_⟩
    · rw [hmore, haccepted]
      rfl
    · intro hnot
      obtain ⟨hother, hsince⟩ := not_or.mp (List.mem_cons.not.mp hnot)
      rw [htesla, Function.update_of_ne hother]
      exact hkept hsince

theorem kept_since {qs : ι → Controlling Reply} {t : World}
    (run : Run provenanceMachine qs t log ps w) (vin : String) : KeptSince t w vin :=
  Run.state_invariant (I := fun s => KeptSince t s vin) run ⟨[], rfl, fun _ => rfl⟩
    (fun _ _ _ _ _ does hk => hk.step does)

theorem operation_rules (run : Evolves control operations w₀ log ps w) {i : ι} {op : Call}
    {k : Except Exc op.Ret → Controlling Reply} (turn : ps i = .call op k) :
    OperationRules control (operations i).userId (localEvents i log) op :=
  Run.allowed run (operation_obeys_rules (operations i)) turn

/-- The vehicle that an operation has found is the document's. -/
theorem found_vin (run : Evolves control operations w₀ log ps w) {i : ι} {owner vehicleId : String}
    {vehicle : VehicleRecord}
    (hread : (⟨.onboarding (.getVehicle owner vehicleId),.ok vehicle⟩ : TelemetryEvent) ∈
      localEvents i log) :
    (w.db.vehicles vehicleId).map VehicleDocument.vin = some vehicle.vin := by
  obtain ⟨pre, post, rfl⟩ := List.append_of_mem (mem_local.mp hread)
  obtain ⟨qs, t, c, k, t', before, _, does, after⟩ := Run.at_event run
  rw [vins_kept run vehicleId, ← vins_kept before vehicleId]
  exact getVehicle_vin does

/-- A confirmation that an operation has seen. -/
theorem confirmed_read (run : Evolves control operations w₀ log ps w) {i : ι}
    {before mid : List TelemetryEvent} {vin : String} {profile : FleetTelemetryProfile}
    (hlog : localEvents i log = before ++ mid)
    (hc : Confirmed control mid vin (desiredConfig control profile)) :
    ReadFromTesla control operations w₀ log w vin (desiredHash control profile) := by
  obtain ⟨mid₁, token, url, response, current, difference, mid₂, token', url', errors, mid₃, now,
    rfl, hsynced, hparse, hdiff, hstatus, _, _⟩ := hc
  have hsplit : localEvents i log = (before ++ mid₁) ++ ⟨.configGet token url vin,.ok response⟩ ::
      (mid₂ ++ ⟨.telemetryErrors token' url' vin,.ok errors⟩ :: mid₃) := by
    rw [hlog]
    simp
  obtain ⟨pre, post, rfl, _, _⟩ := local_split hsplit
  obtain ⟨qs, t, c, k, t', read, _, does, after⟩ := Run.at_event run
  obtain ⟨rfl, hcurrent⟩ := read_current does hparse
  exact ⟨pre, i, token, url, response, current, post, qs, t', rfl, hsynced, hparse,
    ⟨profile, difference, rfl, hdiff, hstatus⟩, read, hcurrent, kept_since after vin⟩

theorem ReadFromTesla.step {vin hash : String} {i : ι} {op : Call} {fate : Fate}
    {r : Except Exc op.Ret} (hp : ReadFromTesla control operations w₀ log w vin hash)
    (does : provenanceMachine w op fate = some (r,w')) :
    ReadFromTesla control operations w₀ (log ++ [(i,⟨op,r⟩)]) w' vin hash := by
  obtain ⟨pre, j, token, url, response, current, post, qs, t, rfl, hsynced, hparse, hhash, read,
    hcurrent, hkept⟩ := hp
  exact ⟨pre, j, token, url, response, current, post ++ [(i,⟨op,r⟩)], qs, t, by simp, hsynced, hparse,
    hhash, read, hcurrent, hkept.step does⟩

/-- The registry says of the vehicle that its configuration of that hash is synced. -/
def Synced (w : World) (vehicleId vin hash : String) : Prop :=
  ∃ data, w.db.vehicles vehicleId = some data ∧ data.vin = vin ∧
    data.telemetry.configStatus = "synced" ∧ data.telemetry.configHash = some hash

/-- What one call adds to the synced vehicles: the one whose synced state it saves. -/
theorem synced_step {op : Call} {fate : Fate} {r : Except Exc op.Ret} {vehicleId vin hash : String}
    (does : provenanceMachine w op fate = some (r,w')) (hs : Synced w' vehicleId vin hash) :
    Synced w vehicleId vin hash ∨ ∃ state, op = .updateTelemetry vehicleId state ∧
      state.status = "synced" ∧ state.configHash = some hash ∧
      (w.db.vehicles vehicleId).map VehicleDocument.vin = some vin := by
  obtain ⟨data, hdata, hvin, hstatus, hhash⟩ := hs
  rcases registry_step does with hdb | ⟨saved, state, old, rfl, hold, hdb⟩
  · rw [hdb] at hdata
    exact .inl ⟨data, hdata, hvin, hstatus, hhash⟩
  · rw [hdb] at hdata
    unfold Gateway.Database.setVehicle at hdata
    dsimp only at hdata
    by_cases hid : vehicleId = saved
    · subst hid
      rw [Function.update_self] at hdata
      obtain rfl := Option.some.inj hdata
      refine .inr ⟨state, rfl, hstatus, hhash, ?_⟩
      rw [hold]
      exact congrArg some hvin
    · rw [Function.update_of_ne hid] at hdata
      exact .inl ⟨data, hdata, hvin, hstatus, hhash⟩

/-- The save of a synced state follows a read of the configuration by the same operation. -/
theorem saved_read (run : Evolves control operations w₀ log ps w) {i : ι} {vehicleId vin hash : String}
    {state : TelemetryConfigurationState} {k : Except Exc Unit → Controlling Reply}
    (turn : ps i = .call (.updateTelemetry vehicleId state) k) (hstatus : state.status = "synced")
    (hhash : state.configHash = some hash)
    (hvin : (w.db.vehicles vehicleId).map VehicleDocument.vin = some vin) :
    ReadFromTesla control operations w₀ log w vin hash := by
  obtain ⟨change, record, mid, hu, rfl, rfl, hconfirmed⟩ := operation_rules run turn
  obtain ⟨profile, hp, hprofile⟩ := synced_state hstatus
  obtain rfl := Option.some.inj (hhash.symm.trans hprofile)
  obtain ⟨start, hlocal, hfound⟩ := hu.begun
  have hread : (⟨.onboarding (.getVehicle (operations i).userId record.vehicleId),
      .ok change.vehicle⟩ : TelemetryEvent) ∈ localEvents i log := by
    rw [hlocal]
    exact List.mem_append_left _ hfound.read
  obtain rfl := Option.some.inj (hvin.symm.trans (found_vin run hread))
  have hsplit : localEvents i log = begunAt start record ++ mid := by
    rw [hlocal]
    simp [begunAt]
  exact confirmed_read run hsplit (hconfirmed profile hp)

theorem synced_read_from_tesla (run : Evolves control operations w₀ log ps w)
    (hstart : ∀ vehicleId vin hash, ¬ Synced w₀ vehicleId vin hash) {vehicleId vin hash : String}
    (hs : Synced w vehicleId vin hash) : ReadFromTesla control operations w₀ log w vin hash := by
  revert vehicleId vin hash
  apply Run.invariant (I := fun log w => ∀ {vehicleId vin hash}, Synced w vehicleId vin hash →
    ReadFromTesla control operations w₀ log w vin hash) run
  · intro vehicleId vin hash hs
    exact absurd hs (hstart vehicleId vin hash)
  · intro log ps s i op k c r s' before turn does ih vehicleId vin hash hs
    rcases synced_step does hs with hs | ⟨state, rfl, hstatus, hhash, hvin⟩
    · exact (ih hs).step does
    · exact (saved_read before turn hstatus hhash hvin).step does

end Runs

section Demo

def demoDocument : VehicleDocument :=
  { ownerUserId := "usr_1", connectionId := "conn_1", vin := "LRW0", teslaVehicleId := "7",
    displayName := none, state := none, authorizationStatus := .active, virtualKeyStatus := .paired,
    vehicleCommandProtocolRequired := some true, firmwareVersion := none,
    fleetTelemetryVersion := none, totalNumberOfKeys := none }

/-- One paired vehicle that is not configured. -/
def demoWorld : World :=
  { db :=
      { oauthStates := fun _ => none, connections := fun _ => none
        vehicles := fun vehicleId => if vehicleId = "veh_1" then some demoDocument else none
        vinIndex := fun _ => none }
    tesla := fun _ => none, accepted := [], audits := [] }

theorem demoWorld_unsynced (vehicleId vin hash : String) : ¬ Synced demoWorld vehicleId vin hash := by
  intro hs
  obtain ⟨data, hdata, _, hstatus, _⟩ := hs
  unfold demoWorld at hdata
  dsimp only at hdata
  split at hdata
  · obtain rfl := Option.some.inj hdata
    exact absurd hstatus (by decide)
  · cases hdata

/-- An apply of the vehicle, and a removal after it. -/
def demoRequests : Bool → Operation
  | false => .apply "usr_1" "veh_1" demoHash true true "operator-onboarding"
  | true => .remove "usr_1" "veh_1" true "operator-onboarding"

/-- Everything succeeds, except a save if `fails`. -/
def demoFate (token : String) (fails : Bool) : Fate :=
  { answer := fun
      | .tokenHex _ => .ok token
      | call => demoAnswers demoFleet (fun _ => "1.3.0")
          (fun _ => if fails then .error (.other "unavailable") else .ok ()) [] call
    landed := !fails }

def applySchedule : List (Bool × Fate) := List.replicate 21 (false,demoFate "a0" false)

/-- The removal's save fails, after Tesla has accepted the delete. -/
def removeSchedule : List (Bool × Fate) :=
  List.replicate 9 (true,demoFate "b0" false) ++ List.replicate 2 (true,demoFate "b0" true)

/-- The registry says that the configuration of the demonstration vehicle is synced. -/
def demoSynced (w : World) : Bool :=
  match w.db.vehicles "veh_1" with
  | some data => decide (data.vin = "LRW0" ∧ data.telemetry.configStatus = "synced" ∧
      data.telemetry.configHash = some demoHash)
  | none => false

theorem synced_of_demoSynced {w : World} (h : demoSynced w = true) :
    Synced w "veh_1" "LRW0" demoHash := by
  unfold demoSynced at h
  split at h
  · rename_i data hdata
    exact ⟨data, hdata, of_decide_eq_true h⟩
  · cases h

set_option maxRecDepth 100000 in
theorem synced_read_from_tesla_applied :
    ∃ log ps w, Evolves demoControl demoRequests demoWorld log ps w ∧
      Synced w "veh_1" "LRW0" demoHash ∧
      ReadFromTesla demoControl demoRequests demoWorld log w "LRW0" demoHash := by
  obtain ⟨log, ps, w, run, hp⟩ := run_of_schedule provenanceMachine
    (fun i => (demoRequests i).program demoControl) demoWorld applySchedule
    (fun out => demoSynced out.2.2) (by decide +kernel)
  have hs := synced_of_demoSynced hp
  exact ⟨log, ps, w, run, hs, synced_read_from_tesla run demoWorld_unsynced hs⟩

set_option maxRecDepth 100000 in
/-- Tesla has deleted the configuration that the registry still calls synced. -/
theorem removed_vehicle_synced :
    ¬ ∀ (control : Control) (operations : Bool → Operation) (w₀ w : World) (log : ConfigLog Bool)
      (ps : Bool → Controlling Reply) (vehicleId vin hash : String),
      (∀ vehicleId vin hash, ¬ Synced w₀ vehicleId vin hash) →
      Evolves control operations w₀ log ps w → Synced w vehicleId vin hash →
      ∃ config, w.tesla vin = some config ∧ HasHash control config hash := by
  intro hclaim
  obtain ⟨log, ps, w, run, hp⟩ := run_of_schedule provenanceMachine
    (fun i => (demoRequests i).program demoControl) demoWorld (applySchedule ++ removeSchedule)
    (fun out => demoSynced out.2.2 && (out.2.2.tesla "LRW0").isNone) (by decide +kernel)
  obtain ⟨hsynced, hnone⟩ := Bool.and_eq_true_iff.mp hp
  obtain ⟨config, hconfig, _⟩ := hclaim demoControl demoRequests demoWorld w log ps "veh_1" "LRW0"
    demoHash demoWorld_unsynced run (synced_of_demoSynced hsynced)
  rw [hconfig] at hnone
  cases hnone

end Demo

end Woodhouse.Telemetry
