import Woodhouse.Telemetry.Confirmations

namespace Woodhouse.Telemetry
open Effects Python
open Gateway (Exc TelemetryConfigurationState VehicleRecord)

section Audited
variable {control : Control} {userId vehicleId : String} {P : ConfigAudit → Prop}
  {base before h mid rest : List TelemetryEvent} {change : Change} {record : ConfigAudit} {α : Type}

theorem Confirmed.append {vin : String} {desired : FleetTelemetryConfig}
    (hc : Confirmed control mid vin desired) : Confirmed control (mid ++ rest) vin desired := by
  obtain ⟨mid₁, token, url, response, current, difference, mid₂, token', url', errors, mid₃, now,
    rfl, hsynced, hparse, hdiff, hstatus, herrors, hclock⟩ := hc
  refine ⟨mid₁, token, url, response, current, difference, mid₂, token', url', errors,
    mid₃ ++ rest, now, by simp, hsynced, hparse, hdiff, hstatus, herrors, ?_⟩
  intro items he
  obtain ⟨rest', hrest⟩ := hclock items he
  exact ⟨rest' ++ rest, by simp [hrest]⟩

theorem Found.mono {before' : List TelemetryEvent} (hf : Found control userId before vehicleId change)
    (hp : before <+: before') : Found control userId before' vehicleId change :=
  ⟨hp.subset hf.read, hf.active, hf.reviewed⟩

/-- The history right after the begin of the audit. -/
def begunAt (before : List TelemetryEvent) (record : ConfigAudit) : List TelemetryEvent :=
  before ++ [⟨.beginTelemetryConfigAudit record,.ok ()⟩]

/-- The audited part is about to run, on what the history has found. -/
structure Begun (control : Control) (userId vehicleId : String) (P : ConfigAudit → Prop)
    (before : List TelemetryEvent) (record : ConfigAudit) (change : Change) : Prop where
  scope : P record
  describes : Describes control userId record change
  vehicle : record.vehicleId = vehicleId
  found : Found control userId before vehicleId change

theorem Begun.underway (hb : Begun control userId vehicleId P before record change)
    (hmid : Unaudited mid) :
    Underway control userId P (begunAt before record ++ mid) change record mid := by
  have hfound := hb.found
  rw [← hb.vehicle] at hfound
  exact ⟨hb.scope, hb.describes, ⟨before, by simp [begunAt], hfound⟩, hmid⟩

theorem Working.unsaved (hw : Working mid) (vehicleId : String) (state : TelemetryConfigurationState) :
    ¬ Saved mid vehicleId state := by
  intro hs
  cases hw _ hs

theorem Unaudited.append (hm : Unaudited mid) (hr : Unaudited rest) : Unaudited (mid ++ rest) := by
  intro e he
  rcases List.mem_append.mp he with he | he
  · exact hm e he
  · exact hr e he

theorem Unaudited.single {op : Call} {r : Except Exc op.Ret} (ha : op.auditing = false) :
    Unaudited [⟨op,r⟩] := by
  intro e he
  rw [List.mem_singleton.mp he]
  exact ha

/-- How the audited part can end: saved after a confirmation, or not saved. -/
def PartEnds (control : Control) (vehicleId : String) (base : List TelemetryEvent) (change : Change)
    (h : List TelemetryEvent) : Except Exc Unit → Prop
  | .ok _ => ∃ mid, h = base ++ mid ∧ Unaudited mid ∧ Saved mid vehicleId (change.state control vehicleId) ∧
      ∀ profile, change.profile = some profile →
        Confirmed control mid change.vehicle.vin (desiredConfig control profile)
  | .error _ => ∃ mid, h = base ++ mid ∧ Unaudited mid ∧ ∀ vehicleId state, ¬ Saved mid vehicleId state

theorem Steps.partEnds (hs : Steps base h) (e : Exc) :
    PartEnds control vehicleId base change h (.error e) := by
  obtain ⟨mid, rfl, hmid⟩ := hs
  exact ⟨mid, rfl, hmid.unaudited, hmid.unsaved⟩

/-- The history is `base` and then working calls, after which the change may be saved. -/
def Verified (control : Control) (base : List TelemetryEvent) (change : Change)
    (h : List TelemetryEvent) : Prop :=
  ∃ mid, h = base ++ mid ∧ Working mid ∧ ∀ profile, change.profile = some profile →
    Confirmed control mid change.vehicle.vin (desiredConfig control profile)

theorem save_obeys (hb : Begun control userId vehicleId P before record change)
    (hv : Verified control (begunAt before record) change h) :
    Obeys (ConfigRules control userId P) (PartEnds control vehicleId (begunAt before record) change)
      (saveTelemetryConfiguration userId vehicleId (change.state control vehicleId)) h := by
  obtain ⟨mid, rfl, hmid, hconfirmed⟩ := hv
  unfold saveTelemetryConfiguration perform
  rw [obeys_perform_bind]
  have hread : ∀ r, Working (mid ++ [⟨.onboarding (.getVehicle userId vehicleId),r⟩]) :=
    fun r => hmid.append (Working.single rfl)
  refine ⟨configRules_free rfl, ?_, ?_⟩
  · intro e
    exact ⟨_, by simp, (hread (.error e)).unaudited, (hread (.error e)).unsaved⟩
  · intro vehicle
    apply (obeys_perform _).mpr
    constructor
    · refine ⟨change, record, mid ++ [⟨.onboarding (.getVehicle userId vehicleId),.ok vehicle⟩], ?_,
        hb.vehicle.symm, rfl, ?_⟩
      · rw [List.append_assoc]
        exact hb.underway (hread (.ok vehicle)).unaudited
      · intro profile hp
        exact (hconfirmed profile hp).append
    · intro r
      have hrest : Unaudited (mid ++ [⟨.onboarding (.getVehicle userId vehicleId),.ok vehicle⟩] ++
          [⟨.updateTelemetry vehicleId (change.state control vehicleId),r⟩]) :=
        (hread (.ok vehicle)).unaudited.append (Unaudited.single rfl)
      cases r with
      | ok u =>
        refine ⟨_, by simp, hrest, by simp [Saved], ?_⟩
        intro profile hp
        exact (hconfirmed profile hp).append.append
      | error e =>
        refine ⟨_, by simp, hrest, ?_⟩
        intro vehicleId' state hs
        rcases List.mem_append.mp hs with hs | hs
        · exact (hread (.ok vehicle)).unsaved vehicleId' state hs
        · cases List.mem_singleton.mp hs

theorem confirmAndSave_obeys {profile : FleetTelemetryProfile} {optIn : Bool}
    (hb : Begun control userId vehicleId P before record change)
    (hp : change.profile = some profile)
    (hstate : change.state control vehicleId = syncedState control vehicleId profile optIn)
    (hs : Steps (begunAt before record) h) :
    Obeys (ConfigRules control userId P) (PartEnds control vehicleId (begunAt before record) change)
      (confirmAndSave control userId change.vehicle vehicleId profile optIn) h := by
  apply (waitUntilSynced_obeys control.syncAttempts hs).bind
  · intro h' _ hconfirmed
    obtain ⟨mid, rfl, hmid, hconfirmed⟩ := hconfirmed
    rw [← hstate]
    apply save_obeys hb
    refine ⟨mid, rfl, hmid, ?_⟩
    intro profile' hp'
    obtain rfl := Option.some.inj (hp.symm.trans hp')
    exact hconfirmed
  · intro h' e hs'
    exact hs'.partEnds e

theorem createConfiguration_obeys {vehicle : VehicleRecord} {profile : FleetTelemetryProfile}
    {optIn : Bool} (hb : Begun control userId vehicleId P before record (.apply vehicle profile optIn))
    (hs : Steps (begunAt before record) h) :
    Obeys (ConfigRules control userId P)
      (Ends (Steps (begunAt before record)) (fun h' _ => Steps (begunAt before record) h'))
      (createConfiguration userId vehicle (desiredConfig control profile)) h := by
  have hcreate : Obeys (ConfigRules control userId P)
      (Ends (Steps (begunAt before record)) (fun h' _ => Steps (begunAt before record) h'))
      (execute userId (fun accessToken baseUrl =>
        perform (.configCreate accessToken baseUrl vehicle.vin (desiredConfig control profile)))) h := by
    apply free_execute hs
    intro h' hs' token url
    apply perform_ends
    · obtain ⟨mid, rfl, hmid⟩ := hs'
      exact ⟨vehicle, profile, optIn, record, mid, hb.underway hmid.unaudited, rfl, rfl⟩
    · intro e
      exact hs'.step rfl
    · intro response
      exact hs'.step rfl
  apply hcreate.bind
  · intro h' response hs'
    split
    · exact hs'
    · exact hs'
  · intro h' e hs'
    exact hs'

theorem change_obeys (hb : Begun control userId vehicleId P before record change) :
    Obeys (ConfigRules control userId P) (PartEnds control vehicleId (begunAt before record) change)
      (change.program control userId vehicleId) (begunAt before record) := by
  cases change with
  | apply vehicle profile optIn =>
    apply (createConfiguration_obeys hb steps_refl).bind
    · intro h' _ hs'
      exact confirmAndSave_obeys hb rfl rfl hs'
    · intro h' e hs'
      exact hs'.partEnds e
  | verify vehicle profile optIn => exact confirmAndSave_obeys hb rfl rfl steps_refl
  | remove vehicle =>
    have hdelete : Obeys (ConfigRules control userId P)
        (Ends (Steps (begunAt before record)) (fun h' _ => Steps (begunAt before record) h'))
        (execute userId (fun accessToken baseUrl =>
          perform (.configDelete accessToken baseUrl vehicle.vin))) (begunAt before record) := by
      apply free_execute steps_refl
      intro h' hs' token url
      apply perform_ends
      · obtain ⟨mid, rfl, hmid⟩ := hs'
        exact ⟨vehicle, record, mid, hb.underway hmid.unaudited, rfl⟩
      · intro e
        exact hs'.step rfl
      · intro _
        exact hs'.step rfl
    apply hdelete.bind
    · intro h' _ hs'
      obtain ⟨mid, rfl, hmid⟩ := hs'
      apply save_obeys hb
      refine ⟨mid, rfl, hmid, ?_⟩
      intro profile hp
      cases hp
    · intro h' e hs'
      exact hs'.partEnds e

/-- The audited part ran, and its audit was completed once. -/
def Closed (control : Control) (userId vehicleId : String) (before : List TelemetryEvent)
    (record : ConfigAudit) (change : Change) (h : List TelemetryEvent) (returned : Bool) : Prop :=
  ∃ mid result category r,
    h = begunAt before record ++ mid ++
      [⟨.completeTelemetryConfigAudit record.auditId result category,r⟩] ∧ Unaudited mid ∧
    Settled control userId vehicleId change mid result category ∧
    (returned = true ↔ result = "succeeded" ∧ r = .ok ())

theorem audited_obeys (hb : Begun control userId vehicleId P before record change) :
    Obeys (ConfigRules control userId P)
      (fun h r => Closed control userId vehicleId before record change h r.isOk)
      (audited record.auditId (change.program control userId vehicleId)) (begunAt before record) := by
  have hrule : ∀ {mid result category}, Unaudited mid →
      Settled control userId vehicleId change mid result category →
      ConfigRules control userId P (begunAt before record ++ mid)
        (.completeTelemetryConfigAudit record.auditId result category) := by
    intro mid result category hmid hsettled
    refine ⟨change, record, mid, hb.underway hmid, rfl, ?_⟩
    rw [hb.vehicle]
    exact hsettled
  have hpart : Obeys (ConfigRules control userId P)
      (fun h r => (∀ a, r = .ok a → ∃ mid, h = begunAt before record ++ mid ∧ Unaudited mid ∧
          Settled control userId vehicleId change mid "succeeded" none) ∧
        ∀ e, r = .error e → Closed control userId vehicleId before record change h false)
      (tryCatch (change.program control userId vehicleId) fun e => do
        completeAudit record.auditId "failed" (some (errorCategory e))
        throw e) (begunAt before record) := by
    apply (change_obeys hb).traced.tryCatch
    · intro h' _ hq
      obtain ⟨⟨mid, rfl, hmid, hsaved, hconfirmed⟩, es, he, ht⟩ := hq
      obtain rfl := List.append_cancel_left he
      refine ⟨?_, fun e he => by cases he⟩
      intro _ _
      exact ⟨mid, rfl, hmid, .inl ⟨rfl, rfl, ht, hsaved, hconfirmed⟩⟩
    · intro h' e hq
      obtain ⟨⟨mid, rfl, hmid, hunsaved⟩, es, he, ht⟩ := hq
      obtain rfl := List.append_cancel_left he
      have hsettled : Settled control userId vehicleId change mid "failed" (some (errorCategory e)) :=
        .inr ⟨rfl, e, rfl, ht, hunsaved⟩
      unfold completeAudit perform
      rw [obeys_perform_bind]
      refine ⟨hrule hmid hsettled, ?_, ?_⟩
      · intro e'
        exact ⟨(fun a ha => by cases ha), fun _ _ => ⟨mid, _, _, _, rfl, hmid, hsettled, by simp⟩⟩
      · intro _
        exact ⟨(fun a ha => by cases ha), fun _ _ => ⟨mid, _, _, _, rfl, hmid, hsettled, by simp⟩⟩
  apply hpart.bind
  · intro h' _ hq
    obtain ⟨mid, rfl, hmid, hsettled⟩ := hq.1 _ rfl
    unfold completeAudit perform
    apply (obeys_perform _).mpr
    refine ⟨hrule hmid hsettled, ?_⟩
    intro r
    refine ⟨mid, "succeeded", none, r, rfl, hmid, hsettled, ?_⟩
    cases r with
    | ok u => simp [Except.isOk, Except.toBool]
    | error e => simp [Except.isOk, Except.toBool]
  · intro h' e hq
    exact hq.2 e rfl

end Audited

end Woodhouse.Telemetry
