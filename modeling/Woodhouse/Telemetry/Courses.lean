import Woodhouse.Telemetry.Operations

namespace Woodhouse.Telemetry
open Effects Python
open Gateway (Exc TelemetryConfigurationState VehicleRecord)

/-- How one operation on a vehicle can go: it begins no audit, its begin is refused, or it
runs its audited part and completes the audit. -/
inductive Course (control : Control) (userId vehicleId : String) (P : ConfigAudit → Prop)
    (base : List TelemetryEvent) : List TelemetryEvent → Bool → Prop
  | unbegun {es} (unaudited : Unaudited es) :
      Course control userId vehicleId P base (base ++ es) false
  | refused {es record} (unaudited : Unaudited es) (vehicle : record.vehicleId = vehicleId) (e : Exc) :
      Course control userId vehicleId P base
        (base ++ es ++ [⟨.beginTelemetryConfigAudit record,.error e⟩]) false
  | closed {es record change h returned} (unaudited : Unaudited es)
      (begun : Begun control userId vehicleId P (base ++ es) record change)
      (part : Closed control userId vehicleId (base ++ es) record change h returned) :
      Course control userId vehicleId P base h returned

section Courses
variable {control : Control} {userId vehicleId : String} {P : ConfigAudit → Prop}
  {base h : List TelemetryEvent} {α : Type}

theorem Steps.course (hs : Steps base h) : Course control userId vehicleId P base h false := by
  obtain ⟨es, rfl, hes⟩ := hs
  exact .unbegun hes.unaudited

/-- Where the begin of an audit leaves an operation. -/
def Begins (control : Control) (userId vehicleId : String) (P : ConfigAudit → Prop)
    (change : Change) (base h : List TelemetryEvent) : Except Exc String → Prop
  | .ok auditId => ∃ es record, h = begunAt (base ++ es) record ∧ Unaudited es ∧
      record.auditId = auditId ∧ Begun control userId vehicleId P (base ++ es) record change
  | .error _ => Course control userId vehicleId P base h false

theorem beginAudit_obeys {change : Change} {source : String} (hs : Steps base h)
    (hscope : ∀ record, record.vehicleId = vehicleId → Describes control userId record change → P record)
    (hf : Found control userId h vehicleId change) :
    Obeys (ConfigRules control userId P) (Begins control userId vehicleId P change base)
      (beginAudit userId vehicleId change.operation (change.profile.map (desiredHash control)) source)
      h := by
  unfold beginAudit perform
  rw [obeys_perform_bind]
  refine ⟨configRules_free rfl, fun e => (hs.step rfl).course, ?_⟩
  intro token
  have hs₁ : Steps base (h ++ [⟨.tokenHex 16,.ok token⟩]) := hs.step rfl
  rw [obeys_perform_bind]
  refine ⟨configRules_free rfl, fun e => (hs₁.step rfl).course, ?_⟩
  intro timestamp
  have hs₂ : Steps base (h ++ [⟨.tokenHex 16,.ok token⟩] ++ [⟨.onboarding .utcNow,.ok timestamp⟩]) :=
    hs₁.step rfl
  have hfound : Found control userId
      (h ++ [⟨.tokenHex 16,.ok token⟩] ++ [⟨.onboarding .utcNow,.ok timestamp⟩]) vehicleId change := by
    apply hf.mono
    simp
  dsimp only
  generalize hr : (ConfigAudit.mk _ timestamp userId vehicleId change.operation _ source) = record
  have hid : record.auditId = "tca_" ++ token := by rw [← hr]
  have hvehicle : record.vehicleId = vehicleId := by rw [← hr]
  have hdescribes : Describes control userId record change := by
    rw [← hr]
    exact ⟨rfl, rfl, rfl⟩
  have hP := hscope record hvehicle hdescribes
  obtain ⟨es, he, hes⟩ := hs₂
  rw [he] at hfound ⊢
  rw [obeys_perform_bind]
  refine ⟨hP, ?_, ?_⟩
  · intro e
    exact .refused hes.unaudited hvehicle e
  · intro _
    exact ⟨es, record, rfl, hes.unaudited, hid, hP, hdescribes, hvehicle, hfound⟩

/-- An operation from the begin of its audit on. -/
theorem operation_obeys (change : Change) {source : String} (result : α) (hs : Steps base h)
    (hscope : ∀ record, record.vehicleId = vehicleId → Describes control userId record change → P record)
    (hf : Found control userId h vehicleId change) :
    Obeys (ConfigRules control userId P)
      (fun h' r => Course control userId vehicleId P base h' r.isOk ∧ ∀ a, r = .ok a → a = result)
      (do
        let auditId ← beginAudit userId vehicleId change.operation
          (change.profile.map (desiredHash control)) source
        audited auditId (change.program control userId vehicleId)
        return result) h := by
  apply (beginAudit_obeys hs hscope hf).bind
  · intro h' auditId hbegins
    obtain ⟨es, record, rfl, hes, rfl, hb⟩ := hbegins
    apply (audited_obeys hb).bind
    · intro h₂ _ hclosed
      refine ⟨.closed hes hb hclosed, ?_⟩
      intro a ha
      exact (Except.ok.inj ha).symm
    · intro h₂ e hclosed
      refine ⟨.closed hes hb hclosed, ?_⟩
      intro a ha
      cases ha
  · intro h' e hcourse
    exact ⟨hcourse, fun a ha => by cases ha⟩

/-- What an operation that raised before its audit leaves behind. -/
theorem Steps.raises {Q : α → Prop} (hs : Steps base h) (e : Exc) :
    Course control userId vehicleId P base h (Except.isOk (.error e : Except Exc α)) ∧
      ∀ a, (.error e : Except Exc α) = .ok a → Q a :=
  ⟨hs.course, fun a ha => by cases ha⟩

theorem Underway.mono {P' : ConfigAudit → Prop} {change : Change} {record : ConfigAudit}
    {mid : List TelemetryEvent} (hu : Underway control userId P h change record mid)
    (hp : P record → P' record) : Underway control userId P' h change record mid :=
  ⟨hp hu.scope, hu.describes, hu.begun, hu.unaudited⟩

theorem ConfigRules.mono {P' : ConfigAudit → Prop} {op : Call} (hc : ConfigRules control userId P h op)
    (hp : ∀ record, P record → P' record) : ConfigRules control userId P' h op := by
  cases op with
  | configCreate token url vin config =>
    obtain ⟨vehicle, profile, optIn, record, mid, hu, hrest⟩ := hc
    exact ⟨vehicle, profile, optIn, record, mid, hu.mono (hp record), hrest⟩
  | configDelete token url vin =>
    obtain ⟨vehicle, record, mid, hu, hrest⟩ := hc
    exact ⟨vehicle, record, mid, hu.mono (hp record), hrest⟩
  | updateTelemetry vehicleId state =>
    obtain ⟨change, record, mid, hu, hrest⟩ := hc
    exact ⟨change, record, mid, hu.mono (hp record), hrest⟩
  | beginTelemetryConfigAudit record => exact hp record hc
  | completeTelemetryConfigAudit auditId result category =>
    obtain ⟨change, record, mid, hu, hrest⟩ := hc
    exact ⟨change, record, mid, hu.mono (hp record), hrest⟩
  | _ => trivial

/-- Without a record to begin, only the calls that no rule is about are left. -/
theorem free_of_configRules {op : Call} (hc : ConfigRules control userId (fun _ => False) h op) :
    op.free = true := by
  cases op with
  | configCreate token url vin config =>
    obtain ⟨_, _, _, _, _, hu, _⟩ := hc
    exact hu.scope.elim
  | configDelete token url vin =>
    obtain ⟨_, _, _, hu, _⟩ := hc
    exact hu.scope.elim
  | updateTelemetry vehicleId state =>
    obtain ⟨_, _, _, hu, _⟩ := hc
    exact hu.scope.elim
  | beginTelemetryConfigAudit record => exact False.elim hc
  | completeTelemetryConfigAudit auditId result category =>
    obtain ⟨_, _, _, hu, _⟩ := hc
    exact hu.scope.elim
  | _ => rfl

theorem Course.mono {P' : ConfigAudit → Prop} {returned : Bool}
    (hc : Course control userId vehicleId P base h returned) (hp : ∀ record, P record → P' record) :
    Course control userId vehicleId P' base h returned := by
  cases hc with
  | unbegun hes => exact .unbegun hes
  | refused hes hvehicle e => exact .refused hes hvehicle e
  | closed hes hb hclosed =>
    exact .closed hes ⟨hp _ hb.scope, hb.describes, hb.vehicle, hb.found⟩ hclosed

/-- Steps before an operation belong to its course. -/
theorem Course.after {start : List TelemetryEvent} {returned : Bool}
    (hc : Course control userId vehicleId P base h returned) (hs : Steps start base) :
    Course control userId vehicleId P start h returned := by
  obtain ⟨mid, rfl, hmid⟩ := hs
  cases hc with
  | unbegun hes =>
    rw [List.append_assoc]
    exact .unbegun (hmid.unaudited.append hes)
  | refused hes hvehicle e =>
    rw [List.append_assoc start]
    exact .refused (hmid.unaudited.append hes) hvehicle e
  | closed hes hb hclosed =>
    rw [List.append_assoc start] at hb hclosed
    exact .closed (hmid.unaudited.append hes) hb hclosed

/-- The record of an apply that the plan asked for. -/
structure Planned (vehicleId expected : String) (record : ConfigAudit) : Prop where
  vehicle : record.vehicleId = vehicleId
  operation : record.operation = "apply"
  hash : record.desiredConfigHash = some expected

theorem compareDigest_ok {a b : String} {same : Bool} (hc : compareDigest a b = .ok same) :
    same = decide (a = b) := by
  unfold compareDigest at hc
  split at hc
  · exact (Except.ok.inj hc).symm
  · cases hc

theorem applyConfig_obeys {expected source : String} {confirm optIn : Bool}
    (hscope : ∀ record, Planned vehicleId expected record → P record) :
    Obeys (ConfigRules control userId P)
      (fun h' r => Course control userId vehicleId P base h' r.isOk ∧
        ∀ a, r = .ok a → a = { status := "synced", vehicleId, configHash := some expected })
      (applyConfig control userId vehicleId expected confirm optIn source) base := by
  have hstart : Steps base base := steps_refl
  unfold applyConfig
  split
  · exact hstart.raises _
  · apply (eligibleVehicle_obeys hstart).bind
    · intro h₁ vehicle hv
      obtain ⟨hs₁, hactive, hread⟩ := hv
      apply ((capabilityProfile_obeys vehicle hs₁).traced).bind
      · intro h₂ profile hp
        obtain ⟨⟨hs₂, hreviewed⟩, es, hes, _⟩ := hp
        cases hc : compareDigest expected (desiredHash control profile) with
        | error e => exact hs₂.raises _
        | ok same =>
          rw [Prog.ofExcept_ok, Prog.ret_bind]
          split
          · exact hs₂.raises _
          · rename_i hsame
            have hdigest := compareDigest_ok hc
            have hexpected : expected = desiredHash control profile := by
              by_contra hne
              rw [decide_eq_false hne] at hdigest
              exact hsame hdigest
            rw [hexpected]
            apply operation_obeys (.apply vehicle profile optIn) _ hs₂
            · intro record hid hd
              apply hscope
              exact ⟨hid, hd.operation, by rw [hexpected]; exact hd.hash⟩
            · refine ⟨?_, hactive, ?_⟩
              · rw [hes]
                exact List.mem_append_left _ hread
              · intro p hp
                obtain rfl := Option.some.inj hp
                exact hreviewed
      · intro h₂ e hs₂
        exact Steps.raises hs₂.1 e
    · intro h₁ e hs₁
      exact Steps.raises hs₁ e

theorem verify_obeys (hscope : ∀ record, P record) :
    Obeys (ConfigRules control userId P)
      (fun h' r => Course control userId vehicleId P base h' r.isOk)
      (verify control userId vehicleId) base := by
  have hstart : Steps base base := steps_refl
  apply (eligibleVehicle_obeys hstart).bind
  · intro h₁ vehicle hv
    obtain ⟨hs₁, hactive, hread⟩ := hv
    apply ((capabilityProfile_obeys vehicle hs₁).traced).bind
    · intro h₂ profile hp
      obtain ⟨⟨hs₂, hreviewed⟩, es, hes, _⟩ := hp
      unfold perform
      rw [obeys_perform_bind]
      refine ⟨configRules_free rfl, fun e => (hs₂.step rfl).course, ?_⟩
      intro prior
      refine (operation_obeys (.verify vehicle profile prior.transportMaintenanceOptIn) _
        (hs₂.step rfl) (fun record _ _ => hscope record) ?_).mono ?_
      · refine ⟨?_, hactive, ?_⟩
        · rw [hes]
          exact List.mem_append_left _ (List.mem_append_left _ hread)
        · intro p hp
          obtain rfl := Option.some.inj hp
          exact hreviewed
      · intro h' r hq
        exact hq.1
    · intro h₂ e hs₂
      exact Steps.course hs₂.1
  · intro h₁ e hs₁
    exact Steps.course hs₁

theorem remove_obeys {confirm : Bool} {source : String} (hscope : ∀ record, P record) :
    Obeys (ConfigRules control userId P)
      (fun h' r => Course control userId vehicleId P base h' r.isOk)
      (remove userId vehicleId confirm source) base := by
  have hstart : Steps base base := steps_refl
  unfold remove
  split
  · exact hstart.course
  · apply (eligibleVehicle_obeys hstart).bind
    · intro h₁ vehicle hv
      obtain ⟨hs₁, hactive, hread⟩ := hv
      refine (operation_obeys (.remove vehicle) _ hs₁ (fun record _ _ => hscope record)
        ⟨hread, hactive, ?_⟩).mono ?_
      · intro profile hp
        cases hp
      · intro h' r hq
        exact hq.1
    · intro h₁ e hs₁
      exact Steps.course hs₁

end Courses

end Woodhouse.Telemetry
