import Woodhouse.Telemetry.Courses

namespace Woodhouse.Telemetry
open Effects Python
open Gateway (Exc)

/-- An audit of the vehicle was begun, and then completed with 'succeeded'. -/
def Concluded (vehicleId : String) (h : List TelemetryEvent) : Prop :=
  ∃ before record mid after,
    h = begunAt before record ++ mid ++
      ⟨.completeTelemetryConfigAudit record.auditId "succeeded" none,.ok ()⟩ :: after ∧
    Unaudited mid ∧ record.vehicleId = vehicleId

/-- An apply of the vehicle succeeded: Tesla confirmed the desired configuration, the state
was saved, and the audit was completed with 'succeeded'. -/
def Applied (control : Control) (userId vehicleId : String) (h : List TelemetryEvent) : Prop :=
  ∃ before record mid after vehicle profile optIn,
    h = begunAt before record ++ mid ++
      ⟨.completeTelemetryConfigAudit record.auditId "succeeded" none,.ok ()⟩ :: after ∧
    Unaudited mid ∧ record.vehicleId = vehicleId ∧
    Describes control userId record (.apply vehicle profile optIn) ∧
    Found control userId before vehicleId (.apply vehicle profile optIn) ∧
    Confirmed control mid vehicle.vin (desiredConfig control profile) ∧
    Saved mid vehicleId (syncedState control vehicleId profile optIn)

/-- The audits of a part of a history are of these vehicles, and are begun in it. -/
structure Segment (ids : List String) (es : List TelemetryEvent) : Prop where
  vehicles : ∀ record r, (⟨.beginTelemetryConfigAudit record,r⟩ : TelemetryEvent) ∈ es →
    record.vehicleId ∈ ids
  opened : ∀ a auditId result category r b,
    es = a ++ ⟨.completeTelemetryConfigAudit auditId result category,r⟩ :: b →
      ∃ record, (⟨.beginTelemetryConfigAudit record,.ok ()⟩ : TelemetryEvent) ∈ a

section Segments
variable {control : Control} {userId vehicleId : String} {P : ConfigAudit → Prop}
  {base h es es' mid : List TelemetryEvent} {ids ids' : List String}

theorem Applied.concluded (ha : Applied control userId vehicleId h) : Concluded vehicleId h := by
  obtain ⟨before, record, mid, after, vehicle, profile, optIn, he, hmid, hid, _⟩ := ha
  exact ⟨before, record, mid, after, he, hmid, hid⟩

theorem Applied.mono (ha : Applied control userId vehicleId h) (hp : h <+: es) :
    Applied control userId vehicleId es := by
  obtain ⟨before, record, mid, after, vehicle, profile, optIn, rfl, hrest⟩ := ha
  obtain ⟨rest, rfl⟩ := hp
  exact ⟨before, record, mid, after ++ rest, vehicle, profile, optIn, by simp, hrest⟩

theorem Unaudited.not_begun (hu : Unaudited es) (record : ConfigAudit) (r : Except Exc Unit) :
    (⟨.beginTelemetryConfigAudit record,r⟩ : TelemetryEvent) ∉ es := by
  intro hm
  cases hu _ hm

theorem Unaudited.not_completed (hu : Unaudited es) (auditId result : String)
    (category : Option String) (r : Except Exc Unit) :
    (⟨.completeTelemetryConfigAudit auditId result category,r⟩ : TelemetryEvent) ∉ es := by
  intro hm
  cases hu _ hm

theorem Unaudited.segment (hu : Unaudited es) : Segment ids es := by
  constructor
  · intro record r hm
    exact absurd hm (hu.not_begun record r)
  · intro a auditId result category r b he
    have hm : (⟨.completeTelemetryConfigAudit auditId result category,r⟩ : TelemetryEvent) ∈ es := by
      rw [he]
      simp
    exact absurd hm (hu.not_completed auditId result category r)

theorem Segment.append (hs : Segment ids es) (hs' : Segment ids' es') :
    Segment (ids ++ ids') (es ++ es') := by
  constructor
  · intro record r hm
    rcases List.mem_append.mp hm with hm | hm
    · exact List.mem_append_left _ (hs.vehicles record r hm)
    · exact List.mem_append_right _ (hs'.vehicles record r hm)
  · intro a auditId result category r b he
    rcases List.append_eq_append_iff.mp he with ⟨m, rfl, hright⟩ | ⟨m, rfl, hleft⟩
    · obtain ⟨record, hm⟩ := hs'.opened m auditId result category r b hright
      exact ⟨record, List.mem_append_right _ hm⟩
    · cases m with
      | nil =>
        obtain ⟨record, hm⟩ := hs'.opened [] auditId result category r b hleft.symm
        cases hm
      | cons e m =>
        obtain ⟨rfl, rfl⟩ := List.cons.inj hleft
        exact hs.opened a auditId result category r m rfl

theorem Segment.weaken (hs : Segment ids es) (hi : ids ⊆ ids') : Segment ids' es :=
  ⟨fun record r hm => hi (hs.vehicles record r hm), hs.opened⟩

theorem Concluded.vehicle (hc : Concluded vehicleId es) (hs : Segment ids es) : vehicleId ∈ ids := by
  obtain ⟨before, record, mid, after, rfl, _, rfl⟩ := hc
  apply hs.vehicles record (.ok ())
  simp [begunAt]

theorem Concluded.completed (hc : Concluded vehicleId es) :
    ∃ auditId, (⟨.completeTelemetryConfigAudit auditId "succeeded" none,.ok ()⟩ : TelemetryEvent) ∈
      es := by
  obtain ⟨before, record, mid, after, rfl, _, _⟩ := hc
  exact ⟨record.auditId, by simp⟩

/-- An audit is begun and completed in the same segment. -/
theorem Concluded.split (hc : Concluded vehicleId (es ++ es')) (hs : Segment ids es') :
    Concluded vehicleId es ∨ Concluded vehicleId es' := by
  obtain ⟨before, record, mid, after, he, hmid, hid⟩ := hc
  have hbegin : es ++ es' = before ++ (⟨.beginTelemetryConfigAudit record,.ok ()⟩ ::
      (mid ++ ⟨.completeTelemetryConfigAudit record.auditId "succeeded" none,.ok ()⟩ :: after)) := by
    rw [he]
    simp [begunAt]
  rcases List.append_eq_append_iff.mp hbegin with ⟨m, rfl, hright⟩ | ⟨m, rfl, hleft⟩
  · refine .inr ⟨m, record, mid, after, ?_, hmid, hid⟩
    rw [hright]
    simp [begunAt]
  · cases m with
    | nil =>
      refine .inr ⟨[], record, mid, after, ?_, hmid, hid⟩
      simpa [begunAt] using hleft.symm
    | cons e m =>
      obtain ⟨rfl, hrest⟩ := List.cons.inj hleft
      rcases List.append_eq_append_iff.mp hrest with ⟨n, hm, hafter⟩ | ⟨n, hm, hafter⟩
      · cases n with
        | nil =>
          obtain ⟨record', hm'⟩ := hs.opened [] _ _ _ _ _ hafter.symm
          cases hm'
        | cons e n =>
          obtain ⟨rfl, rfl⟩ := List.cons.inj hafter
          refine .inl ⟨before, record, mid, n, ?_, hmid, hid⟩
          rw [hm]
          simp [begunAt]
      · obtain ⟨record', hm'⟩ := hs.opened n _ _ _ _ _ hafter
        have hin : (⟨.beginTelemetryConfigAudit record',.ok ()⟩ : TelemetryEvent) ∈ mid := by
          rw [hm]
          exact List.mem_append_right _ hm'
        exact absurd hin (hmid.not_begun record' _)

end Segments

section Courses
variable {control : Control} {userId vehicleId : String} {P : ConfigAudit → Prop}
  {base h : List TelemetryEvent} {returned : Bool}

theorem Course.segment (hc : Course control userId vehicleId P base h returned) :
    ∃ es, h = base ++ es ∧ Segment [vehicleId] es := by
  cases hc with
  | unbegun hes => exact ⟨_, rfl, hes.segment⟩
  | @refused es record hes hvehicle e =>
    refine ⟨es ++ [⟨.beginTelemetryConfigAudit record,.error e⟩], by simp, ?_⟩
    have hbegin : Segment [vehicleId] [(⟨.beginTelemetryConfigAudit record,.error e⟩ : TelemetryEvent)] := by
      constructor
      · intro record' r hm
        cases List.mem_singleton.mp hm
        simp [hvehicle]
      · intro a auditId result category r b he
        cases a with
        | nil => cases he
        | cons x a => simp at he
    have hunaudited : Segment [] es := hes.segment
    exact hunaudited.append hbegin
  | @closed es record change _ _ hes hb hclosed =>
    obtain ⟨mid, result, category, r, rfl, hmid, _, _⟩ := hclosed
    refine ⟨es ++ ⟨.beginTelemetryConfigAudit record,.ok ()⟩ :: (mid ++
      [⟨.completeTelemetryConfigAudit record.auditId result category,r⟩]), by simp [begunAt], ?_⟩
    constructor
    · intro record' r' hm
      rcases List.mem_append.mp hm with hm | hm
      · exact absurd hm (hes.not_begun record' r')
      · rcases List.mem_cons.mp hm with he | hm
        · cases he
          simp [hb.vehicle]
        · rcases List.mem_append.mp hm with hm | hm
          · exact absurd hm (hmid.not_begun record' r')
          · cases List.mem_singleton.mp hm
    · intro a auditId result' category' r' b he
      rcases List.append_eq_append_iff.mp he with ⟨m, rfl, hright⟩ | ⟨m, rfl, hleft⟩
      · cases m with
        | nil => cases hright
        | cons x m =>
          obtain ⟨rfl, _⟩ := List.cons.inj hright
          exact ⟨record, by simp⟩
      · cases m with
        | nil => cases hleft
        | cons x m =>
          obtain ⟨rfl, _⟩ := List.cons.inj hleft
          refine absurd ?_ (hes.not_completed auditId result' category' r')
          simp

/-- Only an operation that returned completed its audit with 'succeeded'. -/
theorem Course.returned_of_completed (hc : Course control userId vehicleId P base h returned)
    {es : List TelemetryEvent} (he : h = base ++ es) {auditId : String}
    (hm : (⟨.completeTelemetryConfigAudit auditId "succeeded" none,.ok ()⟩ : TelemetryEvent) ∈ es) :
    returned = true := by
  cases hc with
  | unbegun hes =>
    obtain rfl := List.append_cancel_left he
    exact absurd hm (hes.not_completed _ _ _ _)
  | refused hes hvehicle e =>
    rw [List.append_assoc] at he
    obtain rfl := List.append_cancel_left he
    rcases List.mem_append.mp hm with hm | hm
    · exact absurd hm (hes.not_completed _ _ _ _)
    · cases List.mem_singleton.mp hm
  | closed hes hb hclosed =>
    obtain ⟨mid, result, category, r, rfl, hmid, _, hreturned⟩ := hclosed
    simp only [begunAt, List.append_assoc, List.cons_append, List.nil_append] at he
    obtain rfl := List.append_cancel_left he
    rcases List.mem_append.mp hm with hm | hm
    · exact absurd hm (hes.not_completed _ _ _ _)
    · rcases List.mem_cons.mp hm with he | hm
      · cases he
      · rcases List.mem_append.mp hm with hm | hm
        · exact absurd hm (hmid.not_completed _ _ _ _)
        · cases List.mem_singleton.mp hm
          exact hreturned.mpr ⟨rfl, rfl⟩

theorem Course.applied (hc : Course control userId vehicleId P base h true)
    (hp : ∀ record, P record → record.operation = "apply") :
    Applied control userId vehicleId h := by
  cases hc with
  | @closed es record change _ _ hes hb hclosed =>
    obtain ⟨mid, result, category, r, rfl, hmid, hsettled, hreturned⟩ := hclosed
    obtain ⟨rfl, rfl⟩ := hreturned.mp rfl
    cases change with
    | apply vehicle profile optIn =>
      rcases hsettled with ⟨_, rfl, hs⟩ | ⟨hfailed, _⟩
      · exact ⟨base ++ es, record, mid, [], vehicle, profile, optIn, rfl, hmid, hb.vehicle,
          hb.describes, hb.found, hs.confirmed profile rfl, hs.saved⟩
      · exact absurd hfailed (by decide)
    | verify vehicle profile optIn =>
      have hoperation : "apply" = "verify" := (hp record hb.scope).symm.trans hb.describes.operation
      exact absurd hoperation (by decide)
    | remove vehicle =>
      have hoperation : "apply" = "remove" := (hp record hb.scope).symm.trans hb.describes.operation
      exact absurd hoperation (by decide)

end Courses

end Woodhouse.Telemetry
