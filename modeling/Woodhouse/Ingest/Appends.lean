import Woodhouse.Ingest.Processor
import Woodhouse.Ingest.Reading

namespace Woodhouse.Ingest
open Effects Python

def appendOf : ServiceEvent → Option Append
  | ⟨.insertRowsJson a,_⟩ => some a
  | _ => none

/-- The appends of a history, whether they succeeded or not. -/
def appends (es : List ServiceEvent) : List Append := es.filterMap appendOf

section Appends

@[simp] theorem appends_nil : appends [] = [] := rfl

@[simp] theorem appends_cons (e : ServiceEvent) (es : List ServiceEvent) :
    appends (e :: es) = (appendOf e).toList ++ appends es := by
  unfold appends
  rw [List.filterMap_cons]
  cases appendOf e <;> rfl

@[simp] theorem appends_append (es es' : List ServiceEvent) :
    appends (es ++ es') = appends es ++ appends es' :=
  List.filterMap_append

theorem mem_appends {a : Append} {es : List ServiceEvent} (h : a ∈ appends es) :
    ∃ r, (⟨.insertRowsJson a,r⟩ : ServiceEvent) ∈ es := by
  obtain ⟨⟨call,r⟩,he,ha⟩ := List.mem_filterMap.mp h
  cases call with
  | insertRowsJson b =>
    cases ha
    exact ⟨r,he⟩
  | _ => cases ha

end Appends

/-- What a call of a program may be: at most one append in all, and only `P` in a user
dataset. -/
def Guarded (P : List ServiceEvent → Str → RawTelemetryEvent → Prop) (h : List ServiceEvent)
    (call : Call) : Prop :=
  ∀ a, call = .insertRowsJson a → appends h = [] ∧
    ∀ datasetId event, a = .user datasetId event → P h datasetId event

/-- The route that the reads of a history resolve a VIN to. -/
structure Resolved (sha256Hex : Bytes → Str) (h : List ServiceEvent) (vin : Str)
    (route : VehicleRoute) : Prop where
  reads : ∃ encoded index vehicle users vehicleId ownerUserId datasetId vehicleData,
    encodeUtf8 vin = .ok encoded ∧
    (⟨.getVinIndex (sha256Hex encoded),.ok index⟩ : ServiceEvent) ∈ h ∧
    (⟨.getVehicle vehicleId,.ok vehicle⟩ : ServiceEvent) ∈ h ∧
    (⟨.queryAllowedUsers ownerUserId 2,.ok users⟩ : ServiceEvent) ∈ h ∧
    indexTarget index = some (vehicleId,ownerUserId) ∧
    vehicleOf vehicle vin ownerUserId = some vehicleData ∧
    datasetOf users = some datasetId ∧
    route = routeOf ownerUserId datasetId vehicleId vehicleData

section Programs
variable {sha256Hex : Bytes → Str} {P : List ServiceEvent → Str → RawTelemetryEvent → Prop}
  {h : List ServiceEvent}

theorem guarded_read (call : Call) (hread : ∀ a, call ≠ .insertRowsJson a) : Guarded P h call :=
  fun a hcall => absurd hcall (hread a)

theorem resolve_obeys (vin : Str) :
    Obeys (Guarded P) (fun h' r => appends h' = appends h ∧
      ∀ route, r = .ok (some route) → Resolved sha256Hex h' vin route)
      (resolve sha256Hex vin) h := by
  unfold resolve
  cases hvin : encodeUtf8 vin with
  | error e => exact ⟨rfl,fun route hr => by cases hr⟩
  | ok encoded =>
    simp only [ofPython,Prog.ret_bind]
    refine obeys_perform_bind.mpr ⟨guarded_read _ (fun _ => by simp),?_,?_⟩
    · intro e
      exact ⟨by simp [appendOf],fun route hr => by cases hr⟩
    intro index
    cases hi : indexTarget index with
    | none => exact ⟨by simp [appendOf],fun route hr => by cases hr⟩
    | some target =>
      obtain ⟨vehicleId,ownerUserId⟩ := target
      refine obeys_perform_bind.mpr ⟨guarded_read _ (fun _ => by simp),?_,?_⟩
      · intro e
        exact ⟨by simp [appendOf],fun route hr => by cases hr⟩
      intro vehicle
      cases hv : vehicleOf vehicle vin ownerUserId with
      | none => exact ⟨by simp [appendOf],fun route hr => by cases hr⟩
      | some vehicleData =>
        refine obeys_perform_bind.mpr ⟨guarded_read _ (fun _ => by simp),?_,?_⟩
        · intro e
          exact ⟨by simp [appendOf],fun route hr => by cases hr⟩
        intro users
        refine ⟨by simp [appendOf],?_⟩
        intro route hr
        simp only [Except.ok.injEq,Option.map_eq_some_iff] at hr
        obtain ⟨datasetId,hd,rfl⟩ := hr
        exact ⟨encoded,index,vehicle,users,vehicleId,ownerUserId,datasetId,vehicleData,hvin,
          by simp,by simp,by simp,hi,hv,hd,rfl⟩

theorem append_obeys {a : Append} (ha : Guarded P h (.insertRowsJson a)) :
    Obeys (Guarded P) (fun h' r => ∀ u, r = .ok u → appends h' = appends h ++ [a]) (append a) h := by
  refine ⟨ha,?_⟩
  rintro (e | errors)
  · intro u hr
    cases hr
  · by_cases hempty : List.isEmpty errors
    · show Obeys _ _ (if List.isEmpty errors then _ else _) _
      rw [if_pos hempty]
      intro u hr
      simp [appendOf]
    · show Obeys _ _ (if List.isEmpty errors then _ else _) _
      rw [if_neg hempty]
      intro u hr
      cases hr

theorem quarantine_obeys (hnone : appends h = []) (incoming : IncomingTelemetry)
    (event : RawTelemetryEvent) (reason : String) :
    Obeys (Guarded P) (fun h' r => ∀ result, r = .ok result → ∃ a, appends h' = [a])
      (quarantine incoming event reason) h := by
  have hguard : Guarded P h (.insertRowsJson (.quarantine event reason)) := by
    rintro a hcall
    cases hcall
    refine ⟨hnone,?_⟩
    intro _ _ ha
    cases ha
  refine (append_obeys hguard).bind ?_ ?_
  · intro h' u happ result _
    exact ⟨_,by rw [happ u rfl,hnone,List.nil_append]⟩
  · intro h' e _ result hr
    cases hr

theorem failFirst_obeys (incoming : IncomingTelemetry) (fixtureId : Str) (now : Utc) :
    Obeys (Guarded P) (fun h' _ => appends h' = appends h)
      (failFirst sha256Hex incoming fixtureId now) h := by
  unfold failFirst
  split
  · unfold shouldFailFirst
    cases encodeUtf8 fixtureId with
    | error e => exact rfl
    | ok encoded =>
      cases hexpires : utcOfMicros (now.val + dayMicros) with
      | none =>
        simp only [ofPython,Prog.ret_bind]
        exact rfl
      | some expiresAt =>
        refine ⟨guarded_read _ (fun _ => by simp),?_⟩
        rintro (e | shouldFail)
        · show appends _ = _
          simp [appendOf]
        · cases shouldFail with
          | true =>
            show appends _ = _
            simp [appendOf]
          | false =>
            show appends _ = _
            simp [appendOf]
  · exact rfl

/-- One append is made when `process` returns, and only `P` reaches a user dataset. -/
theorem process_obeys {receiverVersion : Str} {incoming : IncomingTelemetry} {now : Utc}
    (hnone : appends h = [])
    (hP : ∀ h' vin route, incoming.validationError = none → incoming.syntheticFixtureId = none →
      incoming.vin = some vin → Resolved sha256Hex h' vin route →
      P h' route.datasetId (ownedEvent (eventOf receiverVersion incoming now) route)) :
    Obeys (Guarded P) (fun h' r => ∀ result, r = .ok result → ∃ a, appends h' = [a])
      (process sha256Hex receiverVersion incoming now) h := by
  unfold process
  cases hvalid : incoming.validationError with
  | some reason => exact quarantine_obeys hnone incoming _ reason
  | none =>
    cases hfixture : incoming.syntheticFixtureId with
    | some fixtureId =>
      refine (failFirst_obeys incoming fixtureId now).bind ?_ ?_
      · intro h' firstFailureRecorded hsame
        rw [hnone] at hsame
        have hguard : Guarded P h' (.insertRowsJson (.synthetic
            (eventOf receiverVersion incoming now) fixtureId firstFailureRecorded)) := by
          intro a hcall
          cases hcall
          refine ⟨hsame,?_⟩
          intro _ _ ha
          cases ha
        refine (append_obeys hguard).bind ?_ ?_
        · intro h'' u happ result _
          exact ⟨_,by rw [happ u rfl,hsame,List.nil_append]⟩
        · intro h'' e _ result hr
          cases hr
      · intro h' e _ result hr
        cases hr
    | none =>
      cases hvin : incoming.vin with
      | none => exact quarantine_obeys hnone incoming _ "missing_vin"
      | some vin =>
        refine (resolve_obeys vin).bind ?_ ?_
        · rintro h' (_ | route) ⟨hsame,hroute⟩
          · exact quarantine_obeys (hsame.trans hnone) incoming _ "unknown_vin"
          · rw [hnone] at hsame
            have hguard : Guarded P h' (.insertRowsJson (.user route.datasetId
                (ownedEvent (eventOf receiverVersion incoming now) route))) := by
              intro a hcall
              cases hcall
              refine ⟨hsame,?_⟩
              intro datasetId event ha
              cases ha
              exact hP h' vin route hvalid hfixture hvin (hroute route rfl)
            refine (append_obeys hguard).bind ?_ ?_
            · intro h'' u happ result _
              exact ⟨_,by rw [happ u rfl,hsame,List.nil_append]⟩
            · intro h'' e _ result hr
              cases hr
        · intro h' e _ result hr
          cases hr

/-- A program that makes at most one append has made at most one. -/
theorem appends_of_guarded {α : Type} {Q : List ServiceEvent → Except Exc α → Prop}
    {p q : Processing α} {es : List ServiceEvent} (ho : Obeys (Guarded P) Q p [])
    (ht : Trace p es q) {a : Append} {r : Except Exc (List (Dict Json))}
    (ha : (⟨.insertRowsJson a,r⟩ : ServiceEvent) ∈ es) : appends es = [a] := by
  obtain ⟨pre,post,rfl⟩ := List.append_of_mem ha
  have hpre : appends pre = [] := (ho.allowed ht a rfl).1
  have hpost : appends post = [] := by
    by_contra hne
    obtain ⟨b,hb⟩ := List.exists_mem_of_ne_nil _ hne
    obtain ⟨r',he⟩ := mem_appends hb
    obtain ⟨mid,rest,rfl⟩ := List.append_of_mem he
    have hsplit : pre ++ ⟨.insertRowsJson a,r⟩ :: (mid ++ ⟨.insertRowsJson b,r'⟩ :: rest) =
        (pre ++ ⟨.insertRowsJson a,r⟩ :: mid) ++ ⟨.insertRowsJson b,r'⟩ :: rest := by simp
    rw [hsplit] at ht
    have hempty := (ho.allowed ht b rfl).1
    simp [appendOf] at hempty
  simp [appendOf,hpre,hpost]

end Programs

end Woodhouse.Ingest
