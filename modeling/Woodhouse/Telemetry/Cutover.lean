import Mathlib.Data.List.Nodup
import Woodhouse.Effects.Answers
import Woodhouse.Telemetry.Reconciliations
import Woodhouse.Telemetry.RoundTrip

namespace Woodhouse.Telemetry
open Effects Python
open Gateway (Exc TelemetryConfigurationState VehicleRecord)

section Loop
variable {control : Control} {userId canaryId : String} {listed : List VehicleRecord}
  {A : List TelemetryEvent → Call → Prop} {base h : List TelemetryEvent}

/-- The result of a vehicle says whether its apply succeeded, in the part `es` of the history. -/
structure Reports (control : Control) (userId : String) (h es : List TelemetryEvent)
    (entry : VehicleRecord) (result : VehicleResult) : Prop where
  vehicle : result.vehicleId = entry.vehicleId
  synced : result.status = "synced" → Applied control userId entry.vehicleId h
  concluded : Concluded entry.vehicleId es → result.status = "synced"

/-- The store lists no vehicle id twice. -/
def Distinct (entries : List VehicleRecord) : Prop := (entries.map VehicleRecord.vehicleId).Nodup

/-- Where the loop over `entries` ends that started from `base`. -/
def LoopEnds (control : Control) (userId : String) (entries : List VehicleRecord)
    (base h : List TelemetryEvent) (r : Except Exc (List VehicleResult)) : Prop :=
  ∃ es, h = base ++ es ∧ Segment (entries.map VehicleRecord.vehicleId) es ∧
    (Distinct entries → ∀ results, r = .ok results →
      List.Forall₂ (Reports control userId h es) entries results)

/-- One vehicle's part of the history, before the parts of the vehicles after it. -/
theorem VehicleEnds.part {entry : VehicleRecord} {r : Except Exc VehicleResult}
    (hv : VehicleEnds control userId entry base h r) :
    ∃ es, h = base ++ es ∧ Segment [entry.vehicleId] es ∧
      ∀ result, r = .ok result → Reports control userId h es entry result := by
  obtain ⟨applied, hcourse, hresult⟩ := hv
  obtain ⟨es, he, hsegment⟩ := hcourse.segment
  refine ⟨es, he, hsegment, ?_⟩
  intro result hr
  obtain ⟨hid, hsynced, _⟩ := hresult result hr
  refine ⟨hid, ?_, ?_⟩
  · intro hstatus
    obtain rfl := hsynced.mp hstatus
    exact hcourse.applied (fun _ hp => hp)
  · intro hconcluded
    obtain ⟨auditId, hm⟩ := hconcluded.completed
    exact hsynced.mpr (hcourse.returned_of_completed he hm)

theorem Reports.before {es rest : List TelemetryEvent} {ids : List String} {entry : VehicleRecord}
    {result : VehicleResult} (hr : Reports control userId h es entry result) (hs : Segment ids rest)
    (hother : entry.vehicleId ∉ ids) : Reports control userId (h ++ rest) (es ++ rest) entry result := by
  refine ⟨hr.vehicle, fun hstatus => (hr.synced hstatus).mono (List.prefix_append _ _), ?_⟩
  intro hconcluded
  rcases hconcluded.split hs with hc | hc
  · exact hr.concluded hc
  · exact absurd (hc.vehicle hs) hother

theorem Reports.after {es rest : List TelemetryEvent} {ids ids' : List String} {entry : VehicleRecord}
    {result : VehicleResult} (hr : Reports control userId h rest entry result) (hs : Segment ids es)
    (hs' : Segment ids' rest) (hother : entry.vehicleId ∉ ids) :
    Reports control userId h (es ++ rest) entry result := by
  refine ⟨hr.vehicle, hr.synced, ?_⟩
  intro hconcluded
  rcases hconcluded.split hs' with hc | hc
  · exact absurd (hc.vehicle hs) hother
  · exact hr.concluded hc

/-- The parts of a vehicle and of the vehicles after it make up the loop's part. -/
theorem LoopEnds.cons {entry : VehicleRecord} {entries : List VehicleRecord}
    {result : VehicleResult} {h' : List TelemetryEvent} {r : Except Exc (List VehicleResult)}
    (hv : VehicleEnds control userId entry base h (.ok result))
    (hl : LoopEnds control userId entries h h' r) :
    LoopEnds control userId (entry :: entries) base h' (r.map (fun results => result :: results)) := by
  obtain ⟨es, rfl, hsegment, hreport⟩ := hv.part
  obtain ⟨rest, rfl, hsegments, hreports⟩ := hl
  refine ⟨es ++ rest, by simp, hsegment.append hsegments, ?_⟩
  intro hdistinct results hr
  obtain ⟨hother, hdistinct'⟩ := List.nodup_cons.mp hdistinct
  cases r with
  | error e => cases hr
  | ok results' =>
    obtain rfl := Except.ok.inj hr
    refine .cons ((hreport result rfl).before hsegments hother) ?_
    have hrest := hreports hdistinct' results' rfl
    rw [List.forall₂_iff_get] at hrest ⊢
    refine ⟨hrest.1, ?_⟩
    intro i hi hi'
    apply (hrest.2 i hi hi').after hsegment hsegments
    intro hm
    have hin : (entries.get ⟨i, hi⟩).vehicleId ∈ entries.map VehicleRecord.vehicleId :=
      List.mem_map_of_mem (List.get_mem _ _)
    rw [List.mem_singleton.mp hm] at hin
    exact hother hin

theorem LoopEnds.raises {entry : VehicleRecord} {entries : List VehicleRecord} {e : Exc}
    (hv : VehicleEnds control userId entry base h (.error e)) :
    LoopEnds control userId (entry :: entries) base h (.error e) := by
  obtain ⟨es, rfl, hsegment, _⟩ := hv.part
  refine ⟨es, rfl, hsegment.weaken (by simp), ?_⟩
  intro _ results hr
  cases hr

theorem reconcileOthers_obeys (hA : Admits control userId canaryId listed A)
    (entries : List VehicleRecord) (hlisted : ∀ entry ∈ entries, entry ∈ listed)
    (hactive : ∀ entry ∈ entries, entry.authorizationStatus = .active)
    (hcanary : Applied control userId canaryId base) :
    Obeys A (LoopEnds control userId entries base) (reconcileOthers control userId entries) base := by
  induction entries generalizing base with
  | nil =>
    refine ⟨[], by simp, Unaudited.segment working_nil.unaudited, ?_⟩
    intro _ results hr
    obtain rfl := Except.ok.inj hr
    exact .nil
  | cons entry entries ih =>
    apply ((reconcileVehicle_obeys hA (hlisted entry (by simp)) (hactive entry (by simp))
      (fun _ => hcanary)).extends).bind
    · intro h₁ result hq
      obtain ⟨hv, hp⟩ := hq
      apply (ih (fun e he => hlisted e (List.mem_cons_of_mem _ he))
        (fun e he => hactive e (List.mem_cons_of_mem _ he)) (hcanary.mono hp)).bind
      · intro h₂ results hl
        exact LoopEnds.cons hv hl
      · intro h₂ e hl
        exact LoopEnds.cons hv hl
    · intro h₁ e hq
      exact LoopEnds.raises hq.1

/-- Where the loop ends that starts with the canary: after the last vehicle, or after a
canary whose apply did not succeed. -/
def OrderedEnds (control : Control) (userId : String) (canary : VehicleRecord)
    (others : List VehicleRecord) (base h : List TelemetryEvent)
    (r : Except Exc (List VehicleResult)) : Prop :=
  LoopEnds control userId (canary :: others) base h r ∨
  ∃ result es, r = .ok [result] ∧ h = base ++ es ∧ Segment [canary.vehicleId] es ∧
    result.status ≠ "synced" ∧ ¬ Concluded canary.vehicleId es

theorem reconcileOrdered_obeys (hA : Admits control userId canaryId listed A) {canary : VehicleRecord}
    {others : List VehicleRecord} (hid : canary.vehicleId = canaryId)
    (hlisted : ∀ entry ∈ canary :: others, entry ∈ listed)
    (hactive : ∀ entry ∈ canary :: others, entry.authorizationStatus = .active) :
    Obeys A (OrderedEnds control userId canary others base)
      (reconcileOrdered control userId canary others) base := by
  apply (reconcileVehicle_obeys hA (hlisted canary (by simp)) (hactive canary (by simp))
    (fun hother => absurd hid hother)).bind
  · intro h₁ result hv
    obtain ⟨applied, hcourse, hresult⟩ := hv
    have hsynced := (hresult result rfl).2.1
    have hreply := (hresult result rfl).2.2
    split
    · rename_i reply
      have happlied : applied = true := hreply.mpr ⟨reply, rfl⟩
      rw [happlied] at hcourse
      have hcanary : Applied control userId canaryId h₁ := by
        rw [← hid]
        exact hcourse.applied (fun _ hp => hp)
      have hends : VehicleEnds control userId canary base h₁ (.ok (.applied reply)) := by
        rw [happlied] at hresult
        exact ⟨true, hcourse, hresult⟩
      apply (reconcileOthers_obeys hA others (fun e he => hlisted e (List.mem_cons_of_mem _ he))
        (fun e he => hactive e (List.mem_cons_of_mem _ he)) hcanary).bind
      · intro h₂ results hl
        exact .inl (LoopEnds.cons hends hl)
      · intro h₂ e hl
        exact .inl (LoopEnds.cons hends hl)
    · rename_i hnone
      have happlied : applied ≠ true := by
        intro ha
        obtain ⟨reply, rfl⟩ := hreply.mp ha
        exact hnone reply rfl
      obtain ⟨es, he, hsegment⟩ := hcourse.segment
      refine .inr ⟨result, es, rfl, he, hsegment, fun hstatus => happlied (hsynced.mp hstatus), ?_⟩
      intro hconcluded
      obtain ⟨auditId, hm⟩ := hconcluded.completed
      exact happlied (hcourse.returned_of_completed he hm)
  · intro h₁ e hv
    exact .inl (LoopEnds.raises hv)

end Loop

section Ready
variable {control : Control} {userId canaryId : String} {listed : List VehicleRecord}
  {A : List TelemetryEvent → Call → Prop}

/-- The vehicles of the user that the store lists as active. -/
def activeVehicles (listed : List VehicleRecord) : List VehicleRecord :=
  listed.filter (fun vehicle => vehicle.authorizationStatus = .active)

theorem mem_activeVehicles {entry : VehicleRecord} :
    entry ∈ activeVehicles listed ↔ entry ∈ listed ∧ entry.authorizationStatus = .active := by
  simp [activeVehicles]

theorem selectedVehicle_some {vehicles : List VehicleRecord} {vehicleId : String}
    {vehicle : VehicleRecord} (hs : selectedVehicle vehicles vehicleId = some vehicle) :
    vehicle ∈ vehicles ∧ vehicle.vehicleId = vehicleId := by
  unfold selectedVehicle at hs
  refine ⟨List.mem_reverse.mp (List.mem_of_find?_eq_some hs), ?_⟩
  have hp := List.find?_some hs
  simpa using hp

/-- `ordered`: the canary and then the others. -/
def ordered (vehicles : List VehicleRecord) (canary : VehicleRecord) : List VehicleRecord :=
  canary :: vehicles.filter (fun vehicle => vehicle.vehicleId ≠ canary.vehicleId)

theorem of_mem_ordered {vehicles : List VehicleRecord} {canary entry : VehicleRecord}
    (hc : canary ∈ vehicles) (he : entry ∈ ordered vehicles canary) : entry ∈ vehicles := by
  rcases List.mem_cons.mp he with rfl | he
  · exact hc
  · exact List.mem_of_mem_filter he

theorem mem_ordered {vehicles : List VehicleRecord} {canary entry : VehicleRecord}
    (hdistinct : Distinct vehicles) (hc : canary ∈ vehicles) (he : entry ∈ vehicles) :
    entry ∈ ordered vehicles canary := by
  unfold ordered
  by_cases hid : entry.vehicleId = canary.vehicleId
  · rw [List.inj_on_of_nodup_map hdistinct he hc hid]
    exact List.mem_cons_self
  · apply List.mem_cons_of_mem
    simp [he, hid]

theorem Distinct.filter {entries : List VehicleRecord} (hdistinct : Distinct entries)
    (p : VehicleRecord → Bool) : Distinct (entries.filter p) :=
  List.Nodup.sublist (List.Sublist.map _ List.filter_sublist) hdistinct

theorem ordered_distinct {vehicles : List VehicleRecord} {canary : VehicleRecord}
    (hdistinct : Distinct vehicles) : Distinct (ordered vehicles canary) := by
  unfold ordered Distinct
  rw [List.map_cons, List.nodup_cons]
  constructor
  · intro hm
    obtain ⟨entry, he, hid⟩ := List.mem_map.mp hm
    have hp := (List.mem_filter.mp he).2
    simp [hid] at hp
  · exact hdistinct.filter _

theorem concluded_after {base es : List TelemetryEvent} {ids : List String} {vehicleId : String}
    (hc : Concluded vehicleId (base ++ es)) (hbase : Unaudited base) (hs : Segment ids es) :
    Concluded vehicleId es := by
  rcases hc.split hs with hc | hc
  · obtain ⟨auditId, hm⟩ := hc.completed
    exact absurd hm (hbase.not_completed _ _ _ _)
  · exact hc

/-- The status reports a run in which every vehicle's apply succeeded. -/
theorem ready_iff {canary : VehicleRecord} {others : List VehicleRecord}
    {base h : List TelemetryEvent} {results : List VehicleResult} (hbase : Unaudited base)
    (hdistinct : Distinct (canary :: others))
    (hends : OrderedEnds control userId canary others base h (.ok results)) :
    (reconciliationOf control (canary :: others) results).status = "ready_for_server_cutover" ↔
      ∀ entry ∈ canary :: others, Applied control userId entry.vehicleId h := by
  have hstatus : (reconciliationOf control (canary :: others) results).status =
      "ready_for_server_cutover" ↔ results.length = (canary :: others).length ∧
        ∀ result ∈ results, result.status = "synced" := by
    unfold reconciliationOf
    dsimp only
    split
    · rename_i hready
      simpa using hready
    · rename_i hready
      simpa using hready
  rw [hstatus]
  rcases hends with ⟨es, rfl, hsegment, hreports⟩ | ⟨result, es, hresult, rfl, hsegment, hunsynced, hnot⟩
  · have hall := hreports hdistinct results rfl
    constructor
    · intro hready entry he
      obtain ⟨i, hi, rfl⟩ := List.mem_iff_getElem.mp he
      rw [List.forall₂_iff_get] at hall
      have hi' : i < results.length := by
        rw [hready.1]
        exact hi
      exact (hall.2 i hi hi').synced (hready.2 _ (List.getElem_mem hi'))
    · intro happlied
      refine ⟨hall.length_eq.symm, ?_⟩
      intro result hr
      obtain ⟨i, hi, rfl⟩ := List.mem_iff_getElem.mp hr
      rw [List.forall₂_iff_get] at hall
      have hi' : i < (canary :: others).length := by
        rw [hall.1]
        exact hi
      have hentry := happlied _ (List.getElem_mem hi')
      exact (hall.2 i hi' hi).concluded (concluded_after hentry.concluded hbase hsegment)
  · obtain rfl := Except.ok.inj hresult
    constructor
    · intro hready
      exact absurd (hready.2 result (by simp)) hunsynced
    · intro happlied
      have hcanary := happlied canary (by simp)
      exact absurd (concluded_after hcanary.concluded hbase hsegment) hnot

/-- Where a reconciliation of the listed vehicles ends. -/
def ReconciliationEnds (control : Control) (userId : String) (listed : List VehicleRecord)
    (h : List TelemetryEvent) (r : Except Exc Reconciliation) : Prop :=
  Distinct listed → ∀ reconciliation, r = .ok reconciliation →
    (reconciliation.status = "ready_for_server_cutover" ↔
      ∀ entry ∈ listed, entry.authorizationStatus = .active →
        Applied control userId entry.vehicleId h)

/-- `reconcile_opted_in_transport` once the vehicles are listed. -/
theorem listed_obeys (hA : Admits control userId canaryId listed A) {base : List TelemetryEvent}
    (hbase : Unaudited base) :
    Obeys A (ReconciliationEnds control userId listed)
      (match selectedVehicle (activeVehicles listed) canaryId with
        | none => throw (.telemetryConfiguration "invalid_canary" "Canary vehicle is not eligible")
        | some canary => do
          let others := (activeVehicles listed).filter (fun vehicle => vehicle.vehicleId ≠ canaryId)
          let results ← reconcileOrdered control userId canary others
          return reconciliationOf control (canary :: others) results) base := by
  split
  · intro _ reconciliation hr
    cases hr
  · rename_i canary hselected
    obtain ⟨hcanary, hid⟩ := selectedVehicle_some hselected
    subst hid
    have hmem : ∀ entry ∈ ordered (activeVehicles listed) canary,
        entry ∈ listed ∧ entry.authorizationStatus = .active := by
      intro entry he
      exact mem_activeVehicles.mp (of_mem_ordered hcanary he)
    have hrun : Obeys A (OrderedEnds control userId canary
          ((activeVehicles listed).filter (fun v => v.vehicleId ≠ canary.vehicleId)) base)
        (reconcileOrdered control userId canary
          ((activeVehicles listed).filter (fun v => v.vehicleId ≠ canary.vehicleId))) base :=
      reconcileOrdered_obeys hA rfl (fun e he => (hmem e he).1) (fun e he => (hmem e he).2)
    apply hrun.bind
    · intro h results hends hdistinct reconciliation hr
      obtain rfl := Except.ok.inj hr
      have hactive : Distinct (activeVehicles listed) := hdistinct.filter _
      rw [ready_iff hbase (ordered_distinct hactive) hends]
      constructor
      · intro hall entry hlisted hact
        exact hall entry (mem_ordered hactive hcanary (mem_activeVehicles.mpr ⟨hlisted, hact⟩))
      · intro hall entry he
        obtain ⟨hlisted, hact⟩ := hmem entry he
        exact hall entry hlisted hact
    · intro h e _ _ reconciliation hr
      cases hr

/-- What a run of a reconciliation over the listed vehicles keeps to. -/
structure ReconciliationGuarantees (control : Control) (userId canaryId : String)
    (listed : List VehicleRecord) (h : List TelemetryEvent) (p : Controlling Reconciliation) :
    Prop where
  /-- Every configuration that is written is one the reconciliation may write. -/
  writes : ∀ pre post token base vin config r,
    h = pre ++ ⟨.configCreate token base vin config,r⟩ :: post →
      WriteAllowed control userId canaryId listed pre vin config
  /-- No configuration is deleted. -/
  deletes : ∀ token base vin r, (⟨.configDelete token base vin,r⟩ : TelemetryEvent) ∉ h
  /-- The status is ready exactly when every active vehicle's apply succeeded in this run. -/
  ready : ∀ reconciliation, p = .ret reconciliation →
    (reconciliation.status = "ready_for_server_cutover" ↔
      ∀ entry ∈ listed, entry.authorizationStatus = .active →
        Applied control userId entry.vehicleId h)

theorem transport_obeys (hinjective : PlanHashInjective control) {es : List TelemetryEvent}
    {p : Controlling Reconciliation}
    (run : Trace (reconcileOptedInTransport control userId canaryId)
      (⟨.listVehicles userId,.ok listed⟩ :: es) p) :
    (∀ pre e post, es = pre ++ e :: post →
      TransportRules control userId canaryId listed (⟨.listVehicles userId,.ok listed⟩ :: pre) e.op) ∧
    ∀ reconciliation, p = .ret reconciliation →
      ReconciliationEnds control userId listed (⟨.listVehicles userId,.ok listed⟩ :: es)
        (.ok reconciliation) := by
  have hbase : Unaudited [(⟨.listVehicles userId,.ok listed⟩ : TelemetryEvent)] :=
    Unaudited.single rfl
  have hadmits : Admits control userId canaryId listed (TransportRules control userId canaryId listed) :=
    transportRules_admits hinjective
  have hobeys := listed_obeys hadmits hbase
  cases run with
  | call tail =>
    constructor
    · intro pre e post he
      rw [he] at tail
      exact hobeys.allowed tail
    · intro reconciliation hp
      have hends := hobeys.trace tail
      rw [hp] at hends
      exact hends

theorem canary_gated_reconciliation (hinjective : PlanHashInjective control)
    (hdistinct : Distinct listed) {es : List TelemetryEvent} {p : Controlling Reconciliation}
    (run : Trace (reconcileOptedInTransport control userId canaryId)
      (⟨.listVehicles userId,.ok listed⟩ :: es) p) :
    ReconciliationGuarantees control userId canaryId listed
      (⟨.listVehicles userId,.ok listed⟩ :: es) p := by
  obtain ⟨hrules, hends⟩ := transport_obeys hinjective run
  constructor
  · intro pre post token base vin config r he
    cases pre with
    | nil => cases (List.cons.inj he).1
    | cons e pre =>
      obtain ⟨rfl, hrest⟩ := List.cons.inj he
      exact (hrules pre _ post hrest).2
  · intro token base vin r hm
    rcases List.mem_cons.mp hm with he | hm
    · cases he
    · obtain ⟨pre, post, he⟩ := List.append_of_mem hm
      obtain ⟨vehicle, record, mid, hu, _⟩ := (hrules pre _ post he).1
      have hoperation : "apply" = "remove" := hu.scope.symm.trans hu.describes.operation
      exact absurd hoperation (by decide)
  · intro reconciliation hp
    exact hends reconciliation hp hdistinct reconciliation rfl

end Ready

section Demo

/-- The one digest of the demonstration, whose runs have a single profile and a single CA. -/
def demoHash : String := "d4467ed90d0912cf65db1b41c12b7b9e0a222c718f1e9738175143b2f67369d4"

def demoControl : Control :=
  { sha256Hex := fun _ => demoHash
    loadPemCertificates := rootCertificates
    reviewed :=
      { version := "broad-v4", schemaVersion := "1.0", baselineName := "teslamate-2026"
        fields := [(str "Soc",{ intervalSeconds := 60 })], alertTypes := []
        deliveryPolicy := str "latest" }
    trust :=
      { profileId := "ca-2026", hostname := str "telemetry.example.com", port := 443
        caPem := pemText firstRoot, caHash := demoHash }
    syncAttempts := 2, syncDelayMilliseconds := 5000
    attempts_valid := by decide, delay_valid := by decide }

def demoConnection : Gateway.TeslaConnection :=
  { connectionId := "conn_1", ownerUserId := "usr_1"
    tokens :=
      { accessToken := "access", refreshToken := "refresh", expiresAt := 1000000000000,
        scopes := requiredScopes, teslaSubject := "subject" }
    tokenVersion := 1, region := some "eu", baseUrl := "https://fleet-api.prd.eu.vn.cloud.tesla.com"
    status := .connected }

def demoVehicle (vehicleId vin : String) : VehicleRecord :=
  { vehicleId, ownerUserId := "usr_1", connectionId := "conn_1", vin, teslaVehicleId := "7",
    displayName := none, state := none, authorizationStatus := .active, virtualKeyStatus := .paired,
    commandProtocolRequired := some true, firmwareVersion := none, fleetTelemetryVersion := none,
    totalNumberOfKeys := none }

/-- Tesla's answer once it has synced the desired configuration. -/
def demoResponse : Dict Json :=
  [(str "synced",.bool true),
   (str "config",.obj
    [(str "hostname",.str (str "telemetry.example.com")),(str "ca",.str (pemText firstRoot)),
     (str "port",.int 443),
     (str "fields",.obj [(str "Soc",.obj [(str "interval_seconds",.int 60)])]),
     (str "alert_types",.arr []),(str "delivery_policy",.str (str "latest"))])]

/-- The fleet `vehicles`, opted in and without drift; `version` is the client that
`fleet_status` reports for a VIN, and `saved` the answer to a vehicle's save. -/
def demoAnswers (vehicles : List VehicleRecord) (version : String → String)
    (saved : String → Except Exc Unit) : Answers Call Call.Ret Exc := fun h => fun
  | .onboarding .utcNow => .ok (0 : Int)
  | .onboarding (.getConnection _) => .ok demoConnection
  | .onboarding (.getVehicle _ vehicleId) =>
    match vehicles.find? (fun vehicle => vehicle.vehicleId = vehicleId) with
    | some vehicle => .ok vehicle
    | none => .error (.teslaOnboarding "Vehicle does not exist")
  | .onboarding (.fleetStatus ..) => .ok (fun vin => some
      { vin, keyPaired := some true, vehicleCommandProtocolRequired := some true,
        firmwareVersion := some "2026.26.6", fleetTelemetryVersion := some (version vin),
        totalNumberOfKeys := some 1 })
  | .onboarding _ => .error (.other "unavailable")
  | .listVehicles _ => .ok vehicles
  | .getTelemetryConfiguration _ vehicleId =>
    .ok { vehicleId, status := "synced", fieldConfigHash := some demoHash,
          transportMaintenanceOptIn := true }
  | .updateTelemetry vehicleId _ => saved vehicleId
  | .beginTelemetryConfigAudit _ => .ok ()
  | .completeTelemetryConfigAudit .. => .ok ()
  | .configCreate .. => .ok []
  | .configDelete .. => .ok ()
  | .configGet .. => .ok demoResponse
  | .telemetryErrors .. => .ok (.arr [])
  | .tokenHex _ => .ok (if h.any (fun e => e.op.auditing) then "b0" else "a0")
  | .sleep _ => .ok ()

/-- There is one reviewed profile, so no two documents have the same hash. -/
theorem demo_hash_injective : PlanHashInjective demoControl := by
  intro profile profile' hp hp' _
  have hone : ∀ profile, Reviewed demoControl profile →
      profile = { version := "broad-v4", schemaVersion := "1.0", baselineName := "teslamate-2026",
                  fields := [(str "Soc",{ intervalSeconds := 60 })], alertTypes := [],
                  deliveryPolicy := str "latest" } := by
    intro profile hr
    obtain ⟨version, hb⟩ := hr
    unfold broadProfile at hb
    cases hs : versionAtLeast version (1,2,0) with
    | error e =>
      rw [hs] at hb
      cases hb
    | ok selfDriving =>
      cases hi : versionAtLeast version (1,3,0) with
      | error e =>
        rw [hs, hi] at hb
        cases hb
      | ok includeFields =>
        rw [hs, hi] at hb
        obtain rfl := Except.ok.inj hb
        cases selfDriving <;> cases includeFields <;> decide +kernel
  rw [hone profile hp, hone profile' hp']

def demoFleet : List VehicleRecord := [demoVehicle "veh_1" "LRW0",demoVehicle "veh_2" "LRW1"]

/-- What a run of the demonstration fleet leaves and ends in. -/
def demoRun (saved : String → Except Exc Unit) : List TelemetryEvent × Except Exc Reconciliation :=
  (reconcileOptedInTransport demoControl "usr_1" "veh_2").run
    (demoAnswers demoFleet (fun _ => "1.3.0") saved) []

theorem demo_trace (saved : String → Except Exc Unit) :
    ∃ es, (demoRun saved).1 = ⟨.listVehicles "usr_1",.ok demoFleet⟩ :: es ∧
      Trace (reconcileOptedInTransport demoControl "usr_1" "veh_2")
        (⟨.listVehicles "usr_1",.ok demoFleet⟩ :: es) (Prog.ofExcept (demoRun saved).2) :=
  run_trace_call

theorem demo_distinct : Distinct demoFleet := by
  unfold Distinct
  decide

set_option maxRecDepth 100000 in
theorem canary_gated_reconciliation_demo :
    ∃ es reconciliation, Trace (reconcileOptedInTransport demoControl "usr_1" "veh_2")
        (⟨.listVehicles "usr_1",.ok demoFleet⟩ :: es) (.ret reconciliation) ∧
      reconciliation.status = "ready_for_server_cutover" ∧
      ReconciliationGuarantees demoControl "usr_1" "veh_2" demoFleet
        (⟨.listVehicles "usr_1",.ok demoFleet⟩ :: es) (.ret reconciliation) := by
  have hstatus : (demoRun (fun _ => .ok ())).2.map Reconciliation.status = .ok "ready_for_server_cutover" := by
    decide +kernel
  obtain ⟨es, _, ht⟩ := demo_trace (fun _ => .ok ())
  cases hr : (demoRun (fun _ => .ok ())).2 with
  | error e =>
    rw [hr] at hstatus
    cases hstatus
  | ok reconciliation =>
    rw [hr] at ht hstatus
    exact ⟨es, reconciliation, ht, Except.ok.inj hstatus,
      canary_gated_reconciliation demo_hash_injective demo_distinct ht⟩

/-- Tesla confirmed the desired configuration of the vehicle to an audited operation of the run. -/
def VerifiedSynced (control : Control) (userId vehicleId : String) (h : List TelemetryEvent) : Prop :=
  ∃ before record mid after change profile,
    h = begunAt before record ++ mid ++ after ∧ Unaudited mid ∧ record.vehicleId = vehicleId ∧
    Describes control userId record change ∧ Found control userId before vehicleId change ∧
    change.profile = some profile ∧
    Confirmed control mid change.vehicle.vin (desiredConfig control profile)

/-- A save of a synced state comes after a confirmation. -/
theorem verifiedSynced_of_save {control : Control} {userId vehicleId : String}
    {P : ConfigAudit → Prop} {h rest : List TelemetryEvent} {state : TelemetryConfigurationState}
    (hstatus : state.status = "synced")
    (hc : ConfigRules control userId P h (.updateTelemetry vehicleId state)) :
    VerifiedSynced control userId vehicleId (h ++ rest) := by
  obtain ⟨change, record, mid, hu, rfl, rfl, hconfirmed⟩ := hc
  obtain ⟨before, rfl, hfound⟩ := hu.begun
  have hprofile : ∃ profile, change.profile = some profile := by
    cases change with
    | apply vehicle profile optIn => exact ⟨profile, rfl⟩
    | verify vehicle profile optIn => exact ⟨profile, rfl⟩
    | remove vehicle => exact absurd hstatus (by simp [Change.state])
  obtain ⟨profile, hp⟩ := hprofile
  exact ⟨before, record, mid, rest, change, profile, by simp [begunAt], hu.unaudited, rfl,
    hu.describes, hfound, hp, hconfirmed profile hp⟩

def savesSynced (vehicleId : String) (e : TelemetryEvent) : Bool :=
  match e.op with
  | .updateTelemetry id state => decide (id = vehicleId ∧ state.status = "synced")
  | _ => false

theorem of_savesSynced {vehicleId : String} {e : TelemetryEvent} (h : savesSynced vehicleId e = true) :
    ∃ state, e.op = .updateTelemetry vehicleId state ∧ state.status = "synced" := by
  unfold savesSynced at h
  split at h
  · rename_i id state he
    obtain ⟨rfl, hstatus⟩ := of_decide_eq_true h
    exact ⟨state, he, hstatus⟩
  · cases h

/-- The save of the second vehicle fails. -/
def demoUnsaved (vehicleId : String) : Except Exc Unit :=
  if vehicleId = "veh_1" then .error (.other "unavailable") else .ok ()

set_option maxRecDepth 100000 in
/-- Every vehicle is confirmed, but one of them is not saved, and the run returns blocked. -/
theorem unsaved_reconciliation_blocked :
    ¬ ∀ (control : Control) (userId canaryId : String) (listed : List VehicleRecord)
      (es : List TelemetryEvent) (reconciliation : Reconciliation),
      PlanHashInjective control → Distinct listed →
      Trace (reconcileOptedInTransport control userId canaryId)
        (⟨.listVehicles userId,.ok listed⟩ :: es) (.ret reconciliation) →
      (reconciliation.status = "ready_for_server_cutover" ↔
        ∀ entry ∈ listed, entry.authorizationStatus = .active →
          VerifiedSynced control userId entry.vehicleId (⟨.listVehicles userId,.ok listed⟩ :: es)) := by
  intro hclaim
  have hstatus : (demoRun demoUnsaved).2.map Reconciliation.status = .ok "blocked" := by
    decide +kernel
  have hsaves : (demoFleet.all fun entry =>
      (demoRun demoUnsaved).1.any (savesSynced entry.vehicleId)) = true := by
    decide +kernel
  obtain ⟨es, he, ht⟩ := demo_trace demoUnsaved
  cases hr : (demoRun demoUnsaved).2 with
  | error e =>
    rw [hr] at hstatus
    cases hstatus
  | ok reconciliation =>
    rw [hr] at ht hstatus
    have hready := (hclaim _ _ _ _ es reconciliation demo_hash_injective demo_distinct ht).mpr ?_
    · rw [Except.ok.inj hstatus] at hready
      exact absurd hready (by decide)
    · intro entry hlisted _
      have hany := List.all_eq_true.mp hsaves entry hlisted
      rw [he] at hany
      obtain ⟨e, hm, hsave⟩ := List.any_eq_true.mp hany
      obtain ⟨state, hop, hsynced⟩ := of_savesSynced hsave
      rcases List.mem_cons.mp hm with rfl | hm
      · cases hop
      · obtain ⟨pre, post, rfl⟩ := List.append_of_mem hm
        obtain ⟨hrules, _⟩ := transport_obeys demo_hash_injective ht
        have hrule := (hrules pre e post rfl).1
        rw [hop] at hrule
        exact verifiedSynced_of_save hsynced hrule

end Demo

end Woodhouse.Telemetry
