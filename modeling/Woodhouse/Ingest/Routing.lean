import Woodhouse.Ingest.Appends

namespace Woodhouse.Ingest
open Effects Python

/-- The documents that VINs are resolved through. -/
structure Registry where
  vinIndex : Str → Option Document
  vehicles : Str → Option Document
  allowedUsers : List Document

def snapshotOf (d : Option Document) : Snapshot where
  found := d.isSome
  toDict := d

def Registry.usersOf (registry : Registry) (userId : Str) : List Document :=
  registry.allowedUsers.filter (fun d => d.string "user_id" = some userId)

/-- A read that returns returns what the registry holds. -/
def Registry.Answers (registry : Registry) : ServiceEvent → Prop
  | ⟨.getVinIndex indexId,.ok index⟩ => index = snapshotOf (registry.vinIndex indexId)
  | ⟨.getVehicle vehicleId,.ok vehicle⟩ => vehicle = snapshotOf (registry.vehicles vehicleId)
  | ⟨.queryAllowedUsers userId limit,.ok users⟩ =>
    users = ((registry.usersOf userId).take limit).map (fun d => snapshotOf (some d))
  | _ => True

/-- The index entry, the vehicle document and the only allowlist user agree on the VIN. -/
structure Registered (sha256Hex : Bytes → Str) (registry : Registry)
    (vin vehicleId ownerUserId datasetId : Str) (vehicleData : Document) : Prop where
  index : ∃ encoded indexData, encodeUtf8 vin = .ok encoded ∧
    registry.vinIndex (sha256Hex encoded) = some indexData ∧
    indexData.string "vehicle_id" = some vehicleId ∧
    indexData.string "owner_user_id" = some ownerUserId
  vehicle : registry.vehicles vehicleId = some vehicleData
  vin : vehicleData.string "vin" = some vin
  owner : vehicleData.string "owner_user_id" = some ownerUserId
  user : ∃ userData, registry.usersOf ownerUserId = [userData] ∧
    userData.string "status" = some (str "active") ∧
    userData.string "dataset_id" = some datasetId
  dataset : isDatasetId datasetId = true

/-- Everything that makes a push the telemetry of a vehicle in `datasetId`, and `event` its
event. -/
structure Owned (sha256Hex : Bytes → Str) (policy : TelemetrySourcePolicy) (registry : Registry)
    (push : Push) (datasetId : Str) (event : RawTelemetryEvent) : Prop where
  notSynthetic : push.subscription ≠ policy.syntheticSubscription
  fleet : policy.fleetSubscriptions.get push.subscription = some event.recordType
  allowed : event.recordType ∈ allowedRecordTypes
  txtype : push.attributes.get (str "txtype") = some event.recordType
  unmarked : push.attributes.get (str "tpp_synthetic_fixture") ≠ some syntheticMarker
  createdAt : optionalTimestamp (push.payload.get (str "createdAt")) =
    .ok (some event.sourceTimestamp)
  receivedat : millisecondsTimestamp (push.attributes.get (str "receivedat")) =
    some event.ingestedAt
  payload : event.payload = push.payload
  vehicle : ∃ vin vehicleId ownerUserId vehicleData, vin ≠ [] ∧
    push.attributes.get (str "vin") = some vin ∧
    (∀ payloadVin, push.payload.get (str "vin") = some (.str payloadVin) → payloadVin ≠ [] →
      payloadVin = vin) ∧
    Registered sha256Hex registry vin vehicleId ownerUserId datasetId vehicleData ∧
    event.vin = some vin ∧ event.vehicleId = some vehicleId ∧
    event.teslaVehicleId = optionalString vehicleData "tesla_vehicle_id" ∧
    event.telemetryConfigVersion = optionalString vehicleData "telemetry_config_version" ∧
    event.telemetryConfigHash = optionalString vehicleData "telemetry_config_hash"

section Valid
variable {policy : TelemetrySourcePolicy} {now : Utc} {push : Push}
  {publishTime sourceTimestamp : Option Utc} {fixtureId : Option Str}

theorem unmarked_of_noFixture (h : syntheticFixtureId push.attributes = .ok none) :
    push.attributes.get (str "tpp_synthetic_fixture") ≠ some syntheticMarker := by
  intro hmarker
  unfold syntheticFixtureId at h
  rw [if_neg (not_not.mpr hmarker)] at h
  dsimp only at h
  split at h
  · cases h
  · cases h

theorem checkSubscription_ok {subscription recordType : Str}
    (h : (checkSubscription policy subscription recordType none).2 = none) :
    subscription ≠ policy.syntheticSubscription ∧
      policy.fleetSubscriptions.get subscription = some recordType := by
  unfold checkSubscription at h
  split at h
  · cases h
  · rename_i hne
    split at h
    · rename_i expected hexpected
      by_cases hr : recordType = expected
      · rw [hr]
        exact ⟨hne,hexpected⟩
      · simp [hr] at h
    · cases h

theorem checkRecordType_ok {recordType : Str} (h : checkRecordType recordType none = none) :
    recordType ∈ allowedRecordTypes := by
  unfold checkRecordType at h
  by_contra hnot
  simp [hnot] at h

/-- `unknown` is no allowed type, so an allowed one is the attribute's. -/
theorem txtype_of_allowed {attributes : Dict Str}
    (h : recordTypeOf attributes none ∈ allowedRecordTypes) :
    attributes.get (str "txtype") = some (recordTypeOf attributes none) := by
  unfold recordTypeOf at h ⊢
  cases ha : attributes.get (str "txtype") with
  | some t => rfl
  | none =>
    rw [ha] at h
    have hunknown : str "unknown" ∉ allowedRecordTypes := by decide
    exact absurd h hunknown

theorem checkPayloadVin_ok {payload : Dict Json} {vin : Str}
    (h : checkPayloadVin payload (some vin) none = none) :
    ∀ payloadVin, payload.get (str "vin") = some (.str payloadVin) → payloadVin ≠ [] →
      payloadVin = vin := by
  intro payloadVin hp hne
  unfold checkPayloadVin at h
  rw [hp] at h
  by_contra hvin
  simp [hne,hvin] at h

theorem isSome_of_check {t : Option Utc} (h : checkSourceTimestamp t = none) :
    ∃ value, t = some value := by
  cases t with
  | none => cases h
  | some value => exact ⟨value,rfl⟩

theorem isSome_of_edgeCheck {t : Option Utc} (h : checkEdgeReceivedAt t none = none) :
    ∃ value, t = some value := by
  cases t with
  | none => cases h
  | some value => exact ⟨value,rfl⟩

theorem orNone_eq_some {s : Option Str} {t : Str} (h : orNone s = some t) : s = some t ∧ t ≠ [] := by
  simpa [orNone,Option.filter_eq_some_iff] using h

/-- A valid delivery without a fixture, resolved to a registered vehicle, is owned. -/
theorem owned_of_valid {sha256Hex : Bytes → Str} {registry : Registry} {receiverVersion vin : Str}
    {vehicleId ownerUserId datasetId : Str} {vehicleData : Document}
    (hc : optionalTimestamp (push.payload.get (str "createdAt")) = .ok sourceTimestamp)
    (hf : syntheticFixtureId push.attributes = .ok none)
    (hvalid : (incomingOf policy now push publishTime sourceTimestamp none).validationError = none)
    (hvin : (incomingOf policy now push publishTime sourceTimestamp none).vin = some vin)
    (hr : Registered sha256Hex registry vin vehicleId ownerUserId datasetId vehicleData) :
    Owned sha256Hex policy registry push datasetId
      (ownedEvent (eventOf receiverVersion
        (incomingOf policy now push publishTime sourceTimestamp none) now)
        (routeOf ownerUserId datasetId vehicleId vehicleData)) := by
  obtain ⟨hattr,hne⟩ := orNone_eq_some hvin
  simp only [incomingOf,Option.orElse_eq_orElse,Option.orElse_eq_or,Option.or_eq_none_iff] at hvalid
  obtain ⟨hsub,hrec,hpv,hst,hedge⟩ := hvalid
  obtain ⟨hnotSynthetic,hfleet⟩ := checkSubscription_ok hsub
  have hallowed := checkRecordType_ok hrec
  obtain ⟨source,rfl⟩ := isSome_of_check hst
  obtain ⟨edge,hedge⟩ := isSome_of_edgeCheck hedge
  have hvin' : orNone (push.attributes.get (str "vin")) = some vin := hvin
  rw [hvin'] at hpv
  refine ⟨hnotSynthetic,hfleet,hallowed,txtype_of_allowed hallowed,unmarked_of_noFixture hf,hc,?_,rfl,
    vin,vehicleId,ownerUserId,vehicleData,hne,hattr,checkPayloadVin_ok hpv,hr,hvin,rfl,rfl,rfl,rfl⟩
  show millisecondsTimestamp _ = some ((millisecondsTimestamp _).getD _)
  rw [hedge]
  rfl

end Valid

section Programs
variable {sha256Hex : Bytes → Str} {registry : Registry} {h : List ServiceEvent}

theorem indexTarget_ok {d : Option Document} {vehicleId ownerUserId : Str}
    (ht : indexTarget (snapshotOf d) = some (vehicleId,ownerUserId)) :
    ∃ indexData, d = some indexData ∧ indexData.string "vehicle_id" = some vehicleId ∧
      indexData.string "owner_user_id" = some ownerUserId := by
  cases d with
  | none => cases ht
  | some indexData =>
    simp only [indexTarget,snapshotOf,Option.isSome_some,Option.bind_eq_bind] at ht
    simp only [Bool.not_true,Bool.false_eq_true,if_false,Option.bind_some,Option.bind_eq_some_iff,
      Option.some.injEq,Prod.mk.injEq] at ht
    obtain ⟨_,hv,_,ho,rfl,rfl⟩ := ht
    exact ⟨indexData,rfl,hv,ho⟩

theorem vehicleOf_ok {d : Option Document} {vin ownerUserId : Str} {vehicleData : Document}
    (hv : vehicleOf (snapshotOf d) vin ownerUserId = some vehicleData) :
    d = some vehicleData ∧ vehicleData.string "vin" = some vin ∧
      vehicleData.string "owner_user_id" = some ownerUserId := by
  cases d with
  | none => cases hv
  | some data =>
    simp only [vehicleOf,snapshotOf,Option.isSome_some,Option.bind_eq_bind,Bool.not_true,
      Bool.false_eq_true,if_false,Option.bind_some] at hv
    split at hv
    · cases hv
    · rename_i hne
      cases hv
      push Not at hne
      exact ⟨rfl,hne.1,hne.2⟩

/-- Two documents are enough to see that a user is the only one. -/
theorem datasetOf_ok {users : List Document} {datasetId : Str}
    (hd : datasetOf ((users.take 2).map (fun d => snapshotOf (some d))) = some datasetId) :
    ∃ userData, users = [userData] ∧ userData.string "status" = some (str "active") ∧
      userData.string "dataset_id" = some datasetId ∧ isDatasetId datasetId = true := by
  cases users with
  | nil => cases hd
  | cons userData rest =>
    cases rest with
    | cons _ _ => cases hd
    | nil =>
      simp only [datasetOf,List.take,List.map_cons,List.map_nil,snapshotOf,Option.bind_eq_bind,
        Option.bind_some,Option.bind_eq_some_iff] at hd
      obtain ⟨d,hdataset,hd⟩ := hd
      split at hd
      · rename_i hactive
        cases hd
        exact ⟨userData,rfl,hactive.1,hdataset,hactive.2⟩
      · cases hd

theorem registered_of_resolved {vin : Str} {route : VehicleRoute}
    (hanswers : ∀ e ∈ h, registry.Answers e) (hr : Resolved sha256Hex h vin route) :
    ∃ vehicleId ownerUserId datasetId vehicleData,
      route = routeOf ownerUserId datasetId vehicleId vehicleData ∧
      Registered sha256Hex registry vin vehicleId ownerUserId datasetId vehicleData := by
  obtain ⟨encoded,index,vehicle,users,vehicleId,ownerUserId,datasetId,vehicleData,hvin,hindex,
    hvehicle,husers,hi,hv,hd,rfl⟩ := hr.reads
  have hindex := hanswers _ hindex
  have hvehicle := hanswers _ hvehicle
  have husers := hanswers _ husers
  simp only [Registry.Answers] at hindex hvehicle husers
  rw [hindex] at hi
  rw [hvehicle] at hv
  rw [husers] at hd
  obtain ⟨indexData,hidoc,hvid,howner⟩ := indexTarget_ok hi
  obtain ⟨hvdoc,hvinField,hvowner⟩ := vehicleOf_ok hv
  obtain ⟨userData,hunique,hactive,hdataset,hid⟩ := datasetOf_ok hd
  exact ⟨vehicleId,ownerUserId,datasetId,vehicleData,rfl,
    ⟨encoded,indexData,hvin,hidoc,hvid,howner⟩,hvdoc,hvinField,hvowner,
    ⟨userData,hunique,hactive,hdataset⟩,hid⟩

theorem processPush_obeys (sha256Hex : Bytes → Str) (registry : Registry) (limit : Nat)
    (runtime : Runtime) (body : Bytes) (now : Utc) :
    Obeys (Guarded (fun h datasetId event => (∀ e ∈ h, registry.Answers e) →
        ∃ push, Carries limit body push ∧
          Owned sha256Hex runtime.sourcePolicy registry push datasetId event))
      (fun h' r => ∀ result, r = .ok result → ∃ a, appends h' = [a])
      (processPush sha256Hex limit runtime body now) [] := by
  unfold processPush
  cases hd : decodePubsubPush limit body now runtime.sourcePolicy with
  | error e =>
    intro result hr
    cases hr
  | ok incoming =>
    obtain ⟨push,publishTime,fixtureId,sourceTimestamp,hcarries,_,hf,hc,rfl⟩ :=
      decodePubsubPush_eq_ok.mp hd
    show Obeys _ _ (process sha256Hex runtime.receiverVersion _ now) []
    refine process_obeys rfl ?_
    intro h' vin route hvalid hfixture hvin hresolved hanswers
    obtain ⟨vehicleId,ownerUserId,datasetId,vehicleData,rfl,hr⟩ :=
      registered_of_resolved hanswers hresolved
    have hnone : fixtureId = none := hfixture
    subst hnone
    exact ⟨push,hcarries,owned_of_valid hc hf hvalid hvin hr⟩

end Programs

/-- What one processed push may append, and where. -/
structure NoMisrouting (sha256Hex : Bytes → Str) (limit : Nat) (runtime : Runtime)
    (registry : Registry) (body : Bytes) (es : List ServiceEvent)
    (q : Processing ProcessingResult) : Prop where
  only : ∀ datasetId event r,
    (⟨.insertRowsJson (.user datasetId event),r⟩ : ServiceEvent) ∈ es →
    ∃ push, Carries limit body push ∧
      Owned sha256Hex runtime.sourcePolicy registry push datasetId event
  otherwise : ∀ result, q = .ret result → ∃ a, appends es = [a] ∧
    ((∃ push datasetId event, Carries limit body push ∧
        Owned sha256Hex runtime.sourcePolicy registry push datasetId event ∧
        a = .user datasetId event) ∨
      (∃ event reason, a = .quarantine event reason) ∨
      ∃ event fixtureId firstFailureRecorded, a = .synthetic event fixtureId firstFailureRecorded)

theorem process_routes {sha256Hex : Bytes → Str} {limit : Nat} {runtime : Runtime}
    {registry : Registry} {body : Bytes} {now : Utc} {es : List ServiceEvent}
    {q : Processing ProcessingResult}
    (ht : Trace (processPush sha256Hex limit runtime body now) es q)
    (hanswers : ∀ e ∈ es, registry.Answers e) :
    NoMisrouting sha256Hex limit runtime registry body es q := by
  have hobeys := processPush_obeys sha256Hex registry limit runtime body now
  have honly : ∀ datasetId event r,
      (⟨.insertRowsJson (.user datasetId event),r⟩ : ServiceEvent) ∈ es →
      ∃ push, Carries limit body push ∧
        Owned sha256Hex runtime.sourcePolicy registry push datasetId event := by
    intro datasetId event r he
    obtain ⟨pre,post,rfl⟩ := List.append_of_mem he
    refine (hobeys.allowed ht _ rfl).2 datasetId event rfl ?_
    intro e hpre
    exact hanswers e (List.mem_append_left _ hpre)
  refine ⟨honly,?_⟩
  rintro result rfl
  obtain ⟨a,ha⟩ := hobeys.trace ht result rfl
  refine ⟨a,ha,?_⟩
  cases a with
  | user datasetId event =>
    obtain ⟨r,he⟩ := mem_appends (by rw [ha]; exact List.mem_singleton_self _)
    obtain ⟨push,hcarries,howned⟩ := honly datasetId event r he
    exact .inl ⟨push,datasetId,event,hcarries,howned,rfl⟩
  | quarantine event reason => exact .inr (.inl ⟨event,reason,rfl⟩)
  | synthetic event fixtureId firstFailureRecorded =>
    exact .inr (.inr ⟨event,fixtureId,firstFailureRecorded,rfl⟩)

section Witness

/-- The service calls when every read returns and every append succeeds. -/
def Registry.answer (registry : Registry) : (call : Call) → Except Exc call.Ret
  | .verifyOauth2Token _ _ => .error (.other "unauthorized")
  | .getVinIndex indexId => .ok (snapshotOf (registry.vinIndex indexId))
  | .getVehicle vehicleId => .ok (snapshotOf (registry.vehicles vehicleId))
  | .queryAllowedUsers userId limit =>
    .ok (((registry.usersOf userId).take limit).map (fun d => snapshotOf (some d)))
  | .createFixtureRetry _ _ _ _ => .ok true
  | .insertRowsJson _ => .ok []

theorem Registry.answers_answer (registry : Registry) {e : ServiceEvent}
    (h : e.ret = registry.answer e.op) : registry.Answers e := by
  obtain ⟨call,r⟩ := e
  simp only at h
  subst h
  cases call <;> simp [Registry.Answers,Registry.answer]

def fields (entries : List (String × String)) : Document :=
  entries.map (fun e => (str e.1,.str (str e.2)))

/-- One registered vehicle of one active user. -/
def demoRegistry : Registry where
  vinIndex indexId :=
    if indexId = str "ae07eace5e4ad24e62d3c8e2cf85063e19ed354715f19e5a4941fe4ef47b7532" then
      some (fields [("vehicle_id","vehicle-1"),("owner_user_id","user-1")])
    else none
  vehicles vehicleId :=
    if vehicleId = str "vehicle-1" then
      some (fields [("vin","5YJ3E1EA7KF000001"),("owner_user_id","user-1"),
        ("telemetry_config_version","v3"),("telemetry_config_hash","c0ffee")])
    else none
  allowedUsers := [fields [("user_id","user-1"),("status","active"),("dataset_id","tesla_u_one")]]

/-- The digest of the registered VIN. -/
def demoSha256Hex (bytes : Bytes) : Str :=
  if bytes = ascii "5YJ3E1EA7KF000001" then
    str "ae07eace5e4ad24e62d3c8e2cf85063e19ed354715f19e5a4941fe4ef47b7532"
  else []

/-- A state of charge of the registered vehicle. -/
def socPush : Bytes :=
  ["\x7b\"message\":\x7b\"data\":\"eyJ2aW4iOiI1WUozRTFF",
   "QTdLRjAwMDAwMSIsImNyZWF0ZWRBdCI6IjIwMjQt",
   "MDEtMDJUMDM6MDQ6MDVaIiwiZGF0YSI6W3sia2V5",
   "IjoiU29jIiwidmFsdWUiOnsiaW50VmFsdWUiOjgw",
   "fX1dfQ==\",\"attributes\":\x7b\"txtype\":\"V\",\"vi",
   "n\":\"5YJ3E1EA7KF000001\",\"receivedat\":\"170",
   "4164646000\"\x7d,\"messageId\":\"7\"\x7d,\"subscript",
   "ion\":\"projects/p/subscriptions/v\"\x7d"].flatMap ascii

def demoNow : Utc := ⟨63839761446000000,by decide⟩

/-- The run of a push against the registry. -/
@[irreducible] def demoRun (body : Bytes) (now : Utc) : List ServiceEvent × Processing ProcessingResult :=
  (processPush demoSha256Hex 1000 demoRuntime body now).play demoRegistry.answer

theorem demoRun_trace (body : Bytes) (now : Utc) :
    Trace (processPush demoSha256Hex 1000 demoRuntime body now) (demoRun body now).1
      (demoRun body now).2 := by
  unfold demoRun
  exact trace_play _ _

theorem demoRun_answers (body : Bytes) (now : Utc) :
    ∀ e ∈ (demoRun body now).1, demoRegistry.Answers e := by
  intro e he
  unfold demoRun at he
  exact demoRegistry.answers_answer (play_answers _ _ e he)

def isUserAppend : Append → Bool
  | .user datasetId _ => datasetId = str "tesla_u_one"
  | _ => false

set_option maxRecDepth 100000 in
theorem process_routes_soc :
    (appends (demoRun socPush demoNow).1).map isUserAppend = [true] ∧
    NoMisrouting demoSha256Hex 1000 demoRuntime demoRegistry socPush (demoRun socPush demoNow).1
      (demoRun socPush demoNow).2 :=
  ⟨by decide +kernel,
    process_routes (demoRun_trace socPush demoNow) (demoRun_answers socPush demoNow)⟩

end Witness

end Woodhouse.Ingest
