import Woodhouse.Ingest.Observations
import Woodhouse.Ingest.Routing

namespace Woodhouse.Ingest
open Effects Python Sql

/-- One processed push: its body, its processing time, the calls it made, and how often its
append took effect, whatever the answer was. -/
structure Delivery where
  body : Bytes
  now : Utc
  events : List ServiceEvent
  copies : Nat

/-- The rows that an append which took effect `copies` times left in a user's table. -/
def rowsOf (datasetId : Str) (copies : Nat) : Append → List RawTelemetryRow
  | .user dataset event =>
    if dataset = datasetId then List.replicate copies event.bigqueryRow else []
  | _ => []

def Delivery.rows (datasetId : Str) (d : Delivery) : List RawTelemetryRow :=
  (appends d.events).flatMap (rowsOf datasetId d.copies)

/-- The delivery attempt is the only difference between deliveries of one message. -/
def SameMessage (p q : Push) : Prop :=
  { p with deliveryAttempt := none } = { q with deliveryAttempt := none }

def IsVehicleMessage (push : Push) : Prop := push.attributes.get (str "txtype") = some (str "V")

/-- Deliveries in the order of their processing times, whose message ids identify vehicle
messages. -/
structure Schedule (sha256Hex : Bytes → Str) (limit : Nat) (runtime : Runtime)
    (deliveries : List Delivery) : Prop where
  processed : ∀ d ∈ deliveries, ∃ q,
    Trace (processPush sha256Hex limit runtime d.body d.now) d.events q
  increasing : deliveries.Pairwise (fun d e => d.now < e.now)
  identified : ∀ d ∈ deliveries, ∀ e ∈ deliveries, ∀ p q, Carries limit d.body p →
    Carries limit e.body q → IsVehicleMessage p → IsVehicleMessage q →
    p.messageId = q.messageId → SameMessage p q

/-- The append of a delivery of the message took effect. -/
def Appended (limit : Nat) (datasetId id : Str) (d : Delivery) : Prop :=
  ∃ push, Carries limit d.body push ∧ IsVehicleMessage push ∧ push.messageId = id ∧
    d.rows datasetId ≠ []

section Rows
variable {sha256Hex : Bytes → Str} {limit : Nat} {runtime : Runtime} {datasetId : Str}

/-- `event` is the event of the push that `body` carries, processed at `now`. -/
structure IsCopy (limit : Nat) (body : Bytes) (now : Utc) (event : RawTelemetryEvent)
    (push : Push) : Prop where
  carried : Carries limit body push
  id : event.pubsubMessageId = push.messageId
  payload : event.payload = push.payload
  processedAt : event.processedAt = now
  txtype : push.attributes.get (str "txtype") = some event.recordType

theorem processPush_copies (sha256Hex : Bytes → Str) (limit : Nat) (runtime : Runtime)
    (body : Bytes) (now : Utc) :
    Obeys (Guarded (fun _ _ event => ∃ push, IsCopy limit body now event push))
      (fun h' r => ∀ result, r = .ok result → ∃ a, appends h' = [a])
      (processPush sha256Hex limit runtime body now) [] := by
  unfold processPush
  cases hd : decodePubsubPush limit body now runtime.sourcePolicy with
  | error e =>
    intro result hr
    cases hr
  | ok incoming =>
    obtain ⟨push,publishTime,fixtureId,sourceTimestamp,hcarries,_,_,_,rfl⟩ :=
      decodePubsubPush_eq_ok.mp hd
    show Obeys _ _ (process sha256Hex runtime.receiverVersion _ now) []
    refine process_obeys rfl ?_
    intro h' vin route hvalid hfixture _ _
    have hnone : fixtureId = none := hfixture
    subst hnone
    simp only [incomingOf,Option.orElse_eq_orElse,Option.orElse_eq_or,Option.or_eq_none_iff] at hvalid
    have htxtype := txtype_of_allowed (checkRecordType_ok hvalid.2.1)
    exact ⟨push,hcarries,rfl,rfl,rfl,htxtype⟩

theorem carries_unique {body : Bytes} {p q : Push} (hp : Carries limit body p)
    (hq : Carries limit body q) : p = q := by
  have h := (readPush_eq_ok.mpr hp).symm.trans (readPush_eq_ok.mpr hq)
  exact Except.ok.inj h

/-- The rows of a delivery are copies of one event. -/
theorem rows_of_trace {d : Delivery} {q : Processing ProcessingResult}
    (ht : Trace (processPush sha256Hex limit runtime d.body d.now) d.events q)
    {row : RawTelemetryRow} (hrow : row ∈ d.rows datasetId) :
    ∃ event push, appends d.events = [.user datasetId event] ∧ row = event.bigqueryRow ∧
      IsCopy limit d.body d.now event push := by
  obtain ⟨a,ha,hmem⟩ := List.mem_flatMap.mp hrow
  cases a with
  | user dataset event =>
    by_cases hd : dataset = datasetId
    · subst hd
      simp only [rowsOf,if_true] at hmem
      obtain ⟨r,he⟩ := mem_appends ha
      have hobeys := processPush_copies sha256Hex limit runtime d.body d.now
      obtain ⟨pre,post,hsplit⟩ := List.append_of_mem he
      obtain ⟨push,hcopy⟩ := (hobeys.allowed (hsplit ▸ ht) _ rfl).2 dataset event rfl
      exact ⟨event,push,appends_of_guarded hobeys ht he,(List.mem_replicate.mp hmem).2,hcopy⟩
    · simp [rowsOf,hd] at hmem
  | quarantine event reason => cases hmem
  | synthetic event fixtureId first => cases hmem

end Rows

section Schedule
variable {sha256Hex : Bytes → Str} {limit : Nat} {runtime : Runtime} {datasetId id : Str}
  {deliveries : List Delivery} {table : List RawTelemetryRow} {row : RawTelemetryRow}

/-- A copy of the message in the table comes from one of its deliveries. -/
theorem appended_of_copy (h : Schedule sha256Hex limit runtime deliveries)
    (htable : table.Perm (deliveries.flatMap (Delivery.rows datasetId)))
    (hrow : row ∈ copiesOf id table) :
    ∃ d ∈ deliveries, Appended limit datasetId id d ∧ row.processedAt = d.now ∧
      row ∈ d.rows datasetId := by
  obtain ⟨hmem,htype,hid⟩ := mem_copiesOf.mp hrow
  obtain ⟨d,hd,hrows⟩ := List.mem_flatMap.mp (htable.mem_iff.mp hmem)
  obtain ⟨q,ht⟩ := h.processed d hd
  obtain ⟨event,push,_,rfl,hcopy⟩ := rows_of_trace ht hrows
  have hvehicle : IsVehicleMessage push := by
    unfold IsVehicleMessage
    rw [hcopy.txtype]
    exact congrArg some htype
  exact ⟨d,hd,⟨push,hcopy.carried,hvehicle,hcopy.id.symm.trans hid,List.ne_nil_of_mem hrows⟩,
    hcopy.processedAt,hrows⟩

/-- A delivery of the message whose append took effect left a copy. -/
theorem copy_of_appended (h : Schedule sha256Hex limit runtime deliveries)
    (htable : table.Perm (deliveries.flatMap (Delivery.rows datasetId))) {d : Delivery}
    (hd : d ∈ deliveries) (happ : Appended limit datasetId id d) :
    ∃ event push, appends d.events = [.user datasetId event] ∧
      IsCopy limit d.body d.now event push ∧ event.bigqueryRow ∈ copiesOf id table := by
  obtain ⟨push,hcarries,hvehicle,hid,hne⟩ := happ
  obtain ⟨row,hrow⟩ := List.exists_mem_of_ne_nil _ hne
  obtain ⟨q,ht⟩ := h.processed d hd
  obtain ⟨event,push',hevents,rfl,hcopy⟩ := rows_of_trace ht hrow
  have hpush := carries_unique hcarries hcopy.carried
  subst hpush
  refine ⟨event,push,hevents,hcopy,mem_copiesOf.mpr ⟨?_,?_,hcopy.id.trans hid⟩⟩
  · exact htable.mem_iff.mpr (List.mem_flatMap.mpr ⟨d,hd,hrow⟩)
  · have htype := hcopy.txtype.symm.trans hvehicle
    exact Option.some.inj htype

/-- The first processed copy is the one of the first delivery whose append took effect. -/
theorem head_of_first {pre post : List Delivery} {first : Delivery}
    (h : Schedule sha256Hex limit runtime (pre ++ first :: post))
    (htable : table.Perm ((pre ++ first :: post).flatMap (Delivery.rows datasetId)))
    (happ : Appended limit datasetId id first) (hpre : ∀ e ∈ pre, ¬ Appended limit datasetId id e) :
    ∃ event push, appends first.events = [.user datasetId event] ∧
      IsCopy limit first.body first.now event push ∧
      (copiesOf id table).head? = some event.bigqueryRow := by
  have hmem : first ∈ pre ++ first :: post := by simp
  obtain ⟨event,push,hevents,hcopy,hrow⟩ := copy_of_appended h htable hmem happ
  refine ⟨event,push,hevents,hcopy,?_⟩
  cases hhead : (copiesOf id table).head? with
  | none =>
    rw [List.head?_eq_none_iff.mp hhead] at hrow
    cases hrow
  | some row =>
    obtain ⟨hcopyRow,hleast⟩ := head_copiesOf hhead
    obtain ⟨d,hd,hdapp,htime,hdrow⟩ := appended_of_copy h htable hcopyRow
    have hle : d.now ≤ first.now := by
      have hearlier := hleast _ hrow
      rw [htime] at hearlier
      exact hearlier.trans (le_of_eq hcopy.processedAt)
    rcases List.mem_append.mp hd with hd | hd
    · exact absurd hdapp (hpre d hd)
    · rcases List.mem_cons.mp hd with rfl | hd
      · obtain ⟨q,ht⟩ := h.processed d hmem
        obtain ⟨event',_,hevents',rfl,_⟩ := rows_of_trace ht hdrow
        rw [hevents] at hevents'
        cases hevents'
        rfl
      · have hlater := (List.pairwise_append.mp h.increasing).2.1
        have hlt := (List.pairwise_cons.mp hlater).1 d hd
        exact absurd hle (not_le.mpr hlt)

/-- Every message whose append took effect has a first delivery of that kind. -/
theorem exists_first {d : Delivery} (hd : d ∈ deliveries) (happ : Appended limit datasetId id d) :
    ∃ pre first post, deliveries = pre ++ first :: post ∧ Appended limit datasetId id first ∧
      ∀ e ∈ pre, ¬ Appended limit datasetId id e := by
  induction deliveries with
  | nil => cases hd
  | cons e rest ih =>
    by_cases he : Appended limit datasetId id e
    · exact ⟨[],e,rest,rfl,he,fun _ h => by cases h⟩
    · rcases List.mem_cons.mp hd with rfl | hd
      · exact absurd happ he
      · obtain ⟨pre,first,post,rfl,hfirst,hpre⟩ := ih hd
        refine ⟨e :: pre,first,post,rfl,hfirst,?_⟩
        intro d' hd'
        rcases List.mem_cons.mp hd' with rfl | hd'
        · exact he
        · exact hpre d' hd'

end Schedule

/-- A row of the view shows one element of a payload's `data`: what the element says, and the
vehicle, the configuration and the columns of the event that brought it. -/
structure Shows {J F : Type} (json : JsonFunctions J F) (event : RawTelemetryEvent) (datum : J)
    (o : Observation J F) : Prop where
  fieldName : json.jsonValue datum "$.key" = some o.fieldName
  isInvalid : o.isInvalid = (json.jsonQuery datum "$.value.invalid").isSome
  numericValue : o.numericValue =
    numericPaths.findSome? (fun path => (json.jsonValue datum path).bind json.safeCastFloat64)
  stringValue : o.stringValue = stringPaths.findSome? (json.jsonValue datum)
  booleanValue : o.booleanValue =
    (json.jsonValue datum "$.value.booleanValue").bind json.safeCastBool
  latitude : o.latitude =
    (json.jsonValue datum "$.value.locationValue.latitude").bind json.safeCastFloat64
  longitude : o.longitude =
    (json.jsonValue datum "$.value.locationValue.longitude").bind json.safeCastFloat64
  valueJson : o.valueJson = json.jsonQuery datum "$.value"
  vehicleId : o.vehicleId = event.vehicleId
  telemetryConfigVersion : o.telemetryConfigVersion = event.telemetryConfigVersion
  telemetryConfigHash : o.telemetryConfigHash = event.telemetryConfigHash
  sourceTimestamp : o.sourceTimestamp = event.sourceTimestamp
  ingestedAt : o.ingestedAt = event.ingestedAt
  processedAt : o.processedAt = event.processedAt
  recordType : o.recordType = event.recordType
  transportMessageId : o.transportMessageId = event.transportMessageId
  pubsubMessageId : o.pubsubMessageId = event.pubsubMessageId
  telemetryClientVersion : o.telemetryClientVersion = event.telemetryClientVersion
  telemetryReceiverVersion : o.telemetryReceiverVersion = event.telemetryReceiverVersion
  receiverRecordVersion : o.receiverRecordVersion = event.receiverRecordVersion

/-- The elements of a payload's `data` that have a key. -/
def keyedElements {J F : Type} (json : JsonFunctions J F) (payload : Dict Json) : List J :=
  (json.jsonQueryArray (json.parse (dumps (.obj payload))) "$.data").filter
    (fun datum => (json.jsonValue datum "$.key").isSome)

/-- The view over a table that a schedule filled has one row for each keyed element of each
message, with the columns of the message's first processed copy, nothing else, and no further
copies change it. -/
structure ExactlyOnce {J F : Type} (json : JsonFunctions J F) (sha256Hex : Bytes → Str) (limit : Nat)
    (runtime : Runtime) (deliveries : List Delivery) (datasetId : Str)
    (table : List RawTelemetryRow) : Prop where
  once : ∀ d ∈ deliveries, ∀ id, Appended limit datasetId id d →
    ∃ pre first post event push, deliveries = pre ++ first :: post ∧
      Appended limit datasetId id first ∧ (∀ e ∈ pre, ¬ Appended limit datasetId id e) ∧
      appends first.events = [.user datasetId event] ∧ Carries limit d.body push ∧
      List.Forall₂ (Shows json event) (keyedElements json push.payload)
        ((telemetryObservations json table).filter (fun o => o.pubsubMessageId = id))
  only : ∀ o ∈ telemetryObservations json table,
    ∃ d ∈ deliveries, Appended limit datasetId o.pubsubMessageId d
  settled : ∀ later table', Schedule sha256Hex limit runtime (deliveries ++ later) →
    (∀ d ∈ later, ∀ id, Appended limit datasetId id d →
      ∃ e ∈ deliveries, Appended limit datasetId id e) →
    table'.Perm ((deliveries ++ later).flatMap (Delivery.rows datasetId)) →
    (telemetryObservations json table').Perm (telemetryObservations json table)

section Observations
variable {J F : Type} {json : JsonFunctions J F} {sha256Hex : Bytes → Str} {limit : Nat}
  {runtime : Runtime} {deliveries : List Delivery} {datasetId : Str} {table : List RawTelemetryRow}

theorem head_of_later {later : List Delivery} {table' : List RawTelemetryRow}
    (h : Schedule sha256Hex limit runtime deliveries)
    (htable : table.Perm (deliveries.flatMap (Delivery.rows datasetId)))
    (h' : Schedule sha256Hex limit runtime (deliveries ++ later))
    (hlater : ∀ d ∈ later, ∀ id, Appended limit datasetId id d →
      ∃ e ∈ deliveries, Appended limit datasetId id e)
    (htable' : table'.Perm ((deliveries ++ later).flatMap (Delivery.rows datasetId))) (id : Str) :
    (copiesOf id table').head? = (copiesOf id table).head? := by
  by_cases happ : ∃ d ∈ deliveries, Appended limit datasetId id d
  · obtain ⟨d,hd,hdapp⟩ := happ
    obtain ⟨pre,first,post,rfl,hfirst,hpre⟩ := exists_first hd hdapp
    obtain ⟨event,_,hevents,_,hhead⟩ := head_of_first h htable hfirst hpre
    rw [List.append_assoc,List.cons_append] at h' htable'
    obtain ⟨event',_,hevents',_,hhead'⟩ := head_of_first h' htable' hfirst hpre
    rw [hevents] at hevents'
    cases hevents'
    rw [hhead,hhead']
  · have hempty : ∀ t ds, Schedule sha256Hex limit runtime ds →
        t.Perm (ds.flatMap (Delivery.rows datasetId)) →
        (∀ d ∈ ds, Appended limit datasetId id d → ∃ e ∈ deliveries, Appended limit datasetId id e) →
        (copiesOf id t).head? = none := by
      intro t ds hs ht hds
      refine List.head?_eq_none_iff.mpr (List.eq_nil_iff_forall_not_mem.mpr ?_)
      intro row hrow
      obtain ⟨d,hd,hdapp,_⟩ := appended_of_copy hs ht hrow
      exact happ (hds d hd hdapp)
    rw [hempty table deliveries h htable (fun d hd hdapp => ⟨d,hd,hdapp⟩)]
    refine hempty table' _ h' htable' ?_
    intro d hd hdapp
    rcases List.mem_append.mp hd with hd | hd
    · exact ⟨d,hd,hdapp⟩
    · exact hlater d hd id hdapp

/-- An element with a key is shown. -/
theorem observationOf_shows {datum : J} {fieldName : Str} (event : RawTelemetryEvent)
    (hkey : json.jsonValue datum "$.key" = some fieldName) :
    ∃ o, observationOf json event.bigqueryRow datum = some o ∧ Shows json event datum o := by
  unfold observationOf
  rw [hkey]
  refine ⟨_,rfl,?_⟩
  constructor
  case fieldName => exact hkey
  all_goals rfl

theorem observationOf_keyless {datum : J} {raw : RawTelemetryRow}
    (hkey : json.jsonValue datum "$.key" = none) : observationOf json raw datum = none := by
  unfold observationOf
  rw [hkey]
  rfl

/-- The elements of `data` are read one by one. -/
theorem observations_shows (json : JsonFunctions J F) (event : RawTelemetryEvent) :
    List.Forall₂ (Shows json event) (keyedElements json event.payload)
      (observations json event.bigqueryRow) := by
  unfold keyedElements observations
  rw [show event.bigqueryRow.payload = dumps (.obj event.payload) from rfl]
  induction json.jsonQueryArray (json.parse (dumps (.obj event.payload))) "$.data" with
  | nil => exact .nil
  | cons datum rest ih =>
    cases hkey : json.jsonValue datum "$.key" with
    | none =>
      rw [List.filter_cons_of_neg (by simp [hkey]),
        List.filterMap_cons_none (observationOf_keyless hkey)]
      exact ih
    | some fieldName =>
      obtain ⟨o,ho,hshows⟩ := observationOf_shows event hkey
      rw [List.filter_cons_of_pos (by simp [hkey]),List.filterMap_cons_some ho]
      exact .cons hshows ih

theorem observations_exactly_once (json : JsonFunctions J F)
    (h : Schedule sha256Hex limit runtime deliveries)
    (htable : table.Perm (deliveries.flatMap (Delivery.rows datasetId))) :
    ExactlyOnce json sha256Hex limit runtime deliveries datasetId table := by
  refine ⟨?_,?_,?_⟩
  · intro d hd id happ
    obtain ⟨pre,first,post,rfl,hfirst,hpre⟩ := exists_first hd happ
    obtain ⟨event,push,hevents,hcopy,hhead⟩ := head_of_first h htable hfirst hpre
    obtain ⟨push',hcarries,hvehicle,hid,_⟩ := happ
    have hfirst' := hfirst
    obtain ⟨first',hcarriesFirst,hvehicleFirst,hidFirst,_⟩ := hfirst'
    have hfirstPush := carries_unique hcopy.carried hcarriesFirst
    subst hfirstPush
    have hsame := h.identified d hd first (by simp) push' push hcarries hcarriesFirst hvehicle
      hvehicleFirst (hid.trans hidFirst.symm)
    have hpayload : event.payload = push'.payload := by
      rw [hcopy.payload]
      exact (congrArg Push.payload hsame).symm
    refine ⟨pre,first,post,event,push',rfl,hfirst,hpre,hevents,hcarries,?_⟩
    have hview : (telemetryObservations json table).filter (fun o => o.pubsubMessageId = id) =
        observations json event.bigqueryRow := by
      rw [telemetryObservations_filter,hhead]
      simp
    rw [hview,← hpayload]
    exact observations_shows json event
  · intro o ho
    obtain ⟨raw,hraw,ho⟩ := List.mem_flatMap.mp ho
    obtain ⟨hmem,htype⟩ := mem_rawDeduplicated hraw
    have hcopy : raw ∈ copiesOf o.pubsubMessageId table :=
      mem_copiesOf.mpr ⟨hmem,htype,(observations_id ho).symm⟩
    obtain ⟨d,hd,happ,_⟩ := appended_of_copy h htable hcopy
    exact ⟨d,hd,happ⟩
  · intro later table' h' hlater htable'
    refine List.Perm.flatMap_right _ (Sql.perm_of_filter_key RawTelemetryRow.pubsubMessageId ?_)
    intro id
    rw [rawDeduplicated_filter,rawDeduplicated_filter,
      head_of_later h htable h' hlater htable' id]

section Witness

/-- A push of the state of charge whose append took effect `copies` times. -/
def demoDelivery (now : Utc) (copies : Nat) : Delivery :=
  ⟨socPush,now,(demoRun socPush now).1,copies⟩

/-- A push whose append was lost, and a redelivery whose row was inserted twice. -/
def demoDeliveries : List Delivery :=
  [demoDelivery demoNow 0,demoDelivery ⟨63839761447000000,by decide⟩ 2]

theorem demoDeliveries_schedule : Schedule demoSha256Hex 1000 demoRuntime demoDeliveries := by
  have hmem : ∀ d ∈ demoDeliveries, ∃ now copies, d = demoDelivery now copies := by
    intro d hd
    rcases List.mem_cons.mp hd with rfl | hd
    · exact ⟨_,_,rfl⟩
    · rw [List.mem_singleton.mp hd]
      exact ⟨_,_,rfl⟩
  refine ⟨?_,?_,?_⟩
  · intro d hd
    obtain ⟨now,copies,rfl⟩ := hmem d hd
    exact ⟨_,demoRun_trace socPush now⟩
  · refine List.pairwise_cons.mpr ⟨?_,List.pairwise_singleton _ _⟩
    intro e he
    rw [List.mem_singleton.mp he]
    show demoNow < ⟨63839761447000000,_⟩
    decide
  · intro d hd e he p q hp hq _ _ _
    obtain ⟨_,_,rfl⟩ := hmem d hd
    obtain ⟨_,_,rfl⟩ := hmem e he
    have hpq : p = q := carries_unique hp hq
    exact congrArg (fun push : Push => { push with deliveryAttempt := none }) hpq

/-- The value at a path below a value. -/
def valueAt : List Str → Json → Option Json
  | [],v => some v
  | key :: rest,.obj entries => (Dict.get entries key).bind (valueAt rest)
  | _ :: _,_ => none

/-- A path such as `$.value.intValue`. -/
def jsonPath (path : String) : List Str := ((str path).splitOn (chr '.')).tail

def socDocument : Json :=
  .obj [(str "createdAt",.str (str "2024-01-02T03:04:05Z")),
    (str "data",.arr [.obj [(str "key",.str (str "Soc")),
      (str "value",.obj [(str "intValue",.int 80)])]]),
    (str "vin",.str (str "5YJ3E1EA7KF000001"))]

/-- The JSON functions on the one payload that is written. -/
def socFunctions : JsonFunctions Json Int where
  parse _ := socDocument
  jsonQueryArray v path :=
    match valueAt (jsonPath path) v with
    | some (.arr items) => items
    | _ => []
  jsonValue v path :=
    match valueAt (jsonPath path) v with
    | some (.str s) => some s
    | some (.int i) => some (reprInt i)
    | some (.bool b) => some (str (if b then "true" else "false"))
    | _ => none
  jsonQuery v path := valueAt (jsonPath path) v
  safeCastFloat64 text := (intOfStr text).toOption
  safeCastBool text :=
    if text = str "true" then some true else if text = str "false" then some false else none

def demoTable : List RawTelemetryRow :=
  demoDeliveries.flatMap (Delivery.rows (str "tesla_u_one"))

/-- The two rows have one processing time, so that their order is the table's. -/
theorem demoTable_view : telemetryObservations socFunctions demoTable =
    (firstRows RawTelemetryRow.pubsubMessageId
      (demoTable.filter (fun raw => raw.recordType = str "V"))).flatMap (observations socFunctions) := by
  have hsorted : (demoTable.filter (fun raw => raw.recordType = str "V")).Pairwise
      (fun a b => toLex (a.processedAt,a.ingestedAt) ≤ toLex (b.processedAt,b.ingestedAt)) := by
    decide +kernel
  unfold telemetryObservations rawDeduplicated
  rw [orderBy_of_pairwise hsorted]

set_option maxRecDepth 100000 in
theorem observations_exactly_once_soc :
    demoTable.length = 2 ∧
    (telemetryObservations socFunctions demoTable).map
      (fun o => (o.fieldName,o.numericValue,o.vehicleId,o.telemetryConfigVersion)) =
        [(str "Soc",some 80,some (str "vehicle-1"),some (str "v3"))] ∧
    ExactlyOnce socFunctions demoSha256Hex 1000 demoRuntime demoDeliveries (str "tesla_u_one")
      demoTable := by
  refine ⟨by decide +kernel,?_,
    observations_exactly_once socFunctions demoDeliveries_schedule (List.Perm.refl _)⟩
  rw [demoTable_view]
  decide +kernel

end Witness

end Observations

end Woodhouse.Ingest
