import Woodhouse.Ingest.Deliveries
import Woodhouse.Python.Base64Encoding
import Woodhouse.Python.DumpsReadBack
import Woodhouse.Python.IsoFormat

namespace Woodhouse.Ingest
open Effects Python Sql

def unknownVin : Str := str "SYNTHETIC-NON-VEHICLE-UNKNOWN-VIN"

/-- `source_timestamp.isoformat().replace("+00:00", "Z")`. -/
def createdAtText (sourceTimestamp : Utc) : Str :=
  replaceText (isoformat ⟨sourceTimestamp,some 0⟩) (str "+00:00") (str "Z")

/-- The payload of `_payload`. -/
def syntheticPayload (fixtureId : Str) (sourceTimestamp : Utc) : Dict Json :=
  [(str "createdAt",.str (createdAtText sourceTimestamp)),
   (str "fixtureId",.str fixtureId),
   (str "fixtureType",.str (str "phase7-non-vehicle")),
   (str "vin",.str (str "SYNTHETIC-NON-VEHICLE")),
   (str "data",.arr [.obj [(str "key",.str (str "SyntheticPipelineCheck")),
     (str "value",.obj [(str "booleanValue",.bool true)])]])]

/-- The attributes that `_publish_synthetic` publishes. -/
def syntheticAttributes (fixtureId : Str) (failFirst : Bool) : Dict Str :=
  [(str "tpp_synthetic_fixture",str "phase7"),(str "tpp_fixture_id",fixtureId),
    (str "txtype",str "synthetic"),(str "txid",fixtureId)] ++
  if failFirst then [(str "tpp_fixture_fail_first",str "true")] else []

/-- The payload of `_publish_unknown`. -/
def unknownPayload (fixtureId : Str) (sourceTimestamp : Utc) : Dict Json :=
  [(str "createdAt",.str (createdAtText sourceTimestamp)),
   (str "fixtureId",.str fixtureId),
   (str "fixtureType",.str (str "phase7-unknown-vin")),
   (str "vin",.str unknownVin),
   (str "data",.arr [])]

/-- The attributes that `_publish_unknown` publishes. -/
def unknownAttributes (fixtureId receivedat : Str) : Dict Str :=
  [(str "vin",unknownVin),(str "receivedat",receivedat),(str "txtype",str "V"),
    (str "txid",fixtureId),(str "version",str "0"),
    (str "device_client_version",str "phase7-synthetic")]

/-- A message that the operator's check publishes. -/
inductive Fixture where
  | synthetic (fixtureId : Str) (failFirst : Bool)
  | unknown (fixtureId receivedat : Str)

def Fixture.fixtureId : Fixture → Str
  | .synthetic fixtureId _ => fixtureId
  | .unknown fixtureId _ => fixtureId

def Fixture.payload (sourceTimestamp : Utc) : Fixture → Dict Json
  | .synthetic fixtureId _ => syntheticPayload fixtureId sourceTimestamp
  | .unknown fixtureId _ => unknownPayload fixtureId sourceTimestamp

def Fixture.attributes : Fixture → Dict Str
  | .synthetic fixtureId failFirst => syntheticAttributes fixtureId failFirst
  | .unknown fixtureId receivedat => unknownAttributes fixtureId receivedat

/-- The fixture id that marks a synthetic message. -/
def Fixture.marker : Fixture → Option Str
  | .synthetic fixtureId _ => some fixtureId
  | .unknown _ _ => none

def Fixture.failFirst : Fixture → Bool
  | .synthetic _ failFirst => failFirst
  | .unknown _ _ => false

/-- `body` is the push of the fixture's message: Pub/Sub sends the published data in base64
and the published attributes. -/
structure Pushes (limit : Nat) (body : Bytes) (fixture : Fixture) (sourceTimestamp : Utc)
    (subscription messageId : Str) : Prop where
  wraps : ∃ data wrapper message attributes publishTime,
    encodeUtf8 (dumps (.obj (fixture.payload sourceTimestamp))) = .ok data ∧
    Wraps limit body wrapper message subscription messageId (b64encode data) ∧
    attributesOf message = .ok attributes ∧
    (∀ name, attributes.get name = fixture.attributes.get name) ∧
    optionalTimestamp (message.get (str "publishTime")) = .ok publishTime

section Payloads
variable {limit : Nat} {ts : Utc} {fixture : Fixture}

theorem payload_keys (fixture : Fixture) (ts : Utc) : Dict.keys (fixture.payload ts) =
    [str "createdAt",str "fixtureId",str "fixtureType",str "vin",str "data"] := by
  cases fixture <;> rfl

theorem payload_numberFree (fixture : Fixture) (ts : Utc) :
    NumberFreeEntries (fixture.payload ts) := by
  cases fixture with
  | synthetic fixtureId failFirst =>
    simp [Fixture.payload,syntheticPayload,NumberFreeEntries,NumberFreeItems,NumberFree]
  | unknown fixtureId receivedat =>
    simp [Fixture.payload,unknownPayload,NumberFreeEntries,NumberFreeItems,NumberFree]

theorem payload_depth (fixture : Fixture) (ts : Utc) : depth (.obj (fixture.payload ts)) ≤ 4 := by
  cases fixture with
  | synthetic fixtureId failFirst =>
    simp [Fixture.payload,syntheticPayload,depthEntries,depthItems,depth]
  | unknown fixtureId receivedat =>
    simp [Fixture.payload,unknownPayload,depthEntries,depthItems,depth]

/-- What the processor loads has the members that were published. -/
theorem get_loaded (fixture : Fixture) (ts : Utc) (name : Str) :
    (readBackDict (fixture.payload ts)).get name = ((fixture.payload ts).get name).map readBack := by
  refine get_readBackDict ?_ ?_ name
  · rw [payload_keys]
    decide
  · rw [payload_keys]
    decide

theorem loads_payload {data : Bytes} (hlimit : 4 ≤ limit)
    (hdata : encodeUtf8 (dumps (.obj (fixture.payload ts))) = .ok data) :
    loads limit data = .ok (.obj (readBackDict (fixture.payload ts))) := by
  rw [encodeUtf8_ascii (isAscii_dumps _)] at hdata
  cases hdata
  rw [loads_dumps (payload_numberFree fixture ts) ((payload_depth fixture ts).trans hlimit),
    readBack_dict]

theorem createdAtText_eq (ts : Utc) : createdAtText ts = utcText (str "Z") ts :=
  replaceText_isoformat ts

theorem astimezoneUtc_eq {clock t : Utc} {offset : Int}
    (h : utcOfMicros (clock.val - offset) = some t) : astimezoneUtc clock offset = .ok t := by
  unfold astimezoneUtc
  rw [h]

theorem optionalTimestamp_eq {s : Str} {clock t : Utc} {offset : Int} (hne : s ≠ [])
    (hparsed : fromisoformat (replaceChar s (chr 'Z') (str "+00:00")) = .ok ⟨clock,some offset⟩)
    (ht : astimezoneUtc clock offset = .ok t) :
    optionalTimestamp (some (.str s)) = .ok (some t) := by
  unfold optionalTimestamp
  dsimp only
  rw [if_neg hne,hparsed]
  dsimp only
  rw [ht]

theorem optionalTimestamp_utcText (ts : Utc) :
    optionalTimestamp (some (.str (utcText (str "Z") ts))) = .ok (some ts) := by
  have hne : utcText (str "Z") ts ≠ [] := by
    rw [utcText_eq]
    exact List.append_ne_nil_of_right_ne_nil _ (by decide)
  have hparsed : fromisoformat (replaceChar (utcText (str "Z") ts) (chr 'Z') (str "+00:00")) =
      .ok ⟨ts,some 0⟩ := by
    rw [replaceChar_utcText]
    exact fromisoformat_utcText (.inl rfl) ts
  have hmicros : utcOfMicros ((ts.val : Int) - 0) = some ts :=
    (congrArg utcOfMicros (Int.sub_zero _)).trans (utcOfMicros_val ts)
  exact optionalTimestamp_eq hne hparsed (astimezoneUtc_eq hmicros)

theorem optionalTimestamp_createdAt (fixture : Fixture) (ts : Utc) :
    optionalTimestamp ((readBackDict (fixture.payload ts)).get (str "createdAt")) =
      .ok (some ts) := by
  have hget : Dict.get (fixture.payload ts) (str "createdAt") =
      some (.str (createdAtText ts)) := by
    cases fixture <;> rfl
  have hascii := isAscii_utcText (.inr rfl) ts
  rw [get_loaded,hget,createdAtText_eq,Option.map_some,readBack,joinPairs_ascii hascii]
  exact optionalTimestamp_utcText ts

theorem syntheticFixtureId_marker {attributes : Dict Str}
    (hid : fixture.marker.all isFixtureId = true)
    (hattributes : ∀ name, attributes.get name = fixture.attributes.get name) :
    syntheticFixtureId attributes = .ok fixture.marker := by
  unfold syntheticFixtureId
  rw [hattributes,hattributes]
  cases fixture with
  | synthetic fixtureId failFirst =>
    have hmarker : (Fixture.synthetic fixtureId failFirst).attributes.get
        (str "tpp_synthetic_fixture") = some syntheticMarker := rfl
    have hfixture : (Fixture.synthetic fixtureId failFirst).attributes.get
        (str "tpp_fixture_id") = some fixtureId := rfl
    rw [if_neg (not_not.mpr hmarker),hfixture]
    exact if_pos hid
  | unknown fixtureId receivedat => rfl

end Payloads

/-- Where the processor may append a delivery, given what it decoded. -/
inductive Placed (event : RawTelemetryEvent) (incoming : IncomingTelemetry) : Append → Prop where
  | rejected {reason : String} (invalid : incoming.validationError = some reason) :
    Placed event incoming (.quarantine event reason)
  | fixture {fixtureId : Str} (valid : incoming.validationError = none)
    (marked : incoming.syntheticFixtureId = some fixtureId) :
    Placed event incoming (.synthetic event fixtureId incoming.syntheticFailFirst)
  | unresolved {reason : String} (valid : incoming.validationError = none)
    (unmarked : incoming.syntheticFixtureId = none) :
    Placed event incoming (.quarantine event reason)
  | owned {route : VehicleRoute} (valid : incoming.validationError = none)
    (unmarked : incoming.syntheticFixtureId = none) :
    Placed event incoming (.user route.datasetId (ownedEvent event route))

section Placement
variable {sha256Hex : Bytes → Str} {event : RawTelemetryEvent} {incoming : IncomingTelemetry}

/-- Every append among the calls is a placed one. -/
def OnlyPlaced (event : RawTelemetryEvent) (incoming : IncomingTelemetry) (call : Call) : Prop :=
  ∀ a, call = .insertRowsJson a → Placed event incoming a

theorem append_placed {a : Append} (ha : Placed event incoming a) :
    Only (OnlyPlaced event incoming) (append a) := by
  refine Only.bind (Only.tryCatch ?_ ?_) ?_
  · refine (only_perform _).mpr ?_
    rintro b hb
    cases hb
    exact ha
  · intro e
    trivial
  · intro errors
    split
    · trivial
    · trivial

theorem quarantine_placed {reason : String} (ha : Placed event incoming (.quarantine event reason)) :
    Only (OnlyPlaced event incoming) (quarantine incoming event reason) :=
  (append_placed ha).bind (fun _ => trivial)

def Call.isRead : Call → Bool
  | .getVinIndex _ => true
  | .getVehicle _ => true
  | .queryAllowedUsers _ _ => true
  | _ => false

theorem resolve_reads (vin : Str) :
    Only (fun call => call.isRead = true) (resolve sha256Hex vin) := by
  unfold resolve
  refine Only.bind ?_ ?_
  · cases encodeUtf8 vin <;> trivial
  intro encoded
  refine Only.bind ((only_perform _).mpr rfl) ?_
  intro index
  split
  · trivial
  refine Only.bind ((only_perform _).mpr rfl) ?_
  intro vehicle
  split
  · trivial
  exact Only.bind ((only_perform _).mpr rfl) (fun _ => trivial)

theorem resolve_placed (vin : Str) : Only (OnlyPlaced event incoming) (resolve sha256Hex vin) := by
  refine (resolve_reads vin).imp ?_
  rintro call hread a rfl
  cases hread

/-- The append behind the retry gate says what the message asked for: a gate that lets a
fail-first fixture through has recorded its failure. -/
theorem failFirst_placed {fixtureId : Str} {now : Utc} {f : Bool → Processing ProcessingResult}
    (hf : Only (OnlyPlaced event incoming) (f incoming.syntheticFailFirst)) :
    Only (OnlyPlaced event incoming)
      (failFirst sha256Hex incoming fixtureId now >>= f) := by
  unfold failFirst
  cases hfail : incoming.syntheticFailFirst with
  | false =>
    rw [hfail] at hf
    exact hf
  | true =>
    rw [hfail] at hf
    unfold shouldFailFirst
    cases encodeUtf8 fixtureId with
    | error e => trivial
    | ok encoded =>
      cases utcOfMicros (now.val + dayMicros) with
      | none => trivial
      | some expiresAt =>
        refine ⟨fun a ha => (by cases ha),?_⟩
        rintro (e | shouldFail)
        · trivial
        · cases shouldFail with
          | true => trivial
          | false => exact hf

theorem process_placed (receiverVersion : Str) (incoming : IncomingTelemetry) (now : Utc) :
    Only (OnlyPlaced (eventOf receiverVersion incoming now) incoming)
      (process sha256Hex receiverVersion incoming now) := by
  unfold process
  cases hvalid : incoming.validationError with
  | some reason => exact quarantine_placed (.rejected hvalid)
  | none =>
    cases hfixture : incoming.syntheticFixtureId with
    | some fixtureId =>
      exact failFirst_placed ((append_placed (.fixture hvalid hfixture)).bind (fun _ => trivial))
    | none =>
      cases incoming.vin with
      | none => exact quarantine_placed (.unresolved hvalid hfixture)
      | some vin =>
        refine (resolve_placed vin).bind ?_
        rintro (_ | route)
        · exact quarantine_placed (.unresolved hvalid hfixture)
        · exact (append_placed (.owned hvalid hfixture)).bind (fun _ => trivial)

end Placement

/-- Where a fixture's delivery is counted: in the synthetic table when it came through the
synthetic subscription, and else in the quarantine. -/
inductive Counted (policy : TelemetrySourcePolicy) (subscription : Str) (event : RawTelemetryEvent) :
    Fixture → Append → Prop where
  | synthetic {fixtureId : Str} {failFirst : Bool}
    (bound : subscription = policy.syntheticSubscription) :
    Counted policy subscription event (.synthetic fixtureId failFirst)
      (.synthetic event fixtureId failFirst)
  | misdirected {fixtureId : Str} {failFirst : Bool} {reason : String}
    (unbound : subscription ≠ policy.syntheticSubscription) :
    Counted policy subscription event (.synthetic fixtureId failFirst) (.quarantine event reason)
  | unknown {fixtureId receivedat : Str} {reason : String} :
    Counted policy subscription event (.unknown fixtureId receivedat) (.quarantine event reason)

/-- A decoded delivery of a fixture has the id, the marker and the time that were published. -/
structure IsFixture (fixture : Fixture) (sourceTimestamp : Utc) (messageId : Str)
    (incoming : IncomingTelemetry) : Prop where
  pubsubMessageId : incoming.pubsubMessageId = messageId
  transportMessageId : incoming.transportMessageId = orNone (some fixture.fixtureId)
  syntheticFixtureId : incoming.syntheticFixtureId = fixture.marker
  syntheticFailFirst : incoming.syntheticFailFirst = fixture.failFirst
  sourceTimestamp : incoming.sourceTimestamp = sourceTimestamp

/-- What the operator's check finds of a fixture's delivery. -/
structure Evidence (policy : TelemetrySourcePolicy) (limit : Nat) (body : Bytes) (now : Utc)
    (fixture : Fixture) (sourceTimestamp : Utc) (subscription messageId : Str)
    (es : List ServiceEvent) (q : Processing ProcessingResult) : Prop where
  decoded : ∃ incoming, decodePubsubPush limit body now policy = .ok incoming ∧
    IsFixture fixture sourceTimestamp messageId incoming
  isolated : ∀ datasetId event r,
    (⟨.insertRowsJson (.user datasetId event),r⟩ : ServiceEvent) ∉ es
  placed : ∀ a ∈ appends es, ∃ event, Counted policy subscription event fixture a ∧
    event.sourceTimestamp = sourceTimestamp ∧ event.pubsubMessageId = messageId
  counted : ∀ result, q = .ret result → ∃ a, appends es = [a]

section Evidence
variable {sha256Hex : Bytes → Str} {limit : Nat} {runtime : Runtime} {registry : Registry}
  {body : Bytes} {now ts : Utc} {fixture : Fixture} {subscription messageId : Str}
  {es : List ServiceEvent} {q : Processing ProcessingResult}

/-- The push that is decoded, with its timestamps. -/
theorem decode_fixture (policy : TelemetrySourcePolicy) (now : Utc) (hlimit : 4 ≤ limit)
    (hid : fixture.marker.all isFixtureId = true)
    (hp : Pushes limit body fixture ts subscription messageId) :
    ∃ push publishTime, Carries limit body push ∧ push.subscription = subscription ∧
      push.messageId = messageId ∧ push.payload = readBackDict (fixture.payload ts) ∧
      (∀ name, push.attributes.get name = fixture.attributes.get name) ∧
      decodePubsubPush limit body now policy =
        .ok (incomingOf policy now push publishTime (some ts) fixture.marker) := by
  obtain ⟨data,wrapper,message,attributes,publishTime,hdata,hwraps,hattributes,hget,htime⟩ := hp.wraps
  let push : Push :=
    { subscription, messageId, payload := readBackDict (fixture.payload ts), attributes
      publishTime := message.get (str "publishTime")
      deliveryAttempt := wrapper.get (str "deliveryAttempt") }
  have hcarries : Carries limit body push :=
    ⟨wrapper,message,b64encode data,data,hwraps,b64decode_b64encode data,
      loads_payload hlimit hdata,hattributes,rfl,rfl⟩
  exact ⟨push,publishTime,hcarries,rfl,rfl,rfl,hget,decodePubsubPush_eq_ok.mpr
    ⟨push,publishTime,_,_,hcarries,htime,syntheticFixtureId_marker hid hget,
      optionalTimestamp_createdAt fixture ts,rfl⟩⟩

/-- The registry has no vehicle with the VIN of the unknown fixture. -/
def NoFixtureVehicle (registry : Registry) : Prop :=
  ∀ vehicleId vehicleData, registry.vehicles vehicleId = some vehicleData →
    vehicleData.string "vin" ≠ some unknownVin

/-- A synthetic message is valid exactly on the synthetic subscription. -/
theorem synthetic_valid {policy : TelemetrySourcePolicy} {push : Push} {publishTime : Option Utc}
    {fixtureId : Str} {failFirst : Bool}
    (hget : ∀ name, push.attributes.get name =
      (Fixture.synthetic fixtureId failFirst).attributes.get name) :
    (incomingOf policy now push publishTime (some ts) (some fixtureId)).validationError = none ↔
      push.subscription = policy.syntheticSubscription := by
  have hvin : push.attributes.get (str "vin") = none := by
    rw [hget]
    cases failFirst <;> rfl
  have hsubscription : (checkSubscription policy push.subscription
      (recordTypeOf push.attributes (some fixtureId)) (some fixtureId)).2 = none ↔
      push.subscription = policy.syntheticSubscription := by
    unfold checkSubscription
    by_cases h : push.subscription = policy.syntheticSubscription
    · simp [h]
    · rw [if_neg h]
      cases policy.fleetSubscriptions.get push.subscription <;> simp [h]
  simp only [incomingOf,hvin,Option.orElse_eq_orElse,Option.orElse_eq_or,Option.or_eq_none_iff,
    hsubscription]
  simp [checkRecordType,checkPayloadVin,checkSourceTimestamp,checkEdgeReceivedAt,orNone]

theorem synthetic_failFirst {policy : TelemetrySourcePolicy} {push : Push}
    {publishTime marker : Option Utc} {fixtureId : Str} {failFirst : Bool} {id : Option Str}
    (hget : ∀ name, push.attributes.get name =
      (Fixture.synthetic fixtureId failFirst).attributes.get name) :
    (incomingOf policy now push publishTime marker id).syntheticFailFirst = failFirst := by
  show decide (push.attributes.get (str "tpp_fixture_fail_first") = some (str "true")) = failFirst
  rw [hget]
  cases failFirst <;> rfl

/-- The id, the marker and the time are read back. -/
theorem isFixture_incoming {policy : TelemetrySourcePolicy} {push : Push} {publishTime : Option Utc}
    (hget : ∀ name, push.attributes.get name = fixture.attributes.get name) :
    IsFixture fixture ts push.messageId
      (incomingOf policy now push publishTime (some ts) fixture.marker) := by
  have htxid : fixture.attributes.get (str "txid") = some fixture.fixtureId := by
    cases fixture with
    | synthetic fixtureId failFirst => cases failFirst <;> rfl
    | unknown fixtureId receivedat => rfl
  constructor
  case pubsubMessageId => rfl
  case transportMessageId =>
    show orNone (push.attributes.get (str "txid")) = _
    rw [hget,htxid]
  case syntheticFixtureId => rfl
  case syntheticFailFirst =>
    cases fixture with
    | synthetic fixtureId failFirst => exact synthetic_failFirst hget
    | unknown fixtureId receivedat =>
      show decide (push.attributes.get (str "tpp_fixture_fail_first") = some (str "true")) = false
      rw [hget]
      rfl
  case sourceTimestamp => rfl

theorem counted_of_placed {policy : TelemetrySourcePolicy} {push : Push} {publishTime : Option Utc}
    {event : RawTelemetryEvent} {a : Append}
    (hget : ∀ name, push.attributes.get name = fixture.attributes.get name)
    (huser : ∀ datasetId event, a ≠ .user datasetId event)
    (hplaced : Placed event (incomingOf policy now push publishTime (some ts) fixture.marker) a) :
    Counted policy push.subscription event fixture a := by
  cases fixture with
  | synthetic fixtureId failFirst =>
    have hvalid := @synthetic_valid now ts policy push publishTime fixtureId failFirst hget
    cases hplaced with
    | rejected invalid =>
      refine .misdirected (fun hbound => ?_)
      have hnone := hvalid.mpr hbound
      rw [show (Fixture.synthetic fixtureId failFirst).marker = some fixtureId from rfl,hnone] at invalid
      cases invalid
    | fixture valid marked =>
      cases marked
      rw [synthetic_failFirst hget]
      exact .synthetic (hvalid.mp valid)
    | unresolved _ unmarked => cases unmarked
    | owned _ unmarked => cases unmarked
  | unknown fixtureId receivedat =>
    cases hplaced with
    | rejected invalid => exact .unknown
    | fixture _ marked => cases marked
    | unresolved _ _ => exact .unknown
    | owned _ _ => exact absurd rfl (huser _ _)

theorem not_owned {push : Push} {datasetId : Str} {event : RawTelemetryEvent}
    (hget : ∀ name, push.attributes.get name = fixture.attributes.get name)
    (hvehicle : NoFixtureVehicle registry) :
    ¬ Owned sha256Hex runtime.sourcePolicy registry push datasetId event := by
  intro howned
  obtain ⟨vin,vehicleId,ownerUserId,vehicleData,hne,hvin,_,hregistered,_⟩ := howned.vehicle
  rw [hget] at hvin
  cases fixture with
  | synthetic fixtureId failFirst => cases failFirst <;> cases hvin
  | unknown fixtureId receivedat =>
    obtain rfl : unknownVin = vin := Option.some.inj hvin
    exact hvehicle vehicleId vehicleData hregistered.vehicle hregistered.vin

/-- A message of the check is decoded back, it never reaches a user's dataset, and a processed
one is counted once under its id and its time. -/
theorem fixture_evidence (hlimit : 4 ≤ limit) (hid : fixture.marker.all isFixtureId = true)
    (hp : Pushes limit body fixture ts subscription messageId)
    (hvehicle : NoFixtureVehicle registry)
    (ht : Trace (processPush sha256Hex limit runtime body now) es q)
    (hanswers : ∀ e ∈ es, registry.Answers e) :
    Evidence runtime.sourcePolicy limit body now fixture ts subscription messageId es q := by
  obtain ⟨push,publishTime,hcarries,rfl,rfl,_,hget,hdecode⟩ :=
    decode_fixture runtime.sourcePolicy now hlimit hid hp
  have hprocess : processPush sha256Hex limit runtime body now =
      process sha256Hex runtime.receiverVersion
        (incomingOf runtime.sourcePolicy now push publishTime (some ts) fixture.marker) now := by
    unfold processPush
    rw [hdecode]
    rfl
  have hroutes := process_routes ht hanswers
  have hplaced : ∀ a r, (⟨.insertRowsJson a,r⟩ : ServiceEvent) ∈ es →
      Placed (eventOf runtime.receiverVersion (incomingOf runtime.sourcePolicy now push publishTime
        (some ts) fixture.marker) now) (incomingOf runtime.sourcePolicy now push publishTime
        (some ts) fixture.marker) a := by
    intro a r he
    obtain ⟨pre,post,rfl⟩ := List.append_of_mem he
    rw [hprocess] at ht
    have honly := (@process_placed sha256Hex runtime.receiverVersion
      (incomingOf runtime.sourcePolicy now push publishTime (some ts) fixture.marker) now).obeys
      (fun (_ : List ServiceEvent) _ h => h) []
    exact honly.allowed ht a rfl
  have hisolated : ∀ datasetId event r,
      (⟨.insertRowsJson (.user datasetId event),r⟩ : ServiceEvent) ∉ es := by
    intro datasetId event r he
    obtain ⟨push',hcarries',howned⟩ := hroutes.only datasetId event r he
    obtain rfl := carries_unique hcarries hcarries'
    exact not_owned hget hvehicle howned
  refine ⟨⟨_,hdecode,isFixture_incoming hget⟩,hisolated,?_,?_⟩
  · intro a ha
    obtain ⟨r,he⟩ := mem_appends ha
    have huser : ∀ datasetId event, a ≠ .user datasetId event := by
      rintro datasetId event rfl
      exact hisolated datasetId event r he
    exact ⟨_,counted_of_placed hget huser (hplaced a r he),rfl,rfl⟩
  · intro result hq
    obtain ⟨a,ha,_⟩ := hroutes.otherwise result hq
    exact ⟨a,ha⟩

end Evidence

section Witness

/-- The fixture that the check publishes twice. -/
def duplicateFixture : Fixture := .synthetic (str "phase7_duplicate-0123456789abcdef") false

def duplicateAttributes : Dict Str :=
  [(str "tpp_fixture_id",str "phase7_duplicate-0123456789abcdef"),
   (str "tpp_synthetic_fixture",str "phase7"),
   (str "txid",str "phase7_duplicate-0123456789abcdef"),(str "txtype",str "synthetic")]

def jsonAttributes : Dict Json := duplicateAttributes.map (fun e => (e.1,Json.str e.2))

def duplicateMessage : Dict Json :=
  [(str "attributes",.obj jsonAttributes),
   (str "data",.str (b64encode (asciiBytes (dumps (.obj (duplicateFixture.payload demoNow)))))),
   (str "messageId",.str (str "8"))]

def duplicateWrapper : Dict Json :=
  [(str "message",.obj duplicateMessage),
   (str "subscription",.str (str "projects/p/subscriptions/synthetic"))]

def duplicateBody : Bytes := asciiBytes (dumps (.obj duplicateWrapper))

/-- The attributes are already in the order of their keys. -/
theorem readBackDict_attributes : readBackDict jsonAttributes = jsonAttributes := by
  have hkeys : [str "tpp_fixture_id",str "tpp_synthetic_fixture",str "txid",str "txtype"].Pairwise
      (fun a b => a < b) := by decide
  have hsorted := @orderBy_eq _ _ _ Prod.fst (readBackEntries jsonAttributes) _ (List.Perm.refl _)
    (List.pairwise_map.mp hkeys)
  unfold readBackDict
  rw [hsorted]
  rfl

theorem duplicate_attributes (name : Str) :
    duplicateAttributes.get name = duplicateFixture.attributes.get name := by
  have hperm : duplicateAttributes.Perm duplicateFixture.attributes :=
    (List.Perm.swap ..).trans (.cons _ (.cons _ (.swap ..)))
  exact Dict.get_perm (by decide) hperm

theorem noFixtureVehicle_demo : NoFixtureVehicle demoRegistry := by
  intro vehicleId vehicleData h
  simp only [demoRegistry] at h
  split at h
  · cases h
    decide
  · cases h

theorem duplicate_pushes : Pushes 1000 duplicateBody duplicateFixture demoNow
    demoRuntime.sourcePolicy.syntheticSubscription (str "8") := by
  have hloaded : loads 1000 duplicateBody = .ok (.obj (readBackDict duplicateWrapper)) := by
    have hfree : NumberFreeEntries duplicateWrapper := by
      simp [duplicateWrapper,duplicateMessage,jsonAttributes,duplicateAttributes,NumberFreeEntries,NumberFree]
    have hdepth : depth (.obj duplicateWrapper) ≤ 1000 := by
      simp [duplicateWrapper,duplicateMessage,jsonAttributes,duplicateAttributes,depthEntries,depth]
    unfold duplicateBody
    rw [loads_dumps hfree hdepth,readBack_dict]
  have hwrapper : ∀ name, (readBackDict duplicateWrapper).get name =
      (Dict.get duplicateWrapper name).map readBack :=
    get_readBackDict (by decide) (by decide)
  have hmessage : ∀ name, (readBackDict duplicateMessage).get name =
      (Dict.get duplicateMessage name).map readBack :=
    get_readBackDict (by decide) (by decide)
  have hdata : joinPairs (b64encode (asciiBytes (dumps (.obj (duplicateFixture.payload demoNow))))) =
      b64encode (asciiBytes (dumps (.obj (duplicateFixture.payload demoNow)))) :=
    joinPairs_ascii (isAscii_b64encode _)
  have hencoded : b64encode (asciiBytes (dumps (.obj (duplicateFixture.payload demoNow)))) ≠ [] := by
    obtain ⟨c,rest,htext,_⟩ := dumps_obj_head (duplicateFixture.payload demoNow)
    rw [htext]
    cases rest with
    | nil => simp [asciiBytes,b64encode]
    | cons d rest => simp [asciiBytes,b64encode]
  refine ⟨_,readBackDict duplicateWrapper,readBackDict duplicateMessage,duplicateAttributes,none,
    encodeUtf8_ascii (isAscii_dumps _),⟨hloaded,?_,?_,?_,?_⟩,?_,duplicate_attributes,?_⟩
  · rw [hwrapper]
    exact congrArg some (readBack_dict _)
  · refine ⟨?_,by decide⟩
    rw [hwrapper]
    rfl
  · refine ⟨?_,by decide⟩
    rw [hmessage]
    rfl
  · refine ⟨?_,hencoded⟩
    rw [hmessage]
    exact congrArg (fun s => some (Json.str s)) hdata
  · have hattributes : Dict.get (readBackDict duplicateMessage) (str "attributes") =
        some (.obj jsonAttributes) := by
      rw [hmessage,← readBackDict_attributes,← readBack_dict]
      rfl
    unfold attributesOf
    rw [hattributes]
    rfl
  · rw [hmessage]
    rfl

theorem fixture_evidence_duplicate :
    Evidence demoRuntime.sourcePolicy 1000 duplicateBody demoNow duplicateFixture demoNow
      demoRuntime.sourcePolicy.syntheticSubscription (str "8") (demoRun duplicateBody demoNow).1
      (demoRun duplicateBody demoNow).2 :=
  fixture_evidence (by decide) (by decide) duplicate_pushes noFixtureVehicle_demo
    (demoRun_trace duplicateBody demoNow) (demoRun_answers duplicateBody demoNow)

end Witness

end Woodhouse.Ingest
