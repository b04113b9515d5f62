import Woodhouse.Ingest.Routing
import Woodhouse.Python.DumpsRoundTrip

namespace Woodhouse.Ingest
open Effects Python

/-- The event of a call of the telemetry sink. -/
def Append.event : Append → RawTelemetryEvent
  | .user _ event => event
  | .quarantine event _ => event
  | .synthetic event _ _ => event

/-- The payload text of a row is JSON, and reads as the payload with the entries of its
dictionaries in the order of their keys. -/
structure KeepsPayload (limit : Nat) (row : RawTelemetryRow) (payload : Dict Json) : Prop where
  valid : IsJsonText row.payload
  back : decodeFrom limit {} row.payload = .ok (inOrder (.obj payload))

/-- Every number of the payload is finite, and none of its strings and keys has the halves of a
surrogate pair as two characters. -/
structure Storable (payload : Dict Json) : Prop where
  finite : (Json.obj payload).Every IsFinite
  unsplit : (Json.obj payload).Every Unsplit

instance decidableStorable (payload : Dict Json) : Decidable (Storable payload) :=
  decidable_of_iff ((Json.obj payload).Every IsFinite ∧ (Json.obj payload).Every Unsplit)
    ⟨fun h => ⟨h.1,h.2⟩,fun h => ⟨h.finite,h.unsplit⟩⟩

section Decoded
variable {limit : Nat} {body : Bytes} {now : Utc} {policy : TelemetrySourcePolicy}
  {incoming : IncomingTelemetry}

/-- The payload of a delivery is what `json.loads` gave. -/
theorem decoded_canLoad (h : decodePubsubPush limit body now policy = .ok incoming) :
    (Json.obj incoming.payload).Every CanLoad ∧ depth (.obj incoming.payload) ≤ limit := by
  obtain ⟨push,publishTime,fixtureId,sourceTimestamp,hcarries,_,_,_,rfl⟩ :=
    decodePubsubPush_eq_ok.mp h
  obtain ⟨wrapper,message,encoded,decoded,_,_,hloaded,_⟩ := hcarries
  exact loads_canLoad hloaded

/-- A payload that was decoded can be read off its row exactly when it is storable. -/
theorem keepsPayload_iff (h : decodePubsubPush limit body now policy = .ok incoming)
    {event : RawTelemetryEvent} (hevent : event.payload = incoming.payload) :
    KeepsPayload limit event.bigqueryRow incoming.payload ↔ Storable incoming.payload := by
  obtain ⟨hloaded,hdepth⟩ := decoded_canLoad h
  have htext : event.bigqueryRow.payload = dumps (.obj incoming.payload) := by
    rw [← hevent]
    rfl
  have hvalid := isJsonText_dumps_iff hloaded
  have hback := (readsValue_canLoad limit hloaded).decode hdepth
  have hsame := readBack_eq_iff hloaded
  constructor
  · rintro ⟨hjson,hread⟩
    rw [htext] at hjson hread
    rw [hback,Except.ok.injEq] at hread
    exact ⟨hvalid.mp hjson,hsame.mp hread⟩
  · rintro ⟨hfinite,hunsplit⟩
    refine ⟨?_,?_⟩
    · rw [htext]
      exact hvalid.mpr hfinite
    · rw [htext,hback,hsame.mpr hunsplit]

end Decoded

section Sinks
variable {sha256Hex : Bytes → Str} {h : List ServiceEvent} {payload : Dict Json}

/-- A call appends no payload but the delivery's. -/
def AppendsOnly (payload : Dict Json) (_ : List ServiceEvent) (call : Call) : Prop :=
  ∀ a, call = .insertRowsJson a → a.event.payload = payload

theorem appendsOnly_read (call : Call) (hread : ∀ a, call ≠ .insertRowsJson a) :
    AppendsOnly payload h call := fun a hcall => absurd hcall (hread a)

theorem resolve_appendsOnly (vin : Str) :
    Obeys (AppendsOnly payload) (fun _ _ => True) (resolve sha256Hex vin) h := by
  unfold resolve
  cases hvin : encodeUtf8 vin with
  | error e => trivial
  | ok encoded =>
    simp only [ofPython,Prog.ret_bind]
    refine obeys_perform_bind.mpr ⟨appendsOnly_read _ (fun _ => by simp),fun _ => trivial,?_⟩
    intro index
    cases hi : indexTarget index with
    | none => trivial
    | some target =>
      obtain ⟨vehicleId,ownerUserId⟩ := target
      refine obeys_perform_bind.mpr ⟨appendsOnly_read _ (fun _ => by simp),fun _ => trivial,?_⟩
      intro vehicle
      cases hv : vehicleOf vehicle vin ownerUserId with
      | none => trivial
      | some vehicleData =>
        exact obeys_perform_bind.mpr ⟨appendsOnly_read _ (fun _ => by simp),fun _ => trivial,
          fun users => trivial⟩

theorem append_appendsOnly {a : Append} (ha : a.event.payload = payload) :
    Obeys (AppendsOnly payload) (fun _ _ => True) (append a) h := by
  refine ⟨?_,?_⟩
  · intro b hb
    cases hb
    exact ha
  · rintro (e | errors)
    · trivial
    · by_cases hempty : List.isEmpty errors
      · show Obeys _ _ (if List.isEmpty errors then _ else _) _
        rw [if_pos hempty]
        trivial
      · show Obeys _ _ (if List.isEmpty errors then _ else _) _
        rw [if_neg hempty]
        trivial

theorem quarantine_appendsOnly {event : RawTelemetryEvent} (hevent : event.payload = payload)
    (incoming : IncomingTelemetry) (reason : String) :
    Obeys (AppendsOnly payload) (fun _ _ => True) (quarantine incoming event reason) h :=
  (append_appendsOnly (a := .quarantine event reason) hevent).bind (fun _ _ _ => trivial)
    (fun _ _ _ => trivial)

theorem failFirst_appendsOnly (incoming : IncomingTelemetry) (fixtureId : Str) (now : Utc) :
    Obeys (AppendsOnly payload) (fun _ _ => True) (failFirst sha256Hex incoming fixtureId now) h := by
  unfold failFirst
  split
  · unfold shouldFailFirst
    cases encodeUtf8 fixtureId with
    | error e => trivial
    | ok encoded =>
      cases utcOfMicros (now.val + dayMicros) with
      | none =>
        simp only [ofPython,Prog.ret_bind]
        trivial
      | some expiresAt =>
        simp only [ofPython,Prog.ret_bind]
        refine obeys_perform_bind.mpr ⟨appendsOnly_read _ (fun _ => by simp),fun _ => trivial,?_⟩
        intro shouldFail
        split
        · trivial
        · trivial
  · trivial

/-- Whichever sink `process` chooses, it appends the delivery's payload. -/
theorem process_appendsOnly (receiverVersion : Str) (incoming : IncomingTelemetry) (now : Utc) :
    Obeys (AppendsOnly incoming.payload) (fun _ _ => True)
      (process sha256Hex receiverVersion incoming now) h := by
  unfold process
  cases incoming.validationError with
  | some reason => exact quarantine_appendsOnly rfl incoming reason
  | none =>
    cases incoming.syntheticFixtureId with
    | some fixtureId =>
      refine (failFirst_appendsOnly incoming fixtureId now).bind ?_ (fun _ _ _ => trivial)
      intro h' firstFailureRecorded _
      exact (append_appendsOnly (a := .synthetic (eventOf receiverVersion incoming now) fixtureId
        firstFailureRecorded) rfl).bind (fun _ _ _ => trivial) (fun _ _ _ => trivial)
    | none =>
      cases incoming.vin with
      | none => exact quarantine_appendsOnly rfl incoming "missing_vin"
      | some vin =>
        refine (resolve_appendsOnly vin).bind ?_ (fun _ _ _ => trivial)
        rintro h' (_ | route) _
        · exact quarantine_appendsOnly rfl incoming "unknown_vin"
        · exact (append_appendsOnly (a := .user route.datasetId
            (ownedEvent (eventOf receiverVersion incoming now) route)) rfl).bind
              (fun _ _ _ => trivial) (fun _ _ _ => trivial)

end Sinks

/-- Every row that a push appends has the decoded payload, and its text can be read as that
payload exactly when the payload is storable. -/
structure StoresPayload (sha256Hex : Bytes → Str) (limit : Nat) (runtime : Runtime) (body : Bytes)
    (now : Utc) (incoming : IncomingTelemetry) : Prop where
  appended : ∀ es q, Trace (processPush sha256Hex limit runtime body now) es q →
    ∀ a ∈ appends es, a.event.payload = incoming.payload
  kept : ∀ event : RawTelemetryEvent, event.payload = incoming.payload →
    (KeepsPayload limit event.bigqueryRow incoming.payload ↔ Storable incoming.payload)

theorem stored_payload_iff (sha256Hex : Bytes → Str) (limit : Nat) (runtime : Runtime) (body : Bytes)
    (now : Utc) (incoming : IncomingTelemetry)
    (h : decodePubsubPush limit body now runtime.sourcePolicy = .ok incoming) :
    StoresPayload sha256Hex limit runtime body now incoming := by
  refine ⟨?_,fun event hevent => keepsPayload_iff h hevent⟩
  intro es q ht a ha
  have hsame : processPush sha256Hex limit runtime body now =
      process sha256Hex runtime.receiverVersion incoming now := by
    unfold processPush
    rw [h]
    rfl
  rw [hsame] at ht
  obtain ⟨r,he⟩ := mem_appends ha
  obtain ⟨pre,post,rfl⟩ := List.append_of_mem he
  have hobeys : Obeys (AppendsOnly incoming.payload) (fun _ _ => True)
      (process sha256Hex runtime.receiverVersion incoming now) [] :=
    process_appendsOnly runtime.receiverVersion incoming now
  exact hobeys.allowed ht a rfl

section Samples

/-- The payload of an accepted push passes a test. -/
def acceptedWith (test : Dict Json → Bool) (body : Bytes) : Bool :=
  match decodePubsubPush 1000 body demoNow demoRuntime.sourcePolicy with
  | .ok incoming => test incoming.payload
  | .error _ => false

theorem exists_accepted (test : Dict Json → Bool) (body : Bytes) (h : acceptedWith test body = true) :
    ∃ incoming, decodePubsubPush 1000 body demoNow demoRuntime.sourcePolicy = .ok incoming ∧
      test incoming.payload = true := by
  unfold acceptedWith at h
  split at h
  · rename_i incoming hincoming
    exact ⟨incoming,hincoming,h⟩
  · cases h

/-- A state of charge of 80.1. -/
def fractionPush : Bytes :=
  ["\x7b\"message\":\x7b\"data\":\"eyJ2aW4iOiI1WUozRTFFQTdL",
   "RjAwMDAwMSIsImNyZWF0ZWRBdCI6IjIwMjQtMDEtMDJU",
   "MDM6MDQ6MDVaIiwiZGF0YSI6W3sia2V5IjoiU29jIiwi",
   "dmFsdWUiOnsiZG91YmxlVmFsdWUiOjgwLjF9fV19\",\"a",
   "ttributes\":\x7b\"txtype\":\"V\",\"vin\":\"5YJ3E1EA7KF0",
   "00001\",\"receivedat\":\"1704164646000\"\x7d,\"messag",
   "eId\":\"7\"\x7d,\"subscription\":\"projects/p/subscri",
   "ptions/v\"\x7d"].flatMap ascii

set_option maxRecDepth 100000 in
theorem stored_payload_fraction : ∃ incoming,
    decodePubsubPush 1000 fractionPush demoNow demoRuntime.sourcePolicy = .ok incoming ∧
    Storable incoming.payload ∧
    (appends (demoRun fractionPush demoNow).1).length = 1 ∧
    ∀ a ∈ appends (demoRun fractionPush demoNow).1,
      KeepsPayload 1000 a.event.bigqueryRow incoming.payload := by
  obtain ⟨incoming,hincoming,htest⟩ := exists_accepted
    (fun payload => decide (Storable payload)) fractionPush (by decide +kernel)
  have hstorable := of_decide_eq_true htest
  have hstores := stored_payload_iff demoSha256Hex 1000 demoRuntime fractionPush demoNow incoming
    hincoming
  refine ⟨incoming,hincoming,hstorable,by decide +kernel,?_⟩
  intro a ha
  exact (hstores.kept a.event (hstores.appended _ _ (demoRun_trace fractionPush demoNow) a ha)).mpr
    hstorable

/-- A state of charge of `NaN`. -/
def nanPush : Bytes :=
  ["\x7b\"message\":\x7b\"data\":\"eyJ2aW4iOiI1WUozRTFFQTdL",
   "RjAwMDAwMSIsImNyZWF0ZWRBdCI6IjIwMjQtMDEtMDJU",
   "MDM6MDQ6MDVaIiwiZGF0YSI6W3sia2V5IjoiU29jIiwi",
   "dmFsdWUiOnsiZG91YmxlVmFsdWUiOk5hTn19XX0=\",\"a",
   "ttributes\":\x7b\"txtype\":\"V\",\"vin\":\"5YJ3E1EA7KF0",
   "00001\",\"receivedat\":\"1704164646000\"\x7d,\"messag",
   "eId\":\"7\"\x7d,\"subscription\":\"projects/p/subscri",
   "ptions/v\"\x7d"].flatMap ascii

/-- A version whose text has the UTF-8 of two lone surrogates. -/
def surrogatesPush : Bytes :=
  ["\x7b\"message\":\x7b\"data\":\"eyJ2aW4iOiI1WUozRTFFQTdL",
   "RjAwMDAwMSIsImNyZWF0ZWRBdCI6IjIwMjQtMDEtMDJU",
   "MDM6MDQ6MDVaIiwiZGF0YSI6W3sia2V5IjoiVmVyc2lv",
   "biIsInZhbHVlIjp7InN0cmluZ1ZhbHVlIjoi7aC97biA",
   "In19XX0=\",\"attributes\":\x7b\"txtype\":\"V\",\"vin\":\"",
   "5YJ3E1EA7KF000001\",\"receivedat\":\"17041646460",
   "00\"\x7d,\"messageId\":\"7\"\x7d,\"subscription\":\"projec",
   "ts/p/subscriptions/v\"\x7d"].flatMap ascii

set_option maxRecDepth 100000 in
/-- Both are accepted; the first row is not JSON, and the second reads as another payload. -/
theorem stored_payload_unreadable :
    (∃ incoming, decodePubsubPush 1000 nanPush demoNow demoRuntime.sourcePolicy = .ok incoming ∧
      ¬ IsJsonText (eventOf demoRuntime.receiverVersion incoming demoNow).bigqueryRow.payload) ∧
    ∃ incoming, decodePubsubPush 1000 surrogatesPush demoNow demoRuntime.sourcePolicy = .ok incoming ∧
      IsJsonText (eventOf demoRuntime.receiverVersion incoming demoNow).bigqueryRow.payload ∧
      decodeFrom 1000 {} (eventOf demoRuntime.receiverVersion incoming demoNow).bigqueryRow.payload ≠
        .ok (inOrder (.obj incoming.payload)) := by
  constructor
  · obtain ⟨incoming,hincoming,htest⟩ := exists_accepted
      (fun payload => decide (¬ (Json.obj payload).Every IsFinite)) nanPush (by decide +kernel)
    refine ⟨incoming,hincoming,fun hjson => of_decide_eq_true htest ?_⟩
    exact (isJsonText_dumps_iff (decoded_canLoad hincoming).1).mp hjson
  · obtain ⟨incoming,hincoming,htest⟩ := exists_accepted
      (fun payload => decide ((Json.obj payload).Every IsFinite ∧
        ¬ (Json.obj payload).Every Unsplit)) surrogatesPush (by decide +kernel)
    obtain ⟨hfinite,hsplit⟩ := of_decide_eq_true htest
    have hjson := (isJsonText_dumps_iff (decoded_canLoad hincoming).1).mpr hfinite
    refine ⟨incoming,hincoming,hjson,fun hread => hsplit ?_⟩
    have hkept : KeepsPayload 1000
        (eventOf demoRuntime.receiverVersion incoming demoNow).bigqueryRow incoming.payload :=
      ⟨hjson,hread⟩
    exact ((keepsPayload_iff hincoming rfl).mp hkept).unsplit

end Samples

end Woodhouse.Ingest
