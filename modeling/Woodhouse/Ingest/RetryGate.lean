import Woodhouse.Effects.Interleaving
import Woodhouse.Ingest.Fixtures

namespace Woodhouse.Ingest
open Effects Python

/-- The environment's answer to a call: whether a create whose answer was lost took effect, and
which documents have expired by then. -/
structure GateChoice where
  answer : (call : Call) → Except Exc call.Ret
  landed : Bool := false
  expired : List Str := []

/-- The documents of the retry gate. A create answers whether the document was new. -/
def gateMachine : Machine Call Call.Ret Exc (List Str) GateChoice
  | gate, .createFixtureRetry documentId fixtureId firstFailureAt expiresAt, choice =>
    let kept := gate.filter (fun id => id ∉ choice.expired)
    match choice.answer (.createFixtureRetry documentId fixtureId firstFailureAt expiresAt) with
    | .ok _ =>
      if documentId ∈ kept then some (.ok false,kept) else some (.ok true,documentId :: kept)
    | .error e => some (.error e,if choice.landed then documentId :: kept else kept)
  | gate, call, choice => some (choice.answer call,gate)

/-- The event asked the gate about the document. -/
def Asks (documentId : Str) (e : ServiceEvent) : Prop :=
  ∃ fixtureId firstFailureAt expiresAt,
    e.op = .createFixtureRetry documentId fixtureId firstFailureAt expiresAt

/-- The gate said that the document was there. -/
def Passed (e : ServiceEvent) : Prop :=
  ∃ documentId fixtureId firstFailureAt expiresAt,
    e = ⟨.createFixtureRetry documentId fixtureId firstFailureAt expiresAt,.ok false⟩

def AllPassed (h : List ServiceEvent) : Prop :=
  ∀ e ∈ h, ∀ documentId, Asks documentId e → Passed e

/-- What a delivery may do: ask the gate once and first, append only what the gate let through,
and record a first failure only of a document that was there. -/
def GateRule (sha256Hex : Bytes → Str) (h : List ServiceEvent) : Call → Prop
  | .createFixtureRetry .. => appends h = [] ∧ ∀ e ∈ h, ∀ documentId, ¬ Asks documentId e
  | .insertRowsJson a => AllPassed h ∧ ∀ event fixtureId, a = .synthetic event fixtureId true →
      ∃ encoded firstFailureAt expiresAt, encodeUtf8 fixtureId = .ok encoded ∧
        (⟨.createFixtureRetry (sha256Hex encoded) fixtureId firstFailureAt expiresAt,.ok false⟩ :
          ServiceEvent) ∈ h
  | _ => True

section Rules
variable {sha256Hex : Bytes → Str} {h : List ServiceEvent} {incoming : IncomingTelemetry} {now : Utc}

/-- A processed delivery was let through. -/
def PassedIfDone {α : Type} (h : List ServiceEvent) (r : Except Exc α) : Prop :=
  ∀ a, r = .ok a → AllPassed h

theorem allPassed_insert {a : Append} {r : Except Exc (List (Dict Json))} (hp : AllPassed h) :
    AllPassed (h ++ [⟨.insertRowsJson a,r⟩]) := by
  intro e he documentId hasks
  rcases List.mem_append.mp he with he | he
  · exact hp e he documentId hasks
  · obtain rfl := List.mem_singleton.mp he
    obtain ⟨_,_,_,hop⟩ := hasks
    cases hop

theorem append_gate {a : Append} {result : ProcessingResult}
    (hrule : GateRule sha256Hex h (.insertRowsJson a)) :
    Obeys (GateRule sha256Hex) PassedIfDone (append a >>= fun _ => .ret result) h := by
  refine ⟨hrule,?_⟩
  rintro (e | errors)
  · intro _ hr
    cases hr
  · show Obeys _ _ ((if List.isEmpty errors then _ else _ : Processing Unit) >>= _) _
    split
    · exact fun _ _ => allPassed_insert hrule.1
    · intro _ hr
      cases hr

/-- What is not a fixture's row is no record of a first failure. -/
theorem gateRule_of_other {a : Append} (hp : AllPassed h)
    (ha : ∀ event fixtureId, a ≠ .synthetic event fixtureId true) :
    GateRule sha256Hex h (.insertRowsJson a) :=
  ⟨hp,fun event fixtureId he => absurd he (ha event fixtureId)⟩

theorem quarantine_gate (event : RawTelemetryEvent) (reason : String) (hp : AllPassed h) :
    Obeys (GateRule sha256Hex) PassedIfDone (quarantine incoming event reason) h :=
  append_gate (gateRule_of_other hp (fun _ _ => by simp))

theorem resolve_gate (vin : Str) :
    Obeys (GateRule sha256Hex) (fun h' _ => AllPassed h') (resolve sha256Hex vin) [] := by
  have hreads := ((@resolve_reads sha256Hex vin).obeys
    (A := fun _ call => call.isRead = true) (fun _ _ h => h) []).grown
  refine (hreads.mono ?_).imp ?_
  · rintro h' r ⟨_,es,rfl,hes⟩ e he documentId ⟨_,_,_,hop⟩
    have hread := hes e (by simpa using he)
    rw [hop] at hread
    cases hread
  · intro h' call hread
    cases call <;> trivial

/-- The gate is asked first, and only its refusal leads to a row with a first failure. -/
theorem failFirst_gate {fixtureId : Str} {event : RawTelemetryEvent} {result : ProcessingResult} :
    Obeys (GateRule sha256Hex) PassedIfDone
      (failFirst sha256Hex incoming fixtureId now >>= fun firstFailureRecorded =>
        append (.synthetic event fixtureId firstFailureRecorded) >>= fun _ => .ret result) [] := by
  unfold failFirst
  cases incoming.syntheticFailFirst with
  | false => exact append_gate (gateRule_of_other (fun e he => by cases he) (fun _ _ => by simp))
  | true =>
    unfold shouldFailFirst
    cases hencoded : encodeUtf8 fixtureId with
    | error e =>
      intro _ hr
      cases hr
    | ok encoded =>
      cases utcOfMicros (now.val + dayMicros) with
      | none =>
        intro _ hr
        cases hr
      | some expiresAt =>
        refine ⟨⟨rfl,fun e he => by cases he⟩,?_⟩
        rintro (e | shouldFail)
        · intro _ hr
          cases hr
        · cases shouldFail with
          | true =>
            intro _ hr
            cases hr
          | false =>
            refine append_gate ⟨?_,?_⟩
            · intro e he documentId hasks
              obtain rfl := List.mem_singleton.mp he
              exact ⟨_,_,_,_,rfl⟩
            · intro event' fixtureId' ha
              cases ha
              exact ⟨encoded,now,expiresAt,hencoded,List.mem_singleton_self _⟩

theorem process_gate (receiverVersion : Str) (incoming : IncomingTelemetry) (now : Utc) :
    Obeys (GateRule sha256Hex) PassedIfDone (process sha256Hex receiverVersion incoming now) [] := by
  have hstart : AllPassed [] := fun e he => by cases he
  unfold process
  cases incoming.validationError with
  | some reason => exact quarantine_gate _ reason hstart
  | none =>
    cases incoming.syntheticFixtureId with
    | some fixtureId => exact failFirst_gate
    | none =>
      cases incoming.vin with
      | none => exact quarantine_gate _ "missing_vin" hstart
      | some vin =>
        refine (resolve_gate vin).bind ?_ ?_
        · rintro h' (_ | route) hp
          · exact quarantine_gate _ "unknown_vin" hp
          · exact append_gate (gateRule_of_other hp (fun _ _ => by simp))
        · intro h' e _ _ hr
          cases hr

theorem processPush_gate (limit : Nat) (runtime : Runtime) (body : Bytes) (now : Utc) :
    Obeys (GateRule sha256Hex) PassedIfDone (processPush sha256Hex limit runtime body now) [] := by
  unfold processPush
  cases decodePubsubPush limit body now runtime.sourcePolicy with
  | error e =>
    intro _ hr
    cases hr
  | ok incoming => exact process_gate runtime.receiverVersion incoming now

end Rules

section Runs
variable {ι : Type} [DecidableEq ι]

abbrev GateLog (ι : Type) := Log ι Call Call.Ret Exc

/-- A push that one handler processes. -/
structure Handled where
  body : Bytes
  now : Utc

/-- What concurrent handlers can do from a gate with some documents. -/
def Handling (sha256Hex : Bytes → Str) (limit : Nat) (runtime : Runtime) (pushes : ι → Handled)
    (gate₀ : List Str) (log : GateLog ι) (ps : ι → Processing ProcessingResult) (gate : List Str) :
    Prop :=
  Run gateMachine
    (fun i => processPush sha256Hex limit runtime (pushes i).body (pushes i).now) gate₀ log ps gate

/-- The handler neither appends the push nor acknowledges it. -/
def Unprocessed (log : GateLog ι) (ps : ι → Processing ProcessingResult) (i : ι) : Prop :=
  appends (localEvents i log) = [] ∧ ∀ result, ps i ≠ .ret result

/-- The call left the document in the gate: it was created, or its answer was lost. -/
def Leaves (documentId : Str) (e : ServiceEvent) : Prop := Asks documentId e ∧ ¬ Passed e

/-- What the row of a first failure proves. -/
structure RetryProof (sha256Hex : Bytes → Str) (gate₀ : List Str) (log : GateLog ι)
    (ps : ι → Processing ProcessingResult) : Prop where
  /-- The first question about a document is never let through. -/
  first_fails : ∀ pre post i e documentId, log = pre ++ (i,e) :: post → Asks documentId e →
    documentId ∉ gate₀ → (∀ entry ∈ pre, ¬ Asks documentId entry.2) → Unprocessed log ps i
  /-- A first failure is recorded only after another delivery of the fixture failed. -/
  failed_before : ∀ pre post i event fixtureId r encoded,
    log = pre ++ (i,⟨.insertRowsJson (.synthetic event fixtureId true),r⟩) :: post →
    encodeUtf8 fixtureId = .ok encoded → sha256Hex encoded ∉ gate₀ →
    ∃ j e, j ≠ i ∧ (j,e) ∈ pre ∧ Leaves (sha256Hex encoded) e ∧ Unprocessed log ps j

variable {sha256Hex : Bytes → Str} {limit : Nat} {runtime : Runtime} {pushes : ι → Handled}
  {gate₀ gate : List Str} {log : GateLog ι} {ps : ι → Processing ProcessingResult}

section Machine
variable {op : Call} {c : GateChoice} {r : Except Exc op.Ret} {gate' : List Str} {id : Str}

theorem gate_kept (does : gateMachine gate op c = some (r,gate')) (hid : id ∈ gate') :
    id ∈ gate ∨ Leaves id ⟨op,r⟩ := by
  cases op with
  | createFixtureRetry documentId fixtureId firstFailureAt expiresAt =>
    have hasks : ∀ r, Asks documentId
        ⟨.createFixtureRetry documentId fixtureId firstFailureAt expiresAt,r⟩ :=
      fun _ => ⟨fixtureId,firstFailureAt,expiresAt,rfl⟩
    have hold : ∀ {kept : List Str}, kept = gate.filter (fun id => id ∉ c.expired) → id ∈ kept →
        id ∈ gate := by
      rintro kept rfl hk
      exact List.mem_of_mem_filter hk
    simp only [gateMachine] at does
    split at does
    · split at does
      · cases does
        exact .inl (hold rfl hid)
      · cases does
        rcases List.mem_cons.mp hid with rfl | hid
        · refine .inr ⟨hasks _,?_⟩
          rintro ⟨_,_,_,_,he⟩
          cases he
        · exact .inl (hold rfl hid)
    · cases does
      split at hid
      · rcases List.mem_cons.mp hid with rfl | hid
        · refine .inr ⟨hasks _,?_⟩
          rintro ⟨_,_,_,_,he⟩
          cases he
        · exact .inl (hold rfl hid)
      · exact .inl (hold rfl hid)
  | _ =>
    simp only [gateMachine] at does
    cases does
    exact .inl hid

theorem mem_of_passed (does : gateMachine gate op c = some (r,gate')) (hp : Passed ⟨op,r⟩)
    (hasks : Asks id ⟨op,r⟩) : id ∈ gate := by
  obtain ⟨documentId,fixtureId,firstFailureAt,expiresAt,he⟩ := hp
  cases he
  obtain ⟨_,_,_,hop⟩ := hasks
  cases hop
  simp only [gateMachine] at does
  split at does
  · split at does
    · rename_i hmem
      exact List.mem_of_mem_filter hmem
    · cases does
  · cases does

end Machine

/-- A document of the gate was there from the start or was left by a call. -/
theorem gate_leaves (run : Handling sha256Hex limit runtime pushes gate₀ log ps gate) :
    ∀ id ∈ gate, id ∈ gate₀ ∨ ∃ entry ∈ log, Leaves id entry.2 := by
  refine run.invariant (I := fun log gate => ∀ id ∈ gate, id ∈ gate₀ ∨ ∃ entry ∈ log,
    Leaves id entry.2) (fun _ h => .inl h) ?_
  intro log ps s i op k c r s' _ _ does hi id hid
  rcases gate_kept does hid with hid | hl
  · rcases hi id hid with h | ⟨entry,hm,hl⟩
    · exact .inl h
    · exact .inr ⟨entry,List.mem_append_left _ hm,hl⟩
  · exact .inr ⟨(i,⟨op,r⟩),List.mem_append_right _ (List.mem_singleton_self _),hl⟩

theorem rule_at {pre post : GateLog ι} {i : ι} {op : Call} {r : Except Exc op.Ret}
    (run : Handling sha256Hex limit runtime pushes gate₀ (pre ++ (i,⟨op,r⟩) :: post) ps gate) :
    GateRule sha256Hex (localEvents i pre) op := by
  obtain ⟨qs,t,c,k,t',before,turn,_,_⟩ := run.at_event
  exact before.allowed (processPush_gate limit runtime (pushes i).body (pushes i).now) turn

/-- A handler whose question left the document does not get to append its push. -/
theorem unprocessed_of_leaves (run : Handling sha256Hex limit runtime pushes gate₀ log ps gate)
    {i : ι} {e : ServiceEvent} {id : Str} (he : (i,e) ∈ log) (hl : Leaves id e) :
    Unprocessed log ps i := by
  have hgate := @processPush_gate sha256Hex limit runtime (pushes i).body
    (pushes i).now
  have ht := Run.trace run i
  have hlocal := mem_local.mpr he
  constructor
  · by_contra hne
    obtain ⟨a,ha⟩ := List.exists_mem_of_ne_nil _ hne
    obtain ⟨r,hinsert⟩ := mem_appends ha
    have hdifferent : e ≠ ⟨.insertRowsJson a,r⟩ := by
      rintro rfl
      obtain ⟨⟨_,_,_,hop⟩,_⟩ := hl
      cases hop
    rcases ordered_of_mem hlocal hinsert hdifferent with ⟨x,y,z,hsplit⟩ | ⟨x,y,z,hsplit⟩
    · rw [hsplit,show x ++ e :: (y ++ ⟨.insertRowsJson a,r⟩ :: z) =
        (x ++ e :: y) ++ ⟨.insertRowsJson a,r⟩ :: z by simp] at ht
      have hrule := hgate.allowed ht
      rw [List.nil_append] at hrule
      exact hl.2 (hrule.1 e (by simp) id hl.1)
    · obtain ⟨op,r'⟩ := e
      obtain ⟨⟨fixtureId,firstFailureAt,expiresAt,hop⟩,_⟩ := hl
      rw [hsplit,show x ++ ⟨.insertRowsJson a,r⟩ :: (y ++ ⟨op,r'⟩ :: z) =
        (x ++ ⟨.insertRowsJson a,r⟩ :: y) ++ ⟨op,r'⟩ :: z by simp] at ht
      have hrule := hgate.allowed ht
      rw [List.nil_append] at hrule
      cases hop
      have hnone := hrule.1
      simp [appendOf] at hnone
  · intro result hdone
    have hall := Run.outcome run hgate hdone result rfl
    exact hl.2 (hall e hlocal id hl.1)

theorem retry_proof (run : Handling sha256Hex limit runtime pushes gate₀ log ps gate) :
    RetryProof sha256Hex gate₀ log ps := by
  constructor
  · rintro pre post i ⟨op,r⟩ documentId rfl hasks hnew hfirst
    refine unprocessed_of_leaves run (by simp) ⟨hasks,?_⟩
    intro hpassed
    obtain ⟨qs,t,c,k,t',before,_,does,_⟩ := run.at_event
    rcases gate_leaves before documentId (mem_of_passed does hpassed hasks) with h | ⟨entry,hm,hl⟩
    · exact hnew h
    · exact hfirst entry hm hl.1
  · rintro pre post i event fixtureId r encoded rfl hencoded hnew
    obtain ⟨encoded',firstFailureAt,expiresAt,hencoded',hpassed⟩ := (rule_at run).2 event fixtureId rfl
    rw [hencoded] at hencoded'
    cases hencoded'
    obtain ⟨before,after,rfl⟩ := List.append_of_mem (mem_local.mp hpassed)
    have run' := run
    rw [List.append_assoc] at run'
    obtain ⟨qs,t,c,k,t',hbefore,_,does,_⟩ := run'.at_event
    have hmem := mem_of_passed does ⟨_,_,_,_,rfl⟩ ⟨_,_,_,rfl⟩
    rcases gate_leaves hbefore _ hmem with h | ⟨⟨j,e⟩,hm,hl⟩
    · exact absurd h hnew
    · refine ⟨j,e,?_,List.mem_append_left _ hm,hl,unprocessed_of_leaves run (by simp [hm]) hl⟩
      rintro rfl
      exact (rule_at run').2 e (mem_local.mpr hm) _ hl.1

end Runs

section Witness

/-- The digest of the retry fixture's id. -/
def retrySha256Hex (bytes : Bytes) : Str :=
  if bytes = ascii "phase7_retry-0123456789abcdef" then
    str "fcd7def0c72425adc8023c03969d48cc688b14a113ca40cf000a058442793ee6"
  else demoSha256Hex bytes

/-- The fixture that the check asks to fail first. -/
def retryPush : Bytes :=
  ["\x7b\"message\":\x7b\"data\":\"eyJjcmVhdGVkQXQiOiIyMDI0LTAxLTAyVDAzOjA0",
   "OjA1WiIsImRhdGEiOlt7ImtleSI6IlN5bnRoZXRpY1BpcGVsaW5lQ2hlY2si",
   "LCJ2YWx1ZSI6eyJib29sZWFuVmFsdWUiOnRydWV9fV0sImZpeHR1cmVJZCI6",
   "InBoYXNlN19yZXRyeS0wMTIzNDU2Nzg5YWJjZGVmIiwiZml4dHVyZVR5cGUi",
   "OiJwaGFzZTctbm9uLXZlaGljbGUiLCJ2aW4iOiJTWU5USEVUSUMtTk9OLVZF",
   "SElDTEUifQ==\",\"attributes\":\x7b\"tpp_synthetic_fixture\":\"phase7\"",
   ",\"tpp_fixture_id\":\"phase7_retry-0123456789abcdef\",\"txtype\":\"",
   "synthetic\",\"txid\":\"phase7_retry-0123456789abcdef\",\"tpp_fixtu",
   "re_fail_first\":\"true\"\x7d,\"messageId\":\"9\"\x7d,\"subscription\":\"proj",
   "ects/p/subscriptions/synthetic\"\x7d"].flatMap ascii

/-- The first delivery and the redelivery. -/
def retryDeliveries (_ : Bool) : Handled := { body := retryPush, now := demoNow }

def retrySchedule : List (Bool × GateChoice) :=
  [(false,{ answer := demoRegistry.answer }),(true,{ answer := demoRegistry.answer }),
   (true,{ answer := demoRegistry.answer })]

def isProof : Append → Bool
  | .synthetic _ fixtureId firstFailureRecorded =>
    fixtureId = str "phase7_retry-0123456789abcdef" ∧ firstFailureRecorded = true
  | _ => false

set_option maxRecDepth 100000 in
theorem retry_proof_redelivered :
    ∃ log ps gate, Handling retrySha256Hex 1000 demoRuntime retryDeliveries [] log ps gate ∧
      (appends (localEvents true log)).map isProof = [true] ∧ (ps true).finished = true ∧
      RetryProof retrySha256Hex [] log ps := by
  obtain ⟨log,ps,gate,run,hp⟩ := run_of_schedule gateMachine
    (fun i => processPush retrySha256Hex 1000 demoRuntime (retryDeliveries i).body
      (retryDeliveries i).now) [] retrySchedule
    (fun out => decide ((appends (localEvents true out.1)).map isProof = [true]) &&
      (out.2.1 true).finished) (by decide +kernel)
  obtain ⟨hproof,hfinished⟩ := Bool.and_eq_true_iff.mp hp
  exact ⟨log,ps,gate,run,of_decide_eq_true hproof,hfinished,retry_proof run⟩

end Witness

end Woodhouse.Ingest
