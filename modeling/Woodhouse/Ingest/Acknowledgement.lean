import Woodhouse.Ingest.Routing

namespace Woodhouse.Ingest
open Effects Python

def successOf : ServiceEvent → Option Append
  | ⟨.insertRowsJson a,.ok []⟩ => some a
  | _ => none

/-- The appends of a history that returned success. -/
def successes (es : List ServiceEvent) : List Append := es.filterMap successOf

@[simp] theorem successes_append (es es' : List ServiceEvent) :
    successes (es ++ es') = successes es ++ successes es' :=
  List.filterMap_append

/-- Google verified a token of the push identity for the audience. -/
def Authenticated (runtime : Runtime) (es : List ServiceEvent) : Prop :=
  ∃ token claims, (⟨.verifyOauth2Token token runtime.audience,.ok claims⟩ : ServiceEvent) ∈ es ∧
    isPushIdentity runtime.expectedEmail claims = true

/-- A call of the registry or of the retry gate. -/
def Call.isLookup : Call → Bool
  | .insertRowsJson _ => false
  | .verifyOauth2Token _ _ => false
  | _ => true

def IsInvalidPush {α : Type} (r : Except Exc α) : Prop :=
  ∃ category, r = .error (.invalidPushMessage category)

/-- A registry or retry-gate call raised the processor's own exception class. -/
def RaisedInvalid (es : List ServiceEvent) : Prop :=
  ∃ e ∈ es, e.op.isLookup = true ∧ IsInvalidPush e.ret

/-- The wrapper of an authenticated request is rejected as invalid. -/
inductive Rejected (limit : Nat) (runtime : Runtime) (request : PostRequest) (now : Utc)
    (es : List ServiceEvent) : Prop
  | size (h : contentLengthOf request.contentLength = none)
  | decoder {n category} (hlen : contentLengthOf request.contentLength = some n)
      (h : decodePubsubPush limit (request.body.take n) now runtime.sourcePolicy =
        .error (.invalidPushMessage category))
  | raised (h : RaisedInvalid es)

/-- 204 for a rejected wrapper or one successful append, 503 without one for the rest. -/
structure Acknowledges (limit : Nat) (runtime : Runtime) (request : PostRequest) (now : Utc)
    (es : List ServiceEvent) (response : Response) : Prop where
  noContent : response.status = .noContent ↔
    (Rejected limit runtime request now es ∧ appends es = []) ∨ ∃ a, successes es = [a]
  otherwise : response.status ≠ .noContent →
    response.status = .serviceUnavailable ∧ successes es = []

/-- A history goes on without an append, and a lookup of it that raises
`InvalidPushMessageError` is what stops the program. -/
structure Quiet {α : Type} (h h' : List ServiceEvent) (r : Except Exc α) : Prop where
  appends : appends h' = appends h
  successes : successes h' = successes h
  raised : RaisedInvalid h' ↔ RaisedInvalid h ∨ IsInvalidPush r

/-- A processed delivery has one successful append, a failed one has none. -/
structure Settled {α : Type} (h' : List ServiceEvent) (r : Except Exc α) : Prop where
  returned : ∀ a, r = .ok a → ∃ append, successes h' = [append]
  failed : ∀ e, r = .error e → successes h' = []
  unappended : IsInvalidPush r → appends h' = []
  raised : RaisedInvalid h' ↔ IsInvalidPush r

section Programs
variable {h : List ServiceEvent}

theorem not_isInvalidPush_ok {α : Type} (a : α) : ¬ IsInvalidPush (.ok a : Except Exc α) := by
  rintro ⟨category,hr⟩
  cases hr

theorem not_isInvalidPush {α : Type} {e : Exc} (he : ∀ category, e ≠ .invalidPushMessage category) :
    ¬ IsInvalidPush (.error e : Except Exc α) := by
  rintro ⟨category,hr⟩
  exact he category (Except.error.inj hr)

theorem isInvalidPush_error {α β : Type} (e : Exc) :
    IsInvalidPush (.error e : Except Exc α) ↔ IsInvalidPush (.error e : Except Exc β) := by
  constructor
  · rintro ⟨category,hr⟩
    exact ⟨category,congrArg _ (Except.error.inj hr)⟩
  · rintro ⟨category,hr⟩
    exact ⟨category,congrArg _ (Except.error.inj hr)⟩

theorem raisedInvalid_snoc (e : ServiceEvent) :
    RaisedInvalid (h ++ [e]) ↔ RaisedInvalid h ∨ (e.op.isLookup = true ∧ IsInvalidPush e.ret) := by
  simp [RaisedInvalid,or_and_right,exists_or]

/-- A lookup leaves the sink as it was. -/
theorem lookup_quiet (call : Call) (hlook : call.isLookup = true) (h : List ServiceEvent) :
    Obeys (fun _ _ => True) (Quiet h) (perform call) h := by
  apply (obeys_perform _).mpr
  refine ⟨trivial,?_⟩
  intro r
  have hnot : appendOf ⟨call,r⟩ = none := by
    cases call with
    | insertRowsJson a => cases hlook
    | _ => rfl
  have hnone : successOf ⟨call,r⟩ = none := by
    cases call with
    | insertRowsJson a => cases hlook
    | _ => rfl
  refine ⟨by simp [hnot],by simp [successes,hnone],?_⟩
  rw [raisedInvalid_snoc]
  simp [hlook]

theorem quiet_ret {α : Type} (a : α) (h : List ServiceEvent) : Quiet h h (.ok a) :=
  ⟨rfl,rfl,(or_iff_left (not_isInvalidPush_ok a)).symm⟩

theorem quiet_raise {α : Type} {e : Exc} (he : ∀ category, e ≠ .invalidPushMessage category)
    (h : List ServiceEvent) : Quiet (α := α) h h (.error e) :=
  ⟨rfl,rfl,(or_iff_left (not_isInvalidPush he)).symm⟩

theorem quiet_bind {α β : Type} {p : Processing α} {f : α → Processing β}
    (hp : Obeys (fun _ _ => True) (Quiet h) p h)
    (hf : ∀ h' a, Obeys (fun _ _ => True) (Quiet h') (f a) h') :
    Obeys (fun _ _ => True) (Quiet h) (p >>= f) h := by
  refine hp.bind ?_ ?_
  · intro h' a hq
    refine (hf h' a).mono ?_
    intro h'' r hq'
    refine ⟨hq'.appends.trans hq.appends,hq'.successes.trans hq.successes,?_⟩
    rw [hq'.raised,hq.raised,or_iff_left (not_isInvalidPush_ok a)]
  · intro h' e hq
    refine ⟨hq.appends,hq.successes,?_⟩
    rw [hq.raised,isInvalidPush_error]

theorem resolve_quiet (sha256Hex : Bytes → Str) (vin : Str) (h : List ServiceEvent) :
    Obeys (fun _ _ => True) (Quiet h) (resolve sha256Hex vin) h := by
  unfold resolve
  cases encodeUtf8 vin with
  | error e => exact quiet_raise (fun _ => by simp) h
  | ok encoded =>
    refine quiet_bind (quiet_ret encoded h) ?_
    intro h encoded
    refine quiet_bind (lookup_quiet (.getVinIndex _) rfl h) ?_
    intro h index
    cases indexTarget index with
    | none => exact quiet_ret none h
    | some target =>
      refine quiet_bind (lookup_quiet (.getVehicle _) rfl h) ?_
      intro h vehicle
      cases vehicleOf vehicle vin target.2 with
      | none => exact quiet_ret none h
      | some vehicleData =>
        refine quiet_bind
          (lookup_quiet (.queryAllowedUsers _ _) rfl h) ?_
        intro h users
        exact quiet_ret _ h

theorem shouldFailFirst_quiet (sha256Hex : Bytes → Str) (fixtureId : Str) (now : Utc)
    (h : List ServiceEvent) :
    Obeys (fun _ _ => True) (Quiet h) (shouldFailFirst sha256Hex fixtureId now) h := by
  unfold shouldFailFirst
  generalize utcOfMicros (now.val + dayMicros) = expires
  cases encodeUtf8 fixtureId with
  | error e => exact quiet_raise (fun _ => by simp) h
  | ok encoded =>
    refine quiet_bind (quiet_ret encoded h) ?_
    intro h encoded
    cases expires with
    | none => exact quiet_raise (fun _ => by simp) h
    | some expiresAt =>
      exact lookup_quiet (.createFixtureRetry _ _ _ _) rfl h

theorem failFirst_quiet (sha256Hex : Bytes → Str) (incoming : IncomingTelemetry) (fixtureId : Str)
    (now : Utc) (h : List ServiceEvent) :
    Obeys (fun _ _ => True) (Quiet h) (failFirst sha256Hex incoming fixtureId now) h := by
  unfold failFirst
  split
  · refine quiet_bind (shouldFailFirst_quiet sha256Hex fixtureId now h) ?_
    intro h shouldFail
    cases shouldFail with
    | true => exact quiet_raise (fun _ => by simp) h
    | false => exact quiet_ret true h
  · exact quiet_ret false h

theorem settled_ok {α : Type} {a : α} (append : Append) (hone : successes h = [append])
    (hlook : ¬ RaisedInvalid h) : Settled h (.ok a) :=
  ⟨fun _ _ => ⟨append,hone⟩,fun _ hr => (by cases hr),
    fun hr => absurd hr (not_isInvalidPush_ok a),iff_of_false hlook (not_isInvalidPush_ok a)⟩

theorem settled_error {α : Type} {e : Exc} (hnone : successes h = [])
    (hlook : ¬ RaisedInvalid h) (he : ∀ category, e ≠ .invalidPushMessage category) :
    Settled (α := α) h (.error e) :=
  ⟨fun _ hr => (by cases hr),fun _ _ => hnone,
    fun hr => absurd hr (not_isInvalidPush he),iff_of_false hlook (not_isInvalidPush he)⟩

/-- The delivery has not reached the sink, and every lookup so far was fine. -/
structure Pending (h : List ServiceEvent) : Prop where
  successes : successes h = []
  lookups : ¬ RaisedInvalid h

theorem append_settles (a : Append) (hp : Pending h) :
    Obeys (fun _ _ => True) Settled (append a) h := by
  have hlook : ∀ r, ¬ RaisedInvalid (h ++ [⟨.insertRowsJson a,r⟩]) := by
    intro r hraised
    rcases (raisedInvalid_snoc _).mp hraised with hr | ⟨hr,_⟩
    · exact hp.lookups hr
    · cases hr
  refine ⟨trivial,?_⟩
  rintro (e | errors)
  · refine settled_error ?_ (hlook _) (fun _ => by simp)
    rw [successes_append,hp.successes]
    rfl
  · cases errors with
    | nil =>
      refine settled_ok a ?_ (hlook _)
      rw [successes_append,hp.successes]
      rfl
    | cons error rest =>
      refine settled_error ?_ (hlook _) (fun _ => by simp)
      rw [successes_append,hp.successes]
      rfl

/-- An append that ends the program settles it. -/
theorem append_then (a : Append) (result : ProcessingResult) (hp : Pending h) :
    Obeys (fun _ _ => True) Settled
      (append a >>= fun _ => (pure result : Processing ProcessingResult)) h := by
  refine (append_settles a hp).bind ?_ ?_
  · intro h' u hs
    obtain ⟨a',ha⟩ := hs.returned u rfl
    refine settled_ok a' ha ?_
    rw [hs.raised]
    exact not_isInvalidPush_ok u
  · intro h' e hs
    refine ⟨fun _ hr => (by cases hr),fun _ _ => hs.failed e rfl,?_,?_⟩
    · intro hr
      exact hs.unappended ((isInvalidPush_error e).mp hr)
    · rw [hs.raised,isInvalidPush_error]

/-- What comes before the append keeps the sink as it was. -/
theorem settle_after {α : Type} {p : Processing α} {f : α → Processing ProcessingResult}
    (happ : appends h = []) (hp : Pending h) (hq : Obeys (fun _ _ => True) (Quiet h) p h)
    (hf : ∀ h' a, Pending h' → Obeys (fun _ _ => True) Settled (f a) h') :
    Obeys (fun _ _ => True) Settled (p >>= f) h := by
  refine hq.bind ?_ ?_
  · intro h' a hq
    refine hf h' a ⟨hq.successes.trans hp.successes,?_⟩
    rw [hq.raised,or_iff_left (not_isInvalidPush_ok a)]
    exact hp.lookups
  · intro h' e hq
    refine ⟨fun _ hr => (by cases hr),fun _ _ => hq.successes.trans hp.successes,
      fun _ => hq.appends.trans happ,?_⟩
    rw [hq.raised,or_iff_right hp.lookups,isInvalidPush_error]

theorem process_settles (sha256Hex : Bytes → Str) (receiverVersion : Str)
    (incoming : IncomingTelemetry) (now : Utc) (happ : appends h = []) (hp : Pending h) :
    Obeys (fun _ _ => True) Settled (process sha256Hex receiverVersion incoming now) h := by
  unfold process
  cases incoming.validationError with
  | some reason => exact append_then _ _ hp
  | none =>
    cases incoming.syntheticFixtureId with
    | some fixtureId =>
      refine settle_after happ hp (failFirst_quiet sha256Hex incoming fixtureId now h) ?_
      intro h' firstFailureRecorded hp'
      exact append_then _ _ hp'
    | none =>
      cases incoming.vin with
      | none => exact append_then _ _ hp
      | some vin =>
        refine settle_after happ hp (resolve_quiet sha256Hex vin h) ?_
        intro h' route hp'
        cases route with
        | none => exact append_then _ _ hp'
        | some route => exact append_then _ _ hp'

theorem acknowledges_noContent {limit : Nat} {runtime : Runtime} {request : PostRequest} {now : Utc}
    {response : Response} (hr : response.status = .noContent)
    (hwhy : (Rejected limit runtime request now h ∧ appends h = []) ∨ ∃ a, successes h = [a]) :
    Acknowledges limit runtime request now h response :=
  ⟨iff_of_true hr hwhy,fun hne => absurd hr hne⟩

/-- 503 is the answer to what is neither a rejected wrapper nor an appended row. -/
theorem acknowledges_retry {limit : Nat} {runtime : Runtime} {request : PostRequest} {now : Utc}
    {response : Response} (hr : response.status = .serviceUnavailable)
    (hnone : successes h = []) (hnot : ¬ (Rejected limit runtime request now h ∧ appends h = [])) :
    Acknowledges limit runtime request now h response := by
  refine ⟨iff_of_false ?_ ?_,fun _ => ⟨hr,hnone⟩⟩
  · rw [hr]
    intro he
    cases he
  · rintro (hrej | ⟨a,ha⟩)
    · exact hnot hrej
    · rw [hnone] at ha
      cases ha

theorem responseTo_retry {e : Exc} (he : ∀ category, e ≠ .invalidPushMessage category) :
    (responseTo e).status = .serviceUnavailable := by
  cases e with
  | invalidPushMessage category => exact absurd rfl (he category)
  | _ => rfl

/-- What an authenticated request is answered, given the calls before the answer. -/
theorem answerPush_acknowledges (sha256Hex : Bytes → Str) (limit : Nat) (runtime : Runtime)
    (request : PostRequest) (now : Utc) (happ : appends h = []) (hp : Pending h) :
    Obeys (fun _ _ => True)
      (fun h' r => ∃ response, r = .ok response ∧
        Acknowledges limit runtime request now h' response)
      (answerPush sha256Hex limit runtime request now) h := by
  unfold answerPush
  cases hlen : contentLengthOf request.contentLength with
  | none => exact ⟨_,rfl,acknowledges_noContent rfl (.inl ⟨.size hlen,happ⟩)⟩
  | some n =>
    unfold processPush
    dsimp only
    cases hd : decodePubsubPush limit (request.body.take n) now runtime.sourcePolicy with
    | error e =>
      apply (obeys_ret (responseTo e)).mpr
      refine ⟨responseTo e,rfl,?_⟩
      by_cases he : ∃ category, e = .invalidPushMessage category
      · obtain ⟨category,rfl⟩ := he
        exact acknowledges_noContent rfl (.inl ⟨.decoder hlen hd,happ⟩)
      · have he' : ∀ category, e ≠ .invalidPushMessage category :=
          fun category hc => he ⟨category,hc⟩
        refine acknowledges_retry (responseTo_retry he') hp.successes ?_
        rintro ⟨hrej,_⟩
        cases hrej with
        | size h => simp [hlen] at h
        | decoder hlen' hd' =>
          rw [hlen] at hlen'
          cases hlen'
          rw [hd] at hd'
          exact he' _ (Except.error.inj hd')
        | raised h => exact hp.lookups h
    | ok incoming =>
      have hprocess := process_settles sha256Hex runtime.receiverVersion incoming now happ hp
      have hnot : ∀ {h'}, Rejected limit runtime request now h' → RaisedInvalid h' := by
        intro h' hrej
        cases hrej with
        | size h => simp [hlen] at h
        | decoder hlen' hd' =>
          rw [hlen] at hlen'
          cases hlen'
          rw [hd] at hd'
          cases hd'
        | raised h => exact h
      have hanswer : Obeys (fun _ _ => True)
          (fun h' r =>
            (∀ response, r = .ok response →
              response.status = .noContent ∧ ∃ append, successes h' = [append]) ∧
            ∀ e, r = .error e → Settled h' (.error e : Except Exc ProcessingResult))
          (process sha256Hex runtime.receiverVersion incoming now >>=
            fun _ => (pure { status := .noContent } : Processing Response)) h := by
        refine hprocess.bind ?_ ?_
        · intro h' result hs
          refine ⟨?_,fun _ hr => (by cases hr)⟩
          intro response hr
          cases hr
          exact ⟨rfl,hs.returned result rfl⟩
        · intro h' e hs
          refine ⟨fun _ hr => (by cases hr),?_⟩
          intro e' hr
          cases hr
          exact hs
      refine Obeys.tryCatch hanswer ?_ ?_
      · intro h' response hs
        obtain ⟨hstatus,hone⟩ := hs.1 response rfl
        exact ⟨response,rfl,acknowledges_noContent hstatus (.inr hone)⟩
      · intro h' e hs
        have hs := hs.2 e rfl
        refine ⟨responseTo e,rfl,?_⟩
        by_cases he : ∃ category, e = .invalidPushMessage category
        · obtain ⟨category,rfl⟩ := he
          have hinvalid : IsInvalidPush (.error (.invalidPushMessage category) :
            Except Exc ProcessingResult) := ⟨category,rfl⟩
          exact acknowledges_noContent rfl
            (.inl ⟨.raised (hs.raised.mpr hinvalid),hs.unappended hinvalid⟩)
        · have he' : ∀ category, e ≠ .invalidPushMessage category :=
            fun category hc => he ⟨category,hc⟩
          refine acknowledges_retry (responseTo_retry he') (hs.failed e rfl) ?_
          rintro ⟨hrej,_⟩
          exact not_isInvalidPush he' (hs.raised.mp (hnot hrej))

/-- The verifier raises unless Google verified a token of the push identity. -/
theorem verify_obeys (runtime : Runtime) (authorization : Option Str) :
    Obeys (fun _ _ => True)
      (fun h' r => appends h' = [] ∧ Pending h' ∧ ∀ e, r = .error e → ¬ Authenticated runtime h')
      (verify runtime.audience runtime.expectedEmail authorization) [] := by
  have hpending : Pending [] := ⟨rfl,by simp [RaisedInvalid]⟩
  have hunseen : ¬ Authenticated runtime [] := by simp [Authenticated]
  unfold verify
  cases authorization with
  | none => exact ⟨rfl,hpending,fun _ _ => hunseen⟩
  | some authorization =>
    dsimp only
    split
    · exact ⟨rfl,hpending,fun _ _ => hunseen⟩
    split
    · exact ⟨rfl,hpending,fun _ _ => hunseen⟩
    generalize strip (authorization.drop 7) = token
    have hcalled : ∀ r, Pending ([] ++ [⟨.verifyOauth2Token token runtime.audience,r⟩]) := by
      intro r
      refine ⟨rfl,?_⟩
      rw [raisedInvalid_snoc]
      rintro (hr | ⟨hr,_⟩)
      · exact hpending.lookups hr
      · cases hr
    refine obeys_perform_bind.mpr ⟨trivial,?_,?_⟩
    · intro e
      refine ⟨rfl,hcalled _,?_⟩
      rintro _ _ ⟨token',claims,he,_⟩
      simp at he
    · intro claims
      split
      · exact ⟨rfl,hcalled _,fun _ hr => (by cases hr)⟩
      · rename_i hnot
        refine ⟨rfl,hcalled _,?_⟩
        rintro _ _ ⟨token',claims',he,hclaims⟩
        simp only [List.nil_append,List.mem_singleton,Event.mk.injEq,
          Call.verifyOauth2Token.injEq] at he
        obtain ⟨⟨rfl,_⟩,he⟩ := he
        cases he
        exact hnot hclaims

theorem doPost_obeys (sha256Hex : Bytes → Str) (limit : Nat) (runtime : Runtime)
    (request : PostRequest) (now : Utc) (hpath : request.path = str "/pubsub/push") :
    Obeys (fun _ _ => True)
      (fun h' r => ∃ response, r = .ok response ∧
        (Authenticated runtime h' → Acknowledges limit runtime request now h' response))
      (doPost sha256Hex limit runtime request now) [] := by
  have hauthorized : Obeys (fun _ _ => True)
      (fun h' r => ∃ authorized, r = .ok authorized ∧ appends h' = [] ∧ Pending h' ∧
        (authorized = false → ¬ Authenticated runtime h'))
      (isAuthorized runtime request) [] := by
    have hverified : Obeys (fun _ _ => True)
        (fun h' r => appends h' = [] ∧ Pending h' ∧ (∀ b, r = .ok b → b = true) ∧
          ∀ e, r = .error e → ¬ Authenticated runtime h')
        (verify runtime.audience runtime.expectedEmail request.authorization >>=
          fun _ => (pure true : Processing Bool)) [] := by
      refine (verify_obeys runtime request.authorization).bind ?_ ?_
      · rintro h' u ⟨happ,hp,_⟩
        exact ⟨happ,hp,fun _ hr => (Except.ok.inj hr).symm,fun _ hr => (by cases hr)⟩
      · rintro h' e ⟨happ,hp,hnot⟩
        exact ⟨happ,hp,fun _ hr => (by cases hr),fun _ _ => hnot e rfl⟩
    unfold isAuthorized
    refine Obeys.tryCatch hverified ?_ ?_
    · rintro h' b ⟨happ,hp,hb,_⟩
      refine ⟨b,rfl,happ,hp,?_⟩
      intro hfalse
      rw [hb b rfl] at hfalse
      cases hfalse
    · rintro h' e ⟨happ,hp,_,hnot⟩
      exact ⟨false,rfl,happ,hp,fun _ => hnot e rfl⟩
  unfold doPost
  rw [if_neg (not_not.mpr hpath)]
  refine hauthorized.bind ?_ ?_
  · rintro h' authorized ⟨b,hb,happ,hp,hnot⟩
    cases hb
    cases authorized with
    | true =>
      refine (answerPush_acknowledges sha256Hex limit runtime request now happ hp).mono ?_
      rintro h'' r ⟨response,hr,hack⟩
      exact ⟨response,hr,fun _ => hack⟩
    | false =>
      refine ⟨_,rfl,?_⟩
      intro hauth
      exact absurd hauth (hnot rfl)
  · rintro h' e ⟨b,hb,_⟩
    cases hb

end Programs

/-- Every authenticated request to the push endpoint is answered, and soundly acknowledged. -/
theorem acknowledgement_sound (sha256Hex : Bytes → Str) (limit : Nat) (runtime : Runtime)
    (request : PostRequest) (now : Utc) (es : List ServiceEvent) (q : Processing Response)
    (hpath : request.path = str "/pubsub/push")
    (ht : Trace (doPost sha256Hex limit runtime request now) es q) (hend : q.finished = true)
    (hauth : Authenticated runtime es) :
    ∃ response, q = .ret response ∧ Acknowledges limit runtime request now es response := by
  have ho := (doPost_obeys sha256Hex limit runtime request now hpath).trace ht
  cases q with
  | ret response =>
    obtain ⟨response',hr,hack⟩ := ho
    cases hr
    exact ⟨response,rfl,hack hauth⟩
  | raise e =>
    obtain ⟨response',hr,_⟩ := ho
    cases hr
  | call op k => cases hend

section Witness

/-- The registry's answers, behind a verifier that accepts the push identity. -/
def demoAnswer : (call : Call) → Except Exc call.Ret
  | .verifyOauth2Token _ _ =>
    .ok [(str "iss",.str (str "accounts.google.com")),
      (str "email",.str demoRuntime.expectedEmail),(str "email_verified",.bool true)]
  | call => demoRegistry.answer call

def demoRequest : PostRequest where
  path := str "/pubsub/push"
  authorization := some (str "Bearer token")
  contentLength := some (str "314")
  body := socPush

/-- The run of a posted push. -/
@[irreducible] def demoPost : List ServiceEvent × Processing Response :=
  (doPost demoSha256Hex 1000 demoRuntime demoRequest demoNow).play demoAnswer

theorem demoPost_trace :
    Trace (doPost demoSha256Hex 1000 demoRuntime demoRequest demoNow) demoPost.1 demoPost.2 := by
  unfold demoPost
  exact trace_play _ _

def isVerified (runtime : Runtime) : ServiceEvent → Bool
  | ⟨.verifyOauth2Token _ audience,.ok claims⟩ =>
    decide (audience = runtime.audience) && isPushIdentity runtime.expectedEmail claims
  | _ => false

theorem authenticated_of_verified {runtime : Runtime} {es : List ServiceEvent}
    (h : es.any (isVerified runtime) = true) : Authenticated runtime es := by
  obtain ⟨⟨call,r⟩,he,hv⟩ := List.any_eq_true.mp h
  unfold isVerified at hv
  split at hv
  · rename_i token audience claims heq
    simp only [Bool.and_eq_true,decide_eq_true_eq] at hv
    obtain ⟨rfl,hclaims⟩ := hv
    rw [heq] at he
    exact ⟨token,claims,he,hclaims⟩
  · cases hv

set_option maxRecDepth 100000 in
/-- The posted state of charge is appended once and acknowledged. -/
theorem acknowledgement_sound_soc :
    (successes demoPost.1).length = 1 ∧ ∃ response, demoPost.2 = .ret response ∧
      Acknowledges 1000 demoRuntime demoRequest demoNow demoPost.1 response :=
  ⟨by unfold demoPost; decide +kernel,
    acknowledgement_sound demoSha256Hex 1000 demoRuntime demoRequest demoNow demoPost.1 demoPost.2 rfl
      demoPost_trace (by unfold demoPost; decide +kernel)
      (authenticated_of_verified (by unfold demoPost; decide +kernel))⟩

end Witness

end Woodhouse.Ingest
