import Woodhouse.Python.LongIntegers
import Woodhouse.Ingest.Processor
import Woodhouse.Ingest.Reading

namespace Woodhouse.Ingest
open Effects Python

/-- `x` raises something else than `InvalidPushMessageError`. -/
def Escapes {α : Type} (x : Except Exc α) : Prop :=
  ∃ e, x = .error e ∧ ∀ category, e ≠ .invalidPushMessage category

section Escapes
variable {α β : Type}

@[simp] theorem escapes_ok (a : α) : ¬ Escapes (.ok a : Except Exc α) := by
  rintro ⟨e,h,_⟩
  cases h

@[simp] theorem escapes_invalid (category : String) :
    ¬ Escapes (.error (.invalidPushMessage category) : Except Exc α) := by
  rintro ⟨e,h,hne⟩
  cases h
  exact hne category rfl

@[simp] theorem escapes_python (e : PyExc) : Escapes (.error (.python e) : Except Exc α) :=
  ⟨.python e,rfl,fun _ => by simp⟩

theorem escapes_bind {x : Except Exc α} {f : α → Except Exc β} :
    Escapes (x >>= f) ↔ Escapes x ∨ ∃ a, x = .ok a ∧ Escapes (f a) := by
  cases x with
  | ok a =>
    constructor
    · intro h
      exact .inr ⟨a,rfl,h⟩
    · rintro (h | ⟨_,ha,h⟩)
      · exact absurd h (escapes_ok a)
      · cases ha
        exact h
  | error e =>
    constructor
    · rintro ⟨e',he,hne⟩
      cases he
      exact .inl ⟨e,rfl,hne⟩
    · rintro (⟨e',he,hne⟩ | ⟨_,h,_⟩)
      · cases he
        exact ⟨e,rfl,hne⟩
      · cases h

end Escapes

/-- A JSON text with an integer of more than `maxStrDigits` digits or with more than `limit`
containers inside each other, before any other error. -/
def Unloadable (limit : Nat) (body : Bytes) : Prop :=
  loads limit body = .error .valueError ∨ loads limit body = .error .recursionError

/-- `Unloadable` in terms of the text. -/
theorem unloadable_iff {limit : Nat} {body : Bytes} : Unloadable limit body ↔
    ∃ s, decodeDetected body = some s ∧ (LongInteger limit s ∨ NestsBeyond limit s) := by
  unfold Unloadable loads
  cases hs : decodeDetected body with
  | none => simp
  | some s => simp [decodeFrom_long,decodeFrom_nests]

/-- An ISO timestamp whose UTC time is outside the years 1 to 9999. -/
def OutOfRange (value : Option Json) : Prop :=
  ∃ s clock offset, value = some (.str s) ∧ s ≠ [] ∧
    fromisoformat (replaceChar s (chr 'Z') (str "+00:00")) = .ok ⟨clock,some offset⟩ ∧
    ((clock.val : Int) - offset < 0 ∨ (maxMicros : Int) ≤ clock.val - offset)

/-- What makes the decoder raise something else than its documented error. -/
inductive Hazard (limit : Nat) (body : Bytes) : Prop
  | wrapper (h : Unloadable limit body)
  | data {wrapper message subscription messageId encoded}
      (h : Wraps limit body wrapper message subscription messageId encoded)
      (hne : isAscii encoded = false)
  | payload {wrapper message subscription messageId encoded decoded}
      (h : Wraps limit body wrapper message subscription messageId encoded)
      (hd : b64decode encoded = .ok decoded) (hu : Unloadable limit decoded)
  | publishTime {push} (h : Carries limit body push) (ho : OutOfRange push.publishTime)
  | createdAt {push fixtureId} (h : Carries limit body push)
      (hf : syntheticFixtureId push.attributes = .ok fixtureId)
      (ho : OutOfRange (push.payload.get (str "createdAt")))

section Stages
variable {limit : Nat} {body : Bytes}

theorem escapes_loadsOr {category : String} :
    Escapes (loadsOr limit category body) ↔ Unloadable limit body := by
  unfold loadsOr Unloadable
  cases h : loads limit body with
  | ok v => simp
  | error e => rcases loads_raises limit body e h with rfl | rfl | rfl | rfl <;> simp

@[simp] theorem escapes_messageOf (loaded : Json) : ¬ Escapes (messageOf loaded) := by
  cases loaded with
  | obj entries =>
    simp only [messageOf]
    split <;> simp
  | _ => simp [messageOf]

@[simp] theorem escapes_requiredString (d : Dict Json) (key : String) :
    ¬ Escapes (requiredString d key) := by
  unfold requiredString
  split
  · split <;> simp
  · simp

theorem escapes_decodeData {encoded : Str} :
    Escapes (decodeData encoded) ↔ isAscii encoded = false := by
  unfold decodeData
  cases ha : isAscii encoded with
  | false => simp [b64decode_of_not_ascii ha]
  | true =>
    cases h : b64decode encoded with
    | ok decoded => simp
    | error e =>
      rw [b64decode_raises ha e h]
      simp

@[simp] theorem escapes_payloadOf (loaded : Json) : ¬ Escapes (payloadOf loaded) := by
  cases loaded <;> simp [payloadOf]

@[simp] theorem escapes_attributesOf (message : Dict Json) : ¬ Escapes (attributesOf message) := by
  unfold attributesOf
  split
  · split <;> simp
  · simp

@[simp] theorem escapes_syntheticFixtureId (attributes : Dict Str) :
    ¬ Escapes (syntheticFixtureId attributes) := by
  unfold syntheticFixtureId
  split
  · simp
  · dsimp only
    split <;> simp

theorem escapes_optionalTimestamp {value : Option Json} :
    Escapes (optionalTimestamp value) ↔ OutOfRange value := by
  unfold optionalTimestamp OutOfRange
  split
  · rename_i s
    by_cases hs : s = []
    · simp [hs]
    · rw [if_neg hs]
      cases h : fromisoformat (replaceChar s (chr 'Z') (str "+00:00")) with
      | error e =>
        rw [fromisoformat_raises _ e h]
        simp [h]
      | ok d =>
        obtain ⟨clock,_ | offset⟩ := d
        · simp [h]
        · simp only [astimezoneUtc]
          cases hu : utcOfMicros (clock.val - offset) with
          | none =>
            simp only [escapes_python,true_iff]
            exact ⟨s,clock,offset,rfl,hs,h,utcOfMicros_eq_none.mp hu⟩
          | some t =>
            simp only [escapes_ok,false_iff]
            rintro ⟨s',clock',offset',he,_,h',hout⟩
            cases he
            rw [h] at h'
            cases h'
            rw [utcOfMicros_eq_none.mpr hout] at hu
            cases hu
  · rename_i hnot
    simp only [escapes_ok,false_iff]
    rintro ⟨s,_,_,he,_⟩
    exact hnot s he

/-- A timestamp is read, or its exception escapes. -/
theorem optionalTimestamp_ok_or_escapes (value : Option Json) :
    (∃ t, optionalTimestamp value = .ok t) ∨ Escapes (optionalTimestamp value) := by
  unfold optionalTimestamp
  repeat' split
  all_goals simp

theorem escapes_readPush :
    Escapes (readPush limit body) ↔ Unloadable limit body ∨
      ∃ wrapper message subscription messageId encoded,
        Wraps limit body wrapper message subscription messageId encoded ∧
        (isAscii encoded = false ∨
          ∃ decoded, b64decode encoded = .ok decoded ∧ Unloadable limit decoded) := by
  unfold readPush
  simp only [escapes_bind,escapes_loadsOr,escapes_messageOf,escapes_requiredString,
    escapes_decodeData,escapes_payloadOf,escapes_attributesOf,loadsOr_eq_ok,messageOf_eq_ok,
    requiredString_eq_ok,decodeData_eq_ok,Prod.exists,false_or]
  constructor
  · rintro (h | ⟨loaded,hl,wrapper,message,⟨rfl,hm⟩,subscription,hs,messageId,hid,encoded,he,h⟩)
    · exact .inl h
    · have hw : Wraps limit body wrapper message subscription messageId encoded :=
        ⟨hl,hm,hs,hid,he⟩
      refine .inr ⟨wrapper,message,subscription,messageId,encoded,hw,?_⟩
      rcases h with h | ⟨decoded,hd,h | ⟨_,_,_,_,_,_,h⟩⟩
      · exact .inl h
      · exact .inr ⟨decoded,hd,h⟩
      · exact absurd h (escapes_ok _)
  · rintro (h | ⟨wrapper,message,subscription,messageId,encoded,hw,h⟩)
    · exact .inl h
    · refine .inr ⟨_,hw.loaded,wrapper,message,⟨rfl,hw.wrapped⟩,subscription,hw.subscription,
        messageId,hw.messageId,encoded,hw.data,?_⟩
      rcases h with h | ⟨decoded,hd,h⟩
      · exact .inl h
      · exact .inr ⟨decoded,hd,.inl h⟩

theorem escapes_decodePubsubPush (now : Utc) (policy : TelemetrySourcePolicy) :
    Escapes (decodePubsubPush limit body now policy) ↔ Hazard limit body := by
  unfold decodePubsubPush
  simp only [escapes_bind,escapes_readPush,readPush_eq_ok,escapes_optionalTimestamp,
    escapes_syntheticFixtureId,false_or]
  constructor
  · rintro ((h | ⟨_,_,_,_,_,hw,h | ⟨_,hd,h⟩⟩) | ⟨push,hp,h | ⟨_,_,_,hf,h | ⟨_,_,h⟩⟩⟩)
    · exact .wrapper h
    · exact .data hw h
    · exact .payload hw hd h
    · exact .publishTime hp h
    · exact .createdAt hp hf h
    · exact absurd h (escapes_ok _)
  · intro h
    cases h with
    | wrapper h => exact .inl (.inl h)
    | data hw h => exact .inl (.inr ⟨_,_,_,_,_,hw,.inl h⟩)
    | payload hw hd h => exact .inl (.inr ⟨_,_,_,_,_,hw,.inr ⟨_,hd,h⟩⟩)
    | publishTime hp h => exact .inr ⟨_,hp,.inl h⟩
    | @createdAt push fixtureId hp hf h =>
      rcases optionalTimestamp_ok_or_escapes push.publishTime with ⟨t,ht⟩ | he
      · exact .inr ⟨push,hp,.inr ⟨t,ht,fixtureId,hf,.inl h⟩⟩
      · exact .inr ⟨push,hp,.inl (escapes_optionalTimestamp.mp he)⟩

end Stages

section Handler
variable (sha256Hex : Bytes → Str) {limit : Nat} {runtime : Runtime} {request : PostRequest}
  {now : Utc} {n : Nat} {category : String}

theorem answerPush_invalid (hlen : contentLengthOf request.contentLength = some n)
    (hd : decodePubsubPush limit (request.body.take n) now runtime.sourcePolicy =
      .error (.invalidPushMessage category)) :
    answerPush sha256Hex limit runtime request now = .ret { status := .noContent } := by
  unfold answerPush processPush
  rw [hlen]
  simp only [hd,Prog.ofExcept_error,Prog.raise_bind,Prog.raise_tryCatch,responseTo]
  rfl

/-- A push that the decoder rejects as invalid is acknowledged. -/
theorem doPost_invalid (hpath : request.path = str "/pubsub/push")
    (hlen : contentLengthOf request.contentLength = some n)
    (hd : decodePubsubPush limit (request.body.take n) now runtime.sourcePolicy =
      .error (.invalidPushMessage category)) (h : List ServiceEvent) :
    Obeys (fun _ _ => True)
      (fun _ r => ∀ response, r = .ok response →
        response.status = .unauthorized ∨ response.status = .noContent)
      (doPost sha256Hex limit runtime request now) h := by
  unfold doPost
  rw [if_neg (not_not.mpr hpath)]
  refine (obeys_true _ h).bind ?_ ?_
  · intro h' authorized _
    cases authorized with
    | true =>
      rw [if_pos rfl,answerPush_invalid sha256Hex hlen hd]
      intro response hr
      cases hr
      exact .inr rfl
    | false =>
      intro response hr
      cases hr
      exact .inl rfl
  · intro h' e _ response hr
    cases hr

end Handler

/-- The decoder raises only its documented error, and every authenticated push of a
malformed wrapper is acknowledged. -/
structure RaisesDocumented (sha256Hex : Bytes → Str) (limit : Nat) (runtime : Runtime)
    (body : Bytes) (now : Utc) : Prop where
  documented : ∀ e, decodePubsubPush limit body now runtime.sourcePolicy = .error e →
    ∃ category, e = .invalidPushMessage category
  acknowledged : ∀ request n es response, request.path = str "/pubsub/push" →
    contentLengthOf request.contentLength = some n → request.body.take n = body →
    (∃ e, decodePubsubPush limit body now runtime.sourcePolicy = .error e) →
    Trace (doPost sha256Hex limit runtime request now) es (.ret response) →
    response.status ≠ .unauthorized → response.status = .noContent

theorem decoder_documented_iff (sha256Hex : Bytes → Str) (limit : Nat) (runtime : Runtime)
    (body : Bytes) (now : Utc) :
    RaisesDocumented sha256Hex limit runtime body now ↔ ¬ Hazard limit body := by
  rw [← escapes_decodePubsubPush now runtime.sourcePolicy]
  constructor
  · rintro h ⟨e,he,hne⟩
    obtain ⟨category,rfl⟩ := h.documented e he
    exact hne category rfl
  · intro h
    have hdocumented : ∀ e, decodePubsubPush limit body now runtime.sourcePolicy = .error e →
        ∃ category, e = .invalidPushMessage category := by
      intro e he
      by_contra hne
      exact h ⟨e,he,fun category hc => hne ⟨category,hc⟩⟩
    refine ⟨hdocumented,?_⟩
    rintro request n es response hpath hlen rfl ⟨e,he⟩ ht hauth
    obtain ⟨category,rfl⟩ := hdocumented e he
    have hresponse := (doPost_invalid sha256Hex hpath hlen he []).trace ht
    rcases hresponse response rfl with hr | hr
    · exact absurd hr hauth
    · exact hr

section Counterexample

/-- The wrapper of `{"createdAt":"0001-01-01T00:00:00+01:00"}`. -/
def firstHourPush : Bytes :=
  ["\x7b\"message\":\x7b\"data\":\"eyJjcmVhdGVkQXQiOiIw",
   "MDAxLTAxLTAxVDAwOjAwOjAwKzAxOjAwIn0=\",\"m",
   "essageId\":\"1\"\x7d,\"subscription\":\"projects/",
   "p/subscriptions/v\"\x7d"].flatMap ascii

def raised {α : Type} : Except Exc α → Option PyExc
  | .error (.python e) => some e
  | _ => none

theorem eq_of_raised {α : Type} {x : Except Exc α} {e : PyExc} (h : raised x = some e) :
    x = .error (.python e) := by
  unfold raised at h
  split at h
  · cases h
    rfl
  · cases h

set_option maxRecDepth 100000 in
/-- One hour after the first midnight, east of Greenwich: `astimezone` overflows. -/
theorem firstHour_overflows :
    ¬ RaisesDocumented (fun _ => []) 1000 demoRuntime firstHourPush ⟨0,by decide⟩ := by
  intro h
  have hraised : raised (decodePubsubPush 1000 firstHourPush ⟨0,by decide⟩
      demoRuntime.sourcePolicy) = some .overflowError := by
    decide +kernel
  obtain ⟨category,hc⟩ := h.documented _ (eq_of_raised hraised)
  cases hc

end Counterexample

end Woodhouse.Ingest
