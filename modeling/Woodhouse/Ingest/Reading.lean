import Woodhouse.Ingest.Decoder

namespace Woodhouse.Ingest
open Python

/-- The entry of `key` is a string that is not empty. -/
def HasString (d : Dict Json) (key : String) (s : Str) : Prop :=
  d.get (str key) = some (.str s) ∧ s ≠ []

/-- `body` wraps `message`, whose data is the text `encoded`. -/
structure Wraps (limit : Nat) (body : Bytes) (wrapper message : Dict Json)
    (subscription messageId encoded : Str) : Prop where
  loaded : loads limit body = .ok (.obj wrapper)
  wrapped : wrapper.get (str "message") = some (.obj message)
  subscription : HasString wrapper "subscription" subscription
  messageId : HasString message "messageId" messageId
  data : HasString message "data" encoded

/-- `body` is a well-formed wrapper of these parts. -/
def Carries (limit : Nat) (body : Bytes) (push : Push) : Prop :=
  ∃ wrapper message encoded decoded,
    Wraps limit body wrapper message push.subscription push.messageId encoded ∧
    b64decode encoded = .ok decoded ∧ loads limit decoded = .ok (.obj push.payload) ∧
    attributesOf message = .ok push.attributes ∧
    push.publishTime = message.get (str "publishTime") ∧
    push.deliveryAttempt = wrapper.get (str "deliveryAttempt")

section Stages
variable {limit : Nat} {category : String} {body : Bytes} {d : Dict Json} {key : String} {s : Str}

theorem requiredString_eq_ok : requiredString d key = .ok s ↔ HasString d key s := by
  unfold requiredString HasString
  split
  · rename_i item hitem
    rw [hitem]
    by_cases hnil : item = []
    · rw [if_pos hnil]
      constructor
      · intro h
        cases h
      · rintro ⟨h,hs⟩
        cases h
        exact absurd hnil hs
    · rw [if_neg hnil]
      constructor
      · intro h
        cases h
        exact ⟨rfl,hnil⟩
      · rintro ⟨h,_⟩
        cases h
        rfl
  · rename_i hnot
    constructor
    · intro h
      cases h
    · rintro ⟨h,_⟩
      exact absurd h (hnot s)

theorem loadsOr_eq_ok {v : Json} : loadsOr limit category body = .ok v ↔ loads limit body = .ok v := by
  unfold loadsOr
  split
  all_goals
    rename_i h
    rw [h]
    simp

theorem decodeData_eq_ok {encoded : Str} {decoded : Bytes} :
    decodeData encoded = .ok decoded ↔ b64decode encoded = .ok decoded := by
  unfold decodeData
  split
  all_goals
    rename_i h
    rw [h]
    simp

theorem messageOf_eq_ok {loaded : Json} {wrapper message : Dict Json} :
    messageOf loaded = .ok (wrapper,message) ↔
      loaded = .obj wrapper ∧ wrapper.get (str "message") = some (.obj message) := by
  cases loaded with
  | obj entries =>
    simp only [messageOf,Json.obj.injEq]
    split
    · rename_i m hm
      simp only [Except.ok.injEq,Prod.mk.injEq]
      constructor
      · rintro ⟨rfl,rfl⟩
        exact ⟨rfl,hm⟩
      · rintro ⟨rfl,h⟩
        rw [hm] at h
        cases h
        exact ⟨rfl,rfl⟩
    · rename_i hnot
      constructor
      · intro h
        cases h
      · rintro ⟨rfl,h⟩
        exact absurd h (hnot message)
  | _ => simp [messageOf]

theorem payloadOf_eq_ok {loaded : Json} {payload : Dict Json} :
    payloadOf loaded = .ok payload ↔ loaded = .obj payload := by
  cases loaded <;> simp [payloadOf]

end Stages

theorem readPush_eq_ok {limit : Nat} {body : Bytes} {push : Push} :
    readPush limit body = .ok push ↔ Carries limit body push := by
  unfold readPush
  simp only [bind_eq_ok,Prod.exists,loadsOr_eq_ok,messageOf_eq_ok,requiredString_eq_ok,
    decodeData_eq_ok,payloadOf_eq_ok]
  constructor
  · rintro ⟨loaded,hl,wrapper,message,⟨rfl,hm⟩,subscription,hs,messageId,hid,encoded,he,decoded,hd,
      loadedPayload,hp,payload,rfl,attributes,ha,h⟩
    cases h
    exact ⟨wrapper,message,encoded,decoded,⟨hl,hm,hs,hid,he⟩,hd,hp,ha,rfl,rfl⟩
  · rintro ⟨wrapper,message,encoded,decoded,⟨hl,hm,hs,hid,he⟩,hd,hp,ha,ht,hn⟩
    obtain ⟨subscription,messageId,payload,attributes,publishTime,deliveryAttempt⟩ := push
    simp only at hs hid hp ha ht hn
    subst ht hn
    exact ⟨_,hl,wrapper,message,⟨rfl,hm⟩,subscription,hs,messageId,hid,encoded,he,decoded,hd,_,hp,
      payload,rfl,attributes,ha,rfl⟩

theorem decodePubsubPush_eq_ok {limit : Nat} {body : Bytes} {now : Utc}
    {policy : TelemetrySourcePolicy} {incoming : IncomingTelemetry} :
    decodePubsubPush limit body now policy = .ok incoming ↔
      ∃ push publishTime fixtureId sourceTimestamp, Carries limit body push ∧
        optionalTimestamp push.publishTime = .ok publishTime ∧
        syntheticFixtureId push.attributes = .ok fixtureId ∧
        optionalTimestamp (push.payload.get (str "createdAt")) = .ok sourceTimestamp ∧
        incoming = incomingOf policy now push publishTime sourceTimestamp fixtureId := by
  unfold decodePubsubPush
  simp only [bind_eq_ok,readPush_eq_ok]
  constructor
  · rintro ⟨push,hp,publishTime,ht,fixtureId,hf,sourceTimestamp,hs,h⟩
    cases h
    exact ⟨push,publishTime,fixtureId,sourceTimestamp,hp,ht,hf,hs,rfl⟩
  · rintro ⟨push,publishTime,fixtureId,sourceTimestamp,hp,ht,hf,hs,rfl⟩
    exact ⟨push,hp,publishTime,ht,fixtureId,hf,sourceTimestamp,hs,rfl⟩

end Woodhouse.Ingest
