import Woodhouse.Commands.Service

namespace Woodhouse.Commands
open Effects

/-- The calls no rule of the audits is about. -/
def Call.quiet : Call → Bool
  | .beginCommandAudit _ | .completeCommandAudit .. => false
  | .httpRequest request => decide (request.endpoint = .vehicle)
  | _ => true

def loud (h : List CommandEvent) : List CommandEvent := h.filter (fun e => !e.op.quiet)

/-- The history extends `base`, and its audit calls and POSTs are `l`. -/
structure Stage (base l h : List CommandEvent) : Prop where
  extends_base : base <+: h
  loud_eq : loud h = l

/-- Tesla's answer that makes the client refresh the credential. -/
def Refused : Except Exc HttpResponse → Prop
  | .ok response => response.status = 401
  | .error e => e.isReauthorization = true

def Addressed (endpoint : Endpoint) (vin : String) (request : HttpRequest) : Prop :=
  request.endpoint = endpoint ∧ pathPart vin = .ok request.vin

/-- A request to the endpoint was answered with what reads as `a`. -/
def Replied {α : Type} (h : List CommandEvent) (endpoint : Endpoint) (vin : String)
    (reply : HttpResponse → Except Exc α) (a : α) : Prop :=
  ∃ request response, (⟨.httpRequest request,.ok response⟩ : CommandEvent) ∈ h ∧
    Addressed endpoint vin request ∧ reply response = .ok a

section Stages
variable {base l h : List CommandEvent} {op : Call} {r : Except Exc op.Ret}

theorem Stage.quietly (hs : Stage base l h) (hq : op.quiet = true) :
    Stage base l (h ++ [⟨op,r⟩]) := by
  constructor
  · exact hs.extends_base.trans (List.prefix_append _ _)
  · simpa [loud, hq] using hs.loud_eq

theorem Stage.loudly (hs : Stage base l h) (hq : op.quiet = false) :
    Stage base (l ++ [⟨op,r⟩]) (h ++ [⟨op,r⟩]) := by
  constructor
  · exact hs.extends_base.trans (List.prefix_append _ _)
  · have hl := hs.loud_eq
    simp only [loud, List.filter_append, List.filter_cons, List.filter_nil, hq, Bool.not_false,
      ↓reduceIte] at hl ⊢
    rw [hl]

theorem Stage.mem (hs : Stage base l h) {e : CommandEvent} (hq : e.op.quiet = false) :
    e ∈ h ↔ e ∈ l := by
  rw [← hs.loud_eq]
  simp [loud, hq]

theorem Stage.of_mem (hs : Stage base l h) {e : CommandEvent} (he : e ∈ l) : e ∈ h := by
  rw [← hs.loud_eq] at he
  exact List.mem_of_mem_filter he

theorem Stage.rebase (hs : Stage base l h) : Stage h l h := ⟨List.prefix_refl h, hs.loud_eq⟩

theorem Stage.debase {base' : List CommandEvent} (hs : Stage base l h) (hb : base' <+: base) :
    Stage base' l h :=
  ⟨hb.trans hs.extends_base, hs.loud_eq⟩

end Stages

section Client
variable {α : Type}

theorem requestFrom_once (request : HttpRequest) (attempt left : Nat) :
    requestFrom false request attempt left = perform (.httpRequest request) := by
  cases left with
  | zero => rfl
  | succ left =>
    unfold requestFrom perform Prog.perform
    congr 1
    funext r
    cases r with
    | error e => simp
    | ok response => simp

/-- The operation sends one request to the endpoint, or fails before it. -/
def Sends (endpoint : Endpoint) (vin : String) (reply : HttpResponse → Except Exc α)
    (operation : String → String → Commanding α) : Prop :=
  ∀ accessToken baseUrl,
    (∃ e, operation accessToken baseUrl = .raise e ∧ e.isReauthorization = false) ∨
    ∃ request, Addressed endpoint vin request ∧ operation accessToken baseUrl =
      (perform (.httpRequest request) >>= fun response => Prog.ofExcept (reply response))

theorem httpRequest_cases (destination : Destination) (endpoint : Endpoint)
    (accessToken baseUrl vin : String) (jsonBody : Option Fields) :
    (∃ e, httpRequest destination endpoint accessToken baseUrl vin jsonBody = .error e ∧
      e.isReauthorization = false) ∨
    ∃ request, httpRequest destination endpoint accessToken baseUrl vin jsonBody = .ok request ∧
      Addressed endpoint vin request := by
  unfold httpRequest
  cases hp : pathPart vin with
  | error e =>
    unfold pathPart at hp
    cases hpart : Paths.pathPart vin with
    | error _ =>
      rw [hpart] at hp
      cases hp
      exact .inl ⟨_, rfl, rfl⟩
    | ok _ =>
      rw [hpart] at hp
      cases hp
  | ok part =>
    cases hb : normalizeBaseUrl baseUrl with
    | error e =>
      unfold normalizeBaseUrl at hb
      dsimp only at hb
      split at hb
      · cases hb
      · cases hb
        exact .inl ⟨_, rfl, rfl⟩
    | ok base => exact .inr ⟨_, rfl, rfl, hp⟩

theorem requestOnce_sends (maxReadRetries : Nat) (destination : Destination) (endpoint : Endpoint)
    (vin : String) (jsonBody : Option Fields) (reply : HttpResponse → Except Exc α) :
    Sends endpoint vin reply (fun accessToken baseUrl =>
      requestOnce maxReadRetries (httpRequest destination endpoint accessToken baseUrl vin jsonBody)
        reply) := by
  intro accessToken baseUrl
  rcases httpRequest_cases destination endpoint accessToken baseUrl vin jsonBody with
    ⟨e, he, hr⟩ | ⟨request, hr, ha⟩
  · refine .inl ⟨e, ?_, hr⟩
    dsimp only
    rw [he]
    rfl
  · refine .inr ⟨request, ha, ?_⟩
    dsimp only
    rw [hr]
    unfold requestOnce
    simp only [Prog.ofExcept_ok, Prog.ret_bind, requestFrom_once]

/-- Only an answer with status 401 reads as a rejected credential. -/
def Rejects401 (reply : HttpResponse → Except Exc α) : Prop :=
  ∀ response e, reply response = .error e → e.isReauthorization = true → response.status = 401

theorem raiseForStatus_error {response : HttpResponse} {e : Exc}
    (h : raiseForStatus response = .error e) (hr : e.isReauthorization = true) :
    response.status = 401 := by
  unfold raiseForStatus at h
  split at h
  · assumption
  · split at h
    · cases h
    · cases h
      cases hr

theorem successfulJson_error {response : HttpResponse} {e : Exc}
    (h : successfulJson response = .error e) (hr : e.isReauthorization = true) :
    response.status = 401 := by
  unfold successfulJson at h
  split at h
  · rename_i e' he
    cases h
    exact raiseForStatus_error he hr
  · split at h
    · cases h
      cases hr
    · cases h
    · cases h
      cases hr

theorem rejects_reply {read : Fields → Except Exc α}
    (hread : ∀ document e, read document = .error e → e.isReauthorization = false) :
    Rejects401 (fun response => successfulJson response >>= fun document =>
      responseMapping document >>= read) := by
  intro response e h hr
  dsimp only at h
  cases hs : successfulJson response with
  | error e' =>
    rw [hs] at h
    cases h
    exact successfulJson_error hs hr
  | ok document =>
    rw [hs] at h
    have h' : (responseMapping document >>= read) = .error e := h
    cases hm : responseMapping document with
    | error e' =>
      rw [hm] at h'
      cases h'
      unfold responseMapping at hm
      split at hm
      · cases hm
      · cases hm
        cases hr
    | ok mapping =>
      rw [hm] at h'
      rw [hread mapping e h'] at hr
      cases hr

theorem vehicleReply_rejects : Rejects401 vehicleReply := by
  apply rejects_reply
  intro document e h
  unfold teslaVehicle at h
  split at h
  · split at h
    · cases h
      rfl
    · dsimp only at h
      split at h
      · cases h
      · cases h
      · cases h
        rfl
  · cases h
    rfl

theorem commandReply_rejects : Rejects401 commandReply := by
  apply rejects_reply
  intro document e h
  unfold commandResult at h
  split at h
  · cases h
  · cases h
    rfl

end Client

/-- What an exchange with one endpoint does to a history: `I` holds until the first
request, `J` after Tesla refused it, `K` in the end. -/
structure Exchange (A : List CommandEvent → Call → Prop) (endpoint : Endpoint) (vin : String)
    (I J K : List CommandEvent → Prop) : Prop where
  quietly : ∀ h op r, op.quiet = true → I h → I (h ++ [⟨op,r⟩])
  quietlyRefused : ∀ h op r, op.quiet = true → J h → J (h ++ [⟨op,r⟩])
  first : ∀ h request, I h → Addressed endpoint vin request → A h (.httpRequest request)
  second : ∀ h request, J h → Addressed endpoint vin request → A h (.httpRequest request)
  refused : ∀ h request r, I h → Addressed endpoint vin request → Refused r →
    J (h ++ [⟨.httpRequest request,r⟩])
  sent : ∀ h request r, I h → Addressed endpoint vin request → K (h ++ [⟨.httpRequest request,r⟩])
  resent : ∀ h request r, J h → Addressed endpoint vin request →
    K (h ++ [⟨.httpRequest request,r⟩])
  unsent : ∀ h, I h → K h
  unsentAgain : ∀ h, J h → K h

/-- An exchange whose refused requests need no separate account. -/
theorem Exchange.steady {A : List CommandEvent → Call → Prop} {endpoint : Endpoint} {vin : String}
    {I : List CommandEvent → Prop}
    (quietly : ∀ h op r, op.quiet = true → I h → I (h ++ [⟨op,r⟩]))
    (allowed : ∀ h request, I h → Addressed endpoint vin request → A h (.httpRequest request))
    (sent : ∀ h request r, I h → Addressed endpoint vin request →
      I (h ++ [⟨.httpRequest request,r⟩])) : Exchange A endpoint vin I I I := by
  constructor
  case quietly => exact quietly
  case quietlyRefused => exact quietly
  case first => exact allowed
  case second => exact allowed
  case refused =>
    intro h request r hi ha _
    exact sent h request r hi ha
  case sent => exact sent
  case resent => exact sent
  case unsent => exact fun _ hi => hi
  case unsentAgain => exact fun _ hi => hi

section Execute
variable {A : List CommandEvent → Call → Prop} {endpoint : Endpoint} {vin userId : String}
  {I J K : List CommandEvent → Prop} {α : Type} {reply : HttpResponse → Except Exc α}
  {operation : String → String → Commanding α} {h : List CommandEvent}

/-- Every call of the lifted onboarding code is quiet. -/
theorem onboarding_keeps {β : Type} (hA : ∀ h op, op.quiet = true → A h op)
    (hquiet : ∀ h op r, op.quiet = true → I h → I (h ++ [⟨op,r⟩])) (p : Gateway.Onboarding β)
    (start : I h) : Obeys A (fun h' _ => I h') (onboarding p) h := by
  apply obeys_lift
  · intro h op _
    exact hA h (.onboarding op) rfl
  · intro h op r hi
    exact hquiet h (.onboarding op) r rfl hi
  · exact start

theorem sends_obeys (hsends : Sends endpoint vin reply operation)
    (hallowed : ∀ request, Addressed endpoint vin request → A h (.httpRequest request))
    {Q : List CommandEvent → Except Exc α → Prop}
    (hraise : ∀ e, e.isReauthorization = false → Q h (.error e))
    (herror : ∀ request e, Addressed endpoint vin request →
      Q (h ++ [⟨.httpRequest request,.error e⟩]) (.error e))
    (hreply : ∀ request response, Addressed endpoint vin request →
      Q (h ++ [⟨.httpRequest request,.ok response⟩]) (reply response))
    (accessToken baseUrl : String) : Obeys A Q (operation accessToken baseUrl) h := by
  rcases hsends accessToken baseUrl with ⟨e, he, hr⟩ | ⟨request, ha, he⟩
  · rw [he]
    exact hraise e hr
  · rw [he]
    unfold perform
    rw [obeys_perform_bind]
    refine ⟨hallowed request ha, fun e => herror request e ha, ?_⟩
    intro response
    rw [obeys_ofExcept]
    exact hreply request response ha

theorem execute_obeys (hA : ∀ h op, op.quiet = true → A h op) (hreply : Rejects401 reply)
    (hsends : Sends endpoint vin reply operation) (hx : Exchange A endpoint vin I J K)
    (start : I h) :
    Obeys A (fun h' r => K h' ∧ ∀ a, r = .ok a → Replied h' endpoint vin reply a)
      (execute userId operation) h := by
  have hsecond : ∀ h, J h → ∀ accessToken baseUrl,
      Obeys A (fun h' r => K h' ∧ ∀ a, r = .ok a → Replied h' endpoint vin reply a)
        (operation accessToken baseUrl) h := by
    intro h hj
    apply sends_obeys hsends
    · intro request ha
      exact hx.second h request hj ha
    · intro e _
      exact ⟨hx.unsentAgain h hj, fun a ha => by cases ha⟩
    · intro request e ha
      exact ⟨hx.resent h request _ hj ha, fun a ha => by cases ha⟩
    · intro request response ha
      exact ⟨hx.resent h request _ hj ha, fun a hr => ⟨request, response, by simp, ha, hr⟩⟩
  have hfirst : ∀ h, I h → ∀ accessToken baseUrl,
      Obeys A (fun h' r => K h' ∧ (∀ a, r = .ok a → Replied h' endpoint vin reply a) ∧
          ∀ e, r = .error e → e.isReauthorization = true → J h')
        (operation accessToken baseUrl) h := by
    intro h hi
    apply sends_obeys hsends
    · intro request ha
      exact hx.first h request hi ha
    · intro e hr
      refine ⟨hx.unsent h hi, (fun a ha => by cases ha), ?_⟩
      intro e' he hr'
      cases he
      rw [hr] at hr'
      cases hr'
    · intro request e ha
      refine ⟨hx.sent h request _ hi ha, (fun a ha => by cases ha), ?_⟩
      intro e' he hr'
      cases he
      exact hx.refused h request _ hi ha hr'
    · intro request response ha
      refine ⟨hx.sent h request _ hi ha, fun a hr => ⟨request, response, by simp, ha, hr⟩, ?_⟩
      intro e he hr
      exact hx.refused h request _ hi ha (hreply response e he hr)
  refine (onboarding_keeps hA hx.quietly (Gateway.accessForUser userId false none) start).bind ?_ ?_
  · intro h' context hi
    refine (hfirst h' hi context.accessToken context.baseUrl).tryCatch ?_ ?_
    · intro h'' a hq
      exact ⟨hq.1, hq.2.1⟩
    · intro h'' e hq
      split
      · rename_i hr
        refine (onboarding_keeps hA hx.quietlyRefused (Gateway.accessForUser userId true none)
          (hq.2.2 e rfl hr)).bind ?_ ?_
        · intro h₃ refreshed hj
          exact hsecond h₃ hj refreshed.accessToken refreshed.baseUrl
        · intro h₃ e' hj
          exact ⟨hx.unsentAgain h₃ hj, fun a ha => by cases ha⟩
      · exact ⟨hq.1, fun a ha => by cases ha⟩
  · intro h' e hi
    exact ⟨hx.unsent h' hi, fun a ha => by cases ha⟩

end Execute

end Woodhouse.Commands
