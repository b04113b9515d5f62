import Woodhouse.Browser.Service

namespace Woodhouse.Browser
open Effects Identity

/-- A random token the request drew. -/
def Drew (h : List BrowserEvent) (text : String) : Prop :=
  ∃ bytes, (⟨.tokenUrlsafe bytes,.ok text⟩ : BrowserEvent) ∈ h

/-- The time a request goes by. -/
def GoesBy (now : Option Int) (h : List BrowserEvent) (current : Int) : Prop :=
  now = some current ∨ (⟨.utcNow,.ok current⟩ : BrowserEvent) ∈ h

/-- The login a caller presenting `state` and a binding token has used up. -/
structure Redeemed (sha256Hex : String → String) (state browserBindingToken : String)
    (now : Option Int) (h : List BrowserEvent) (pending : PendingBrowserLogin) : Prop where
  consumed : ∃ current, GoesBy now h current ∧
    (⟨.consumeLogin state current,.ok pending⟩ : BrowserEvent) ∈ h
  presented : browserBindingToken ≠ ""
  bound : pending.browserBindingHash = sha256Hex browserBindingToken

/-- Both tokens of the login's code exchange name one identity, the second verified with
the login's nonce. -/
structure Verified (config : BrowserConfig) (code : String) (h : List BrowserEvent)
    (pending : PendingBrowserLogin) (identity : VerifiedIdentity) : Prop where
  tokens : ∃ accessToken idToken accessClaims idClaims accessIdentity,
    (⟨.exchangeCode code pending.codeVerifier,
      .ok { accessToken := some accessToken, idToken := some idToken }⟩ : BrowserEvent) ∈ h ∧
    (⟨.decodeJwt accessToken config.accessAudience,.ok accessClaims⟩ : BrowserEvent) ∈ h ∧
    accessTokenIdentity config.accessIssuer config.requiredScopes accessClaims =
      .ok accessIdentity ∧
    (⟨.decodeJwt idToken config.idAudience,.ok idClaims⟩ : BrowserEvent) ∈ h ∧
    idTokenIdentity config.idIssuer pending.nonce idClaims = .ok identity ∧
    accessIdentity.issuer = identity.issuer ∧ accessIdentity.subject = identity.subject

/-- What a session is opened on. -/
structure Opened (sha256Hex : String → String) (config : BrowserConfig)
    (state code browserBindingToken : String) (now : Option Int) (h : List BrowserEvent)
    (token : String) (session : BrowserSession) : Prop where
  login : ∃ pending identity context,
    Redeemed sha256Hex state browserBindingToken now h pending ∧
    Verified config code h pending identity ∧
    (⟨.resolveOrBind identity,.ok context⟩ : BrowserEvent) ∈ h ∧
    session.issuer = identity.issuer ∧ session.subject = identity.subject
  drew : Drew h token

/-- When a request makes the calls that matter for logins and sessions. -/
def RequestCalls (sha256Hex : String → String) (config : BrowserConfig) (request : Request)
    (h : List BrowserEvent) : Call → Prop
  | .createLogin state login => (∀ state' login' r, (⟨.createLogin state' login',r⟩ : BrowserEvent) ∉ h) ∧
      (∃ now, request = .start now) ∧ Drew h state ∧
      ∃ browserBindingToken, Drew h browserBindingToken ∧
        login.browserBindingHash = sha256Hex browserBindingToken
  | .exchangeCode code codeVerifier =>
      (∀ code' verifier' r, (⟨.exchangeCode code' verifier',r⟩ : BrowserEvent) ∉ h) ∧
      ∃ state browserBindingToken now pending,
        request = .complete state code browserBindingToken now ∧
        Redeemed sha256Hex state browserBindingToken now h pending ∧
        codeVerifier = pending.codeVerifier
  | .createSession token session =>
      (∀ token' session' r, (⟨.createSession token' session',r⟩ : BrowserEvent) ∉ h) ∧
      ∃ state code browserBindingToken now,
      request = .complete state code browserBindingToken now ∧
      Opened sha256Hex config state code browserBindingToken now h token session
  | _ => True

/-- The calls no request before its login is concerned with. -/
def Call.plain : Call → Bool
  | .createLogin .. | .exchangeCode .. | .createSession .. => false
  | _ => true

section Requests
variable {sha256Hex : String → String} {config : BrowserConfig} {request : Request} {α β : Type}
  {h : List BrowserEvent}

theorem requestCalls_plain {call : Call} (hc : call.plain = true) :
    RequestCalls sha256Hex config request h call := by
  cases call with
  | createLogin | exchangeCode | createSession => cases hc
  | _ => trivial

theorem request_call {call : Call} {f : call.Ret → Browsing α}
    (ha : RequestCalls sha256Hex config request h call)
    (hf : ∀ a, Obeys (RequestCalls sha256Hex config request) (fun _ _ => True) (f a)
      (h ++ [⟨call,.ok a⟩])) :
    Obeys (RequestCalls sha256Hex config request) (fun _ _ => True) (perform call >>= f) h := by
  unfold perform
  rw [obeys_perform_bind]
  exact ⟨ha, fun _ => trivial, hf⟩

theorem request_check {x : Except Exc α} {f : α → Browsing β}
    (hf : ∀ a, x = .ok a → Obeys (RequestCalls sha256Hex config request) (fun _ _ => True) (f a) h) :
    Obeys (RequestCalls sha256Hex config request) (fun _ _ => True) (Prog.ofExcept x >>= f) h := by
  cases x with
  | error e => trivial
  | ok a => exact hf a rfl

/-- A token is decoded and its claims are checked. -/
theorem request_verify {token audience : String} {check : Claims → Except Exc VerifiedIdentity}
    {f : VerifiedIdentity → Browsing α}
    (hf : ∀ claims identity, check claims = .ok identity →
      Obeys (RequestCalls sha256Hex config request) (fun _ _ => True) (f identity)
        (h ++ [⟨.decodeJwt token audience,.ok claims⟩])) :
    Obeys (RequestCalls sha256Hex config request) (fun _ _ => True)
      ((perform (.decodeJwt token audience) >>= fun claims => Prog.ofExcept (check claims)) >>= f)
      h := by
  refine ⟨trivial, ?_⟩
  intro r
  cases r with
  | error e => trivial
  | ok claims => exact request_check (fun identity hc => hf claims identity hc)

theorem request_time {now : Option Int} {f : Int → Browsing α}
    (hf : ∀ h' current, GoesBy now h' current → h' = h ∨ h' = h ++ [⟨.utcNow,.ok current⟩] →
      Obeys (RequestCalls sha256Hex config request) (fun _ _ => True) (f current) h') :
    Obeys (RequestCalls sha256Hex config request) (fun _ _ => True) (currentTime now >>= f) h := by
  cases now with
  | some current => exact hf h current (.inl rfl) (.inl rfl)
  | none =>
    refine request_call trivial ?_
    intro current
    exact hf _ current (.inr (by simp)) (.inr rfl)

theorem GoesBy.mono {now : Option Int} {h' : List BrowserEvent} {current : Int}
    (hg : GoesBy now h current) (hp : h <+: h') : GoesBy now h' current :=
  hg.imp_right (fun hm => hp.subset hm)

theorem Redeemed.mono {state browserBindingToken : String} {now : Option Int}
    {h' : List BrowserEvent} {pending : PendingBrowserLogin}
    (hr : Redeemed sha256Hex state browserBindingToken now h pending) (hp : h <+: h') :
    Redeemed sha256Hex state browserBindingToken now h' pending := by
  obtain ⟨⟨current, htime, hm⟩, hpresented, hbound⟩ := hr
  exact ⟨⟨current, htime.mono hp, hp.subset hm⟩, hpresented, hbound⟩

theorem Verified.mono {code : String} {h' : List BrowserEvent} {pending : PendingBrowserLogin}
    {identity : VerifiedIdentity} (hv : Verified config code h pending identity) (hp : h <+: h') :
    Verified config code h' pending identity := by
  obtain ⟨accessToken, idToken, accessClaims, idClaims, accessIdentity, he, ha, hai, hi, hii, hsame⟩ :=
    hv.tokens
  exact ⟨accessToken, idToken, accessClaims, idClaims, accessIdentity, hp.subset he, hp.subset ha,
    hai, hp.subset hi, hii, hsame⟩

theorem requireBrowserBinding_ok {login : PendingBrowserLogin} {token : String}
    (hb : requireBrowserBinding sha256Hex login token = .ok ()) :
    token ≠ "" ∧ login.browserBindingHash = sha256Hex token := by
  unfold requireBrowserBinding at hb
  split at hb
  · cases hb
  · rename_i hn
    simpa [not_or] using hn

theorem requiredToken_ok {found : Option String} {token : String}
    (ht : requiredToken found = .ok token) : found = some token := by
  cases found with
  | none => cases ht
  | some value =>
    unfold requiredToken at ht
    dsimp only at ht
    split at ht
    · cases ht
    · rw [Except.ok.inj ht]

theorem start_calls (now : Option Int) :
    Obeys (RequestCalls sha256Hex config (.start now)) (fun _ _ => True)
      (start sha256Hex config now) [] := by
  refine request_time ?_
  intro h current _ hh
  have hnone : ∀ state login r, (⟨.createLogin state login,r⟩ : BrowserEvent) ∉ h := by
    intro state login r hm
    rcases hh with rfl | rfl
    · cases hm
    · cases List.mem_singleton.mp hm
  refine request_call trivial ?_
  intro state
  refine request_call trivial ?_
  intro nonce
  refine request_call trivial ?_
  intro verifier
  refine request_call trivial ?_
  intro browserBindingToken
  refine request_call ⟨?_, ⟨now, rfl⟩, ⟨32, by simp⟩, browserBindingToken, ⟨32, by simp⟩, rfl⟩ ?_
  · intro state' login' r
    simpa using hnone state' login' r
  · intro _
    trivial

theorem openSession_calls {state code browserBindingToken : String} {now : Option Int}
    {current : Int} {pending : PendingBrowserLogin} {accessIdentity identity : VerifiedIdentity}
    (hr : Redeemed sha256Hex state browserBindingToken now h pending)
    (hnone : ∀ token session r, (⟨.createSession token session,r⟩ : BrowserEvent) ∉ h)
    (hv : (accessIdentity.issuer,accessIdentity.subject) = (identity.issuer,identity.subject) →
      Verified config code h pending identity) :
    Obeys (RequestCalls sha256Hex config (.complete state code browserBindingToken now))
      (fun _ _ => True) (openSession current accessIdentity identity) h := by
  unfold openSession
  split
  · trivial
  · rename_i hsame
    have hverified := hv (not_not.mp hsame)
    refine request_call trivial ?_
    intro context
    refine request_call trivial ?_
    intro sessionToken
    refine request_call trivial ?_
    intro csrfToken
    refine request_call ⟨?_, state, code, browserBindingToken, now, rfl, ?_, 48, by simp⟩ ?_
    · intro token session r
      simpa using hnone token session r
    · exact ⟨pending, identity, context, hr.mono (by simp), hverified.mono (by simp), by simp, rfl, rfl⟩
    · intro _
      trivial

theorem exchangeAndOpen_calls {state code browserBindingToken : String} {now : Option Int}
    {current : Int} {pending : PendingBrowserLogin}
    (hr : Redeemed sha256Hex state browserBindingToken now h pending)
    (hplain : ∀ e ∈ h, e.op.plain = true) :
    Obeys (RequestCalls sha256Hex config (.complete state code browserBindingToken now))
      (fun _ _ => True) (exchangeAndOpen config code current pending) h := by
  have hexchange : ∀ code verifier r, (⟨.exchangeCode code verifier,r⟩ : BrowserEvent) ∉ h := by
    intro code verifier r hm
    cases hplain _ hm
  have hsession : ∀ token session r, (⟨.createSession token session,r⟩ : BrowserEvent) ∉ h := by
    intro token session r hm
    cases hplain _ hm
  unfold exchangeAndOpen
  refine request_call ⟨hexchange, state, browserBindingToken, now, pending, rfl, hr, rfl⟩ ?_
  rintro ⟨foundAccess, foundId⟩
  refine request_check ?_
  intro accessToken haccess
  refine request_check ?_
  intro idToken hid
  obtain rfl := requiredToken_ok haccess
  obtain rfl := requiredToken_ok hid
  refine request_verify ?_
  intro accessClaims accessIdentity haccessIdentity
  refine request_verify ?_
  intro idClaims identity hidentity
  refine openSession_calls (hr.mono (by simp)) ?_ ?_
  · intro token session r
    simpa using hsession token session r
  intro hsame
  obtain ⟨hissuer, hsubject⟩ := Prod.mk.inj hsame
  exact ⟨accessToken, idToken, accessClaims, idClaims, accessIdentity, by simp, by simp,
    haccessIdentity, by simp, hidentity, hissuer, hsubject⟩

theorem complete_calls (state code browserBindingToken : String) (now : Option Int) :
    Obeys (RequestCalls sha256Hex config (.complete state code browserBindingToken now))
      (fun _ _ => True) (complete sha256Hex config state code browserBindingToken now) [] := by
  unfold complete
  refine request_time ?_
  intro h current htime hh
  refine request_call trivial ?_
  intro pending
  refine request_check ?_
  intro _ hb
  obtain ⟨hpresented, hbound⟩ := requireBrowserBinding_ok hb
  refine exchangeAndOpen_calls ⟨⟨current, htime.mono (by simp), by simp⟩, hpresented, hbound⟩ ?_
  intro e hm
  rcases hh with rfl | rfl
  · rw [List.mem_singleton.mp hm]
    rfl
  · rcases List.mem_append.mp hm with hm | hm
    · rw [List.mem_singleton.mp hm]
      rfl
    · rw [List.mem_singleton.mp hm]
      rfl

theorem only_plain {p : Browsing α} (hp : Only (fun call => call.plain = true) p) :
    Obeys (RequestCalls sha256Hex config request) (fun _ _ => True) p [] :=
  (hp.obeys (fun _ _ hc => requestCalls_plain hc) []).mono (fun _ _ _ => trivial)

theorem only_currentTime (now : Option Int) :
    Only (fun call : Call => call.plain = true) (currentTime now) := by
  cases now with
  | some current => trivial
  | none => exact (only_perform _).mpr rfl

theorem only_call {call : Call} (hc : call.plain = true) :
    Only (fun call : Call => call.plain = true) (perform call) :=
  (only_perform call).mpr hc

theorem only_cancel (state browserBindingToken : String) (now : Option Int) :
    Only (fun call => call.plain = true) (cancel sha256Hex state browserBindingToken now) := by
  refine (only_currentTime now).bind ?_
  intro current
  refine (only_call rfl).bind ?_
  intro pending
  exact only_ofExcept _

theorem only_getSession (token : String) (now : Int) :
    Only (fun call => call.plain = true) (getSession token now) := by
  refine (only_call rfl).bind ?_
  intro snapshot
  cases snapshot with
  | none => trivial
  | some data =>
    refine (only_ofExcept _).bind ?_
    intro session
    split
    · exact (only_call rfl).bind (fun _ => trivial)
    · trivial

theorem only_authenticateSession (token : String) (now : Option Int) :
    Only (fun call => call.plain = true) (authenticateSession token now) := by
  refine (only_currentTime now).bind ?_
  intro current
  refine (only_getSession token current).bind ?_
  intro session
  refine (only_ofExcept _).bind ?_
  intro identity
  exact (only_call rfl).bind (fun _ => trivial)

theorem request_calls (request : Request) :
    Obeys (RequestCalls sha256Hex config request) (fun _ _ => True)
      (request.program sha256Hex config) [] := by
  cases request with
  | start now => exact (start_calls now).bind (fun _ _ _ => trivial) (fun _ _ _ => trivial)
  | complete state code browserBindingToken now =>
    exact (complete_calls state code browserBindingToken now).bind (fun _ _ _ => trivial)
      (fun _ _ _ => trivial)
  | cancel state browserBindingToken now =>
    exact only_plain ((only_cancel state browserBindingToken now).bind (fun _ => trivial))
  | authenticateSession token now =>
    exact only_plain ((only_authenticateSession token now).bind (fun _ => trivial))
  | logout token => exact only_plain ((only_call rfl).bind (fun _ => trivial))
  | administer operation => exact only_plain ((only_call rfl).bind (fun _ => trivial))

end Requests

end Woodhouse.Browser
