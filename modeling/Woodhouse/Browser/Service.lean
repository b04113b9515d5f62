import Woodhouse.Effects.Interleaving
import Woodhouse.Identity.Store
import Woodhouse.Identity.Tokens

namespace Woodhouse.Browser
open Effects Identity

/-- `timedelta(minutes=10)` in microseconds. -/
def loginStateLifetime : Int := 600000000

/-- `timedelta(hours=12)` in microseconds. -/
def webSessionLifetime : Int := 43200000000

structure PendingBrowserLogin where
  codeVerifier : String
  nonce : String
  browserBindingHash : String
  expiresAt : Int
  deriving DecidableEq

structure BrowserSession where
  issuer : String
  subject : String
  csrfToken : String
  expiresAt : Int
  deriving DecidableEq

structure BrowserLoginStart where
  authorizationUrl : String
  browserBindingToken : String

structure BrowserLoginResult where
  sessionToken : String
  csrfToken : String
  context : UserContext

/-- The token response, as far as its entries are strings. -/
structure TokenResponse where
  accessToken : Option String
  idToken : Option String
  deriving DecidableEq

/-- What the service is configured with. -/
structure BrowserConfig where
  accessIssuer : String
  accessAudience : String
  requiredScopes : List String
  idIssuer : String
  idAudience : String
  authorizationUrl : (state nonce codeVerifier : String) → String

/-- The calls of the browser requests: the clock, the random tokens, the collections,
the authorization server and the token decoder. -/
inductive Call where
  | utcNow
  | tokenUrlsafe (bytes : Nat)
  | createLogin (state : String) (login : PendingBrowserLogin)
  | consumeLogin (state : String) (now : Int)
  | exchangeCode (code codeVerifier : String)
  | decodeJwt (token audience : String)
  | resolveOrBind (identity : VerifiedIdentity)
  | createSession (token : String) (session : BrowserSession)
  | getSession (token : String)
  | deleteSession (token : String)
  | administer (operation : Operation)

abbrev Call.Ret : Call → Type
  | .utcNow => Int
  | .tokenUrlsafe _ => String
  | .createLogin .. => Unit
  | .consumeLogin .. => PendingBrowserLogin
  | .exchangeCode .. => TokenResponse
  | .decodeJwt .. => Claims
  | .resolveOrBind _ => UserContext
  | .createSession .. => Unit
  | .getSession _ => Option BrowserSession
  | .deleteSession _ => Unit
  | .administer _ => Unit

abbrev Browsing (α : Type) := Prog Call Call.Ret Exc α

abbrev BrowserEvent := Event Call Call.Ret Exc

def perform (c : Call) : Browsing c.Ret := Prog.perform c

section Service
variable (sha256Hex : String → String) (config : BrowserConfig)

/-- `current = now or datetime.now(UTC)`. -/
def currentTime : Option Int → Browsing Int
  | some now => pure now
  | none => perform .utcNow

def start (now : Option Int) : Browsing BrowserLoginStart := do
  let current ← currentTime now
  let state ← perform (.tokenUrlsafe 32)
  let nonce ← perform (.tokenUrlsafe 32)
  let verifier ← perform (.tokenUrlsafe 64)
  let browserBindingToken ← perform (.tokenUrlsafe 32)
  perform (.createLogin state
    { codeVerifier := verifier, nonce, browserBindingHash := sha256Hex browserBindingToken,
      expiresAt := current + loginStateLifetime })
  return { authorizationUrl := config.authorizationUrl state nonce verifier, browserBindingToken }

def requireBrowserBinding (login : PendingBrowserLogin) (token : String) : Except Exc Unit :=
  if token = "" ∨ login.browserBindingHash ≠ sha256Hex token then
    .error (.browserAuthentication "Platform login browser binding is invalid")
  else .ok ()

def requiredToken : Option String → Except Exc String
  | none => .error (.browserAuthentication "Platform token response is incomplete")
  | some value =>
    if value = "" then .error (.browserAuthentication "Platform token response is incomplete")
    else .ok value

def verifyAccessToken (token : String) : Browsing VerifiedIdentity := do
  let claims ← perform (.decodeJwt token config.accessAudience)
  Prog.ofExcept (accessTokenIdentity config.accessIssuer config.requiredScopes claims)

def verifyIdToken (token nonce : String) : Browsing VerifiedIdentity := do
  let claims ← perform (.decodeJwt token config.idAudience)
  Prog.ofExcept (idTokenIdentity config.idIssuer nonce claims)

/-- The last part of `complete`: the session of an identity both tokens agree on. -/
def openSession (current : Int) (accessIdentity identity : VerifiedIdentity) :
    Browsing BrowserLoginResult := do
  if (accessIdentity.issuer,accessIdentity.subject) ≠ (identity.issuer,identity.subject) then
    throw (.browserAuthentication "Platform token identities do not match")
  else
    let context ← perform (.resolveOrBind identity)
    let sessionToken ← perform (.tokenUrlsafe 48)
    let csrfToken ← perform (.tokenUrlsafe 32)
    perform (.createSession sessionToken
      { issuer := identity.issuer, subject := identity.subject, csrfToken,
        expiresAt := current + webSessionLifetime })
    return { sessionToken, csrfToken, context }

/-- The middle of `complete`: the tokens of the exchanged code, verified. -/
def exchangeAndOpen (code : String) (current : Int) (pending : PendingBrowserLogin) :
    Browsing BrowserLoginResult := do
  let tokens ← perform (.exchangeCode code pending.codeVerifier)
  let accessToken ← Prog.ofExcept (requiredToken tokens.accessToken)
  let idToken ← Prog.ofExcept (requiredToken tokens.idToken)
  let accessIdentity ← verifyAccessToken config accessToken
  let identity ← verifyIdToken config idToken pending.nonce
  openSession current accessIdentity identity

def complete (state code browserBindingToken : String) (now : Option Int) :
    Browsing BrowserLoginResult := do
  let current ← currentTime now
  let pending ← perform (.consumeLogin state current)
  Prog.ofExcept (requireBrowserBinding sha256Hex pending browserBindingToken)
  exchangeAndOpen config code current pending

def cancel (state browserBindingToken : String) (now : Option Int) : Browsing Unit := do
  let current ← currentTime now
  let pending ← perform (.consumeLogin state current)
  Prog.ofExcept (requireBrowserBinding sha256Hex pending browserBindingToken)

/-- `_session_from_data`. -/
def sessionFromData (data : BrowserSession) : Except Exc BrowserSession :=
  if data.issuer = "" ∨ data.subject = "" ∨ data.csrfToken = "" then
    .error (.browserAuthentication "Browser session is invalid")
  else .ok data

/-- `get_session`, whose read and whose removal of an expired session are two calls. -/
def getSession (token : String) (now : Int) : Browsing BrowserSession := do
  let snapshot ← perform (.getSession token)
  match snapshot with
  | none => throw (.invalidToken "Browser session is not valid")
  | some data => do
    let session ← Prog.ofExcept (sessionFromData data)
    if session.expiresAt ≤ now then do
      perform (.deleteSession token)
      throw (.invalidToken "Browser session has expired")
    else return session

def authenticateSession (token : String) (now : Option Int) :
    Browsing (UserContext × BrowserSession) := do
  let current ← currentTime now
  let session ← getSession token current
  let identity ← Prog.ofExcept (verifiedIdentity session.issuer session.subject)
  let context ← perform (.resolveOrBind identity)
  return (context,session)

def logout (token : String) : Browsing Unit := perform (.deleteSession token)

inductive Request where
  | start (now : Option Int)
  | complete (state code browserBindingToken : String) (now : Option Int)
  | cancel (state browserBindingToken : String) (now : Option Int)
  | authenticateSession (token : String) (now : Option Int)
  | logout (token : String)
  | administer (operation : Operation)

inductive Reply where
  | started (result : BrowserLoginStart)
  | completed (result : BrowserLoginResult)
  | cancelled
  | authenticated (context : UserContext) (session : BrowserSession)
  | loggedOut
  | administered

def Request.program : Request → Browsing Reply
  | .start now => Browser.start sha256Hex config now >>= fun result => pure (.started result)
  | .complete state code browserBindingToken now =>
    Browser.complete sha256Hex config state code browserBindingToken now >>=
      fun result => pure (.completed result)
  | .cancel state browserBindingToken now =>
    Browser.cancel sha256Hex state browserBindingToken now >>= fun _ => pure .cancelled
  | .authenticateSession token now =>
    Browser.authenticateSession token now >>= fun answer => pure (.authenticated answer.1 answer.2)
  | .logout token => Browser.logout token >>= fun _ => pure .loggedOut
  | .administer operation => perform (.administer operation) >>= fun _ => pure .administered

end Service

section World

/-- The collections, by document id, and the random tokens drawn so far. -/
structure World where
  logins : String → Option PendingBrowserLogin
  sessions : String → Option BrowserSession
  directory : Directory
  drawn : List String

def emptyWorld : World :=
  { logins := fun _ => none, sessions := fun _ => none, directory := emptyDirectory, drawn := [] }

/-- The environment's part of an answer. -/
inductive Choice where
  | success
  | failure (e : Exc)
  | clock (now : Int)
  | token (text : String)
  | tokens (response : TokenResponse)
  | claims (claims : Claims)

variable (sha256Hex casefold : String → String)

namespace World
variable (w : World)

/-- `create` refuses to write over a document. -/
def createLogin (state : String) (login : PendingBrowserLogin) : Except Exc Unit × World :=
  match w.logins (sha256Hex state) with
  | some _ => (.error (.other "AlreadyExists"),w)
  | none =>
    (.ok (),{ w with logins := Function.update w.logins (sha256Hex state) (some login) })

/-- Raising inside the transaction leaves the login document in place. -/
def consumeLogin (state : String) (now : Int) : Except Exc PendingBrowserLogin × World :=
  match w.logins (sha256Hex state) with
  | none => (.error (.browserAuthentication "Platform login state is invalid"),w)
  | some login =>
    if login.expiresAt ≤ now then
      (.error (.browserAuthentication "Platform login state has expired"),w)
    else
      (.ok login,{ w with logins := Function.update w.logins (sha256Hex state) none })

def createSession (token : String) (session : BrowserSession) : Except Exc Unit × World :=
  match w.sessions (sha256Hex token) with
  | some _ => (.error (.other "AlreadyExists"),w)
  | none =>
    (.ok (),{ w with sessions := Function.update w.sessions (sha256Hex token) (some session) })

def deleteSession (token : String) : Except Exc Unit × World :=
  (.ok (),{ w with sessions := Function.update w.sessions (sha256Hex token) none })

def resolveOrBind (identity : VerifiedIdentity) : Except Exc UserContext × World :=
  match w.directory.resolveOrBind sha256Hex casefold identity with
  | .error e => (.error e,w)
  | .ok (context,directory) => (.ok context,{ w with directory })

def administer (operation : Operation) : Except Exc Unit × World :=
  match operation.run sha256Hex casefold w.directory with
  | .error e => (.error e,w)
  | .ok directory => (.ok (),{ w with directory })

end World

/-- A failed call has no effect; the random tokens are fresh. -/
def browserMachine : Machine Call Call.Ret Exc World Choice
  | w, .utcNow, .clock now => some (.ok now,w)
  | w, .tokenUrlsafe _, .token text =>
    if text ∈ w.drawn then none else some (.ok text,{ w with drawn := text :: w.drawn })
  | w, .createLogin state login, .success => some (w.createLogin sha256Hex state login)
  | w, .consumeLogin state now, .success => some (w.consumeLogin sha256Hex state now)
  | w, .exchangeCode .., .tokens response => some (.ok response,w)
  | w, .decodeJwt .., .claims claims => some (.ok claims,w)
  | w, .resolveOrBind identity, .success => some (w.resolveOrBind sha256Hex casefold identity)
  | w, .createSession token session, .success => some (w.createSession sha256Hex token session)
  | w, .getSession token, .success => some (.ok (w.sessions (sha256Hex token)),w)
  | w, .deleteSession token, .success => some (w.deleteSession sha256Hex token)
  | w, .administer operation, .success => some (w.administer sha256Hex casefold operation)
  | w, _, .failure e => some (.error e,w)
  | _, _, _ => none

end World

abbrev BrowserLog (ι : Type) := Log ι Call Call.Ret Exc

end Woodhouse.Browser
