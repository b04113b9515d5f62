import Woodhouse.Effects.Interleaving
import Woodhouse.Gateway.Store

namespace Woodhouse.Gateway
open Effects

/-- The calls an onboarding request makes: store transactions and single
document reads or writes, the Tesla endpoints, and the clock. -/
inductive Call where
  | utcNow
  | consumeOauthState (state : String) (now : Int)
  | getConnection (ownerUserId : String)
  | saveConnection (ownerUserId : String) (tokens : TokenSet) (baseUrl : String)
  | updateCompleted (ownerUserId region baseUrl : String)
  | rotateTokens (ownerUserId : String) (expectedVersion : Nat) (tokens : TokenSet)
  | markReauthorizationRequired (ownerUserId : String)
  | syncVehicles (ownerUserId connectionId : String) (vehicles : List TeslaVehicle)
      (statuses : String → Option FleetStatus)
  | getVehicle (ownerUserId vehicleId : String)
  | updateFleetStatus (ownerUserId vehicleId : String) (status : FleetStatus)
  | refresh (refreshToken teslaSubject : String)
  | exchangeCode (code nonce : String)
  | region (accessToken baseUrl : String)
  | listVehicles (accessToken baseUrl : String)
  | fleetStatus (accessToken baseUrl : String) (vins : List String)

abbrev Call.Ret : Call → Type
  | .utcNow => Int
  | .consumeOauthState .. => PendingAuthorization
  | .getConnection _ => TeslaConnection
  | .saveConnection .. => TeslaConnection
  | .updateCompleted .. => Unit
  | .rotateTokens .. => TeslaConnection
  | .markReauthorizationRequired _ => Unit
  | .syncVehicles .. => List VehicleRecord
  | .getVehicle .. => VehicleRecord
  | .updateFleetStatus .. => VehicleRecord
  | .refresh .. => TokenSet
  | .exchangeCode .. => TokenSet
  | .region .. => TeslaRegion
  | .listVehicles .. => List TeslaVehicle
  | .fleetStatus .. => String → Option FleetStatus

abbrev Onboarding (α : Type) := Prog Call Call.Ret Exc α

abbrev OnboardingEvent := Event Call Call.Ret Exc

def perform (c : Call) : Onboarding c.Ret := Prog.perform c

/-- `timedelta(minutes=1)` in microseconds. -/
def accessTokenRefreshSkew : Int := 60000000

/-- `current = now or datetime.now(UTC)`. -/
def currentTime : Option Int → Onboarding Int
  | some now => pure now
  | none => perform .utcNow

def requireBrowserSessionBinding (pending : PendingAuthorization) (expected : Option String) :
    Except Exc Unit :=
  if pending.completionMode ≠ .browser then .ok ()
  else if pending.browserSessionBinding = none ∨ expected = none ∨
      pending.browserSessionBinding ≠ expected then
    .error (.invalidOAuthState "Tesla OAuth browser session binding does not match")
  else .ok ()

structure OnboardingResult where
  ownerUserId : String
  connectionId : String
  region : String
  baseUrl : String
  vehicles : List VehicleRecord
  completionMode : CompletionMode

def completeConnection (ownerUserId region baseUrl : String) : Onboarding TeslaConnection := do
  perform (.updateCompleted ownerUserId region baseUrl)
  perform (.getConnection ownerUserId)

/-- `audience` is the configured base URL of the OAuth client. -/
def callback (audience state code : String) (expectedBrowserSessionBinding : Option String)
    (now : Option Int) : Onboarding OnboardingResult := do
  let current ← currentTime now
  let pending ← perform (.consumeOauthState state current)
  Prog.ofExcept (requireBrowserSessionBinding pending expectedBrowserSessionBinding)
  let tokens ← perform (.exchangeCode code pending.nonce)
  let connection ← perform (.saveConnection pending.ownerUserId tokens audience)
  let region ← perform (.region tokens.accessToken connection.baseUrl)
  let vehicles ← perform (.listVehicles tokens.accessToken region.baseUrl)
  let statuses ← perform
    (.fleetStatus tokens.accessToken region.baseUrl (vehicles.map TeslaVehicle.vin))
  let records ← perform
    (.syncVehicles pending.ownerUserId connection.connectionId vehicles statuses)
  let connection ← completeConnection pending.ownerUserId region.region region.baseUrl
  return { ownerUserId := pending.ownerUserId
           connectionId := connection.connectionId
           region := region.region
           baseUrl := region.baseUrl
           vehicles := records
           completionMode := pending.completionMode }

def decline (state : String) (expectedBrowserSessionBinding : Option String) (now : Option Int) :
    Onboarding PendingAuthorization := do
  let current ← currentTime now
  let pending ← perform (.consumeOauthState state current)
  Prog.ofExcept (requireBrowserSessionBinding pending expectedBrowserSessionBinding)
  return pending

def reauthorizationRequired : Exc :=
  .teslaReauthorizationRequired "Tesla authorization must be renewed"

/-- `except TeslaReauthorizationRequired: mark_reauthorization_required(…); raise`. -/
def markingReauthorization {α : Type} (ownerUserId : String) (p : Onboarding α) : Onboarding α :=
  tryCatch p fun
    | .teslaReauthorizationRequired message => do
      perform (.markReauthorizationRequired ownerUserId)
      throw (.teslaReauthorizationRequired message)
    | e => throw e

/-- The refresh exchange shared by `_access_token` and `rotate_refresh_token`. -/
def refreshTokens (ownerUserId : String) (connection : TeslaConnection) : Onboarding TokenSet :=
  markingReauthorization ownerUserId
    (perform (.refresh connection.tokens.refreshToken connection.tokens.teslaSubject))

/-- The commit shared by both: a loser of the version check reloads the connection. -/
def commitRotation (ownerUserId : String) (connection : TeslaConnection) (rotated : TokenSet) :
    Onboarding TeslaConnection :=
  tryCatch (perform (.rotateTokens ownerUserId connection.tokenVersion rotated)) fun
    | .concurrentTokenRotation _ => perform (.getConnection ownerUserId)
    | e => throw e

def accessToken (ownerUserId : String) (now : Option Int) (forceRefresh : Bool) :
    Onboarding (String × TeslaConnection) := do
  let current ← currentTime now
  let connection ← perform (.getConnection ownerUserId)
  if connection.status = .reauthorizationRequired then
    throw reauthorizationRequired
  else if forceRefresh = false ∧ connection.tokens.expiresAt > current + accessTokenRefreshSkew then
    return (connection.tokens.accessToken, connection)
  else
    let rotated ← refreshTokens ownerUserId connection
    let connection ← commitRotation ownerUserId connection rotated
    return (connection.tokens.accessToken, connection)

structure TeslaAccessContext where
  accessToken : String
  baseUrl : String

def accessForUser (ownerUserId : String) (forceRefresh : Bool) (now : Option Int) :
    Onboarding TeslaAccessContext := do
  let (token, connection) ← accessToken ownerUserId now forceRefresh
  return { accessToken := token, baseUrl := connection.baseUrl }

/-- `PerUserTeslaClient.execute`, whose credentials come from `access(force_refresh)`: one
retry with a forced refresh after a 401. -/
def executeWith {Op : Type} {Ret : Op → Type} {ε α : Type} (isReauthorization : ε → Bool)
    (access : Bool → Prog Op Ret ε TeslaAccessContext)
    (operation : String → String → Prog Op Ret ε α) : Prog Op Ret ε α := do
  let context ← access false
  tryCatch (operation context.accessToken context.baseUrl) fun e =>
    if isReauthorization e then do
      let refreshed ← access true
      operation refreshed.accessToken refreshed.baseUrl
    else throw e

def execute {α : Type} (ownerUserId : String) (operation : String → String → Onboarding α)
    (now : Option Int) : Onboarding α :=
  executeWith Exc.isReauthorization
    (fun forceRefresh => accessForUser ownerUserId forceRefresh now) operation

/-- The answer of `rotate_refresh_token`; it holds no credential. -/
structure RotationDocument where
  status : ConnectionStatus
  tokenVersion : Nat
  accessTokenExpiresAt : Int

def rotateRefreshToken (userId : String) : Onboarding RotationDocument := do
  let connection ← perform (.getConnection userId)
  if connection.status = .reauthorizationRequired then
    throw reauthorizationRequired
  else
    let rotated ← refreshTokens userId connection
    let connection ← commitRotation userId connection rotated
    return { status := connection.status
             tokenVersion := connection.tokenVersion
             accessTokenExpiresAt := connection.tokens.expiresAt }

def refreshFleetStatus (userId vehicleId : String) (now : Option Int) :
    Onboarding VehicleRecord := do
  let vehicle ← perform (.getVehicle userId vehicleId)
  let statuses ← markingReauthorization userId
    (execute userId (fun token baseUrl => perform (.fleetStatus token baseUrl [vehicle.vin])) now)
  match statuses vehicle.vin with
  | none => throw (.teslaOnboarding "Tesla fleet_status omitted the selected vehicle")
  | some status => perform (.updateFleetStatus userId vehicle.vehicleId status)

/-- The requests of one user that read or write the Tesla connection. -/
inductive Request where
  | callback (audience state code : String) (expectedBrowserSessionBinding : Option String)
      (now : Option Int)
  | accessToken (now : Option Int) (forceRefresh : Bool)
  | rotateRefreshToken
  | refreshFleetStatus (vehicleId : String) (now : Option Int)

inductive Reply where
  | onboarded (result : OnboardingResult)
  | access (token : String) (connection : TeslaConnection)
  | rotation (document : RotationDocument)
  | vehicle (record : VehicleRecord)

def requestProgram (userId : String) : Request → Onboarding Reply
  | .callback audience state code binding now =>
    callback audience state code binding now >>= fun result => pure (.onboarded result)
  | .accessToken now force =>
    accessToken userId now force >>= fun answer => pure (.access answer.1 answer.2)
  | .rotateRefreshToken => rotateRefreshToken userId >>= fun document => pure (.rotation document)
  | .refreshFleetStatus vehicleId now =>
    refreshFleetStatus userId vehicleId now >>= fun record => pure (.vehicle record)

/-- Firestore and the token endpoint. `spent` holds the refresh tokens already
exchanged, `issued` every token value Tesla has handed out. -/
structure World where
  db : Database
  spent : List String
  issued : List String

/-- The environment's part of an answer. -/
inductive Choice where
  | success
  | failure (e : Exc)
  | clock (now : Int)
  | freshId (id : String)
  | tokens (t : TokenSet)
  | honouredThenLost (e : Exc)
  | regionIs (r : TeslaRegion)
  | vehiclesAre (vs : List TeslaVehicle)
  | statusesAre (f : String → Option FleetStatus)

/-- Only Tesla's own endpoints raise Tesla's exceptions; everything else fails as
the client library of the store does. -/
def Call.canRaise : Call → Exc → Bool
  | _, .other _ => true
  | .refresh .., .teslaReauthorizationRequired _ => true
  | .exchangeCode .., .teslaReauthorizationRequired _ => true
  | .region .., .teslaReauthorizationRequired _ => true
  | .listVehicles .., .teslaReauthorizationRequired _ => true
  | .fleetStatus .., .teslaReauthorizationRequired _ => true
  | .refresh .., .teslaApi _ => true
  | .exchangeCode .., .teslaApi _ => true
  | .region .., .teslaApi _ => true
  | .listVehicles .., .teslaApi _ => true
  | .fleetStatus .., .teslaApi _ => true
  | _, _ => false

def World.fresh (w : World) (t : TokenSet) : Bool :=
  t.accessToken ∉ w.issued ∧ t.refreshToken ∉ w.issued ∧ t.accessToken ≠ t.refreshToken

def World.issue (w : World) (t : TokenSet) : World :=
  { w with issued := t.accessToken :: t.refreshToken :: w.issued }

def World.spend (w : World) (refreshToken : String) : World :=
  { w with spent := refreshToken :: w.spent }

/-- A transaction that raises leaves the store as it was. -/
def World.commit {α : Type} (w : World) : Except Exc (α × Database) → Except Exc α × World
  | .ok (a,db) => (.ok a, { w with db })
  | .error e => (.error e, w)

def World.commitUnit (w : World) : Except Exc Database → Except Exc Unit × World
  | .ok db => (.ok (), { w with db })
  | .error e => (.error e, w)

variable (sha256Hex : String → String)

/-- One atomic call. Any call may fail without an effect. Tesla honours a refresh
or a code with a fresh token set; the answer to a refresh may get lost. -/
def onboardingMachine : Machine Call Call.Ret Exc World Choice
  | w, call, .failure e => if call.canRaise e then some (.error e, w) else none
  | w, .utcNow, .clock now => some (.ok now, w)
  | w, .consumeOauthState state now, .success =>
    some (w.commit (w.db.consumeState sha256Hex state now))
  | w, .getConnection owner, .success => some (w.db.getConnection owner, w)
  | w, .saveConnection owner tokens baseUrl, .freshId id =>
    some (w.commit (.ok (w.db.saveConnection owner tokens baseUrl id)))
  | w, .updateCompleted owner region baseUrl, .success =>
    some (w.commitUnit (w.db.updateCompleted owner region baseUrl))
  | w, .rotateTokens owner expected tokens, .success =>
    some (w.commit (w.db.rotateTokens owner expected tokens))
  | w, .markReauthorizationRequired owner, .success =>
    some (w.commitUnit (w.db.markReauthorizationRequired owner))
  | w, .syncVehicles owner connectionId vehicles statuses, .success =>
    some (w.commit (w.db.syncVehicles sha256Hex owner connectionId vehicles statuses))
  | w, .getVehicle owner vehicleId, .success => some (w.db.getVehicle owner vehicleId, w)
  | w, .updateFleetStatus owner vehicleId status, .success =>
    some (w.commit (w.db.updateFleetStatus owner vehicleId status))
  | w, .refresh refreshToken teslaSubject, .tokens t =>
    if w.fresh t ∧ t.teslaSubject = teslaSubject then
      some (.ok t, (w.spend refreshToken).issue t)
    else none
  | w, .refresh refreshToken _, .honouredThenLost e =>
    if ¬ e.isReauthorization ∧ (Call.refresh "" "").canRaise e then
      some (.error e, w.spend refreshToken)
    else none
  | w, .exchangeCode _ _, .tokens t => if w.fresh t then some (.ok t, w.issue t) else none
  | w, .region _ _, .regionIs r => some (.ok r, w)
  | w, .listVehicles _ _, .vehiclesAre vs => some (.ok vs, w)
  | w, .fleetStatus _ _ _, .statusesAre f => some (.ok f, w)
  | _, _, _ => none

end Woodhouse.Gateway
