import Woodhouse.Ingest.Services
import Woodhouse.Python.Base64Encoding
import Woodhouse.Python.IsoFormat
import Woodhouse.Python.Utf8

namespace Woodhouse.Tokens
open Python

/-- A rotating Tesla credential set. -/
structure TokenSet where
  accessToken : Str
  refreshToken : Str
  expiresAt : Datetime
  scopes : List Str
  teslaSubject : Str
  deriving DecidableEq

section Client

inductive OAuthExc where
  | teslaAuthenticationError (message : Str)
  | teslaReauthorizationRequired (message : Str)
  | python (e : PyExc)
  deriving DecidableEq

/-- `timedelta(seconds=x)`, in microseconds. -/
def timedeltaSeconds : PyFloat → Except PyExc Int
  | .nan => .error .valueError
  | .inf _ => .error .overflowError
  | .finite negative q =>
    let x := if negative then -q else q
    let whole : Int := if x < 0 then -(-x).floor else x.floor
    match (roundToFloat ((x - whole) * 1000000)).toRat with
    | some micros => .ok (whole * 1000000 + roundHalfEven micros)
    | none => .error .overflowError

/-- `now + timedelta(seconds=x)`. -/
def secondsLater (now : Utc) (x : PyFloat) : Except PyExc Utc := do
  let micros ← timedeltaSeconds x
  match utcOfMicros (now.val + micros) with
  | some t => .ok t
  | none => .error .overflowError

/-- `float(expires_in)` of an expiry that the check lets through: a positive number, or NaN. -/
def expiresIn (document : Dict Json) : Option PyFloat :=
  match document.get (str "expires_in") with
  | some (.int i) => if i ≤ 0 then none else some (roundToFloat i)
  | some (.float .nan) => some .nan
  | some (.float (.inf negative)) => if negative then none else some (.inf false)
  | some (.float (.finite negative q)) =>
    if (if negative then -q else q) ≤ 0 then none else some (.finite negative q)
  | _ => none

/-- `_required_string` of oauth.py. -/
def responseString (document : Dict Json) (key : Str) : Except OAuthExc Str :=
  match document.get key with
  | some (.str value) =>
    if value = [] then .error (.teslaAuthenticationError (str "Tesla token response is missing " ++ key))
    else .ok value
  | _ => .error (.teslaAuthenticationError (str "Tesla token response is missing " ++ key))

def grantedScopes (document : Dict Json) (fallbackScopes : List Str) : List Str :=
  match document.get (str "scope") with
  | some (.str scope) => if strip scope = [] then fallbackScopes else split scope
  | _ => fallbackScopes

/-- `_token_set`. -/
def tokenSet (document : Dict Json) (subject : Str) (fallbackScopes : List Str) (now : Utc) :
    Except OAuthExc TokenSet :=
  match expiresIn document with
  | none => .error (.teslaAuthenticationError (str "Tesla token response has invalid expiry"))
  | some seconds => do
    let accessToken ← responseString document (str "access_token")
    let refreshToken ← responseString document (str "refresh_token")
    let expiresAt ← (secondsLater now seconds).mapError OAuthExc.python
    return { accessToken, refreshToken, expiresAt := ⟨expiresAt,some 0⟩,
             scopes := grantedScopes document fallbackScopes, teslaSubject := subject }

/-- `response.json()`. -/
def responseJson (limit : Nat) (body : Bytes) : Except PyExc Json := do
  let text ← decodeUtf8Strict body
  decodeFrom limit {} text

/-- `_successful_token_document`. -/
def successfulTokenDocument (limit status : Nat) (body : Bytes) : Except OAuthExc (Dict Json) :=
  match responseJson limit body with
  | .error .recursionError => .error (.python .recursionError)
  | .error _ =>
    .error (.teslaAuthenticationError (str "Tesla token endpoint returned invalid JSON"))
  | .ok (.obj document) =>
    let isLoginRequired : Bool := match Dict.get document (str "error") with
      | some (.str code) => code = str "login_required"
      | _ => false
    if status = 401 ∧ isLoginRequired then
      .error (.teslaReauthorizationRequired (str "Tesla authorization must be renewed"))
    else if status < 200 ∨ 300 ≤ status then
      .error (.teslaAuthenticationError (str "Tesla token exchange was rejected"))
    else .ok document
  | .ok _ =>
    .error (.teslaAuthenticationError (str "Tesla token endpoint returned an invalid document"))

/-- What `refresh` makes of a response, and `exchange_code` behind the ID token: there the subject
is the verifier's. -/
def tokensOfResponse (limit status : Nat) (body : Bytes) (subject : Str) (scopes : List Str)
    (now : Utc) : Except OAuthExc TokenSet := do
  let document ← successfulTokenDocument limit status body
  tokenSet document subject scopes now

/-- The token sets that a client with these scopes produces. -/
def Produced (scopes : List Str) (t : TokenSet) : Prop :=
  ∃ limit status body subject now, tokensOfResponse limit status body subject scopes now = .ok t

end Client

/-- `AESGCM(key)`; `none` is InvalidTag. -/
structure Aead where
  encrypt : (nonce plaintext associated : Bytes) → Bytes
  decrypt : (nonce ciphertext associated : Bytes) → Option Bytes

/-- What an authenticated cipher promises: its ciphertexts carry a tag of sixteen bytes, decrypt to
their plaintext, and are rejected with other associated data. -/
structure Aead.Lawful (a : Aead) : Prop where
  correct : ∀ nonce plaintext associated,
    a.decrypt nonce (a.encrypt nonce plaintext associated) associated = some plaintext
  rejects : ∀ nonce plaintext associated other, other ≠ associated →
    a.decrypt nonce (a.encrypt nonce plaintext associated) other = none
  tagged : ∀ nonce plaintext associated, 16 ≤ (a.encrypt nonce plaintext associated).length

inductive CipherExc where
  | python (e : PyExc)
  | keyError (key : Str)
  | invalidTag
  deriving DecidableEq

def CipherExc.valueError : CipherExc := .python .valueError

/-- The exceptions that `decrypt` turns into its ValueError. -/
def CipherExc.isCaught : CipherExc → Bool
  | .python .recursionError | .python .overflowError => false
  | _ => true

/-- The object that `encrypt` dumps. -/
def tokenDocument (t : TokenSet) : Json :=
  .obj [(str "access_token",.str t.accessToken),(str "refresh_token",.str t.refreshToken),
    (str "expires_at",.str (isoformat t.expiresAt)),(str "scopes",.arr (t.scopes.map Json.str)),
    (str "tesla_subject",.str t.teslaSubject)]

/-- `TokenCipher.encrypt`, with what `os.urandom(12)` returns. -/
def encrypt (a : Aead) (nonce : Bytes) (t : TokenSet) (ownerUserId : Str) : Except CipherExc Str := do
  let plaintext ← (encodeUtf8 (dumps (tokenDocument t))).mapError CipherExc.python
  let associated ← (encodeUtf8 ownerUserId).mapError CipherExc.python
  return urlsafeB64encode (nonce ++ a.encrypt nonce plaintext associated)

/-- `_required_string` of token_crypto.py. -/
def requiredString (document : Dict Json) (key : Str) : Except CipherExc Str :=
  match document.get key with
  | none => .error (.keyError key)
  | some (.str value) => if value = [] then .error .valueError else .ok value
  | some _ => .error .valueError

def scopeOf : Json → Option Str
  | .str scope => if scope = [] then none else some scope
  | _ => none

def requiredScopes (document : Dict Json) : Except CipherExc (List Str) :=
  match document.get (str "scopes") with
  | none => .error (.keyError (str "scopes"))
  | some (.arr items) =>
    if items = [] then .error .valueError
    else match items.mapM scopeOf with
      | some scopes => .ok scopes
      | none => .error .valueError
  | some _ => .error .valueError

/-- The token set of an authentic plaintext's document. -/
def tokensOfDocument (document : Dict Json) : Except CipherExc TokenSet := do
  let accessToken ← requiredString document (str "access_token")
  let refreshToken ← requiredString document (str "refresh_token")
  let teslaSubject ← requiredString document (str "tesla_subject")
  let scopes ← requiredScopes document
  let text ← requiredString document (str "expires_at")
  let expiresAt ← (fromisoformat text).mapError CipherExc.python
  return { accessToken, refreshToken, scopes, teslaSubject,
           expiresAt := { expiresAt with utcoffset := some (expiresAt.utcoffset.getD 0) } }

/-- The text of an authentic plaintext. -/
def plaintextOf (a : Aead) (value ownerUserId : Str) : Except CipherExc Str :=
  if !isAscii value then .error (.python .unicodeEncodeError)
  else do
    let decoded ← (urlsafeB64decode value).mapError CipherExc.python
    if decoded.length < 28 then .error .valueError
    else
      let associated ← (encodeUtf8 ownerUserId).mapError CipherExc.python
      match a.decrypt (decoded.take 12) (decoded.drop 12) associated with
      | none => .error .invalidTag
      | some plaintext => (decodeUtf8Strict plaintext).mapError CipherExc.python

/-- What `decrypt` does inside its `try`; `limit` is how many containers `json.loads` may open. -/
def opened (a : Aead) (limit : Nat) (value ownerUserId : Str) : Except CipherExc TokenSet := do
  let text ← plaintextOf a value ownerUserId
  match ← (decodeFrom limit {} text).mapError CipherExc.python with
  | .obj document => tokensOfDocument document
  | _ => .error .valueError

/-- `TokenCipher.decrypt`. -/
def decrypt (a : Aead) (limit : Nat) (value ownerUserId : Str) : Except CipherExc TokenSet :=
  match opened a limit value ownerUserId with
  | .ok t => .ok t
  | .error e => if e.isCaught then .error .valueError else .error e

end Woodhouse.Tokens
