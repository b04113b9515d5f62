import Woodhouse.Python.DateTime
import Woodhouse.Telemetry.Profiles

namespace Woodhouse.Telemetry
open Python
open Gateway (Exc)

section Parsing

def unicodeError : Exc := .other "UnicodeEncodeError"

/-- An `int` that is not a `bool`. -/
def strictInt : Json → Except Exc Int
  | .int n => .ok n
  | _ => .error valueError

def optionalNumber : Option Json → Except Exc (Option Number)
  | none | some .null => .ok none
  | some (.int n) => .ok (some (.int n))
  | some (.float x) => .ok (some (.float x))
  | some _ => .error valueError

def optionalInt : Option Json → Except Exc (Option Int)
  | none | some .null => .ok none
  | some (.int n) => .ok (some n)
  | some _ => .error valueError

def stringItem : Json → Except Exc Str
  | .str s => .ok s
  | _ => .error valueError

/-- A list of strings; an absent member is the empty list. -/
def stringList : Option Json → Except Exc (List Str)
  | none => .ok []
  | some (.arr items) => items.mapM stringItem
  | some _ => .error valueError

/-- `isinstance(port, int)`, which a `bool` satisfies; the default is 443. -/
def portNumber : Option Json → Except Exc Int
  | none => .ok 443
  | some (.int n) => .ok n
  | some (.bool b) => .ok (if b then 1 else 0)
  | some _ => .error valueError

def parseField : Json → Except Exc FleetTelemetryField
  | .obj value => do
    let intervalSeconds ← strictInt ((Dict.get value (str "interval_seconds")).getD .null)
    let minimumDelta ← optionalNumber (Dict.get value (str "minimum_delta"))
    let resendIntervalSeconds ← optionalInt (Dict.get value (str "resend_interval_seconds"))
    let includeFields ← stringList (Dict.get value (str "include_fields"))
    return { intervalSeconds, minimumDelta, resendIntervalSeconds, includeFields }
  | _ => .error valueError

def allowedAlerts : List Str := [str "service",str "customer",str "service-fix"]

def alertTypes (alerts : Option Json) : Except Exc (List Str) := do
  let items ← stringList alerts
  if items.all (fun item => item ∈ allowedAlerts) then return items else throw valueError

def deliveryPolicy : Option Json → Except Exc (Option Str)
  | none | some .null => .ok none
  | some (.str s) => .ok (some s)
  | some _ => .error valueError

def parseConfig (raw : Dict Json) : Except Exc FleetTelemetryConfig := do
  match raw.get (str "hostname"), raw.get (str "ca"), raw.get (str "fields") with
  | some (.str hostname), some (.str ca), some (.obj fields) =>
    let port ← portNumber (raw.get (str "port"))
    let parsed ← fields.mapM (fun entry => do
      let field ← parseField entry.2
      return (entry.1,field))
    let alertTypes ← alertTypes (raw.get (str "alert_types"))
    let deliveryPolicy ← deliveryPolicy (raw.get (str "delivery_policy"))
    return { hostname, ca, fields := parsed, port, alertTypes, deliveryPolicy }
  | _, _, _ => throw valueError

/-- `parse_tesla_config`: the configuration of a Tesla response, if it has one. -/
def parseTeslaConfig (document : Dict Json) : Except Exc (Option FleetTelemetryConfig) :=
  match document.get (str "config") with
  | none | some .null => .ok none
  | some (.obj raw) => (parseConfig raw).map some
  | some _ => .error valueError

end Parsing

section Comparison

/-- The value of a number; a NaN has none. -/
def Number.key : Number → Option (PyFloat ⊕ ℚ)
  | .int n => some (.inr n)
  | .float .nan => none
  | .float (.inf negative) => some (.inl (.inf negative))
  | .float (.finite negative q) => some (.inr (if negative then -q else q))

/-- Python's `==` of two numbers. -/
def Number.eq (a b : Number) : Bool :=
  match a.key, b.key with
  | some x, some y => decide (x = y)
  | _, _ => false

/-- Python's `==` of two payloads. -/
def FleetTelemetryField.eq (a b : FleetTelemetryField) : Bool :=
  decide (a.intervalSeconds = b.intervalSeconds) &&
  (match a.minimumDelta, b.minimumDelta with
    | none, none => true
    | some x, some y => x.eq y
    | _, _ => false) &&
  decide (a.resendIntervalSeconds = b.resendIntervalSeconds) &&
  decide (a.includeFields = b.includeFields)

/-- Python's `==` of two payloads of which equal numbers are one object: such a number equals
itself, a NaN too. -/
def FleetTelemetryField.eqShared (a b : FleetTelemetryField) : Bool := decide (a = b) || a.eq b

/-- A parsed certificate: its DER bytes, and whether its basic constraints, if it has
any, name a CA. -/
structure Certificate where
  der : Bytes
  basicConstraintsCa : Option Bool

/-- What an operator may see of a configuration. -/
structure SafeConfigDocument where
  hostname : Str
  port : Int
  caSha256 : String
  certificateCount : Nat
  containsNonCa : Bool
  fields : Dict FleetTelemetryField
  alertTypes : List Str
  deliveryPolicy : Option Str

/-- `s.encode("ascii")`. -/
def encodeAscii (s : Str) : Except Exc Bytes :=
  if isAscii s then .ok (s.map (fun c => UInt8.ofNat c.val)) else .error unicodeError

variable (sha256Hex : Bytes → String) (loadPemCertificates : Bytes → Except Exc (List Certificate))

def safeConfigDocument (config : FleetTelemetryConfig) : Except Exc SafeConfigDocument := do
  let pem ← encodeAscii config.ca
  let certificates ← loadPemCertificates pem
  if certificates.isEmpty then throw valueError
  else
    let sorted := (certificates.map Certificate.der).mergeSort (fun a b => decide (a ≤ b))
    return { hostname := config.hostname
             port := config.port
             caSha256 := sha256Hex sorted.flatten
             certificateCount := certificates.length
             containsNonCa := certificates.any (fun c => c.basicConstraintsCa ≠ some true)
             fields := config.fields
             alertTypes := config.alertTypes.mergeSort (fun a b => decide (a ≤ b))
             deliveryPolicy := config.deliveryPolicy }

/-- The changed members, and the names of the added, removed and changed fields. -/
inductive ConfigDiff where
  | absent
  | compared (changes : List String) (added removed changed : List Str)
  deriving DecidableEq

def ConfigDiff.status : ConfigDiff → String
  | .absent => "absent"
  | .compared [] [] [] [] => "in_sync"
  | .compared .. => "drifted"

/-- The comparison, by an equality of payloads. -/
def compareDocumentsBy (eq : FleetTelemetryField → FleetTelemetryField → Bool)
    (current desired : SafeConfigDocument) : ConfigDiff :=
  let changes :=
    (if current.hostname = desired.hostname then [] else ["hostname"]) ++
    (if current.port = desired.port then [] else ["port"]) ++
    (if current.caSha256 = desired.caSha256 ∧ current.certificateCount = desired.certificateCount ∧
        current.containsNonCa = desired.containsNonCa then [] else ["ca"]) ++
    (if current.alertTypes = desired.alertTypes then [] else ["alert_types"]) ++
    (if current.deliveryPolicy = desired.deliveryPolicy then [] else ["delivery_policy"])
  let missing (other : Dict FleetTelemetryField) (entry : Str × FleetTelemetryField) : Bool :=
    (other.get entry.1).isNone
  let differs (entry : Str × FleetTelemetryField) : Bool :=
    match desired.fields.get entry.1 with
    | none => false
    | some field => !eq entry.2 field
  .compared changes ((desired.fields.filter (missing current.fields)).map Prod.fst)
    ((current.fields.filter (missing desired.fields)).map Prod.fst)
    ((current.fields.filter differs).map Prod.fst)

def compareDocuments : SafeConfigDocument → SafeConfigDocument → ConfigDiff :=
  compareDocumentsBy FleetTelemetryField.eq

def configDiffBy (eq : FleetTelemetryField → FleetTelemetryField → Bool)
    (current : Option FleetTelemetryConfig) (desired : FleetTelemetryConfig) :
    Except Exc ConfigDiff := do
  let desiredSafe ← safeConfigDocument sha256Hex loadPemCertificates desired
  match current with
  | none => return .absent
  | some current =>
    let currentSafe ← safeConfigDocument sha256Hex loadPemCertificates current
    return compareDocumentsBy eq currentSafe desiredSafe

/-- `config_diff` of a configuration from a Tesla response. -/
def configDiff (current : Option FleetTelemetryConfig) (desired : FleetTelemetryConfig) :
    Except Exc ConfigDiff :=
  configDiffBy sha256Hex loadPemCertificates FleetTelemetryField.eq current desired

/-- `config_diff` of two configurations that share the objects of their fields. -/
def configDiffShared (current : Option FleetTelemetryConfig) (desired : FleetTelemetryConfig) :
    Except Exc ConfigDiff :=
  configDiffBy sha256Hex loadPemCertificates FleetTelemetryField.eqShared current desired

end Comparison

section Errors

/-- `(d - epoch).total_seconds()` of microseconds since 1970. -/
def timestampOfMicros (micros : Int) : ℚ := (roundToFloat (micros / 1000000)).toRat.getD 0

/-- The microseconds since 1970 of a `datetime`; a naive one is taken as UTC. -/
def microsOfDatetime (d : Datetime) : Int := (d.clock.val : Int) - d.utcoffset.getD 0 - epochMicros

/-- Whether an error without a date, or with one from the last 15 minutes, is listed. -/
def isRelevantError (now : Int) : Json → Bool
  | .obj item =>
    match Dict.get item (str "created_at") with
    | some (.str createdAt) =>
      match fromisoformat (replaceChar createdAt (chr 'Z') (str "+00:00")) with
      | .error _ => true
      | .ok created =>
        let cutoff := (roundToFloat (timestampOfMicros now - 900)).toRat.getD 0
        decide (cutoff ≤ timestampOfMicros (microsOfDatetime created))
    | _ => true
  | _ => false

/-- `_has_relevant_errors` at the time `now`, in microseconds since 1970. -/
def hasRelevantErrors (now : Int) : Json → Bool
  | .arr items => items.any (isRelevantError now)
  | _ => false

end Errors

end Woodhouse.Telemetry
