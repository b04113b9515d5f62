import Woodhouse.Python.Dumps
import Woodhouse.Python.Utf8
import Woodhouse.Transport.DiagnosticPatterns
import Woodhouse.Transport.RequestLog

namespace Woodhouse.Transport
open Paths Python Telemetry

/-- A request as a transport hands it to the log. -/
structure TeslaRequest where
  verb : String
  path : List Char
  query : List Char
  headers : List (Str × Str)
  body : RequestBody

/-- `_SENSITIVE_REQUEST_KEYS`. -/
def sensitiveRequestKeys : List Str :=
  [str "access_token",str "authorization",str "calendar_data",str "client_secret",str "code",
   str "id_token",str "lat",str "latitude",str "lon",str "longitude",str "password",str "pin",
   str "refresh_token",str "routable_message",str "token",str "vin",str "vins"]

def isSensitive (key : Option Str) : Bool := key.any (fun key => decide (key ∈ sensitiveRequestKeys))

/-- `str(x)` of a float. -/
def strFloat : PyFloat → Str
  | .nan => str "nan"
  | .inf negative => str (if negative then "-inf" else "inf")
  | x => reprFloat x

section Collection
variable (casefold : Str → Str)

mutual

/-- The scalars in a JSON body, each with the key of the nearest dictionary around it. -/
def leaves (key : Option Str) : Json → List (Option Str × Json)
  | .obj entries => leavesEntries entries
  | .arr items => leavesItems key items
  | .null => [(key,.null)]
  | .bool b => [(key,.bool b)]
  | .int i => [(key,.int i)]
  | .float x => [(key,.float x)]
  | .str s => [(key,.str s)]

def leavesItems (key : Option Str) : List Json → List (Option Str × Json)
  | [] => []
  | v :: rest => leaves key v ++ leavesItems key rest

def leavesEntries : List (Str × Json) → List (Option Str × Json)
  | [] => []
  | (key,v) :: rest => leaves (some (casefold key)) v ++ leavesEntries rest

end

/-- What `_collect_sensitive_values` adds for a scalar. -/
def collected (key : Option Str) : Json → List Str
  | .str value => if 4 ≤ value.length ∨ isSensitive key then [value] else []
  | .int i => if 4 ≤ (reprInt i).length ∨ isSensitive key then [reprInt i] else []
  | .float x => if 4 ≤ (strFloat x).length ∨ isSensitive key then [strFloat x] else []
  | _ => []

/-- `_collect_sensitive_values(value, output)`. -/
def collectSensitiveValues (value : Json) : List Str :=
  (leaves casefold none value).flatMap (fun e => collected e.1 e.2)

/-- The identifiers in the parts of a path. -/
def pathIdentifiers (parts : List String) : List String :=
  (if parts.take 3 = ["api","1","vehicles"] then
    (parts[3]?.filter (fun part => decide (part ∉ collectionVehicleRoutes))).toList ++
      if parts[4]? = some "invitations" then parts[5]?.toList else []
  else []) ++
  if parts.take 5 = ["api","1","dx","charging","invoice"] then parts[5]?.toList else []

/-- `_path_secret_values(path)`. -/
def pathSecretValues (path : List Char) : List Str :=
  ((pathIdentifiers (pathParts path)).map str).filter (fun value => decide (4 ≤ value.length))

def isBearer (value : Str) : Bool := (str "bearer ").isPrefixOf (casefold value)

def headerSecretValues (value : Str) : List Str :=
  (if 4 ≤ value.length then [value] else []) ++
    if isBearer casefold value ∧ 11 < value.length then [value.drop 7] else []

def queryPairs (query : List Char) : List (Str × Str) := (parseQsl query).map (fun p => (str p.1,str p.2))

def longValues (pairs : List (Str × Str)) : List Str :=
  (pairs.map Prod.snd).filter (fun value => decide (4 ≤ value.length))

def RequestBody.formPairs : RequestBody → List (Str × Str)
  | .form pairs => pairs
  | _ => []

def RequestBody.jsonBody : RequestBody → List Json
  | .json value => [value]
  | _ => []

/-- The values that `_request_secret_values` collects into a set. -/
def requestSecretValues (request : TeslaRequest) : List Str :=
  request.headers.flatMap (fun header => headerSecretValues casefold header.2) ++
  pathSecretValues request.path ++ longValues (queryPairs request.query) ++
  longValues request.body.formPairs ++ request.body.jsonBody.flatMap (collectSensitiveValues casefold)

end Collection

/-- `tuple(sorted(values, key=len, reverse=True))` for a set with these members, which is iterated
in any order. -/
def SecretOrder (members secrets : List Str) : Prop :=
  secrets.Nodup ∧ (∀ s, s ∈ secrets ↔ s ∈ members) ∧ secrets.Pairwise (fun s t => t.length ≤ s.length)

section Summary
variable (isAlnum : CodePoint → Bool) (limit : Nat) (secrets : List Str)

def redacted : Str := str "[REDACTED]"

/-- `" ".join(value.split())`. -/
def joinWords (value : Str) : Str := join (str " ") (Python.split value)

def withoutSecrets (text : Str) : Str :=
  secrets.foldl (fun text secret => replaceAll text secret redacted) text

def withoutPatterns (text : Str) : Str :=
  (diagnosticPatterns isAlnum).foldl (fun text p => p.1.sub (Telemetry.isWord isAlnum) p.2 text) text

/-- `_safe_diagnostic_value(value, secret_values)`. -/
def safeDiagnosticValue : Json → Option Json
  | .bool b => some (.bool b)
  | .int i => some (.int i)
  | .float x => some (.float x)
  | .str value =>
    if value = [] then none
    else some (.str ((withoutPatterns isAlnum (withoutSecrets secrets (joinWords value))).take 256))
  | _ => none

def safeDiagnosticKeys : List Str := [str "error",str "error_description",str "message"]

def isBool : Json → Bool
  | .bool _ => true
  | _ => false

def entryOf (key : Str) (v : Option Json) : Dict Json := v.toList.map (fun v => (key,v))

/-- The summary of a document. -/
def documentSummary (document : Dict Json) : Dict Json :=
  safeDiagnosticKeys.flatMap (fun key =>
    entryOf key ((document.get key).bind (safeDiagnosticValue isAlnum secrets))) ++
  match document.get (str "response") with
  | some (.obj payload) =>
    entryOf (str "result") ((Dict.get payload (str "result")).filter isBool) ++
    entryOf (str "reason") ((Dict.get payload (str "reason")).bind (safeDiagnosticValue isAlnum secrets))
  | _ => []

/-- `response.json()`. -/
def responseJson (body : Bytes) : Except PyExc Json := decodeUtf8Strict body >>= decodeFrom limit {}

/-- `_diagnostic_summary(response, secret_values)`. -/
def diagnosticSummary (body : Bytes) : Except PyExc (Dict Json) :=
  match responseJson limit body with
  | .ok (.obj document) => .ok (documentSummary isAlnum secrets document)
  | .ok _ => .ok []
  -- the one exception here that is no ValueError
  | .error .recursionError => .error .recursionError
  | .error _ => .ok []

/-- `_should_summarize_response(response, fields)`. -/
def shouldSummarizeResponse (request : TeslaRequest) (status : Nat) (body : Bytes) : Bool :=
  if 64 * 1024 < body.length then false
  else !(decide (200 ≤ status) && decide (status < 300)) ||
    decide (operation request.verb (routeTemplate request.path) ∈ Commands.commandNames)

/-- The `response_summary` that a completed request is logged with, if it is logged with one. -/
def responseSummary (request : TeslaRequest) (status : Nat) (body : Bytes) :
    Except PyExc (Option (Dict Json)) :=
  if shouldSummarizeResponse request status body then
    (diagnosticSummary isAlnum limit secrets body).map
      (fun summary => if summary = [] then none else some summary)
  else .ok none

end Summary

end Woodhouse.Transport
