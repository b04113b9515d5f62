import Woodhouse.Python.Dicts
import Woodhouse.Telemetry.Profiles

namespace Woodhouse.Telemetry
open Python
open Gateway (Exc)

/-- A decoded TOML value. -/
inductive Toml where
  | str (text : String)
  | int (n : Int)
  | float (x : PyFloat)
  | bool (b : Bool)
  | datetime (text : String)
  | arr (items : List Toml)
  | table (entries : List (Str × Toml))

/-- The `RuntimeError`s of the loader. A field error names its field and, where the message
lists them, other fields. -/
inductive ProfileError where
  | missing (key : String)
  | value (key : String)
  | field (name : Str) (problem : String) (names : List Str)
  | undecided (names : List Str)
  | message (text : String)
  deriving DecidableEq

def ProfileError.exc (_ : ProfileError) : Exc := .other "RuntimeError"

section Catalog

/-- The cells of a row of the pinned catalog. -/
structure CatalogRow where
  field : String
  category : String
  type : String
  description : String

structure TelemetryFieldDefinition where
  name : Str
  category : String
  valueType : String
  description : String

def CatalogRow.definition (row : CatalogRow) : TelemetryFieldDefinition :=
  { name := str (Identity.strip row.field)
    category := Identity.strip row.category
    valueType := Identity.strip row.type
    description := Identity.strip row.description }

def loadFieldCatalog (rows : List CatalogRow) : Except ProfileError (List TelemetryFieldDefinition) :=
  let definitions := rows.map CatalogRow.definition
  if definitions.length ≠ 239 ∨ (definitions.map TelemetryFieldDefinition.name).dedup.length ≠ 239 then
    .error (.message "Pinned Fleet Telemetry field catalog is incomplete")
  else .ok definitions

end Catalog

section Requirements
variable (document : Dict Toml)

def requireTable (key : String) : Except ProfileError (Dict Toml) :=
  match document.get (str key) with
  | some (.table entries) => .ok entries
  | _ => .error (.missing key)

def requireString (key : String) : Except ProfileError String :=
  match document.get (str key) with
  | some (.str text) => if Identity.strip text = "" then .error (.value key) else .ok text
  | _ => .error (.value key)

def Toml.text? : Toml → Option String
  | .str text => some text
  | _ => none

def requireAlertTypes : Except ProfileError (List String) :=
  let allowed := ["service","customer","service-fix"]
  match document.get (str "alert_types") with
  | some (.arr items) =>
    match items.mapM Toml.text? with
    | some texts =>
      if texts = [] ∨ texts.any (fun text => text ∉ allowed) then
        .error (.message "Telemetry profile alert_types are invalid")
      else .ok texts
    | none => .error (.message "Telemetry profile alert_types are invalid")
  | _ => .error (.message "Telemetry profile alert_types are invalid")

end Requirements

section Sections
variable (catalog : Dict TelemetryFieldDefinition)

/-- `number <= 0`, which no comparison with a NaN is. -/
def Number.isNonpositive : Number → Bool
  | .int n => decide (n ≤ 0)
  | .float .nan => false
  | .float (.inf negative) => negative
  | .float (.finite negative q) => decide ((if negative then -q else q) ≤ 0)

def fieldInterval (name : Str) (spec : Dict Toml) : Except ProfileError Int :=
  match spec.get (str "interval_seconds") with
  | some (.int n) =>
    if n ≤ 0 then .error (.field name "has an invalid interval" []) else .ok n
  | _ => .error (.field name "has an invalid interval" [])

def Toml.number? : Toml → Option Number
  | .int n => some (.int n)
  | .float x => some (.float x)
  | _ => none

def fieldMinimumDelta (name : Str) (spec : Dict Toml) : Except ProfileError (Option Number) :=
  match spec.get (str "minimum_delta") with
  | none => .ok none
  | some value =>
    match value.number? with
    | none => .error (.field name "has an invalid delta" [])
    | some delta =>
      if delta.isNonpositive then .error (.field name "has an invalid delta" [])
      else if (catalog.get name).any
          (fun definition => definition.valueType ∈ ["integer","real","Location"]) then
        .ok (some delta)
      else .error (.field name "cannot use minimum_delta" [])

/-- The self-driving statistics include only each other. -/
def permitsInclude (name includedName : Str) : Bool :=
  if name ∈ selfDrivingFields ∨ includedName ∈ selfDrivingFields then
    selfDrivingFields.all (fun field => field ∈ [name,includedName]) &&
      [name,includedName].all (fun field => field ∈ selfDrivingFields)
  else true

def fieldIncludes (name : Str) (spec : Dict Toml) : Except ProfileError (List Str) :=
  match (spec.get (str "include_fields")).getD (.arr []) with
  | .arr items =>
    match items.mapM Toml.text? with
    | none => .error (.field name "has invalid include_fields" [])
    | some texts =>
      let includeFields := texts.map str
      if includeFields.dedup.length ≠ includeFields.length then
        .error (.field name "has invalid include_fields" [])
      else if includeFields.any (fun field => field ∉ catalog.keys) ∨ name ∈ includeFields then
        .error (.field name "includes invalid fields"
          (includeFields.filter (fun field => field ∉ catalog.keys)))
      else if includeFields.all (permitsInclude name) then .ok includeFields
      else
        .error (.message "Tesla permits self-driving statistic fields to include only each other")
  | _ => .error (.field name "has invalid include_fields" [])

/-- One entry of a field section, with its rationale where the section requires one. -/
def loadField (requireRationale : Bool) (name : Str) (raw : Toml) :
    Except ProfileError (FleetTelemetryField × String) :=
  if name ∉ catalog.keys then .error (.field name "is not in the pinned catalog" [])
  else
    match raw with
    | .table spec => do
      let allowed := [str "include_fields",str "interval_seconds",str "minimum_delta"] ++
        (if requireRationale then [str "rationale"] else [])
      let unknown := (Dict.keys spec).filter (fun key => key ∉ allowed)
      if unknown ≠ [] then throw (.field name "has unknown keys" unknown)
      else
        let intervalSeconds ← fieldInterval name spec
        let minimumDelta ← fieldMinimumDelta catalog name spec
        let includeFields ← fieldIncludes catalog name spec
        let rationale ← if requireRationale then requireString spec "rationale" else .ok ""
        return ({ intervalSeconds, minimumDelta, includeFields },rationale)
    | _ => .error (.field name "must be a TOML inline table" [])

def loadFieldSection (document : Dict Toml) (sectionName : String) (requireRationale : Bool) :
    Except ProfileError (Dict (FleetTelemetryField × String)) := do
  let values ← requireTable document sectionName
  Dict.traverse (loadField catalog requireRationale) values

def loadReason (name : Str) (raw : Toml) : Except ProfileError String :=
  if name ∉ catalog.keys then .error (.field name "is not in the pinned catalog" [])
  else
    match raw with
    | .str reason =>
      if Identity.strip reason = "" then .error (.field name "requires a rationale" [])
      else .ok reason
    | _ => .error (.field name "requires a rationale" [])

def loadReasonSection (document : Dict Toml) (sectionName : String) : Except ProfileError (Dict String) := do
  let values ← requireTable document sectionName
  Dict.traverse (loadReason catalog) values

end Sections

/-- The sections of the two documents. -/
structure ProfileSections where
  baseline : Dict FleetTelemetryField
  overrides : Dict (FleetTelemetryField × String)
  additions : Dict (FleetTelemetryField × String)
  removals : Dict String
  omissions : Dict String

section Partition

/-- `a & b` of two sets of names is not empty. -/
def meets (a b : List Str) : Bool := a.any (fun name => name ∈ b)

def validateDeclarativePartition (catalog : Dict TelemetryFieldDefinition) (s : ProfileSections) :
    Except ProfileError Unit :=
  let baselineNames := s.baseline.keys
  let nonbaseline := catalog.keys.filter (fun name => name ∉ baselineNames)
  let decided := s.additions.keys ++ s.omissions.keys
  if baselineNames.dedup.length ≠ 93 then
    .error (.message "Pinned Tessie telemetry baseline must contain exactly 93 fields")
  else if ¬ s.overrides.keys ⊆ baselineNames then
    .error (.message "Woodhouse overrides must name Tessie baseline fields")
  else if ¬ s.removals.keys ⊆ baselineNames then
    .error (.message "Woodhouse removals must name Tessie baseline fields")
  else if meets s.overrides.keys s.removals.keys then
    .error (.message "A Tessie field cannot be both overridden and removed")
  else if meets s.additions.keys baselineNames then
    .error (.message "Woodhouse additions must not already be in the Tessie baseline")
  else if meets s.omissions.keys baselineNames then
    .error (.message "Catalog omissions must not name Tessie baseline fields")
  else if meets s.additions.keys s.omissions.keys then
    .error (.message "A non-baseline field cannot be both added and omitted")
  else if ¬ decided ⊆ nonbaseline ∨ ¬ nonbaseline ⊆ decided then
    -- the names of "Every non-baseline catalog field requires a decision: …"
    .error (.undecided ((nonbaseline.filter (fun name => name ∉ decided)).mergeSort
      (fun a b => decide (a ≤ b))))
  else .ok ()

end Partition

section Assembly

structure BroadProfile extends FleetTelemetryProfile where
  excludedFields : Dict String
  capabilityOmissions : Dict String
  baselineComparison : Json

/-- The reviewed fields, before the version of the client is looked at. -/
def ProfileSections.configured (s : ProfileSections) : Dict FleetTelemetryField :=
  ((s.baseline.drop s.removals.keys).update (s.overrides.map (fun e => (e.1,e.2.1)))).update
    (s.additions.map (fun e => (e.1,e.2.1)))

def selfDrivingReason : String :=
  "Requires Fleet Telemetry client 1.2.0 and supported HW4 firmware."

def includeReason : String :=
  "Synchronized included fields require Fleet Telemetry client 1.3.0. " ++
    "The included field remains independently configured."

/-- The entry of a field whose included fields are left out. -/
def includeOmission (name : Str) : Str := name ++ str ".include_fields"

/-- The configured fields and the capability omissions for a client. -/
def gated (configured : Dict FleetTelemetryField) (supportsSelfDriving supportsIncludeFields : Bool) :
    Dict FleetTelemetryField × Dict String :=
  let (configured,omissions) :=
    if supportsSelfDriving then (configured,[])
    else (configured.drop selfDrivingFields,
      (selfDrivingFields.filter (fun name => name ∈ configured.keys)).map
        (fun name => (name,selfDrivingReason)))
  if supportsIncludeFields then (configured,omissions)
  else (configured.map (fun e => (e.1,{ e.2 with includeFields := [] })),
    Dict.update omissions ((configured.filter (fun e => e.2.includeFields ≠ [])).map
      (fun e => (includeOmission e.1,includeReason))))

/-- The entries of a dictionary by key. -/
def sortedItems {α : Type} (d : Dict α) : Dict α := d.mergeSort (fun a b => decide (a.1 ≤ b.1))

def payloadOrNull (fields : Dict FleetTelemetryField) (name : Str) : Json :=
  ((fields.get name).map FleetTelemetryField.toPayload).getD .null

def buildBaselineComparison (baselineName : String) (s : ProfileSections)
    (configured : Dict FleetTelemetryField) (capabilityOmissions : Dict String) : Json :=
  .obj
    [(str "baseline",.str (str baselineName)),
     (str "baseline_field_count",.int s.baseline.length),
     (str "woodhouse_field_count",.int configured.length),
     (str "overrides",.obj ((sortedItems s.overrides).map (fun e => (e.1,.obj
       [(str "baseline",payloadOrNull s.baseline e.1),
        (str "woodhouse",payloadOrNull configured e.1),
        (str "rationale",.str (str e.2.2))])))),
     (str "additions",.obj ((sortedItems s.additions).map (fun e => (e.1,.obj
       [(str "woodhouse",payloadOrNull configured e.1),
        (str "rationale",.str (str e.2.2))])))),
     (str "removals",.obj ((sortedItems s.removals).map (fun e => (e.1,.obj
       [(str "baseline",payloadOrNull s.baseline e.1),
        (str "rationale",.str (str e.2))])))),
     (str "catalog_omissions",.obj ((sortedItems s.omissions).map (fun e => (e.1,.str (str e.2))))),
     (str "capability_omissions",
       .obj ((sortedItems capabilityOmissions).map (fun e => (e.1,.str (str e.2)))))]

variable (rows : List CatalogRow) (baselineDocument profileDocument : Dict Toml)

/-- The baseline that both documents name, under one transport policy. -/
def requireBaseline (baselineMeta profileMeta : Dict Toml) : Except ProfileError String := do
  let baselineName ← requireString baselineMeta "name"
  if (← requireString profileMeta "baseline") ≠ baselineName then
    throw (.message "Woodhouse profile names a different Tessie baseline")
  if (← requireString profileMeta "delivery_policy") ≠
      (← requireString baselineMeta "delivery_policy") then
    throw (.message "Transport policy changes require an explicit implementation decision")
  if (← requireAlertTypes profileMeta) ≠ (← requireAlertTypes baselineMeta) then
    throw (.message "Transport policy changes require an explicit implementation decision")
  return baselineName

def loadSections (catalog : Dict TelemetryFieldDefinition) : Except ProfileError ProfileSections := do
  let baseline ← loadFieldSection catalog baselineDocument "fields" false
  let overrides ← loadFieldSection catalog profileDocument "overrides" true
  let additions ← loadFieldSection catalog profileDocument "additions" true
  let removals ← loadReasonSection catalog profileDocument "removals"
  let omissions ← loadReasonSection catalog profileDocument "omissions"
  return { baseline := baseline.map (fun e => (e.1,e.2.1)), overrides, additions, removals, omissions }

/-- What `broad_profile` loads before it looks at the client. -/
def loadProfileSections : Except ProfileError (Dict Toml × String × ProfileSections) := do
  let definitions ← loadFieldCatalog rows
  let catalog := definitions.map (fun definition => (definition.name,definition))
  let baselineMeta ← requireTable baselineDocument "baseline"
  let profileMeta ← requireTable profileDocument "profile"
  let baselineName ← requireBaseline baselineMeta profileMeta
  let sections ← loadSections baselineDocument profileDocument catalog
  validateDeclarativePartition catalog sections
  return (profileMeta,baselineName,sections)

/-- The profile of a client, from the loaded sections. -/
def assembleProfile (profileMeta : Dict Toml) (baselineName : String) (s : ProfileSections)
    (supportsSelfDriving supportsIncludeFields : Bool) : Except ProfileError BroadProfile := do
  let (configured,capabilityOmissions) := gated s.configured supportsSelfDriving supportsIncludeFields
  let version ← requireString profileMeta "version"
  let schemaVersion ← requireString profileMeta "schema_version"
  let alertTypes ← requireAlertTypes profileMeta
  let deliveryPolicy ← requireString profileMeta "delivery_policy"
  return { version, schemaVersion, baselineName
           fields := configured
           alertTypes := alertTypes.map str
           deliveryPolicy := str deliveryPolicy
           excludedFields := s.omissions.update s.removals
           capabilityOmissions
           baselineComparison :=
             buildBaselineComparison baselineName s configured capabilityOmissions }

/-- `broad_profile` over the catalog and the two documents of the package. -/
def broadProfileFrom (fleetTelemetryVersion : Option String) : Except Exc BroadProfile := do
  let (profileMeta,baselineName,sections) ←
    (loadProfileSections rows baselineDocument profileDocument).mapError ProfileError.exc
  let supportsSelfDriving ← versionAtLeast fleetTelemetryVersion (1,2,0)
  let supportsIncludeFields ← versionAtLeast fleetTelemetryVersion (1,3,0)
  (assembleProfile profileMeta baselineName sections supportsSelfDriving
    supportsIncludeFields).mapError ProfileError.exc

end Assembly

end Woodhouse.Telemetry
