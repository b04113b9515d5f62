import Woodhouse.Gateway.TelemetryState
import Woodhouse.Identity.Models
import Woodhouse.Python.Dumps

namespace Woodhouse.Telemetry
open Python
open Gateway (Exc)

/-- A number of a decoded JSON document. -/
inductive Number where
  | int (n : Int)
  | float (x : PyFloat)
  deriving DecidableEq

def Number.toJson : Number → Json
  | .int n => .int n
  | .float x => .float x

structure FleetTelemetryField where
  intervalSeconds : Int
  minimumDelta : Option Number := none
  resendIntervalSeconds : Option Int := none
  includeFields : List Str := []
  deriving DecidableEq

/-- The members of a payload that are set. -/
def FleetTelemetryField.toPayload (field : FleetTelemetryField) : Json :=
  .obj ([(str "interval_seconds",.int field.intervalSeconds)] ++
    (field.minimumDelta.map (fun delta => (str "minimum_delta",delta.toJson))).toList ++
    (field.resendIntervalSeconds.map (fun n => (str "resend_interval_seconds",.int n))).toList ++
    (if field.includeFields = [] then []
      else [(str "include_fields",.arr (field.includeFields.map Json.str))]))

structure FleetTelemetryConfig where
  hostname : Str
  ca : Str
  fields : Dict FleetTelemetryField
  port : Int := 443
  alertTypes : List Str := []
  deliveryPolicy : Option Str := none
  deriving DecidableEq

structure FleetTelemetryProfile where
  version : String
  schemaVersion : String
  baselineName : String
  fields : Dict FleetTelemetryField
  alertTypes : List Str
  deliveryPolicy : Str
  deriving DecidableEq

structure ServerTrustProfile where
  profileId : String
  hostname : Str
  port : Int
  caPem : Str
  caHash : String
  deriving DecidableEq

def ServerTrustProfile.buildConfig (trust : ServerTrustProfile) (profile : FleetTelemetryProfile) :
    FleetTelemetryConfig :=
  { hostname := trust.hostname
    ca := trust.caPem
    fields := profile.fields
    port := trust.port
    alertTypes := profile.alertTypes
    deliveryPolicy := some profile.deliveryPolicy }

section Versions

def valueError : Exc := .other "ValueError"

/-- The leading decimal digits of a text, and the rest of it. -/
def spanDigits : Str → List Nat × Str
  | [] => ([],[])
  | c :: rest =>
    match digit (toAsciiDigit c) with
    | none => ([],c :: rest)
    | some d => (d :: (spanDigits rest).1,(spanDigits rest).2)

/-- The groups of `^(\d+)\.(\d+)(?:\.(\d+))?`; an absent third group is empty. -/
def semverGroups (text : Str) : Option (List Nat × List Nat × List Nat) :=
  match spanDigits text with
  | ([],_) => none
  | (major,rest) =>
    match rest with
    | [] => none
    | c :: rest =>
      if c ≠ chr '.' then none
      else
        match spanDigits rest with
        | ([],_) => none
        | (minor,rest) =>
          match rest with
          | [] => some (major,minor,[])
          | c :: rest => some (major,minor,if c = chr '.' then (spanDigits rest).1 else [])

/-- `int(part or 0)`. -/
def intOfGroup (digits : List Nat) : Except Exc Int :=
  if digits = [] then .ok 0
  else
    match intOfDigits false digits with
    | .ok n => .ok n
    | .error _ => .error valueError

def removeLeadingV (text : Str) : Str :=
  match text with
  | [] => []
  | c :: rest => if c = chr 'v' then rest else text

def versionAtLeast (value : Option String) (minimum : Int × Int × Int) : Except Exc Bool :=
  match value with
  | none => .ok false
  | some value =>
    match semverGroups (removeLeadingV (str (Identity.strip value))) with
    | none => .ok false
    | some (a,b,c) => do
      let a ← intOfGroup a
      let b ← intOfGroup b
      let c ← intOfGroup c
      return decide (minimum.1 < a ∨ minimum.1 = a ∧
        (minimum.2.1 < b ∨ minimum.2.1 = b ∧ minimum.2.2 ≤ c))

def supportsBroadProfile (fleetTelemetryVersion : Option String) : Except Exc Bool :=
  versionAtLeast fleetTelemetryVersion (1,0,0)

end Versions

section Profile

/-- The validated profile documents of the package, with overrides, additions and
removals applied. -/
structure ReviewedProfile where
  version : String
  schemaVersion : String
  baselineName : String
  fields : Dict FleetTelemetryField
  alertTypes : List Str
  deliveryPolicy : Str

def selfDrivingFields : List Str := [str "MilesSinceReset",str "SelfDrivingMilesSinceReset"]

/-- `broad_profile`: the reviewed fields that the vehicle's client supports. -/
def broadProfile (reviewed : ReviewedProfile) (fleetTelemetryVersion : Option String) :
    Except Exc FleetTelemetryProfile := do
  let supportsSelfDriving ← versionAtLeast fleetTelemetryVersion (1,2,0)
  let supportsIncludeFields ← versionAtLeast fleetTelemetryVersion (1,3,0)
  let configured :=
    if supportsSelfDriving then reviewed.fields
    else reviewed.fields.filter (fun entry => entry.1 ∉ selfDrivingFields)
  let fields :=
    if supportsIncludeFields then configured
    else configured.map (fun entry => (entry.1,{ entry.2 with includeFields := [] }))
  return { version := reviewed.version
           schemaVersion := reviewed.schemaVersion
           baselineName := reviewed.baselineName
           fields
           alertTypes := reviewed.alertTypes
           deliveryPolicy := reviewed.deliveryPolicy }

end Profile

section Hashes
variable (sha256Hex : Bytes → String)

/-- `_sha256_json`; the canonical text is ASCII. -/
def sha256Json (document : Json) : String :=
  sha256Hex ((dumps document).map (fun c => UInt8.ofNat c.val))

def FleetTelemetryProfile.fieldDocument (profile : FleetTelemetryProfile) : Json :=
  .obj
    [(str "alert_types",.arr (profile.alertTypes.map Json.str)),
     (str "delivery_policy",.str profile.deliveryPolicy),
     (str "fields",.obj (profile.fields.map (fun entry => (entry.1,entry.2.toPayload)))),
     (str "baseline",.str (str profile.baselineName)),
     (str "schema_version",.str (str profile.schemaVersion)),
     (str "version",.str (str profile.version))]

def FleetTelemetryProfile.fieldConfigHash (profile : FleetTelemetryProfile) : String :=
  sha256Json sha256Hex profile.fieldDocument

/-- What `telemetry_config_hash` hashes. -/
def planDocument (profile : FleetTelemetryProfile) (trust : ServerTrustProfile) : Json :=
  .obj
    [(str "field_config_hash",.str (str (profile.fieldConfigHash sha256Hex))),
     (str "hostname",.str trust.hostname),
     (str "port",.int trust.port),
     (str "trust_profile_hash",.str (str trust.caHash)),
     (str "trust_profile_id",.str (str trust.profileId))]

def telemetryConfigHash (profile : FleetTelemetryProfile) (trust : ServerTrustProfile) : String :=
  sha256Json sha256Hex (planDocument sha256Hex profile trust)

theorem char_lt (c : Char) : c.toNat < 0x110000 := by
  have hc : c.toNat < 0xD800 ∨ 0xDFFF < c.toNat ∧ c.toNat < 0x110000 := c.valid
  omega

theorem str_injective : Function.Injective str := by
  intro s t h
  unfold str at h
  apply String.toList_inj.mp
  refine List.map_injective_iff.mpr ?_ h
  intro c d hcd
  have hc := char_lt c
  have hd := char_lt d
  have hval := congrArg Fin.val hcd
  simp only [Fin.ofNat, Nat.mod_eq_of_lt hc, Nat.mod_eq_of_lt hd] at hval
  exact Char.toNat_inj.mp hval

/-- The field hash is part of the planned document. -/
theorem fieldConfigHash_of_plan {profile profile' : FleetTelemetryProfile} {trust : ServerTrustProfile}
    (h : planDocument sha256Hex profile trust = planDocument sha256Hex profile' trust) :
    profile.fieldConfigHash sha256Hex = profile'.fieldConfigHash sha256Hex := by
  simp only [planDocument, Json.obj.injEq, List.cons.injEq, Prod.mk.injEq, Json.str.injEq, true_and,
    and_true] at h
  exact str_injective h

end Hashes

end Woodhouse.Telemetry
