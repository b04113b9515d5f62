import Mathlib.Data.List.Basic
import Woodhouse.Effects.Interleaving

namespace Woodhouse.Certificates
open Effects

abbrev Bytes := List UInt8

/-- The exception classes the renewer tells apart. -/
inductive Exc where
  | notFound
  | fileNotFound
  | extensionNotFound
  | value (message : String)
  | certbot (category : String) (returncode : Int)
  | runtime (message : String)
  | other (name : String)
  deriving DecidableEq

/-- The secrets the settings name; the deployment gives each its own id. -/
inductive Secret where
  | cert
  | key
  | state
  | release
  | trustProfile
  | trustReadiness
  deriving DecidableEq

/-- The version component of a secret version name, by what it means. -/
inductive VersionName where
  | latest
  | number (n : Nat)
  | invalid (text : String)
  deriving DecidableEq

def secretVersionNumber : VersionName → Except Exc Nat
  | .number n =>
    if n < 1 then .error (.value "Secret Manager returned an invalid version name") else .ok n
  | _ => .error (.value "Secret Manager returned an invalid version name")

/-- A release manifest as `json.loads` returns it; a field that is absent, empty or
not a string is `none`. -/
structure ReleaseDocument where
  hostname : Option String
  certVersion : Option VersionName
  keyVersion : Option VersionName
  stateVersion : Option VersionName
  leafSha256 : Option String
  fullchainSha256 : Option String
  notAfter : Option Int
  trustProfileId : Option String
  trustProfileSha256 : Option String
  deriving DecidableEq

structure ReadinessDocument where
  ready : Bool
  trustProfileId : Option String
  trustProfileSha256 : Option String
  requiredVehicleCount : Option Int
  deriving DecidableEq

/-- What a secret version stores; a JSON text is represented by what it decodes to. -/
inductive Payload where
  | bytes (data : Bytes)
  | releaseManifest (document : ReleaseDocument)
  | readiness (document : ReadinessDocument)
  deriving DecidableEq

/-- A JSON text holds no PEM block and is no archive. -/
def Payload.data : Payload → Bytes
  | .bytes data => data
  | _ => []

structure SecretValue where
  data : Payload
  version : Nat

/-- The Certbot directory: the live pair, and whatever else its archive holds. -/
structure ConfigDir where
  fullchain : Option Bytes
  privateKey : Option Bytes
  lineage : Bytes
  deriving DecidableEq

structure Leaf where
  dnsNames : Option (List String)
  notBefore : Int
  notAfter : Int
  sha256 : String
  publicKey : Bytes

structure TrustCertificate where
  pem : Bytes
  der : Bytes
  basicConstraintsCa : Option Bool

/-- The parts of `cryptography`, `hashlib`, `tarfile` and `re` that the renewer uses. -/
structure Library where
  pemCertificates : Bytes → List Bytes
  loadCertificate : Bytes → Except Exc Leaf
  loadCertificates : Bytes → Except Exc (List TrustCertificate)
  publicKeyOf : Bytes → Except Exc Bytes
  sha256Hex : Bytes → String
  openArchive : Bytes → Except Exc (Nat × ConfigDir)
  writeArchive : ConfigDir → Bytes

structure Settings where
  hostname : String
  trustProfileId : String
  deploymentTimeoutSeconds : Nat := 600

structure CertificateMaterial where
  fullchain : Bytes
  privateKey : Bytes
  leafSha256 : String
  fullchainSha256 : String
  notBefore : Int
  notAfter : Int

structure TrustProfile where
  profileId : String
  pem : Bytes
  sha256 : String

/-- A parsed release manifest, with the version it was read from. -/
structure ActiveRelease where
  certVersion : VersionName
  keyVersion : VersionName
  stateVersion : VersionName
  releaseVersion : Nat
  leafSha256 : String
  fullchainSha256 : String
  trustProfileId : Option String
  trustProfileSha256 : Option String

/-- The entries `_prune_old_release_versions` reads of a release. -/
structure Retained where
  certVersion : VersionName
  keyVersion : VersionName
  stateVersion : VersionName
  releaseVersion : VersionName

def ActiveRelease.retained (active : ActiveRelease) : Retained :=
  { certVersion := active.certVersion, keyVersion := active.keyVersion
    stateVersion := active.stateVersion, releaseVersion := .number active.releaseVersion }

structure ListedVersion where
  number : Nat
  destroyed : Bool

structure CertbotRun where
  returncode : Int
  output : String
  config : ConfigDir

/-- The remote calls and processes of a renewal. The deployment deadline is the
number of ten-second polls the clock leaves it. -/
inductive Call where
  | accessSecretVersion (secret : Secret) (version : VersionName)
  | addSecretVersion (secret : Secret) (payload : Payload)
  | listSecretVersions (secret : Secret)
  | destroySecretVersion (secret : Secret) (version : Nat)
  | utcNow
  | certbot (config : ConfigDir)
  | opensslVerify (partialChain : Bool) (leaf : Bytes) (chain : List Bytes) (trust : Bytes)
  | guestStatus
  | publicLeafFingerprint (hostname : String)
  | resetInstance
  | deadlinePolls (timeoutSeconds : Nat)

abbrev Call.Ret : Call → Type
  | .accessSecretVersion .. => SecretValue
  | .addSecretVersion .. => Nat
  | .listSecretVersions _ => List ListedVersion
  | .destroySecretVersion .. => Unit
  | .utcNow => Int
  | .certbot _ => CertbotRun
  | .opensslVerify .. => Int
  | .guestStatus => Option String
  | .publicLeafFingerprint _ => Option String
  | .resetInstance => Unit
  | .deadlinePolls _ => Nat

abbrev Renewal (α : Type) := Prog Call Call.Ret Exc α

abbrev RenewalEvent := Event Call Call.Ret Exc

def perform (c : Call) : Renewal c.Ret := Prog.perform c

def maxStateBytes : Nat := 60000

def maxExtractedStateBytes : Nat := 5000000

/-- Durations are microseconds. -/
def days (n : Int) : Int := n * 86400000000

def minimumActivationRemaining : Int := days 7

def shortLivedCertificateLifetime : Int := days 10

def readSecret (secret : Secret) (version : VersionName) (missingOk : Bool) :
    Renewal (Option SecretValue) :=
  tryCatch (do
    let value ← perform (.accessSecretVersion secret version)
    return some value) fun
  | .notFound => if missingOk then return none else throw .notFound
  | e => throw e

def destroyOlder (secret : Secret) (retainedNumber : Nat) : List ListedVersion → Renewal Unit
  | [] => pure ()
  | version :: rest =>
    if version.number ≥ retainedNumber ∨ version.destroyed = true then
      destroyOlder secret retainedNumber rest
    else do
      perform (.destroySecretVersion secret version.number)
      destroyOlder secret retainedNumber rest

def pruneSecret (secret : Secret) (retainedVersion : VersionName) : Renewal Unit := do
  let retainedNumber ← Prog.ofExcept (secretVersionNumber retainedVersion)
  let versions ← perform (.listSecretVersions secret)
  destroyOlder secret retainedNumber versions

def pruneOldReleaseVersions (release : Retained) : Renewal Unit := do
  pruneSecret .cert release.certVersion
  pruneSecret .key release.keyVersion
  pruneSecret .state release.stateVersion
  pruneSecret .release release.releaseVersion

/-- `a / b` of a `timedelta` by a positive integer: to the nearest, ties to even. -/
def divideAndRound (a b : Int) : Int :=
  let q := a / b
  let r := a % b
  if 2 * r > b ∨ (2 * r = b ∧ q % 2 = 1) then q + 1 else q

def certificateIsDue (material : CertificateMaterial) : Renewal Bool := do
  let checkedAt ← perform .utcNow
  let lifetime := material.notAfter - material.notBefore
  if lifetime ≤ 0 then return true
  else
    let divisor := if lifetime ≤ shortLivedCertificateLifetime then 2 else 3
    return decide (material.notAfter - checkedAt < divideAndRound lifetime divisor)

def trustMatches (active : ActiveRelease) (trust : TrustProfile) : Bool :=
  active.trustProfileId = some trust.profileId ∧ active.trustProfileSha256 = some trust.sha256

/-- `marker in status`. -/
def contains (needle haystack : List Char) : Bool :=
  match haystack with
  | [] => needle.isEmpty
  | c :: rest => needle.isPrefixOf (c :: rest) || contains needle rest

def certbotPatterns : List (String × List String) :=
  [("dns_provider_authorization",
      ["invalid request headers", "authentication error", "invalid api token",
        "invalid access token", "insufficient permissions", "permission denied",
        "error determining zone_id"]),
    ("dns_provider_unavailable",
      ["api.cloudflare.com", "cloudflare api error", "cloudflare.exceptions"]),
    ("dns_propagation", ["dns problem", "unauthorized", "incorrect txt record", "propagation"]),
    ("acme_rate_limited",
      ["rate limit", "too many certificates", "too many failed authorizations"]),
    ("acme_unavailable",
      ["connectionerror", "connection refused", "connection reset", "name or service not known",
        "temporary failure in name resolution", "read timed out", "connect timeout",
        "service unavailable"]),
    ("acme_state_invalid",
      ["renewal configuration file", "expected cert.pem to be a symlink", "parsefailures",
        "malformed", "no such file or directory"])]

def certbotFailureCategory (output : String) : String :=
  let normalized := output.toLower.toList
  match certbotPatterns.find? (fun p => p.2.any (fun needle => contains needle.toList normalized)) with
  | some p => p.1
  | none => "certbot_failed"

def runCertbot (config : ConfigDir) : Renewal ConfigDir := do
  let result ← perform (.certbot config)
  if result.returncode ≠ 0 then
    throw (.certbot (certbotFailureCategory result.output) result.returncode)
  else return result.config

def parseRelease (settings : Settings) : Option SecretValue → Except Exc (Option ActiveRelease)
  | none => .ok none
  | some value =>
    match value.data with
    | .releaseManifest document =>
      if document.hostname ≠ some settings.hostname then
        .error (.value "active TLS release manifest is invalid")
      else
        match document.certVersion, document.keyVersion, document.stateVersion,
          document.leafSha256, document.fullchainSha256 with
        | some certVersion, some keyVersion, some stateVersion, some leafSha256,
          some fullchainSha256 =>
          .ok (some
            { certVersion, keyVersion, stateVersion, leafSha256, fullchainSha256
              releaseVersion := value.version
              trustProfileId := document.trustProfileId
              trustProfileSha256 := document.trustProfileSha256 })
        | _, _, _, _, _ => .error (.value "active TLS release manifest is incomplete")
    | .readiness _ => .error (.value "active TLS release manifest is invalid")
    | .bytes _ => .error (.value "Expecting value")

def releaseDocument (settings : Settings) (material : CertificateMaterial)
    (certVersion keyVersion stateVersion : Nat) (trust : TrustProfile) : ReleaseDocument :=
  { hostname := some settings.hostname
    certVersion := some (.number certVersion)
    keyVersion := some (.number keyVersion)
    stateVersion := some (.number stateVersion)
    leafSha256 := some material.leafSha256
    fullchainSha256 := some material.fullchainSha256
    notAfter := some material.notAfter
    trustProfileId := some trust.profileId
    trustProfileSha256 := some trust.sha256 }

def requireTrustCutoverReadiness (trust : TrustProfile) : Renewal Unit := do
  match ← readSecret .trustReadiness .latest true with
  | none => throw (.value "telemetry trust-profile cutover is not approved")
  | some value =>
    match value.data with
    | .readiness document =>
      if document.ready = true ∧ document.trustProfileId = some trust.profileId ∧
          document.trustProfileSha256 = some trust.sha256 ∧
          document.requiredVehicleCount.any (fun count => 0 ≤ count) = true then
        return ()
      else throw (.value "telemetry trust-profile cutover approval does not match")
    | .releaseManifest _ =>
      throw (.value "telemetry trust-profile cutover approval does not match")
    | .bytes _ => throw (.value "Expecting value")

/-- `:tls={release_version}:{leaf_sha256[:16]}`. -/
def deploymentMarker (releaseVersion : Nat) (leafSha256 : String) : List Char :=
  ":tls=".toList ++ (Nat.repr releaseVersion).toList ++ ":".toList ++ leafSha256.toList.take 16

def deployed (settings : Settings) (marker : List Char) (leafSha256 : String) : Renewal Bool := do
  let status ← perform .guestStatus
  if contains marker (status.getD "").toList = true then
    let fingerprint ← perform (.publicLeafFingerprint settings.hostname)
    return fingerprint = some leafSha256
  else return false

/-- The polls before the deadline; the last one has nothing left to wait for. -/
def pollDeployment (settings : Settings) (marker : List Char) (leafSha256 : String) :
    Nat → Renewal Unit
  | 0 => throw (.runtime "certificate_deployment_verification_timed_out")
  | polls + 1 => do
    if ← deployed settings marker leafSha256 then return ()
    else pollDeployment settings marker leafSha256 polls

def deployRelease (settings : Settings) (releaseVersion : Nat) (leafSha256 : String) :
    Renewal Unit := do
  let marker := deploymentMarker releaseVersion leafSha256
  if ← deployed settings marker leafSha256 then return ()
  else
    perform .resetInstance
    let polls ← perform (.deadlinePolls settings.deploymentTimeoutSeconds)
    pollDeployment settings marker leafSha256 polls

section Library
variable (lib : Library)

def extractState (payload : Bytes) : Except Exc ConfigDir :=
  if payload.length > maxStateBytes then .error (.value "stored ACME state exceeds its size limit")
  else
    match lib.openArchive payload with
    | .error e => .error e
    | .ok (size,config) =>
      if size > maxExtractedStateBytes then
        .error (.value "stored ACME state expands beyond its size limit")
      else .ok config

def archiveState (config : ConfigDir) : Except Exc Bytes :=
  let payload := lib.writeArchive config
  if payload.length > maxStateBytes then
    .error (.value "ACME state exceeds the Secret Manager payload budget")
  else .ok payload

def validateCertificate (fullchain : Bytes) (hostname : String) (minimumRemaining : Option Int) :
    Renewal CertificateMaterial :=
  match lib.pemCertificates fullchain with
  | first :: _ :: _ => do
    let leaf ← Prog.ofExcept (lib.loadCertificate first)
    match leaf.dnsNames with
    | none => throw .extensionNotFound
    | some names =>
      if hostname ∉ names then
        throw (.value "certificate SAN does not contain the telemetry hostname")
      else
        let checkedAt ← perform .utcNow
        if minimumRemaining.any (fun minimum => leaf.notAfter < checkedAt + minimum) = true then
          throw (.value "certificate validity is shorter than the deployment safety window")
        else
          return { fullchain, privateKey := [], leafSha256 := leaf.sha256
                   fullchainSha256 := lib.sha256Hex fullchain
                   notBefore := leaf.notBefore, notAfter := leaf.notAfter }
  | _ => throw (.value "certificate chain is incomplete")

/-- `pem.findall(…)[0]`, loaded. -/
def loadLeaf (fullchain : Bytes) : Except Exc Leaf :=
  match lib.pemCertificates fullchain with
  | first :: _ => lib.loadCertificate first
  | [] => .error (.other "IndexError")

def validateMaterial (fullchain privateKey : Bytes) (hostname : String) :
    Renewal CertificateMaterial := do
  let material ← validateCertificate lib fullchain hostname (some minimumActivationRemaining)
  let leaf ← Prog.ofExcept (loadLeaf lib fullchain)
  let keyPublic ← Prog.ofExcept (lib.publicKeyOf privateKey)
  if leaf.publicKey ≠ keyPublic then throw (.value "certificate and private key do not match")
  else return { material with privateKey }

def readFile : Option Bytes → Except Exc Bytes
  | some data => .ok data
  | none => .error .fileNotFound

def loadAndValidateMaterial (config : ConfigDir) (hostname : String) :
    Renewal CertificateMaterial := do
  let fullchain ← Prog.ofExcept (readFile config.fullchain)
  let privateKey ← Prog.ofExcept (readFile config.privateKey)
  validateMaterial lib fullchain privateKey hostname

def activeReleaseMaterial (settings : Settings) (active : ActiveRelease) :
    Renewal CertificateMaterial := do
  match ← readSecret .cert active.certVersion false with
  | none => throw (.value "active TLS release certificate is missing")
  | some certValue =>
    let material ← validateCertificate lib certValue.data.data settings.hostname none
    if material.leafSha256 ≠ active.leafSha256 ∨
        material.fullchainSha256 ≠ active.fullchainSha256 then
      throw (.value "active TLS release material does not match its manifest")
    else return material

def loadTrustProfile (profileId : String) (pem : Bytes) : Except Exc TrustProfile :=
  match lib.loadCertificates pem with
  | .error e => .error e
  | .ok certificates =>
    if certificates = [] then .error (.value "telemetry trust profile is empty")
    else if certificates.any (fun c => c.basicConstraintsCa ≠ some true) then
      .error (.value "telemetry trust profile contains a non-CA certificate")
    else
      .ok { profileId
            pem := certificates.flatMap TrustCertificate.pem
            sha256 := lib.sha256Hex
              ((certificates.map TrustCertificate.der).mergeSort (fun a b => decide (a ≤ b))).flatten }

def validateCandidateAgainstTrustProfile (material : CertificateMaterial) (trust : TrustProfile) :
    Renewal Unit :=
  match lib.pemCertificates material.fullchain with
  | [] => throw (.other "IndexError")
  | leaf :: chain => do
    let code ← perform (.opensslVerify false leaf chain trust.pem)
    if code = 0 then return ()
    else
      let code ← perform (.opensslVerify true leaf chain trust.pem)
      if code ≠ 0 then
        throw (.value "certificate candidate is outside the configured telemetry trust profile")
      else return ()

/-- The stored material, unless it is missing, unusable or due. -/
def storedMaterial (settings : Settings) (config : ConfigDir) :
    Renewal (Option CertificateMaterial) :=
  tryCatch (do
    let material ← loadAndValidateMaterial lib config settings.hostname
    let due ← certificateIsDue material
    return if due then none else some material) fun
  | .fileNotFound => return none
  | .value _ => return none
  | .extensionNotFound => return none
  | e => throw e

def restoredConfig : Renewal ConfigDir := do
  match ← readSecret .state .latest true with
  | some state => Prog.ofExcept (extractState lib state.data.data)
  | none => return { fullchain := none, privateKey := none, lineage := [] }

def candidateMaterial (settings : Settings) : Renewal (CertificateMaterial × ConfigDir) := do
  let config ← restoredConfig lib
  match ← storedMaterial lib settings config with
  | some material => return (material,config)
  | none =>
    let config ← runCertbot config
    let material ← loadAndValidateMaterial lib config settings.hostname
    return (material,config)

/-- The answer of `renew_certificate`. -/
inductive Outcome where
  | healthy
  | renewed
  deriving DecidableEq

/-- Certificate, key and state versions are added before the release that names them. -/
def publishRelease (settings : Settings) (material : CertificateMaterial) (config : ConfigDir)
    (trust : TrustProfile) : Renewal Retained := do
  let certVersion ← perform (.addSecretVersion .cert (.bytes material.fullchain))
  let keyVersion ← perform (.addSecretVersion .key (.bytes material.privateKey))
  let archive ← Prog.ofExcept (archiveState lib config)
  let stateVersion ← perform (.addSecretVersion .state (.bytes archive))
  let releaseVersion ← perform (.addSecretVersion .release
    (.releaseManifest
      (releaseDocument settings material certVersion keyVersion stateVersion trust)))
  deployRelease settings releaseVersion material.leafSha256
  return { certVersion := .number certVersion, keyVersion := .number keyVersion
           stateVersion := .number stateVersion, releaseVersion := .number releaseVersion }

/-- Everything below the early return for an active release that is not due. -/
def issueRelease (settings : Settings) (active : Option ActiveRelease) (trust : TrustProfile) :
    Renewal Outcome := do
  let (material,config) ← candidateMaterial lib settings
  validateCandidateAgainstTrustProfile lib material trust
  match active with
  | some release =>
    if trustMatches release trust = false then requireTrustCutoverReadiness trust
    if release.leafSha256 = material.leafSha256 ∧ trustMatches release trust = true then
      deployRelease settings release.releaseVersion material.leafSha256
      pruneOldReleaseVersions release.retained
      return .healthy
    else
      let published ← publishRelease lib settings material config trust
      pruneOldReleaseVersions published
      return .renewed
  | none =>
    requireTrustCutoverReadiness trust
    let published ← publishRelease lib settings material config trust
    pruneOldReleaseVersions published
    return .renewed

/-- A release whose trust profile is the configured one is kept until it is due. -/
def keepOrIssue (settings : Settings) (active : Option ActiveRelease) (trust : TrustProfile) :
    Renewal Outcome :=
  match active with
  | some release =>
    if trustMatches release trust = true then do
      let material ← activeReleaseMaterial lib settings release
      if ← certificateIsDue material then issueRelease lib settings (some release) trust
      else
        validateCandidateAgainstTrustProfile lib material trust
        deployRelease settings release.releaseVersion material.leafSha256
        pruneOldReleaseVersions release.retained
        return .healthy
    else issueRelease lib settings (some release) trust
  | none => issueRelease lib settings none trust

def renewCertificate (settings : Settings) : Renewal Outcome := do
  let activeValue ← readSecret .release .latest true
  let active ← Prog.ofExcept (parseRelease settings activeValue)
  match ← readSecret .trustProfile .latest false with
  | none => throw (.value "telemetry trust profile is missing")
  | some trustValue =>
    let trust ← Prog.ofExcept (loadTrustProfile lib settings.trustProfileId trustValue.data.data)
    keepOrIssue lib settings active trust

end Library

/-- One version of a secret. -/
structure Version where
  payload : Payload
  destroyed : Bool := false

/-- Secret Manager: the versions of each secret, numbered from 1 in order. -/
structure SecretManager where
  versions : Secret → List Version

namespace SecretManager
variable (sm : SecretManager)

def version (secret : Secret) (n : Nat) : Option Version :=
  if n < 1 then none else (sm.versions secret)[n - 1]?

def access (secret : Secret) (n : Nat) : Except Exc SecretValue :=
  match sm.version secret n with
  | none => .error .notFound
  | some version =>
    if version.destroyed = true then .error (.other "FailedPrecondition")
    else .ok { data := version.payload, version := n }

def accessNamed (secret : Secret) : VersionName → Except Exc SecretValue
  | .latest => sm.access secret (sm.versions secret).length
  | .number n => sm.access secret n
  | .invalid _ => .error (.other "InvalidArgument")

def add (secret : Secret) (payload : Payload) : SecretManager :=
  { versions := Function.update sm.versions secret (sm.versions secret ++ [{ payload }]) }

/-- Newest first. -/
def list (secret : Secret) : List ListedVersion :=
  ((sm.versions secret).mapIdx
    (fun i v => ({ number := i + 1, destroyed := v.destroyed } : ListedVersion))).reverse

def destroy (secret : Secret) (n : Nat) : SecretManager :=
  { versions := Function.update sm.versions secret
      ((sm.versions secret).mapIdx
        (fun i v => if i + 1 = n then { v with destroyed := true } else v)) }

end SecretManager

/-- The environment's part of an answer. -/
inductive Choice where
  | success
  | failure (name : String)
  | clock (now : Int)
  | certbotRan (result : CertbotRun)
  | certbotTimeout
  | code (returncode : Int)
  | text (value : Option String)
  | polls (n : Nat)

def renewalMachine : Machine Call Call.Ret Exc SecretManager Choice
  | sm, _, .failure name => some (.error (.other name),sm)
  | sm, .accessSecretVersion secret version, .success => some (sm.accessNamed secret version,sm)
  | sm, .addSecretVersion secret payload, .success =>
    some (.ok ((sm.versions secret).length + 1),sm.add secret payload)
  | sm, .listSecretVersions secret, .success => some (.ok (sm.list secret),sm)
  | sm, .destroySecretVersion secret n, .success =>
    match sm.version secret n with
    | none => some (.error .notFound,sm)
    | some _ => some (.ok (),sm.destroy secret n)
  | sm, .utcNow, .clock now => some (.ok now,sm)
  | sm, .certbot _, .certbotRan result => some (.ok result,sm)
  | sm, .certbot _, .certbotTimeout => some (.error (.certbot "certbot_timeout" (-1)),sm)
  | sm, .opensslVerify .., .code returncode => some (.ok returncode,sm)
  | sm, .guestStatus, .text value => some (.ok value,sm)
  | sm, .publicLeafFingerprint _, .text value => some (.ok value,sm)
  | sm, .resetInstance, .success => some (.ok (),sm)
  | sm, .deadlinePolls _, .polls n => some (.ok n,sm)
  | _, _, _ => none

end Woodhouse.Certificates
