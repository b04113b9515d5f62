import Woodhouse.Certificates.Pruning

namespace Woodhouse.Certificates
open Effects

variable {lib : Library} {settings : Settings}

/-- The latest release as the execution knows it from this answer, with its version. -/
def releaseOf : RenewalEvent → Option (Nat × Payload)
  | ⟨.accessSecretVersion .release .latest,.ok value⟩ => some (value.version,value.data)
  | ⟨.addSecretVersion .release payload,.ok n⟩ => some (n,payload)
  | _ => none

def lastRelease (h : List RenewalEvent) : Option (Nat × Payload) :=
  (h.filterMap releaseOf).getLast?

/-- A call that neither touches a release nor destroys or resets anything. -/
def Call.isQuiet : Call → Bool
  | .accessSecretVersion .release _ => false
  | .addSecretVersion .. => false
  | .destroySecretVersion .. => false
  | .resetInstance => false
  | _ => true

/-- The deployment of the release was seen on the edge, and by its public certificate. -/
def DeploymentVerified (settings : Settings) (h : List RenewalEvent) (version : Nat)
    (leafSha256 : String) : Prop :=
  ∃ pre status post, h = pre ++ ⟨.guestStatus,.ok status⟩ ::
      ⟨.publicLeafFingerprint settings.hostname,.ok (some leafSha256)⟩ :: post ∧
    contains (deploymentMarker version leafSha256) (status.getD "").toList = true

/-- No release is in doubt and no version has been destroyed. -/
structure Undisturbed (h : List RenewalEvent) : Prop where
  answered : ∀ payload e, (⟨.addSecretVersion .release payload,.error e⟩ : RenewalEvent) ∉ h
  intact : ∀ e ∈ h, e.op.destroys = false

/-- The latest release known is this manifest, at this version. -/
structure Current (h : List RenewalEvent) (version : Nat) (document : ReleaseDocument) : Prop where
  last : lastRelease h = some (version,.releaseManifest document)
  answered : ∀ payload e, (⟨.addSecretVersion .release payload,.error e⟩ : RenewalEvent) ∉ h

/-- The execution loaded this trust profile. -/
def TrustRead (lib : Library) (settings : Settings) (h : List RenewalEvent)
    (trust : TrustProfile) : Prop :=
  ∃ value, (⟨.accessSecretVersion .trustProfile .latest,.ok value⟩ : RenewalEvent) ∈ h ∧
    loadTrustProfile lib settings.trustProfileId value.data.data = .ok trust

/-- `openssl verify` returned 0 for the leaf of the chain and the trust profile's file. -/
def ChainAccepted (lib : Library) (h : List RenewalEvent) (fullchain : Bytes)
    (trust : TrustProfile) : Prop :=
  ∃ partialChain leaf chain, lib.pemCertificates fullchain = leaf :: chain ∧
    (⟨.opensslVerify partialChain leaf chain trust.pem,.ok 0⟩ : RenewalEvent) ∈ h

/-- The active release, read first, records the trust profile. -/
def Recorded (h : List RenewalEvent) (trust : TrustProfile) : Prop :=
  ∃ value document rest, h = ⟨.accessSecretVersion .release .latest,.ok value⟩ :: rest ∧
    value.data = .releaseManifest document ∧
    document.trustProfileId = some trust.profileId ∧
    document.trustProfileSha256 = some trust.sha256

/-- An approval of exactly this trust profile was read. -/
def Approved (h : List RenewalEvent) (trust : TrustProfile) : Prop :=
  ∃ value document, (⟨.accessSecretVersion .trustReadiness .latest,.ok value⟩ : RenewalEvent) ∈ h ∧
    value.data = .readiness document ∧ document.ready = true ∧
    document.trustProfileId = some trust.profileId ∧
    document.trustProfileSha256 = some trust.sha256

/-- OpenSSL accepted the chain for the configured trust profile, which is the recorded one or
approved. -/
structure Admitted (lib : Library) (settings : Settings) (h : List RenewalEvent) (fullchain : Bytes)
    (trust : TrustProfile) : Prop where
  read : TrustRead lib settings h trust
  accepted : ChainAccepted lib h fullchain trust
  allowed : Recorded h trust ∨ Approved h trust

/-- The hashes of the material are those of its chain. -/
def Described (lib : Library) (material : CertificateMaterial) : Prop :=
  ∃ leaf, loadLeaf lib material.fullchain = .ok leaf ∧ material.leafSha256 = leaf.sha256 ∧
    material.fullchainSha256 = lib.sha256Hex material.fullchain

/-- The private key is the leaf's. -/
def Matched (lib : Library) (material : CertificateMaterial) : Prop :=
  ∃ leaf, loadLeaf lib material.fullchain = .ok leaf ∧
    lib.publicKeyOf material.privateKey = .ok leaf.publicKey

/-- The release that may be published: validated material, stored first. -/
structure Publishable (lib : Library) (settings : Settings) (h : List RenewalEvent)
    (payload : Payload) (material : CertificateMaterial) (trust : TrustProfile)
    (certVersion keyVersion stateVersion : Nat) (archive : Bytes) : Prop where
  document : payload = .releaseManifest
    (releaseDocument settings material certVersion keyVersion stateVersion trust)
  cert : (⟨.addSecretVersion .cert (.bytes material.fullchain),.ok certVersion⟩ : RenewalEvent) ∈ h
  key : (⟨.addSecretVersion .key (.bytes material.privateKey),.ok keyVersion⟩ : RenewalEvent) ∈ h
  state : (⟨.addSecretVersion .state (.bytes archive),.ok stateVersion⟩ : RenewalEvent) ∈ h
  described : Described lib material
  matched : Matched lib material
  admitted : Admitted lib settings h material.fullchain trust
  undisturbed : Undisturbed h

/-- The lowest version of each secret that a verified release keeps. -/
def kept (version : Nat) (document : ReleaseDocument) : Secret → Option Nat
  | .release => some version
  | secret => document.reference secret

/-- What a renewal has done before each of its calls. -/
def RenewalRules (lib : Library) (settings : Settings) (h : List RenewalEvent) : Call → Prop
  | .addSecretVersion .release payload =>
    ∃ material trust certVersion keyVersion stateVersion archive,
      Publishable lib settings h payload material trust certVersion keyVersion stateVersion archive
  | .resetInstance =>
    ∃ version document fullchain leaf trust, Current h version document ∧
      Admitted lib settings h fullchain trust ∧ loadLeaf lib fullchain = .ok leaf ∧
      document.leafSha256 = some leaf.sha256
  | .destroySecretVersion secret n =>
    ∃ version document leafSha256, Current h version document ∧
      document.leafSha256 = some leafSha256 ∧ DeploymentVerified settings h version leafSha256 ∧
      ∃ m, kept version document secret = some m ∧ n < m
  | _ => True

section Histories
variable {h es : List RenewalEvent} {version : Nat} {document : ReleaseDocument}
  {trust : TrustProfile} {fullchain : Bytes} {leafSha256 : String}

theorem lastRelease_append (hes : ∀ e ∈ es, releaseOf e = none) :
    lastRelease (h ++ es) = lastRelease h := by
  have hnone : es.filterMap releaseOf = [] := List.filterMap_eq_nil_iff.mpr hes
  unfold lastRelease
  rw [List.filterMap_append,hnone,List.append_nil]

theorem releaseOf_quiet {e : RenewalEvent} (he : e.op.isQuiet = true) : releaseOf e = none := by
  obtain ⟨call,r⟩ := e
  cases call with
  | accessSecretVersion secret name =>
    cases secret with
    | release => cases he
    | _ => rfl
  | addSecretVersion secret payload => cases he
  | _ => rfl

theorem unanswered_quiet {payload : Payload} {e : Exc}
    (hes : ∀ e ∈ es, e.op.isQuiet = true)
    (hm : (⟨.addSecretVersion .release payload,.error e⟩ : RenewalEvent) ∈ h ++ es) :
    (⟨.addSecretVersion .release payload,.error e⟩ : RenewalEvent) ∈ h := by
  rcases List.mem_append.mp hm with hm | hm
  · exact hm
  · cases hes _ hm

theorem Current.event {e : RenewalEvent} (hc : Current h version document)
    (hnone : releaseOf e = none) (hadd : ∀ payload, e.op ≠ .addSecretVersion .release payload) :
    Current (h ++ [e]) version document := by
  refine ⟨?_,?_⟩
  · rw [lastRelease_append (by simpa using hnone)]
    exact hc.last
  · intro payload error hm
    rcases List.mem_append.mp hm with hm | hm
    · exact hc.answered payload error hm
    · rw [← List.mem_singleton.mp hm] at hadd
      exact hadd payload rfl

theorem Current.quiet (hc : Current h version document) (hes : ∀ e ∈ es, e.op.isQuiet = true) :
    Current (h ++ es) version document := by
  refine ⟨?_,?_⟩
  · rw [lastRelease_append (fun e he => releaseOf_quiet (hes e he))]
    exact hc.last
  · intro payload e hm
    exact hc.answered payload e (unanswered_quiet hes hm)

theorem Undisturbed.quiet (hu : Undisturbed h) (hes : ∀ e ∈ es, e.op.isQuiet = true) :
    Undisturbed (h ++ es) := by
  refine ⟨?_,?_⟩
  · intro payload e hm
    exact hu.answered payload e (unanswered_quiet hes hm)
  · intro e he
    rcases List.mem_append.mp he with he | he
    · exact hu.intact e he
    · obtain ⟨call,r⟩ := e
      have hq := hes _ he
      cases call with
      | destroySecretVersion => cases hq
      | _ => rfl

theorem Undisturbed.event {e : RenewalEvent} (hu : Undisturbed h)
    (hd : e.op.destroys = false)
    (hadd : ∀ payload error, e ≠ ⟨.addSecretVersion .release payload,.error error⟩) :
    Undisturbed (h ++ [e]) := by
  refine ⟨?_,?_⟩
  · intro payload error hm
    rcases List.mem_append.mp hm with hm | hm
    · exact hu.answered payload error hm
    · exact hadd payload error (List.mem_singleton.mp hm).symm
  · intro e' he
    rcases List.mem_append.mp he with he | he
    · exact hu.intact e' he
    · rw [List.mem_singleton.mp he]
      exact hd

/-- A release just published is the current one. -/
theorem Current.published (hu : Undisturbed h) (version : Nat) (document : ReleaseDocument) :
    Current (h ++ [⟨.addSecretVersion .release (.releaseManifest document),.ok version⟩]) version
      document := by
  refine ⟨?_,(hu.event rfl (by simp)).answered⟩
  unfold lastRelease
  rw [List.filterMap_append]
  simp [releaseOf]

theorem TrustRead.append (ht : TrustRead lib settings h trust) :
    TrustRead lib settings (h ++ es) trust := by
  obtain ⟨value,hm,hl⟩ := ht
  exact ⟨value,List.mem_append_left _ hm,hl⟩

theorem ChainAccepted.append (hv : ChainAccepted lib h fullchain trust) :
    ChainAccepted lib (h ++ es) fullchain trust := by
  obtain ⟨partialChain,leaf,chain,hp,hm⟩ := hv
  exact ⟨partialChain,leaf,chain,hp,List.mem_append_left _ hm⟩

theorem Recorded.append (hr : Recorded h trust) : Recorded (h ++ es) trust := by
  obtain ⟨value,document,rest,rfl,hd⟩ := hr
  exact ⟨value,document,rest ++ es,rfl,hd⟩

theorem Approved.append (ha : Approved h trust) : Approved (h ++ es) trust := by
  obtain ⟨value,document,hm,hd⟩ := ha
  exact ⟨value,document,List.mem_append_left _ hm,hd⟩

theorem Admitted.append (hg : Admitted lib settings h fullchain trust) :
    Admitted lib settings (h ++ es) fullchain trust :=
  ⟨hg.read.append,hg.accepted.append,hg.allowed.imp Recorded.append Approved.append⟩

theorem DeploymentVerified.append (hv : DeploymentVerified settings h version leafSha256) :
    DeploymentVerified settings (h ++ es) version leafSha256 := by
  obtain ⟨pre,status,post,rfl,hc⟩ := hv
  exact ⟨pre,status,post ++ es,by simp,hc⟩

end Histories

/-- A program of quiet calls with this outcome. -/
abbrev Quietly {α : Type} (Q : List RenewalEvent → Except Exc α → Prop) (p : Renewal α)
    (h : List RenewalEvent) : Prop :=
  Obeys (fun _ call => call.isQuiet = true) Q p h

/-- Quiet calls are never restricted, and the history grows by them alone. -/
theorem Quietly.rules {α : Type} {Q : List RenewalEvent → Except Exc α → Prop} {p : Renewal α}
    {h : List RenewalEvent} (ho : Quietly Q p h) :
    Obeys (RenewalRules lib settings)
      (fun h' r => Q h' r ∧ ∃ es, h' = h ++ es ∧ ∀ e ∈ es, e.op.isQuiet = true) p h := by
  refine Obeys.imp ho.grown ?_
  intro h call hc
  cases call with
  | addSecretVersion => cases hc
  | destroySecretVersion => cases hc
  | resetInstance => cases hc
  | _ => trivial

section Quiet
variable {h : List RenewalEvent}

theorem quietly_ofExcept {α : Type} {Q : List RenewalEvent → Except Exc α → Prop}
    {r : Except Exc α} (hq : Q h r) : Quietly Q (Prog.ofExcept r) h :=
  (obeys_ofExcept r).mpr hq

theorem quietly_readSecret {secret : Secret} (hs : secret ≠ .release) (name : VersionName)
    (missingOk : Bool) :
    Quietly (fun h' r => ∀ value, r = .ok (some value) →
      (⟨.accessSecretVersion secret name,.ok value⟩ : RenewalEvent) ∈ h')
      (readSecret secret name missingOk) h := by
  have hquiet : (Call.accessSecretVersion secret name).isQuiet = true := by
    cases secret with
    | release => exact absurd rfl hs
    | _ => rfl
  refine ⟨hquiet,?_⟩
  intro r
  cases r with
  | ok value =>
    intro value' hv
    cases hv
    exact List.mem_append_right _ List.mem_cons_self
  | error e =>
    cases e with
    | notFound => cases missingOk <;> exact fun _ hv => by cases hv
    | _ => exact fun _ hv => by cases hv

theorem quietly_certificateIsDue (material : CertificateMaterial) :
    Quietly (fun _ _ => True) (certificateIsDue material) h := by
  unfold certificateIsDue
  refine obeys_perform_bind.mpr ⟨rfl,fun _ => trivial,?_⟩
  intro checkedAt
  dsimp only
  split <;> trivial

theorem quietly_validateCertificate (fullchain : Bytes) (hostname : String)
    (minimum : Option Int) :
    Quietly (fun _ r => ∀ material, r = .ok material →
      material.fullchain = fullchain ∧ Described lib material)
      (validateCertificate lib fullchain hostname minimum) h := by
  unfold validateCertificate
  split
  · rename_i first second rest hpem
    cases hleaf : lib.loadCertificate first with
    | error e =>
      intro material hr
      cases hr
    | ok leaf =>
      simp only [Prog.ofExcept_ok,Prog.ret_bind]
      split
      · intro material hr
        cases hr
      · split
        · intro material hr
          cases hr
        · refine obeys_perform_bind.mpr ⟨rfl,(fun _ _ hr => by cases hr),?_⟩
          intro checkedAt
          split
          · intro material hr
            cases hr
          · intro material hr
            cases hr
            refine ⟨rfl,leaf,?_,rfl,rfl⟩
            unfold loadLeaf
            rw [hpem]
            exact hleaf
  · intro material hr
    cases hr

theorem quietly_loadAndValidateMaterial (config : ConfigDir) (hostname : String) :
    Quietly (fun _ r => ∀ material, r = .ok material → Described lib material ∧ Matched lib material)
      (loadAndValidateMaterial lib config hostname) h := by
  unfold loadAndValidateMaterial
  refine (quietly_ofExcept (Q := fun _ _ => True) trivial).bind ?_ (fun _ _ _ _ hr => by cases hr)
  intro h₁ fullchain _
  refine (quietly_ofExcept (Q := fun _ _ => True) trivial).bind ?_ (fun _ _ _ _ hr => by cases hr)
  intro h₂ privateKey _
  unfold validateMaterial
  refine (quietly_validateCertificate _ _ _).bind ?_ (fun _ _ _ _ hr => by cases hr)
  intro h₃ material hmaterial
  obtain ⟨rfl,hd⟩ := hmaterial material rfl
  obtain ⟨leaf,hleaf,hsha,hfull⟩ := hd
  rw [hleaf]
  simp only [Prog.ofExcept_ok,Prog.ret_bind]
  cases hkey : lib.publicKeyOf privateKey with
  | error e =>
    intro material' hr
    cases hr
  | ok keyPublic =>
    simp only [Prog.ofExcept_ok,Prog.ret_bind]
    split
    · intro material' hr
      cases hr
    · rename_i hsame
      intro material' hr
      cases hr
      have hsame : leaf.publicKey = keyPublic := not_not.mp hsame
      exact ⟨⟨leaf,hleaf,hsha,hfull⟩,leaf,hleaf,by rw [hsame]; exact hkey⟩

theorem quietly_storedMaterial (config : ConfigDir) :
    Quietly (fun _ r => ∀ material, r = .ok (some material) →
      Described lib material ∧ Matched lib material) (storedMaterial lib settings config) h := by
  unfold storedMaterial
  have hstored : Quietly (fun _ r => ∀ material, r = .ok (some material) →
      Described lib material ∧ Matched lib material)
      (do
        let material ← loadAndValidateMaterial lib config settings.hostname
        let due ← certificateIsDue material
        return if due then none else some material) h := by
    refine (quietly_loadAndValidateMaterial config _).bind ?_ (fun _ _ _ _ hr => by cases hr)
    intro h₁ material hm
    refine (quietly_certificateIsDue material).bind ?_ (fun _ _ _ _ hr => by cases hr)
    intro h₂ due _ material' hr
    cases due with
    | true => cases hr
    | false =>
      cases hr
      exact hm material rfl
  refine Obeys.tryCatch hstored (fun _ _ hq => hq) ?_
  intro h₁ e _
  cases e <;> exact fun _ hr => by cases hr

theorem quietly_runCertbot (config : ConfigDir) :
    Quietly (fun _ _ => True) (runCertbot config) h := by
  unfold runCertbot
  refine obeys_perform_bind.mpr ⟨rfl,fun _ => trivial,?_⟩
  intro result
  split <;> trivial

theorem quietly_restoredConfig : Quietly (fun _ _ => True) (restoredConfig lib) h := by
  unfold restoredConfig
  refine (quietly_readSecret (by simp) _ _).bind ?_ (fun _ _ _ => trivial)
  intro h₁ value _
  cases value with
  | none => trivial
  | some value => exact quietly_ofExcept trivial

theorem quietly_candidateMaterial :
    Quietly (fun _ r => ∀ candidate, r = .ok candidate →
      Described lib candidate.1 ∧ Matched lib candidate.1) (candidateMaterial lib settings) h := by
  unfold candidateMaterial
  refine quietly_restoredConfig.bind ?_ (fun _ _ _ _ hr => by cases hr)
  intro h₁ config _
  refine (quietly_storedMaterial config).bind ?_ (fun _ _ _ _ hr => by cases hr)
  intro h₂ stored hm
  cases stored with
  | some material =>
    intro candidate hr
    cases hr
    exact hm material rfl
  | none =>
    refine (quietly_runCertbot config).bind ?_ (fun _ _ _ _ hr => by cases hr)
    intro h₃ config' _
    refine (quietly_loadAndValidateMaterial config' _).bind ?_ (fun _ _ _ _ hr => by cases hr)
    intro h₄ material hm candidate hr
    cases hr
    exact hm material rfl

theorem quietly_validateCandidate (material : CertificateMaterial) (trust : TrustProfile) :
    Quietly (fun h' r => r = .ok () → ChainAccepted lib h' material.fullchain trust)
      (validateCandidateAgainstTrustProfile lib material trust) h := by
  unfold validateCandidateAgainstTrustProfile
  cases hpem : lib.pemCertificates material.fullchain with
  | nil =>
    intro hr
    cases hr
  | cons leaf chain =>
    dsimp only
    refine obeys_perform_bind.mpr ⟨rfl,(fun _ hr => by cases hr),?_⟩
    intro code
    split
    · rename_i hcode
      intro _
      subst hcode
      exact ⟨false,leaf,chain,hpem,by simp⟩
    · refine obeys_perform_bind.mpr ⟨rfl,(fun _ hr => by cases hr),?_⟩
      intro code'
      split
      · intro hr
        cases hr
      · rename_i hcode
        intro _
        have hzero : code' = 0 := not_not.mp hcode
        subst hzero
        exact ⟨true,leaf,chain,hpem,by simp⟩

theorem quietly_requireReadiness (trust : TrustProfile) :
    Quietly (fun h' r => r = .ok () → Approved h' trust) (requireTrustCutoverReadiness trust) h := by
  unfold requireTrustCutoverReadiness
  refine (quietly_readSecret (by simp) _ _).bind ?_ (fun _ _ _ hr => by cases hr)
  intro h₁ value hread
  cases value with
  | none =>
    intro hr
    cases hr
  | some value =>
    dsimp only
    split
    · rename_i document hd
      split
      · rename_i hready
        intro _
        exact ⟨value,document,hread value rfl,hd,hready.1,hready.2.1,hready.2.2.1⟩
      · intro hr
        cases hr
    · intro hr
      cases hr
    · intro hr
      cases hr

theorem quietly_activeReleaseMaterial (active : ActiveRelease) :
    Quietly (fun _ r => ∀ material, r = .ok material →
      Described lib material ∧ material.leafSha256 = active.leafSha256)
      (activeReleaseMaterial lib settings active) h := by
  unfold activeReleaseMaterial
  refine (quietly_readSecret (by simp) _ _).bind ?_ (fun _ _ _ _ hr => by cases hr)
  intro h₁ value _
  cases value with
  | none =>
    intro material hr
    cases hr
  | some value =>
    refine (quietly_validateCertificate _ _ _).bind ?_ (fun _ _ _ _ hr => by cases hr)
    intro h₂ material hm
    split
    · intro material' hr
      cases hr
    · rename_i hsame
      intro material' hr
      cases hr
      push Not at hsame
      exact ⟨(hm material rfl).2,hsame.1⟩

theorem quietly_deployed (version : Nat) (leafSha256 : String) :
    Quietly (fun h' r => r = .ok true → DeploymentVerified settings h' version leafSha256)
      (deployed settings (deploymentMarker version leafSha256) leafSha256) h := by
  unfold deployed
  refine obeys_perform_bind.mpr ⟨rfl,(fun _ hr => by cases hr),?_⟩
  intro status
  split
  · rename_i hmarker
    refine obeys_perform_bind.mpr ⟨rfl,(fun _ hr => by cases hr),?_⟩
    intro fingerprint hr
    have hleaf : fingerprint = some leafSha256 := by simpa using hr
    subst hleaf
    exact ⟨h,status,[],by simp,hmarker⟩
  · intro hr
    cases hr

theorem quietly_pollDeployment (version : Nat) (leafSha256 : String) (polls : Nat) :
    Quietly (fun h' r => r = .ok () → DeploymentVerified settings h' version leafSha256)
      (pollDeployment settings (deploymentMarker version leafSha256) leafSha256 polls) h := by
  induction polls generalizing h with
  | zero =>
    intro hr
    cases hr
  | succ polls ih =>
    unfold pollDeployment
    refine (quietly_deployed version leafSha256).bind ?_ (fun _ _ _ hr => by cases hr)
    intro h₁ done hd
    cases done with
    | true =>
      intro _
      exact hd rfl
    | false => exact ih

end Quiet

/-- The release is current, and its deployment was verified. -/
structure Live (settings : Settings) (h : List RenewalEvent) (version : Nat)
    (document : ReleaseDocument) (leafSha256 : String) : Prop where
  current : Current h version document
  leaf : document.leafSha256 = some leafSha256
  verified : DeploymentVerified settings h version leafSha256

/-- The edge may be reset to the release. -/
structure Deployable (lib : Library) (settings : Settings) (h : List RenewalEvent) (version : Nat)
    (document : ReleaseDocument) (leafSha256 : String) : Prop where
  current : Current h version document
  recorded : document.leafSha256 = some leafSha256
  gated : ∃ fullchain leaf trust, Admitted lib settings h fullchain trust ∧
    loadLeaf lib fullchain = .ok leaf ∧ leaf.sha256 = leafSha256

section Rules
variable {h : List RenewalEvent} {version : Nat} {document : ReleaseDocument} {leafSha256 : String}

theorem Live.event {e : RenewalEvent} (hl : Live settings h version document leafSha256)
    (hnone : releaseOf e = none) (hadd : ∀ payload, e.op ≠ .addSecretVersion .release payload) :
    Live settings (h ++ [e]) version document leafSha256 :=
  ⟨hl.current.event hnone hadd,hl.leaf,hl.verified.append⟩

theorem destroyOlder_rules {secret : Secret} {number : Nat} {versions : List ListedVersion}
    (hl : Live settings h version document leafSha256)
    (hkept : kept version document secret = some number) :
    Obeys (RenewalRules lib settings) (fun h' _ => Live settings h' version document leafSha256)
      (destroyOlder secret number versions) h := by
  induction versions generalizing h with
  | nil => exact hl
  | cons listed rest ih =>
    unfold destroyOlder
    split
    · exact ih hl
    · rename_i hold
      have hlt : listed.number < number := by omega
      refine ⟨⟨version,document,leafSha256,hl.current,hl.leaf,hl.verified,number,hkept,hlt⟩,?_⟩
      intro r
      have hl' : Live settings (h ++ [⟨.destroySecretVersion secret listed.number,r⟩]) version
          document leafSha256 := hl.event rfl (by simp)
      cases r with
      | error e => exact hl'
      | ok u => exact ih hl'

theorem pruneSecret_rules {secret : Secret} {name : VersionName}
    (hl : Live settings h version document leafSha256)
    (hkept : kept version document secret = name.number?) :
    Obeys (RenewalRules lib settings) (fun h' _ => Live settings h' version document leafSha256)
      (pruneSecret secret name) h := by
  unfold pruneSecret
  cases name with
  | latest => exact hl
  | invalid text => exact hl
  | number n =>
    unfold secretVersionNumber
    dsimp only
    split
    · exact hl
    · refine ⟨trivial,?_⟩
      intro r
      have hl' : Live settings (h ++ [⟨.listSecretVersions secret,r⟩]) version
          document leafSha256 := hl.event rfl (by simp)
      cases r with
      | error e => exact hl'
      | ok versions => exact destroyOlder_rules hl' hkept

/-- The retained versions are those of the release. -/
structure Retains (retained : Retained) (version : Nat) (document : ReleaseDocument) : Prop where
  cert : document.certVersion = some retained.certVersion
  key : document.keyVersion = some retained.keyVersion
  state : document.stateVersion = some retained.stateVersion
  release : retained.releaseVersion = .number version

theorem pruneOld_rules {retained : Retained} (hl : Live settings h version document leafSha256)
    (hr : Retains retained version document) :
    Obeys (RenewalRules lib settings) (fun _ _ => True) (pruneOldReleaseVersions retained) h := by
  have hcert : kept version document .cert = retained.certVersion.number? := by
    simp [kept,ReleaseDocument.reference,hr.cert]
  have hkey : kept version document .key = retained.keyVersion.number? := by
    simp [kept,ReleaseDocument.reference,hr.key]
  have hstate : kept version document .state = retained.stateVersion.number? := by
    simp [kept,ReleaseDocument.reference,hr.state]
  have hrelease : kept version document .release = retained.releaseVersion.number? := by
    simp [kept,hr.release,VersionName.number?]
  refine (pruneSecret_rules hl hcert).bind ?_ (fun _ _ _ => trivial)
  intro h₁ _ hl₁
  refine (pruneSecret_rules hl₁ hkey).bind ?_ (fun _ _ _ => trivial)
  intro h₂ _ hl₂
  refine (pruneSecret_rules hl₂ hstate).bind ?_ (fun _ _ _ => trivial)
  intro h₃ _ hl₃
  exact (pruneSecret_rules hl₃ hrelease).mono (fun _ _ _ => trivial)

theorem deployRelease_rules (hd : Deployable lib settings h version document leafSha256) :
    Obeys (RenewalRules lib settings)
      (fun h' r => r = .ok () → Live settings h' version document leafSha256)
      (deployRelease settings version leafSha256) h := by
  unfold deployRelease
  refine (quietly_deployed version leafSha256).rules.bind ?_ ?_
  · intro h₁ done hdone
    obtain ⟨hverified,es,rfl,hes⟩ := hdone
    have hcurrent := hd.current.quiet hes
    cases done with
    | true =>
      intro _
      exact ⟨hcurrent,hd.recorded,hverified rfl⟩
    | false =>
      obtain ⟨fullchain,leaf,trust,hg,hleaf,hsha⟩ := hd.gated
      have hreset : RenewalRules lib settings (h ++ es) .resetInstance :=
        ⟨version,document,fullchain,leaf,trust,hcurrent,hg.append,hleaf,by rw [hsha]; exact hd.recorded⟩
      refine obeys_perform_bind.mpr ⟨hreset,(fun _ hr => by cases hr),?_⟩
      intro u
      refine obeys_perform_bind.mpr ⟨trivial,(fun _ hr => by cases hr),?_⟩
      intro polls
      have hcurrent' : Current (h ++ es ++ [⟨.resetInstance,.ok u⟩] ++
          [⟨.deadlinePolls settings.deploymentTimeoutSeconds,.ok polls⟩]) version document :=
        (hcurrent.event rfl (by simp)).event rfl (by simp)
      refine (quietly_pollDeployment version leafSha256 polls).rules.mono ?_
      intro h₂ r hpoll hr
      obtain ⟨hverified,es',rfl,hes'⟩ := hpoll
      exact ⟨hcurrent'.quiet hes',hd.recorded,hverified hr⟩
  · intro h₁ e _ hr
    cases hr

/-- A release is published from validated material, and deployed. -/
theorem publishRelease_rules {material : CertificateMaterial} {config : ConfigDir}
    {trust : TrustProfile} (hu : Undisturbed h) (hdescribed : Described lib material)
    (hmatched : Matched lib material) (hg : Admitted lib settings h material.fullchain trust) :
    Obeys (RenewalRules lib settings)
      (fun h' r => ∀ retained, r = .ok retained → ∃ version document leafSha256,
        Live settings h' version document leafSha256 ∧ Retains retained version document)
      (publishRelease lib settings material config trust) h := by
  unfold publishRelease
  refine obeys_perform_bind.mpr ⟨trivial,(fun _ _ hr => by cases hr),?_⟩
  intro certVersion
  refine obeys_perform_bind.mpr ⟨trivial,(fun _ _ hr => by cases hr),?_⟩
  intro keyVersion
  cases archiveState lib config with
  | error e =>
    intro retained hr
    cases hr
  | ok archive =>
    simp only [Prog.ofExcept_ok,Prog.ret_bind]
    refine obeys_perform_bind.mpr ⟨trivial,(fun _ _ hr => by cases hr),?_⟩
    intro stateVersion
    have hu' : Undisturbed (h ++ [⟨.addSecretVersion .cert (.bytes material.fullchain),
        .ok certVersion⟩] ++ [⟨.addSecretVersion .key (.bytes material.privateKey),
        .ok keyVersion⟩] ++ [⟨.addSecretVersion .state (.bytes archive),.ok stateVersion⟩]) :=
      ((hu.event rfl (by simp)).event rfl (by simp)).event rfl (by simp)
    have hpublish : RenewalRules lib settings _ (.addSecretVersion .release (.releaseManifest
        (releaseDocument settings material certVersion keyVersion stateVersion trust))) :=
      ⟨material,trust,certVersion,keyVersion,stateVersion,archive,rfl,by simp,by simp,by simp,
        hdescribed,hmatched,hg.append.append.append,hu'⟩
    refine obeys_perform_bind.mpr ⟨hpublish,(fun _ _ hr => by cases hr),?_⟩
    intro releaseVersion
    obtain ⟨leaf,hleaf,hsha,_⟩ := hdescribed
    have hcurrent := Current.published hu' releaseVersion
      (releaseDocument settings material certVersion keyVersion stateVersion trust)
    refine (deployRelease_rules ⟨hcurrent,rfl,material.fullchain,leaf,trust,
      hg.append.append.append.append,hleaf,hsha.symm⟩).bind ?_ (fun _ _ _ _ hr => by cases hr)
    intro h₁ u hlive retained hr
    cases hr
    exact ⟨releaseVersion,_,_,hlive rfl,rfl,rfl,rfl,rfl⟩

theorem publishAndPrune_rules {material : CertificateMaterial} {config : ConfigDir}
    {trust : TrustProfile} (hu : Undisturbed h) (hdescribed : Described lib material)
    (hmatched : Matched lib material) (hg : Admitted lib settings h material.fullchain trust) :
    Obeys (RenewalRules lib settings) (fun _ _ => True) (do
      let published ← publishRelease lib settings material config trust
      pruneOldReleaseVersions published
      return Outcome.renewed) h := by
  refine (publishRelease_rules hu hdescribed hmatched hg).bind ?_ (fun _ _ _ => trivial)
  intro h₁ retained hp
  obtain ⟨version,document,leafSha256,hl,hr⟩ := hp retained rfl
  exact (pruneOld_rules hl hr).bind (fun _ _ _ => trivial) (fun _ _ _ => trivial)

/-- The active release is the one that was read first. -/
structure Began (h : List RenewalEvent) (release : ActiveRelease) (document : ReleaseDocument) :
    Prop where
  head : ∃ value rest, h = ⟨.accessSecretVersion .release .latest,.ok value⟩ :: rest ∧
    value.data = .releaseManifest document
  current : Current h release.releaseVersion document
  retains : Retains release.retained release.releaseVersion document
  leaf : document.leafSha256 = some release.leafSha256
  profile : document.trustProfileId = release.trustProfileId
  digest : document.trustProfileSha256 = release.trustProfileSha256

theorem Began.quiet {release : ActiveRelease} {es : List RenewalEvent}
    (hb : Began h release document) (hes : ∀ e ∈ es, e.op.isQuiet = true) :
    Began (h ++ es) release document := by
  obtain ⟨value,rest,rfl,hd⟩ := hb.head
  exact ⟨⟨value,rest ++ es,rfl,hd⟩,hb.current.quiet hes,hb.retains,hb.leaf,hb.profile,hb.digest⟩

theorem Began.recorded {release : ActiveRelease} {trust : TrustProfile}
    (hb : Began h release document) (hm : trustMatches release trust = true) :
    Recorded h trust := by
  obtain ⟨value,rest,hh,hd⟩ := hb.head
  simp only [trustMatches,decide_eq_true_eq] at hm
  exact ⟨value,document,rest,hh,hd,hb.profile.trans hm.1,hb.digest.trans hm.2⟩

theorem deployAndPrune_rules {release : ActiveRelease} {leafSha256 : String}
    (hd : Deployable lib settings h release.releaseVersion document leafSha256)
    (hr : Retains release.retained release.releaseVersion document) :
    Obeys (RenewalRules lib settings) (fun _ _ => True) (do
      deployRelease settings release.releaseVersion leafSha256
      pruneOldReleaseVersions release.retained
      return Outcome.healthy) h := by
  refine (deployRelease_rules hd).bind ?_ (fun _ _ _ => trivial)
  intro h₁ _ hl
  exact (pruneOld_rules (hl rfl) hr).bind (fun _ _ _ => trivial) (fun _ _ _ => trivial)

/-- What is known of the active release, if there is one. -/
def Opened (h : List RenewalEvent) (active : Option ActiveRelease) : Prop :=
  ∀ release, active = some release → ∃ document, Began h release document

theorem Opened.quiet {active : Option ActiveRelease} {es : List RenewalEvent}
    (ho : Opened h active) (hes : ∀ e ∈ es, e.op.isQuiet = true) : Opened (h ++ es) active := by
  intro release hr
  obtain ⟨document,hb⟩ := ho release hr
  exact ⟨document,hb.quiet hes⟩

theorem issueRelease_rules {active : Option ActiveRelease} {trust : TrustProfile}
    (hu : Undisturbed h) (ho : Opened h active) (ht : TrustRead lib settings h trust) :
    Obeys (RenewalRules lib settings) (fun _ _ => True) (issueRelease lib settings active trust) h := by
  unfold issueRelease
  refine quietly_candidateMaterial.rules.bind ?_ (fun _ _ _ => trivial)
  intro h₁ candidate hcandidate
  obtain ⟨hmaterial,es₁,rfl,hes₁⟩ := hcandidate
  obtain ⟨material,config⟩ := candidate
  obtain ⟨hdescribed,hmatched⟩ := hmaterial _ rfl
  refine (quietly_validateCandidate material trust).rules.bind ?_ (fun _ _ _ => trivial)
  intro h₂ u hvalidated
  obtain ⟨hverified,es₂,rfl,hes₂⟩ := hvalidated
  have hu := (hu.quiet hes₁).quiet hes₂
  have ho := (ho.quiet hes₁).quiet hes₂
  have ht : TrustRead lib settings (h ++ es₁ ++ es₂) trust := ht.append.append
  have hverified := hverified rfl
  cases active with
  | none =>
    refine (quietly_requireReadiness trust).rules.bind ?_ (fun _ _ _ => trivial)
    intro h₃ u happroved
    obtain ⟨happroved,es₃,rfl,hes₃⟩ := happroved
    exact publishAndPrune_rules (hu.quiet hes₃) hdescribed hmatched
      ⟨ht.append,hverified.append,.inr (happroved rfl)⟩
  | some release =>
    obtain ⟨document,hb⟩ := ho release rfl
    dsimp only
    split
    · rename_i hchanged
      refine (quietly_requireReadiness trust).rules.bind ?_ (fun _ _ _ => trivial)
      intro h₃ u happroved
      obtain ⟨happroved,es₃,rfl,hes₃⟩ := happroved
      split
      · rename_i hsame
        rw [hchanged] at hsame
        cases hsame.2
      · exact publishAndPrune_rules (hu.quiet hes₃) hdescribed hmatched
          ⟨ht.append,hverified.append,.inr (happroved rfl)⟩
    · rename_i hkept
      have hkept : trustMatches release trust = true := by simpa using hkept
      have hg : Admitted lib settings (h ++ es₁ ++ es₂) material.fullchain trust :=
        ⟨ht,hverified,.inl (hb.recorded hkept)⟩
      split
      · rename_i hsame
        obtain ⟨leaf,hleaf,hsha,_⟩ := hdescribed
        have hrecorded : document.leafSha256 = some material.leafSha256 := by
          rw [← hsame.1]
          exact hb.leaf
        exact deployAndPrune_rules
          ⟨hb.current,hrecorded,material.fullchain,leaf,trust,hg,hleaf,hsha.symm⟩ hb.retains
      · exact publishAndPrune_rules hu hdescribed hmatched hg

theorem keepOrIssue_rules {active : Option ActiveRelease} {trust : TrustProfile}
    (hu : Undisturbed h) (ho : Opened h active) (ht : TrustRead lib settings h trust) :
    Obeys (RenewalRules lib settings) (fun _ _ => True) (keepOrIssue lib settings active trust) h := by
  unfold keepOrIssue
  cases active with
  | none => exact issueRelease_rules hu ho ht
  | some release =>
    dsimp only
    split
    · rename_i hkept
      refine (quietly_activeReleaseMaterial release).rules.bind ?_ (fun _ _ _ => trivial)
      intro h₁ material hmaterial
      obtain ⟨hmaterial,es₁,rfl,hes₁⟩ := hmaterial
      refine (quietly_certificateIsDue material).rules.bind ?_ (fun _ _ _ => trivial)
      intro h₂ due hdue
      obtain ⟨_,es₂,rfl,hes₂⟩ := hdue
      have hu := (hu.quiet hes₁).quiet hes₂
      have ho := (ho.quiet hes₁).quiet hes₂
      have ht : TrustRead lib settings (h ++ es₁ ++ es₂) trust := ht.append.append
      cases due with
      | true => exact issueRelease_rules hu ho ht
      | false =>
        refine (quietly_validateCandidate material trust).rules.bind ?_ (fun _ _ _ => trivial)
        intro h₃ u hvalidated
        obtain ⟨hverified,es₃,rfl,hes₃⟩ := hvalidated
        obtain ⟨document,hb⟩ := ho.quiet hes₃ release rfl
        obtain ⟨⟨leaf,hleaf,hsha,_⟩,hsame⟩ := hmaterial material rfl
        have hrecorded : document.leafSha256 = some material.leafSha256 := by
          rw [hsame]
          exact hb.leaf
        exact deployAndPrune_rules ⟨hb.current,hrecorded,material.fullchain,leaf,trust,
          ⟨ht.append,hverified rfl,.inl (hb.recorded hkept)⟩,hleaf,hsha.symm⟩ hb.retains
    · exact issueRelease_rules hu ho ht

theorem parseRelease_began {value : SecretValue} {release : ActiveRelease}
    (hp : parseRelease settings (some value) = .ok (some release)) :
    ∃ document, Began [⟨.accessSecretVersion .release .latest,.ok value⟩] release document := by
  unfold parseRelease at hp
  dsimp only at hp
  split at hp
  · rename_i document hd
    split at hp
    · cases hp
    · split at hp
      · rename_i hcert hkey hstate hleaf hfull
        cases hp
        refine ⟨document,⟨value,[],rfl,hd⟩,⟨?_,by simp⟩,⟨hcert,hkey,hstate,rfl⟩,hleaf,rfl,rfl⟩
        simp [lastRelease,releaseOf,hd]
      · cases hp
  · cases hp
  · cases hp

theorem undisturbed_read (r : Except Exc SecretValue) :
    Undisturbed [⟨.accessSecretVersion .release .latest,r⟩] := by
  refine ⟨by simp,?_⟩
  intro e he
  rw [List.mem_singleton.mp he]
  rfl

theorem renewCertificate_rules :
    Obeys (RenewalRules lib settings) (fun _ _ => True) (renewCertificate lib settings) [] := by
  -- what follows once the active release is known
  have hrest : ∀ h active (next : Option SecretValue → Renewal Outcome), Undisturbed h →
      Opened h active → next none = throw (.value "telemetry trust profile is missing") →
      (∀ value, next (some value) = do
        let trust ← Prog.ofExcept (loadTrustProfile lib settings.trustProfileId value.data.data)
        keepOrIssue lib settings active trust) →
      Obeys (RenewalRules lib settings) (fun _ _ => True)
        (readSecret .trustProfile .latest false >>= next) h := by
    intro h active next hu ho hnone hsome
    refine (quietly_readSecret (by simp) _ _).rules.bind ?_ (fun _ _ _ => trivial)
    intro h₁ value hread
    obtain ⟨hread,es,rfl,hes⟩ := hread
    cases value with
    | none =>
      rw [hnone]
      trivial
    | some value =>
      rw [hsome]
      cases htrust : loadTrustProfile lib settings.trustProfileId value.data.data with
      | error e => trivial
      | ok trust => exact keepOrIssue_rules (hu.quiet hes) (ho.quiet hes) ⟨value,hread value rfl,htrust⟩
  unfold renewCertificate
  refine ⟨trivial,?_⟩
  intro r
  have hu := undisturbed_read r
  cases r with
  | ok value =>
    show Obeys _ _ (Prog.ofExcept (parseRelease settings (some value)) >>= _) _
    cases hparse : parseRelease settings (some value) with
    | error e => trivial
    | ok active =>
      refine hrest _ active _ hu ?_ rfl (fun _ => rfl)
      intro release hr
      subst hr
      exact parseRelease_began hparse
  | error e =>
    cases e with
    | notFound => exact hrest _ none _ hu (fun _ hr => by cases hr) rfl (fun _ => rfl)
    | _ => trivial

end Rules

section Trust

/-- OpenSSL on the renewer's machine: whether at a moment of a run a leaf chains, over untrusted
certificates and with or without `-partial_chain`, to a certificate of the trusted files, and the
files of its default certificate directory. -/
structure OpenSsl where
  verifies : Nat → Bool → List Bytes → List Bytes → Bytes → Bool
  defaultStore : List Bytes

variable (openssl : OpenSsl)

/-- `-CAfile` stands in for the default file alone: without `-no-CApath` and `-no-CAstore` the
default directory is trusted as well. -/
def OpenSsl.trusted (caFile : Bytes) : List Bytes := caFile :: openssl.defaultStore

/-- A leaf verifies against the CAs of one file and no others. -/
def OpenSsl.verifiesAlone (moment : Nat) (caFile : Bytes) (chain : List Bytes) (leaf : Bytes) :
    Bool :=
  openssl.verifies moment false [caFile] chain leaf ||
    openssl.verifies moment true [caFile] chain leaf

/-- `openssl verify` returns 0 exactly when the leaf verifies. -/
def OpenSsl.answers (moment : Nat) : RenewalEvent → Bool
  | ⟨.opensslVerify partialChain leaf chain caFile,.ok code⟩ =>
    decide (code = 0) == openssl.verifies moment partialChain (openssl.trusted caFile) chain leaf
  | _ => true

def OpenSsl.Answered (es : List RenewalEvent) : Prop :=
  ∀ p ∈ es.zipIdx, openssl.answers p.2 p.1 = true

/-- A leaf that verifies needs no CA of the default directory. -/
def OpenSsl.needsNoStore (moment : Nat) : RenewalEvent → Bool
  | ⟨.opensslVerify partialChain leaf chain caFile,_⟩ =>
    !openssl.verifies moment partialChain (openssl.trusted caFile) chain leaf ||
      openssl.verifiesAlone moment caFile chain leaf
  | _ => true

def OpenSsl.NeedsNoStore (es : List RenewalEvent) : Prop :=
  ∀ p ∈ es.zipIdx, openssl.needsNoStore p.2 p.1 = true

instance (es : List RenewalEvent) : Decidable (openssl.Answered es) :=
  inferInstanceAs (Decidable (∀ p ∈ es.zipIdx, openssl.answers p.2 p.1 = true))

instance (es : List RenewalEvent) : Decidable (openssl.NeedsNoStore es) :=
  inferInstanceAs (Decidable (∀ p ∈ es.zipIdx, openssl.needsNoStore p.2 p.1 = true))

/-- The leaf of the chain was checked, and at that moment it verified against the CAs of the
trust profile. -/
def ChainVerified (lib : Library) (h : List RenewalEvent) (fullchain : Bytes)
    (trust : TrustProfile) : Prop :=
  ∃ moment partialChain leaf chain, lib.pemCertificates fullchain = leaf :: chain ∧
    ((⟨.opensslVerify partialChain leaf chain trust.pem,.ok 0⟩ : RenewalEvent),moment) ∈
      h.zipIdx ∧
    openssl.verifiesAlone moment trust.pem chain leaf = true

/-- The chain verified against the configured trust profile, which is the recorded one or
approved. -/
structure Gated (lib : Library) (settings : Settings) (h : List RenewalEvent) (fullchain : Bytes)
    (trust : TrustProfile) : Prop where
  read : TrustRead lib settings h trust
  verified : ChainVerified openssl lib h fullchain trust
  allowed : Recorded h trust ∨ Approved h trust

/-- Every published release and every reset is of a certificate that verified against the
configured trust profile, which the active release records or an approval names. -/
structure TrustGate (lib : Library) (settings : Settings) (es : List RenewalEvent) : Prop where
  published : ∀ pre payload r post, es = pre ++ ⟨.addSecretVersion .release payload,r⟩ :: post →
    ∃ document fullchain leaf certVersion trust, payload = .releaseManifest document ∧
      document.certVersion = some (.number certVersion) ∧
      (⟨.addSecretVersion .cert (.bytes fullchain),.ok certVersion⟩ : RenewalEvent) ∈ pre ∧
      loadLeaf lib fullchain = .ok leaf ∧ document.leafSha256 = some leaf.sha256 ∧
      Gated openssl lib settings pre fullchain trust
  reset : ∀ pre r post, es = pre ++ ⟨.resetInstance,r⟩ :: post →
    ∃ version document fullchain leaf trust,
      lastRelease pre = some (version,.releaseManifest document) ∧
      loadLeaf lib fullchain = .ok leaf ∧ document.leafSha256 = some leaf.sha256 ∧
      Gated openssl lib settings pre fullchain trust

variable {openssl} {es pre post : List RenewalEvent} {e : RenewalEvent} {fullchain : Bytes}
  {trust : TrustProfile}

/-- What OpenSSL accepts without its default directory verified against the trust profile. -/
theorem ChainAccepted.verified (ha : openssl.Answered es) (hs : openssl.NeedsNoStore es)
    (hes : es = pre ++ e :: post) (h : ChainAccepted lib pre fullchain trust) :
    ChainVerified openssl lib pre fullchain trust := by
  obtain ⟨partialChain,leaf,chain,hpem,hmem⟩ := h
  obtain ⟨moment,hget⟩ := List.mem_iff_getElem?.mp hmem
  have hmoment := List.mk_mem_zipIdx_iff_getElem?.mpr hget
  have hrun : ((⟨.opensslVerify partialChain leaf chain trust.pem,.ok 0⟩ : RenewalEvent),
      moment) ∈ es.zipIdx := by
    rw [hes,List.zipIdx_append]
    exact List.mem_append_left _ hmoment
  have hverifies : openssl.verifies moment partialChain (openssl.trusted trust.pem) chain leaf =
      true := by
    simpa [OpenSsl.answers] using ha _ hrun
  have halone := hs _ hrun
  simp only [OpenSsl.needsNoStore,hverifies,Bool.not_true,Bool.false_or] at halone
  exact ⟨moment,partialChain,leaf,chain,hpem,hmoment,halone⟩

theorem Admitted.gated (ha : openssl.Answered es) (hs : openssl.NeedsNoStore es)
    (hes : es = pre ++ e :: post) (h : Admitted lib settings pre fullchain trust) :
    Gated openssl lib settings pre fullchain trust :=
  ⟨h.read,h.accepted.verified ha hs hes,h.allowed⟩

theorem trust_change_gated {q : Renewal Outcome} (ht : Trace (renewCertificate lib settings) es q)
    (ha : openssl.Answered es) (hs : openssl.NeedsNoStore es) :
    TrustGate openssl lib settings es := by
  refine ⟨?_,?_⟩
  · intro pre payload r post hes
    have ht' := ht
    rw [hes] at ht'
    obtain ⟨material,trust,certVersion,keyVersion,stateVersion,archive,hp⟩ :=
      renewCertificate_rules.allowed ht'
    obtain ⟨leaf,hleaf,hsha,_⟩ := hp.described
    exact ⟨_,material.fullchain,leaf,certVersion,trust,hp.document,rfl,hp.cert,hleaf,
      congrArg some hsha,hp.admitted.gated ha hs hes⟩
  · intro pre r post hes
    have ht' := ht
    rw [hes] at ht'
    obtain ⟨version,document,fullchain,leaf,trust,hc,hg,hleaf,hsha⟩ :=
      renewCertificate_rules.allowed ht'
    exact ⟨version,document,fullchain,leaf,trust,hc.last,hleaf,hsha,hg.gated ha hs hes⟩

end Trust

section Anchors

/-- A trust profile is the file that holds it. -/
def caLibrary : Library :=
  { plainLibrary with
    loadCertificates := fun pem => .ok [{ pem, der := pem, basicConstraintsCa := some true }] }

/-- An approved trust profile of one CA and no release yet. -/
def caStore : SecretManager :=
  { versions := Function.update approvedStore.versions .trustProfile [{ payload := .bytes [7] }] }

/-- OpenSSL, where the chain leads to this CA, and another one in its directory. -/
def opensslOf (issuer : Bytes) : OpenSsl :=
  { verifies := fun _ _ trusted _ _ => decide (issuer ∈ trusted), defaultStore := [[9]] }

def isReset (e : RenewalEvent) : Bool :=
  match e.op with
  | .resetInstance => true
  | _ => false

/-- A first renewal that publishes its certificate and resets the edge. -/
def firstChoices : List (Bool × Choice) :=
  turns true (candidateChoices [1] ++ [.success,.success,.success,.success,.text none,.success])

theorem trust_change_gated_first :
    ∃ es q, es.any isReset = true ∧ Trace (renewCertificate caLibrary plainSettings) es q ∧
      TrustGate (opensslOf [7]) caLibrary plainSettings es := by
  obtain ⟨log,ps,sm,run,hp⟩ := run_of_schedule renewalMachine
    (fun _ : Bool => renewCertificate caLibrary plainSettings) caStore firstChoices
    (fun x => (localEvents true x.1).any isReset &&
      decide ((opensslOf [7]).Answered (localEvents true x.1)) &&
      decide ((opensslOf [7]).NeedsNoStore (localEvents true x.1))) (by rfl)
  rw [Bool.and_eq_true,Bool.and_eq_true] at hp
  obtain ⟨⟨hreset,ha⟩,hs⟩ := hp
  have ht := run.trace true
  exact ⟨_,_,hreset,ht,trust_change_gated ht (of_decide_eq_true ha) (of_decide_eq_true hs)⟩

/-- Each check was made against a file that does not hold the CA of the default directory. -/
def checksProfile (e : RenewalEvent) : Bool :=
  match e.op with
  | .opensslVerify _ _ _ caFile => caFile ≠ [9]
  | _ => true

/-- A chain that leads to a CA of the default directory only resets the edge. -/
theorem foreign_chain_resets :
    ∃ es q, Trace (renewCertificate caLibrary plainSettings) es q ∧
      (opensslOf [9]).Answered es ∧ ¬ TrustGate (opensslOf [9]) caLibrary plainSettings es := by
  obtain ⟨log,ps,sm,run,hp⟩ := run_of_schedule renewalMachine
    (fun _ : Bool => renewCertificate caLibrary plainSettings) caStore firstChoices
    (fun x => (localEvents true x.1).any isReset &&
      (localEvents true x.1).all checksProfile &&
      decide ((opensslOf [9]).Answered (localEvents true x.1))) (by rfl)
  rw [Bool.and_eq_true,Bool.and_eq_true] at hp
  obtain ⟨⟨hreset,hchecks⟩,ha⟩ := hp
  refine ⟨_,_,run.trace true,of_decide_eq_true ha,?_⟩
  intro hgate
  obtain ⟨⟨call,r⟩,hmem,hcall⟩ := List.any_eq_true.mp hreset
  cases call with
  | resetInstance =>
    obtain ⟨pre,post,hes⟩ := List.append_of_mem hmem
    obtain ⟨_,_,_,_,trust,_,_,_,hgated⟩ := hgate.reset pre r post hes
    obtain ⟨moment,partialChain,leaf,chain,_,hverify,halone⟩ := hgated.verified
    have hmem : (⟨.opensslVerify partialChain leaf chain trust.pem,.ok 0⟩ : RenewalEvent) ∈
        localEvents true log := by
      rw [hes]
      exact List.mem_append_left _ (List.fst_mem_of_mem_zipIdx hverify)
    have hother : trust.pem ≠ [9] := by
      simpa [checksProfile] using List.all_eq_true.mp hchecks _ hmem
    simp [OpenSsl.verifiesAlone,opensslOf,Ne.symm hother] at halone
  | _ => cases hcall

end Anchors

end Woodhouse.Certificates
